import Minnow.Checksum

set_option autoImplicit false

/-! # ICMP echo messages

`icmp.rs`.
-/

namespace Minnow

def ICMP_ECHO_REPLY : UInt8 := 0
def ICMP_ECHO_REQUEST : UInt8 := 8
def ICMP_ECHO_HEADER_LEN : Nat := 8

structure IcmpMessage where
  icmpType : UInt8
  code : UInt8
  identifier : UInt16
  sequenceNumber : UInt16
  payload : Bytes
  deriving DecidableEq, Repr

inductive IcmpParseError where
  | messageTooShort
  | invalidChecksum
  deriving DecidableEq, Repr

/-- The text of the error in an event, `{:?}`. -/
def IcmpParseError.debug : IcmpParseError → String
  | .messageTooShort => "MessageTooShort"
  | .invalidChecksum => "InvalidChecksum"

namespace IcmpMessage

def echoReplyFromRequest (request : IcmpMessage) : Option IcmpMessage :=
  if request.icmpType ≠ ICMP_ECHO_REQUEST ∨ request.code ≠ 0 then none
  else
    some
      { icmpType := ICMP_ECHO_REPLY
        code := 0
        identifier := request.identifier
        sequenceNumber := request.sequenceNumber
        payload := request.payload }

def parseBytes (bytes : Bytes) : Exec (Except IcmpParseError IcmpMessage) :=
  if bytes.length < ICMP_ECHO_HEADER_LEN then .ok (.error .messageTooShort)
  else do
    let valid ← verifyInternetChecksum bytes
    if !valid then .ok (.error .invalidChecksum)
    else do
      let icmpType ← byteAt bytes 0
      let code ← byteAt bytes 1
      let identifier := u16OfBytes (← byteAt bytes 4) (← byteAt bytes 5)
      let sequenceNumber := u16OfBytes (← byteAt bytes 6) (← byteAt bytes 7)
      let payload ← sliceFrom bytes ICMP_ECHO_HEADER_LEN
      .ok (.ok
        { icmpType := icmpType
          code := code
          identifier := identifier
          sequenceNumber := sequenceNumber
          payload := payload })

def serialize (message : IcmpMessage) : Exec Bytes := do
  let buf :=
    [message.icmpType, message.code] ++ u16Bytes 0 ++ u16Bytes message.identifier ++
      u16Bytes message.sequenceNumber ++ message.payload
  let checksum ← internetChecksum buf
  overwrite buf 2 (u16Bytes checksum)

theorem echoReplyFromRequest_eq_some {request reply : IcmpMessage} :
    request.echoReplyFromRequest = some reply ↔
      request.icmpType = ICMP_ECHO_REQUEST ∧ request.code = 0 ∧
        reply = ⟨ICMP_ECHO_REPLY, 0, request.identifier, request.sequenceNumber,
          request.payload⟩ := by
  unfold echoReplyFromRequest
  split_ifs with hother
  · refine iff_of_false (by simp) ?_
    rintro ⟨htype, hcode, -⟩
    exact hother.elim (fun h => h htype) (fun h => h hcode)
  · rw [not_or, not_not, not_not] at hother
    rw [Option.some.injEq]
    exact ⟨fun h => ⟨hother.1, hother.2, h.symm⟩, fun h => h.2.2.symm⟩

/-! ## What the checksum can add up is parsed or rejected -/

theorem parseBytes_total {bytes : Bytes} (h : wordSum bytes < 2 ^ 32) :
    ∃ result, parseBytes bytes = .ok result ∧ ∀ message, result = .ok message →
      message.payload.length + ICMP_ECHO_HEADER_LEN ≤ bytes.length := by
  unfold parseBytes ICMP_ECHO_HEADER_LEN
  by_cases hshort : bytes.length < 8
  · rw [if_pos hshort]
    exact ⟨_, rfl, by simp⟩
  rw [if_neg hshort, verifyInternetChecksum_eq h, Exec.ok_bind]
  by_cases hvalid : (!(complementSum bytes == 0)) = true
  · rw [if_pos hvalid]
    exact ⟨_, rfl, by simp⟩
  rw [if_neg hvalid]
  simp only [byteAt_of_lt (show 0 < bytes.length by omega),
    byteAt_of_lt (show 1 < bytes.length by omega), byteAt_of_lt (show 4 < bytes.length by omega),
    byteAt_of_lt (show 5 < bytes.length by omega), byteAt_of_lt (show 6 < bytes.length by omega),
    byteAt_of_lt (show 7 < bytes.length by omega), sliceFrom_of_le (Nat.not_lt.mp hshort),
    Exec.ok_bind]
  refine ⟨_, rfl, ?_⟩
  rintro message ⟨⟩
  rw [List.length_drop]
  omega

theorem serialize_total {message : IcmpMessage}
    (h : message.payload.length + ICMP_ECHO_HEADER_LEN ≤ 131070) :
    ∃ bytes, message.serialize = .ok bytes := by
  unfold ICMP_ECHO_HEADER_LEN at h
  unfold serialize
  dsimp only
  set header := [message.icmpType, message.code] ++ u16Bytes 0 ++ u16Bytes message.identifier ++
    u16Bytes message.sequenceNumber with hheader
  have hlen : (header ++ message.payload).length = 8 + message.payload.length := by
    rw [List.length_append]
    rfl
  have hsum := wordSum_lt_of_length (show (header ++ message.payload).length ≤ 131074 by omega)
  have hover : ∀ checksum, 2 + (u16Bytes checksum).length ≤ (header ++ message.payload).length := by
    intro checksum
    have htwo : (u16Bytes checksum).length = 2 := rfl
    omega
  rw [internetChecksum_eq hsum, Exec.ok_bind, overwrite, if_pos (hover _)]
  exact ⟨_, rfl⟩

end IcmpMessage

end Minnow
