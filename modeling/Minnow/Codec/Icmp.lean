import Minnow.Checksum.Rfc1071
import Minnow.IcmpMessage

set_option autoImplicit false

/-! # The wire format of ICMP messages

The checksum of a message covers all of it, so it is filled in last, over the zero word it was
computed with. Whenever the serializer returns, the parser reads the message back:
`parseBytes_serialize`.
-/

namespace Minnow

namespace IcmpMessage

variable {message : IcmpMessage} {bytes : Bytes}

/-- The bytes of a message with the given checksum. -/
def wire (message : IcmpMessage) (checksum : UInt16) : Bytes :=
  [message.icmpType, message.code] ++ u16Bytes checksum ++
    (u16Bytes message.identifier ++ u16Bytes message.sequenceNumber ++ message.payload)

theorem length_wire (message : IcmpMessage) (checksum : UInt16) :
    (message.wire checksum).length = ICMP_ECHO_HEADER_LEN + message.payload.length := by
  simp only [wire, List.length_append]
  show 2 + 2 + (2 + 2 + message.payload.length) = 8 + message.payload.length
  omega

theorem serialize_eq_ok : message.serialize = .ok bytes ↔
    ∃ checksum, internetChecksum (message.wire 0) = .ok checksum ∧
      bytes = message.wire checksum := by
  have hbuf : [message.icmpType, message.code] ++ u16Bytes 0 ++ u16Bytes message.identifier ++
      u16Bytes message.sequenceNumber ++ message.payload = message.wire 0 := by
    simp only [wire, List.append_assoc]
  have hover : ∀ checksum,
      overwrite (message.wire 0) 2 (u16Bytes checksum) = .ok (message.wire checksum) :=
    fun checksum => overwrite_middle rfl
  unfold serialize
  dsimp only
  rw [hbuf, Exec.bind_eq_ok]
  simp only [hover, Except.ok.injEq, eq_comm]

theorem length_serialize (h : message.serialize = .ok bytes) :
    bytes.length = ICMP_ECHO_HEADER_LEN + message.payload.length := by
  obtain ⟨checksum, -, rfl⟩ := serialize_eq_ok.mp h
  exact length_wire message checksum

/-- What is serialized is parsed again. -/
theorem parseBytes_serialize (h : message.serialize = .ok bytes) :
    parseBytes bytes = .ok (.ok message) := by
  obtain ⟨checksum, hchecksum, rfl⟩ := serialize_eq_ok.mp h
  have hvalid : verifyInternetChecksum (message.wire checksum) = .ok true :=
    verifyInternetChecksum_inserted (show 2 % 2 = 0 from rfl) hchecksum
  have hlong : ¬ (message.wire checksum).length < ICMP_ECHO_HEADER_LEN := by
    rw [length_wire]
    omega
  rw [parseBytes, if_neg hlong, hvalid, Exec.ok_bind]
  obtain ⟨icmpType, code, identifier, sequenceNumber, payload⟩ := message
  simp [wire, u16Bytes, byteAt, sliceFrom, ICMP_ECHO_HEADER_LEN]

example : serialize ⟨0, 0, 0, 0, []⟩ = .ok [0, 0, 0xff, 0xff, 0, 0, 0, 0] := by decide +kernel

end IcmpMessage

end Minnow
