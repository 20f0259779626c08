import Minnow.Checksum
import Minnow.TcpMessage

set_option autoImplicit false

/-! # TCP segments

`tcp_segment.rs`: a segment carries a sender message in one direction and receiver feedback
for the other one. There is one RST flag for both. On the wire a segment is a header of at
least twenty bytes and the payload, under a checksum.
-/

namespace Minnow

def TCP_HEADER_MIN_LEN : Nat := 20

def TCP_FLAG_FIN : UInt16 := 0x001
def TCP_FLAG_SYN : UInt16 := 0x002
def TCP_FLAG_RST : UInt16 := 0x004
def TCP_FLAG_ACK : UInt16 := 0x010

structure TcpHeader where
  srcPort : UInt16
  dstPort : UInt16
  seqno : Wrap32
  ackno : Option Wrap32
  windowSize : UInt16
  syn : Bool
  fin : Bool
  rst : Bool
  deriving DecidableEq, Repr

def TcpHeader.flags (header : TcpHeader) : UInt16 :=
  let flags : UInt16 := 0
  let flags := if header.fin then flags ||| TCP_FLAG_FIN else flags
  let flags := if header.syn then flags ||| TCP_FLAG_SYN else flags
  let flags := if header.rst then flags ||| TCP_FLAG_RST else flags
  if header.ackno.isSome then flags ||| TCP_FLAG_ACK else flags

inductive TcpParseError where
  | segmentTooShort
  | invalidDataOffset
  | invalidChecksum
  deriving DecidableEq, Repr

/-- The text of the error in an event, `{:?}`. -/
def TcpParseError.debug : TcpParseError → String
  | .segmentTooShort => "SegmentTooShort"
  | .invalidDataOffset => "InvalidDataOffset"
  | .invalidChecksum => "InvalidChecksum"

structure TcpSegment where
  header : TcpHeader
  payload : Bytes
  deriving DecidableEq, Repr

namespace TcpSegment

def fromMessages (srcPort dstPort : UInt16) (sender : TcpSenderMessage)
    (receiver : Option TcpReceiverMessage) : TcpSegment where
  header :=
    { srcPort := srcPort
      dstPort := dstPort
      seqno := sender.seqno
      ackno := receiver.bind TcpReceiverMessage.ackno
      windowSize := receiver.elim 0 TcpReceiverMessage.windowSize
      syn := sender.syn
      fin := sender.fin
      rst := sender.rst || receiver.any TcpReceiverMessage.rst }
  payload := sender.payload

def toSenderMessage (segment : TcpSegment) : TcpSenderMessage where
  seqno := segment.header.seqno
  syn := segment.header.syn
  payload := segment.payload
  fin := segment.header.fin
  rst := segment.header.rst

def toReceiverMessage (segment : TcpSegment) : TcpReceiverMessage where
  ackno := segment.header.ackno
  windowSize := segment.header.windowSize
  rst := segment.header.rst

/-! ## On the wire -/

def serializeIpv4 (segment : TcpSegment) (srcIp dstIp : Ipv4AddrBytes) : Exec Bytes := do
  let tcpLen := TCP_HEADER_MIN_LEN + segment.payload.length
  Exec.assert (tcpLen ≤ 65535)
  let dataOffset : UInt16 := 5
  let offsetAndFlags := dataOffset <<< 12 ||| (segment.header.flags &&& 0x01ff)
  let buf :=
    u16Bytes segment.header.srcPort ++ u16Bytes segment.header.dstPort ++
    u32Bytes segment.header.seqno.rawValue ++
    u32Bytes (segment.header.ackno.elim 0 Wrap32.rawValue) ++
    u16Bytes offsetAndFlags ++ u16Bytes segment.header.windowSize ++
    u16Bytes 0 ++ u16Bytes 0
  Exec.assert (buf.length = TCP_HEADER_MIN_LEN)
  let buf := buf ++ segment.payload
  let checksum ← tcpChecksumIpv4 srcIp dstIp buf
  overwrite buf 16 (u16Bytes checksum)

def parseIpv4Bytes (srcIp dstIp : Ipv4AddrBytes) (segment : Bytes) :
    Exec (Except TcpParseError TcpSegment) :=
  if segment.length < TCP_HEADER_MIN_LEN then .ok (.error .segmentTooShort)
  else do
    let checksum ← tcpChecksumIpv4 srcIp dstIp segment
    if checksum ≠ 0 then .ok (.error .invalidChecksum)
    else do
      let b12 ← byteAt segment 12
      let headerLen := (b12 >>> 4).toNat * 4
      if headerLen < TCP_HEADER_MIN_LEN ∨ segment.length < headerLen then
        .ok (.error .invalidDataOffset)
      else do
        let srcPort := u16OfBytes (← byteAt segment 0) (← byteAt segment 1)
        let dstPort := u16OfBytes (← byteAt segment 2) (← byteAt segment 3)
        let seqno : Wrap32 :=
          ⟨u32OfBytes (← byteAt segment 4) (← byteAt segment 5) (← byteAt segment 6)
            (← byteAt segment 7)⟩
        let rawAckno := u32OfBytes (← byteAt segment 8) (← byteAt segment 9)
          (← byteAt segment 10) (← byteAt segment 11)
        let flags := u16OfBytes (← byteAt segment 12) (← byteAt segment 13) &&& 0x01ff
        let windowSize := u16OfBytes (← byteAt segment 14) (← byteAt segment 15)
        let payload ← sliceFrom segment headerLen
        .ok (.ok
          { header :=
              { srcPort := srcPort
                dstPort := dstPort
                seqno := seqno
                ackno := if flags &&& TCP_FLAG_ACK ≠ 0 then some ⟨rawAckno⟩ else none
                windowSize := windowSize
                syn := decide (flags &&& TCP_FLAG_SYN ≠ 0)
                fin := decide (flags &&& TCP_FLAG_FIN ≠ 0)
                rst := decide (flags &&& TCP_FLAG_RST ≠ 0) }
            payload := payload })

def parseIpv4 (srcIp dstIp : Ipv4AddrBytes) (segment : Bytes) :
    Exec (Except TcpParseError TcpSegment) :=
  parseIpv4Bytes srcIp dstIp segment

variable {srcPort dstPort : UInt16} {sender : TcpSenderMessage} {receiver : TcpReceiverMessage}

theorem toSenderMessage_fromMessages :
    (fromMessages srcPort dstPort sender (some receiver)).toSenderMessage
      = { sender with rst := sender.rst || receiver.rst } := rfl

theorem toReceiverMessage_fromMessages :
    (fromMessages srcPort dstPort sender (some receiver)).toReceiverMessage
      = { receiver with rst := sender.rst || receiver.rst } := rfl

/-! ## Any bytes are parsed or rejected -/

/-- The parser stops on no input that fits in a datagram. -/
theorem parseIpv4Bytes_total (srcIp dstIp : Ipv4AddrBytes) {bytes : Bytes}
    (h : bytes.length ≤ 65535) : ∃ result, parseIpv4Bytes srcIp dstIp bytes = .ok result ∧
      ∀ segment, result = .ok segment → segment.payload.length ≤ bytes.length := by
  unfold parseIpv4Bytes TCP_HEADER_MIN_LEN
  by_cases hshort : bytes.length < 20
  · rw [if_pos hshort]
    exact ⟨_, rfl, by simp⟩
  rw [if_neg hshort, tcpChecksumIpv4_eq srcIp dstIp h, Exec.ok_bind]
  by_cases hchecksum : complementSum (pseudoHeader srcIp dstIp bytes.length ++ bytes) ≠ 0
  · rw [if_pos hchecksum]
    exact ⟨_, rfl, by simp⟩
  rw [if_neg hchecksum, byteAt_of_lt (show 12 < bytes.length by omega), Exec.ok_bind]
  by_cases hheader : (bytes.getD 12 0 >>> 4).toNat * 4 < 20 ∨
      bytes.length < (bytes.getD 12 0 >>> 4).toNat * 4
  · simp only [if_pos hheader]
    exact ⟨_, rfl, by simp⟩
  simp only [if_neg hheader]
  rw [not_or, Nat.not_lt, Nat.not_lt] at hheader
  simp only [byteAt_of_lt (show 0 < bytes.length by omega),
    byteAt_of_lt (show 1 < bytes.length by omega), byteAt_of_lt (show 2 < bytes.length by omega),
    byteAt_of_lt (show 3 < bytes.length by omega), byteAt_of_lt (show 4 < bytes.length by omega),
    byteAt_of_lt (show 5 < bytes.length by omega), byteAt_of_lt (show 6 < bytes.length by omega),
    byteAt_of_lt (show 7 < bytes.length by omega), byteAt_of_lt (show 8 < bytes.length by omega),
    byteAt_of_lt (show 9 < bytes.length by omega), byteAt_of_lt (show 10 < bytes.length by omega),
    byteAt_of_lt (show 11 < bytes.length by omega),
    byteAt_of_lt (show 13 < bytes.length by omega), byteAt_of_lt (show 14 < bytes.length by omega),
    byteAt_of_lt (show 15 < bytes.length by omega), sliceFrom_of_le hheader.2, Exec.ok_bind]
  refine ⟨_, rfl, ?_⟩
  rintro segment ⟨⟩
  rw [List.length_drop]
  omega

/-- A segment that fits in a datagram is serialized. -/
theorem serializeIpv4_total (segment : TcpSegment) (srcIp dstIp : Ipv4AddrBytes)
    (h : TCP_HEADER_MIN_LEN + segment.payload.length ≤ 65535) :
    ∃ bytes, segment.serializeIpv4 srcIp dstIp = .ok bytes := by
  unfold serializeIpv4
  dsimp only
  rw [Exec.assert_pos h, Exec.ok_bind]
  unfold TCP_HEADER_MIN_LEN at h ⊢
  set buf := u16Bytes segment.header.srcPort ++ u16Bytes segment.header.dstPort ++
    u32Bytes segment.header.seqno.rawValue ++
    u32Bytes (segment.header.ackno.elim 0 Wrap32.rawValue) ++
    u16Bytes ((5 : UInt16) <<< 12 ||| (segment.header.flags &&& 0x01ff)) ++
    u16Bytes segment.header.windowSize ++ u16Bytes 0 ++ u16Bytes 0 with hbuf
  have hlen : buf.length = 20 := rfl
  have hall : (buf ++ segment.payload).length = 20 + segment.payload.length := by
    rw [List.length_append, hlen]
  rw [Exec.assert_pos hlen, Exec.ok_bind, tcpChecksumIpv4_eq srcIp dstIp (by omega), Exec.ok_bind]
  have hover : ∀ checksum, 16 + (u16Bytes checksum).length ≤ (buf ++ segment.payload).length := by
    intro checksum
    have htwo : (u16Bytes checksum).length = 2 := rfl
    omega
  rw [overwrite, if_pos (hover _)]
  exact ⟨_, rfl⟩

end TcpSegment

end Minnow
