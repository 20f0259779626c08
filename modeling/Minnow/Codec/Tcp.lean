import Minnow.Library.Slice
import Minnow.TcpSegment

set_option autoImplicit false

/-! # The wire format of TCP segments

Serializer and parser are two functions that know nothing of each other. `headerFront` and
`wire` write down the format they share: twenty bytes, the checksum at byte 16, and the payload.

* `parseIpv4Bytes_wire`: a segment on the wire whose sum is right is parsed to what it came from.
* `eq_wire`: bytes that are accepted, and use nothing the header has no field for, are such a
  segment.
* `wire_codec`: hence both round trips.
-/

namespace Minnow

namespace TcpSegment

variable {header : TcpHeader} {payload bytes : Bytes} {srcIp dstIp : Ipv4AddrBytes}
  {segment : TcpSegment} {checksum : UInt16}

/-! ## The format -/

/-- The word of the data offset and the flags. -/
def offsetAndFlags (header : TcpHeader) : UInt16 := (5 : UInt16) <<< 12 ||| (header.flags &&& 0x01ff)

/-- The header up to the checksum. -/
def headerFront (header : TcpHeader) : Bytes :=
  u16Bytes header.srcPort ++ u16Bytes header.dstPort ++ u32Bytes header.seqno.rawValue ++
    u32Bytes (header.ackno.elim 0 Wrap32.rawValue) ++ u16Bytes (offsetAndFlags header) ++
    u16Bytes header.windowSize

/-- A segment with the given checksum; the urgent pointer is zero. -/
def wire (header : TcpHeader) (checksum : UInt16) (payload : Bytes) : Bytes :=
  headerFront header ++ u16Bytes checksum ++ (u16Bytes 0 ++ payload)

/-- The sum of the segment with its pseudo-header. -/
def segmentSum (srcIp dstIp : Ipv4AddrBytes) (bytes : Bytes) : UInt16 :=
  complementSum (pseudoHeader srcIp dstIp bytes.length ++ bytes)

theorem length_headerFront (header : TcpHeader) : (headerFront header).length = 16 := rfl

theorem length_wire (header : TcpHeader) (checksum : UInt16) (payload : Bytes) :
    (wire header checksum payload).length = 20 + payload.length := by
  rw [wire, List.length_append, List.length_append, List.length_append, length_headerFront]
  show 16 + 2 + (2 + payload.length) = _
  omega

theorem pseudoHeader_append_wire (header : TcpHeader) (checksum : UInt16) (payload : Bytes) :
    pseudoHeader srcIp dstIp (wire header checksum payload).length ++ wire header checksum payload
      = (pseudoHeader srcIp dstIp (20 + payload.length) ++ headerFront header) ++
          u16Bytes checksum ++ (u16Bytes 0 ++ payload) := by
  rw [length_wire, wire]
  simp only [List.append_assoc]

/-- The checksum that the serializer writes. -/
def checksumFor (srcIp dstIp : Ipv4AddrBytes) (header : TcpHeader) (payload : Bytes) : UInt16 :=
  segmentSum srcIp dstIp (wire header 0 payload)

/-- The checksum stands at an even position behind the pseudo-header. -/
theorem even_before_checksum (srcIp dstIp : Ipv4AddrBytes) (n : Nat) (header : TcpHeader) :
    (pseudoHeader srcIp dstIp n ++ headerFront header).length % 2 = 0 := by
  rw [List.length_append, length_headerFront, length_pseudoHeader]

theorem segmentSum_checksumFor (srcIp dstIp : Ipv4AddrBytes) (header : TcpHeader)
    (payload : Bytes) :
    segmentSum srcIp dstIp (wire header (checksumFor srcIp dstIp header payload) payload) = 0 := by
  unfold checksumFor segmentSum
  rw [pseudoHeader_append_wire, pseudoHeader_append_wire]
  exact complementSum_inserted (even_before_checksum srcIp dstIp _ header)

/-- The pseudo-header alone is not zero: it has the protocol number. -/
theorem checksumFor_of_segmentSum
    (h : segmentSum srcIp dstIp (wire header checksum payload) = 0) :
    checksumFor srcIp dstIp header payload = if checksum = 0xffff then 0 else checksum := by
  unfold checksumFor segmentSum at *
  rw [pseudoHeader_append_wire] at h ⊢
  apply complementSum_of_accepted (even_before_checksum srcIp dstIp _ header) ?_ h
  have hprotocol : 6 ∈ pseudoHeader srcIp dstIp (20 + payload.length) ++ headerFront header ++
      u16Bytes 0 ++ (u16Bytes 0 ++ payload) := by
    simp [pseudoHeader]
  exact wordSum_pos hprotocol (by decide)

/-! ## The serializer -/

theorem overwrite_checksum (header : TcpHeader) (checksum : UInt16) (payload : Bytes) :
    overwrite (wire header 0 payload) 16 (u16Bytes checksum)
      = .ok (wire header checksum payload) := by
  have hsame : (u16Bytes checksum).length = (u16Bytes 0).length := rfl
  rw [wire, ← length_headerFront header, overwrite_middle hsame]
  rfl

theorem serializeIpv4_eq (srcIp dstIp : Ipv4AddrBytes) (h : segment.payload.length ≤ 65515) :
    segment.serializeIpv4 srcIp dstIp
      = .ok (wire segment.header (checksumFor srcIp dstIp segment.header segment.payload)
          segment.payload) := by
  have hbuf : ∀ header : TcpHeader, u16Bytes header.srcPort ++ u16Bytes header.dstPort ++
      u32Bytes header.seqno.rawValue ++ u32Bytes (header.ackno.elim 0 Wrap32.rawValue) ++
      u16Bytes ((5 : UInt16) <<< 12 ||| (header.flags &&& 0x01ff)) ++
      u16Bytes header.windowSize ++ u16Bytes 0 ++ u16Bytes 0
      = headerFront header ++ u16Bytes 0 ++ u16Bytes 0 := fun header => rfl
  have hheader : (headerFront segment.header ++ u16Bytes 0 ++ u16Bytes 0).length = 20 := rfl
  have hwire : headerFront segment.header ++ u16Bytes 0 ++ u16Bytes 0 ++ segment.payload
      = wire segment.header 0 segment.payload := List.append_assoc ..
  have hlen := length_wire segment.header 0 segment.payload
  unfold serializeIpv4 TCP_HEADER_MIN_LEN
  dsimp only
  rw [Exec.assert_pos (by omega), Exec.ok_bind, hbuf, Exec.assert_pos hheader, Exec.ok_bind, hwire,
    tcpChecksumIpv4_eq srcIp dstIp (by omega), Exec.ok_bind, overwrite_checksum]
  rfl

/-! ## The flags

There are sixteen sets of flags, and a byte has 256 values: what the bits say is checked for all
of them. -/

def flagWord (fin syn rst ack : Bool) : UInt16 :=
  let flags : UInt16 := 0
  let flags := if fin then flags ||| TCP_FLAG_FIN else flags
  let flags := if syn then flags ||| TCP_FLAG_SYN else flags
  let flags := if rst then flags ||| TCP_FLAG_RST else flags
  if ack then flags ||| TCP_FLAG_ACK else flags

theorem flags_eq (header : TcpHeader) :
    header.flags = flagWord header.fin header.syn header.rst header.ackno.isSome := rfl

theorem flagWord_read : ∀ fin syn rst ack : Bool,
    ((5 : UInt16) <<< 12 ||| (flagWord fin syn rst ack &&& 0x01ff)) &&& 0x01ff
        = flagWord fin syn rst ack ∧
      (flagWord fin syn rst ack &&& TCP_FLAG_ACK ≠ 0 ↔ ack = true) ∧
      decide (flagWord fin syn rst ack &&& TCP_FLAG_SYN ≠ 0) = syn ∧
      decide (flagWord fin syn rst ack &&& TCP_FLAG_FIN ≠ 0) = fin ∧
      decide (flagWord fin syn rst ack &&& TCP_FLAG_RST ≠ 0) = rst := by
  decide

theorem dataOffset_read : ∀ fin syn rst ack : Bool,
    (((5 : UInt16) <<< 12 ||| (flagWord fin syn rst ack &&& 0x01ff)) >>> 8).toUInt8 >>> 4 = 5 := by
  decide

/-- A byte without other bits is the low byte of the word of the flags read from it. -/
theorem flagWord_written {b : UInt8} (h : b &&& 0xe8 = 0) :
    (5 : UInt16) <<< 12 ||| (flagWord (decide (b &&& 0x01 ≠ 0)) (decide (b &&& 0x02 ≠ 0))
        (decide (b &&& 0x04 ≠ 0)) (decide (b &&& 0x10 ≠ 0)) &&& 0x01ff) = u16OfBytes 0x50 b := by
  have hall : ∀ n < 256, UInt8.ofNat n &&& 0xe8 = 0 →
      (5 : UInt16) <<< 12 ||| (flagWord (decide (UInt8.ofNat n &&& 0x01 ≠ 0))
        (decide (UInt8.ofNat n &&& 0x02 ≠ 0)) (decide (UInt8.ofNat n &&& 0x04 ≠ 0))
        (decide (UInt8.ofNat n &&& 0x10 ≠ 0)) &&& 0x01ff) = u16OfBytes 0x50 (UInt8.ofNat n) := by
    decide +kernel
  have hb := hall b.toNat b.toNat_lt
  rw [UInt8.ofNat_toNat] at hb
  exact hb h

/-! ## The parser -/

theorem parseIpv4Bytes_wire (hlen : payload.length ≤ 65515)
    (hsum : segmentSum srcIp dstIp (wire header checksum payload) = 0) :
    parseIpv4Bytes srcIp dstIp (wire header checksum payload) = .ok (.ok ⟨header, payload⟩) := by
  have hwire := length_wire header checksum payload
  have hdrop : (wire header checksum payload).drop 20 = payload := by
    have hfront : (headerFront header ++ u16Bytes checksum ++ u16Bytes 0).length = 20 := rfl
    rw [wire, ← List.append_assoc]
    exact List.drop_left' hfront
  have hread := flagWord_read header.fin header.syn header.rst header.ackno.isSome
  rw [← flags_eq] at hread
  have hoffset : ((offsetAndFlags header >>> 8).toUInt8 >>> 4).toNat * 4 = 20 := by
    rw [offsetAndFlags, flags_eq, dataOffset_read]
    rfl
  set bytes := wire header checksum payload with hbytes
  -- the bytes of the header, one by one
  have h0 : byteAt bytes 0 = .ok (header.srcPort >>> 8).toUInt8 := rfl
  have h1 : byteAt bytes 1 = .ok header.srcPort.toUInt8 := rfl
  have h2 : byteAt bytes 2 = .ok (header.dstPort >>> 8).toUInt8 := rfl
  have h3 : byteAt bytes 3 = .ok header.dstPort.toUInt8 := rfl
  have h4 : byteAt bytes 4 = .ok (header.seqno.rawValue >>> 24).toUInt8 := rfl
  have h5 : byteAt bytes 5 = .ok (header.seqno.rawValue >>> 16).toUInt8 := rfl
  have h6 : byteAt bytes 6 = .ok (header.seqno.rawValue >>> 8).toUInt8 := rfl
  have h7 : byteAt bytes 7 = .ok header.seqno.rawValue.toUInt8 := rfl
  have h8 : byteAt bytes 8 = .ok ((header.ackno.elim 0 Wrap32.rawValue) >>> 24).toUInt8 := rfl
  have h9 : byteAt bytes 9 = .ok ((header.ackno.elim 0 Wrap32.rawValue) >>> 16).toUInt8 := rfl
  have h10 : byteAt bytes 10 = .ok ((header.ackno.elim 0 Wrap32.rawValue) >>> 8).toUInt8 := rfl
  have h11 : byteAt bytes 11 = .ok (header.ackno.elim 0 Wrap32.rawValue).toUInt8 := rfl
  have h12 : byteAt bytes 12 = .ok (offsetAndFlags header >>> 8).toUInt8 := rfl
  have h13 : byteAt bytes 13 = .ok (offsetAndFlags header).toUInt8 := rfl
  have h14 : byteAt bytes 14 = .ok (header.windowSize >>> 8).toUInt8 := rfl
  have h15 : byteAt bytes 15 = .ok header.windowSize.toUInt8 := rfl
  have hpayload : sliceFrom bytes 20 = .ok payload := by
    rw [sliceFrom_of_le (by omega), hdrop]
  have hackno : (if header.flags &&& TCP_FLAG_ACK ≠ 0 then
      some (Wrap32.mk (header.ackno.elim 0 Wrap32.rawValue)) else none) = header.ackno := by
    cases hack : header.ackno with
    | none =>
        rw [if_neg]
        rw [hread.2.1, hack]
        exact Bool.false_ne_true
    | some ackno =>
        rw [if_pos]
        · rfl
        · rw [hread.2.1, hack]
          rfl
  unfold parseIpv4Bytes TCP_HEADER_MIN_LEN
  rw [if_neg (by omega), tcpChecksumIpv4_eq srcIp dstIp (by omega), Exec.ok_bind]
  rw [segmentSum] at hsum
  rw [hsum, if_neg (not_not.mpr rfl), h12, Exec.ok_bind]
  simp only [hoffset]
  rw [if_neg (by omega)]
  simp only [h0, h1, h2, h3, h4, h5, h6, h7, h8, h9, h10, h11, h13, h14, h15, hpayload,
    Exec.ok_bind, u16OfBytes_u16Bytes, u32OfBytes_u32Bytes]
  rw [offsetAndFlags, hread.1, hackno, hread.2.2.1, hread.2.2.2.1, hread.2.2.2.2]

theorem accepted_of_parse (hlen : bytes.length ≤ 65535)
    (h : parseIpv4Bytes srcIp dstIp bytes = .ok (.ok segment)) :
    20 ≤ bytes.length ∧ segmentSum srcIp dstIp bytes = 0 := by
  unfold parseIpv4Bytes TCP_HEADER_MIN_LEN at h
  by_cases hshort : bytes.length < 20
  · rw [if_pos hshort] at h
    cases h
  rw [if_neg hshort, tcpChecksumIpv4_eq srcIp dstIp hlen, Exec.ok_bind] at h
  by_cases hsum : complementSum (pseudoHeader srcIp dstIp bytes.length ++ bytes) ≠ 0
  · rw [if_pos hsum] at h
    cases h
  exact ⟨Nat.not_lt.mp hshort, not_not.mp hsum⟩

/-! ## Bytes that a header can hold -/

/-- The bytes use nothing that `TcpHeader` has no field for: no options, no flags but the four,
no urgent pointer, and no ackno without its flag. -/
structure Expressible (bytes : Bytes) : Prop where
  dataOffset : bytes.getD 12 0 >>> 4 = 5
  reserved : bytes.getD 12 0 &&& 0x0f = 0
  flags : bytes.getD 13 0 &&& 0xe8 = 0
  urgent : bytes.getD 18 0 = 0 ∧ bytes.getD 19 0 = 0
  ackno : bytes.getD 13 0 &&& 0x10 = 0 →
    bytes.getD 8 0 = 0 ∧ bytes.getD 9 0 = 0 ∧ bytes.getD 10 0 = 0 ∧ bytes.getD 11 0 = 0

def headerOf (bytes : Bytes) : TcpHeader where
  srcPort := u16OfBytes (bytes.getD 0 0) (bytes.getD 1 0)
  dstPort := u16OfBytes (bytes.getD 2 0) (bytes.getD 3 0)
  seqno := ⟨u32OfBytes (bytes.getD 4 0) (bytes.getD 5 0) (bytes.getD 6 0) (bytes.getD 7 0)⟩
  ackno := if bytes.getD 13 0 &&& 0x10 ≠ 0 then
      some ⟨u32OfBytes (bytes.getD 8 0) (bytes.getD 9 0) (bytes.getD 10 0) (bytes.getD 11 0)⟩
    else none
  windowSize := u16OfBytes (bytes.getD 14 0) (bytes.getD 15 0)
  syn := decide (bytes.getD 13 0 &&& 0x02 ≠ 0)
  fin := decide (bytes.getD 13 0 &&& 0x01 ≠ 0)
  rst := decide (bytes.getD 13 0 &&& 0x04 ≠ 0)

namespace Expressible

variable (h : Expressible bytes)
include h

theorem byte_twelve : bytes.getD 12 0 = 0x50 := by
  have hhigh : (bytes.getD 12 0).toNat / 16 = 5 := by
    rw [← toNat_highNibble, h.dataOffset]
    rfl
  have hlow : (bytes.getD 12 0).toNat % 16 = 0 := by
    rw [← toNat_lowNibble, h.reserved]
    rfl
  apply UInt8.toNat_inj.mp
  show (bytes.getD 12 0).toNat = 80
  omega

theorem offsetAndFlags_headerOf :
    u16Bytes (offsetAndFlags (headerOf bytes)) = [bytes.getD 12 0, bytes.getD 13 0] := by
  have hack : (headerOf bytes).ackno.isSome = decide (bytes.getD 13 0 &&& 0x10 ≠ 0) := by
    unfold headerOf
    by_cases hbit : bytes.getD 13 0 &&& 0x10 ≠ 0
    · rw [if_pos hbit, decide_eq_true hbit]
      rfl
    · rw [if_neg hbit, decide_eq_false hbit]
      rfl
  rw [offsetAndFlags, flags_eq, hack, headerOf, flagWord_written h.flags, u16Bytes_u16OfBytes,
    h.byte_twelve]

theorem ackno_headerOf : u32Bytes ((headerOf bytes).ackno.elim 0 Wrap32.rawValue)
    = [bytes.getD 8 0, bytes.getD 9 0, bytes.getD 10 0, bytes.getD 11 0] := by
  unfold headerOf
  by_cases hbit : bytes.getD 13 0 &&& 0x10 ≠ 0
  · rw [if_pos hbit]
    exact u32Bytes_u32OfBytes _ _ _ _
  · obtain ⟨h8, h9, h10, h11⟩ := h.ackno (not_not.mp hbit)
    rw [if_neg hbit, h8, h9, h10, h11]
    show u32Bytes 0 = [0, 0, 0, 0]
    decide

/-- Such bytes are the wire format of the header that is read from them. -/
theorem eq_wire (hlen : 20 ≤ bytes.length) : bytes
    = wire (headerOf bytes) (u16OfBytes (bytes.getD 16 0) (bytes.getD 17 0)) (bytes.drop 20) := by
  have hurgent : u16Bytes 0 = [bytes.getD 18 0, bytes.getD 19 0] := by
    rw [h.urgent.1, h.urgent.2]
    rfl
  calc bytes
      = bytes.take 20 ++ bytes.drop 20 := (List.take_append_drop 20 bytes).symm
    _ = (List.range 20).map (fun i => bytes.getD i 0) ++ bytes.drop 20 := by
        rw [List.take_eq_map_getD hlen 0]
    _ = wire (headerOf bytes) (u16OfBytes (bytes.getD 16 0) (bytes.getD 17 0))
          (bytes.drop 20) := by
        rw [wire, headerFront, h.offsetAndFlags_headerOf, h.ackno_headerOf, hurgent]
        simp only [headerOf, u16Bytes_u16OfBytes, u32Bytes_u32OfBytes]
        rfl

end Expressible

/-! ## Both round trips -/

theorem parse_serialize (srcIp dstIp : Ipv4AddrBytes) (h : segment.payload.length ≤ 65515) :
    ∃ bytes, segment.serializeIpv4 srcIp dstIp = .ok bytes ∧
      parseIpv4Bytes srcIp dstIp bytes = .ok (.ok segment) :=
  ⟨_, serializeIpv4_eq srcIp dstIp h, parseIpv4Bytes_wire h (segmentSum_checksumFor _ _ _ _)⟩

theorem serialize_parse (hlen : bytes.length ≤ 65535) (hbytes : Expressible bytes)
    (h : parseIpv4Bytes srcIp dstIp bytes = .ok (.ok segment)) :
    segment.serializeIpv4 srcIp dstIp = .ok (canonicalChecksum 16 bytes) := by
  obtain ⟨hmin, hsum⟩ := accepted_of_parse hlen h
  have hpayload : (bytes.drop 20).length ≤ 65515 := by
    rw [List.length_drop]
    omega
  have heq := hbytes.eq_wire hmin
  set header := headerOf bytes with hheader
  set checksum := u16OfBytes (bytes.getD 16 0) (bytes.getD 17 0) with hchecksum
  set payload := bytes.drop 20 with hdrop
  rw [heq] at h hsum
  rw [parseIpv4Bytes_wire hpayload hsum, Except.ok.injEq, Except.ok.injEq] at h
  subst h
  have hcanonical := canonicalChecksum_append (headerFront header) (u16Bytes 0 ++ payload) checksum
  rw [length_headerFront] at hcanonical
  rw [serializeIpv4_eq srcIp dstIp hpayload, checksumFor_of_segmentSum hsum, heq, wire, wire,
    hcanonical]

/-- Segments survive the wire, and so do the two messages of a segment except that they share
one RST flag. Bytes that are accepted and use only the fields of the header are written back as
they were, with the checksum in the form the serializer writes. -/
theorem wire_codec (srcIp dstIp : Ipv4AddrBytes) :
    (∀ segment : TcpSegment, segment.payload.length ≤ 65515 →
      ∃ bytes, segment.serializeIpv4 srcIp dstIp = .ok bytes ∧
        parseIpv4Bytes srcIp dstIp bytes = .ok (.ok segment)) ∧
    (∀ (srcPort dstPort : UInt16) (sender : TcpSenderMessage) (receiver : TcpReceiverMessage),
      sender.payload.length ≤ 65515 →
      ∃ bytes segment,
        (fromMessages srcPort dstPort sender (some receiver)).serializeIpv4 srcIp dstIp
          = .ok bytes ∧
        parseIpv4Bytes srcIp dstIp bytes = .ok (.ok segment) ∧
        segment.toSenderMessage = { sender with rst := sender.rst || receiver.rst } ∧
        segment.toReceiverMessage = { receiver with rst := sender.rst || receiver.rst }) ∧
    ∀ (bytes : Bytes) (segment : TcpSegment), bytes.length ≤ 65535 →
      parseIpv4Bytes srcIp dstIp bytes = .ok (.ok segment) → Expressible bytes →
      segment.serializeIpv4 srcIp dstIp = .ok (canonicalChecksum 16 bytes) := by
  refine ⟨fun segment => parse_serialize srcIp dstIp, ?_, ?_⟩
  · intro srcPort dstPort sender receiver hlen
    have hpayload : (fromMessages srcPort dstPort sender (some receiver)).payload.length ≤ 65515 :=
      hlen
    obtain ⟨bytes, hserialize, hparse⟩ := parse_serialize srcIp dstIp hpayload
    exact ⟨bytes, _, hserialize, hparse, toSenderMessage_fromMessages,
      toReceiverMessage_fromMessages⟩
  · intro bytes segment hlen hparse hbytes
    exact serialize_parse hlen hbytes hparse

/-- Two letters with FIN from port 4000 to port 80, and the answer to the other direction with
RST. -/
def sampleSender : TcpSenderMessage := ⟨⟨1000⟩, false, [104, 105], true, false⟩

def sampleReceiver : TcpReceiverMessage := ⟨some ⟨77⟩, 500, true⟩

/-- The sample makes the whole round trip, and both messages come out with RST. A segment whose
sum is zero is accepted with either form of the checksum and written back with the zeros. -/
theorem wire_codec_all_ones :
    (∃ bytes segment,
      (fromMessages 4000 80 sampleSender (some sampleReceiver)).serializeIpv4 ⟨10, 0, 0, 1⟩
        ⟨10, 0, 0, 2⟩ = .ok bytes ∧
      bytes = [15, 160, 0, 80, 0, 0, 3, 232, 0, 0, 0, 77, 0x50, 0x15, 1, 244, 29, 73, 0, 0,
        104, 105] ∧
      parseIpv4Bytes ⟨10, 0, 0, 1⟩ ⟨10, 0, 0, 2⟩ bytes = .ok (.ok segment) ∧
      segment.toSenderMessage = { sampleSender with rst := true } ∧
      segment.toReceiverMessage = sampleReceiver) ∧
    (∃ bytes, (TcpSegment.mk ⟨0, 0, ⟨0⟩, none, 0xafe5, false, false, false⟩ []).serializeIpv4
        ⟨0, 0, 0, 0⟩ ⟨0, 0, 0, 0⟩ = .ok bytes ∧ parseIpv4Bytes ⟨0, 0, 0, 0⟩ ⟨0, 0, 0, 0⟩ bytes
        = .ok (.ok ⟨⟨0, 0, ⟨0⟩, none, 0xafe5, false, false, false⟩, []⟩)) ∧
    (TcpSegment.mk ⟨0, 0, ⟨0⟩, none, 0xafe5, false, false, false⟩ []).serializeIpv4
        ⟨0, 0, 0, 0⟩ ⟨0, 0, 0, 0⟩
      = .ok [0, 0, 0, 0, 0, 0, 0, 0, 0, 0, 0, 0, 0x50, 0, 0xaf, 0xe5, 0, 0, 0, 0] := by
  refine ⟨?_, (wire_codec ⟨0, 0, 0, 0⟩ ⟨0, 0, 0, 0⟩).1 _ (by decide), ?_⟩
  · obtain ⟨bytes, segment, hbytes, hparse, hsender, hreceiver⟩ :=
      (wire_codec ⟨10, 0, 0, 1⟩ ⟨10, 0, 0, 2⟩).2.1 4000 80 sampleSender sampleReceiver (by decide)
    have hwire : (fromMessages 4000 80 sampleSender (some sampleReceiver)).serializeIpv4
        ⟨10, 0, 0, 1⟩ ⟨10, 0, 0, 2⟩ = .ok [15, 160, 0, 80, 0, 0, 3, 232, 0, 0, 0, 77, 0x50, 0x15,
          1, 244, 29, 73, 0, 0, 104, 105] := by
      decide +kernel
    rw [hbytes, Except.ok.injEq] at hwire
    exact ⟨bytes, segment, hbytes, hwire, hparse, hsender, hreceiver⟩
  · exact (wire_codec ⟨0, 0, 0, 0⟩ ⟨0, 0, 0, 0⟩).2.2
      [0, 0, 0, 0, 0, 0, 0, 0, 0, 0, 0, 0, 0x50, 0, 0xaf, 0xe5, 0xff, 0xff, 0, 0] _ (by decide)
      (by decide +kernel) ⟨by decide, by decide, by decide, by decide, by decide⟩

end TcpSegment

end Minnow
