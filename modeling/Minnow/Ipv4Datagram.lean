import Minnow.Checksum

set_option autoImplicit false

/-! # IPv4 datagrams

`ipv4_datagram.rs`: the header without options, the serializer and the parser.

* `parseBytes_cases`: any bytes are parsed or rejected.
* `parseBytes_eq_ok`: which ones are accepted.
* `parseBytes_serialize_append`: what is serialized is parsed again, whatever padding follows it.
-/

namespace Minnow

def IPV4_HEADER_MIN_LEN : Nat := 20
def IPV4_PROTOCOL_ICMP : UInt8 := 1
def IPV4_PROTOCOL_TCP : UInt8 := 6

structure Ipv4Header where
  src : Ipv4AddrBytes
  dst : Ipv4AddrBytes
  ttl : UInt8
  protocol : UInt8
  identification : UInt16
  flagsFragmentOffset : UInt16
  deriving DecidableEq, Repr

def Ipv4Header.new (src dst : Ipv4AddrBytes) (protocol : UInt8) : Ipv4Header where
  src := src
  dst := dst
  ttl := 64
  protocol := protocol
  identification := 0
  flagsFragmentOffset := 0x4000

structure Ipv4Datagram where
  header : Ipv4Header
  payload : Bytes
  deriving DecidableEq, Repr

inductive Ipv4ParseError where
  | packetTooShort
  | notIpv4
  | invalidHeaderLength
  | invalidTotalLength
  | invalidChecksum
  deriving DecidableEq, Repr

/-- The text of the error in an event, `{:?}`. -/
def Ipv4ParseError.debug : Ipv4ParseError → String
  | .packetTooShort => "PacketTooShort"
  | .notIpv4 => "NotIpv4"
  | .invalidHeaderLength => "InvalidHeaderLength"
  | .invalidTotalLength => "InvalidTotalLength"
  | .invalidChecksum => "InvalidChecksum"

namespace Ipv4Datagram

def new (src dst : Ipv4AddrBytes) (protocol : UInt8) (payload : Bytes) : Ipv4Datagram where
  header := Ipv4Header.new src dst protocol
  payload := payload

def newTcp (src dst : Ipv4AddrBytes) (payload : Bytes) : Ipv4Datagram :=
  new src dst IPV4_PROTOCOL_TCP payload

def newIcmp (src dst : Ipv4AddrBytes) (payload : Bytes) : Ipv4Datagram :=
  new src dst IPV4_PROTOCOL_ICMP payload

def serialize (datagram : Ipv4Datagram) : Exec Bytes := do
  let totalLen ← Exec.expect (checkedAdd IPV4_HEADER_MIN_LEN datagram.payload.length)
  Exec.assert (totalLen ≤ 65535)
  let versionIhl : UInt8 := (4 : UInt8) <<< 4 ||| 5
  let buf :=
    [versionIhl] ++ [0] ++ u16Bytes (UInt16.ofNat totalLen) ++
      u16Bytes datagram.header.identification ++ u16Bytes datagram.header.flagsFragmentOffset ++
      [datagram.header.ttl] ++ [datagram.header.protocol] ++ u16Bytes 0 ++
      datagram.header.src.octets ++ datagram.header.dst.octets
  Exec.assert (buf.length = IPV4_HEADER_MIN_LEN)
  let checksum ← internetChecksum (← sliceRange buf 0 IPV4_HEADER_MIN_LEN)
  let buf ← overwrite buf 10 (u16Bytes checksum)
  .ok (buf ++ datagram.payload)

def parseBytes (packet : Bytes) : Exec (Except Ipv4ParseError Ipv4Datagram) :=
  if packet.length < IPV4_HEADER_MIN_LEN then .ok (.error .packetTooShort)
  else do
    let versionIhl ← byteAt packet 0
    if versionIhl >>> 4 ≠ 4 then .ok (.error .notIpv4)
    else
      let headerLen := (versionIhl &&& 0x0f).toNat * 4
      if headerLen < IPV4_HEADER_MIN_LEN ∨ packet.length < headerLen then
        .ok (.error .invalidHeaderLength)
      else do
        let totalLen := (u16OfBytes (← byteAt packet 2) (← byteAt packet 3)).toNat
        if totalLen < headerLen ∨ packet.length < totalLen then .ok (.error .invalidTotalLength)
        else do
          let headerBytes ← sliceRange packet 0 headerLen
          let valid ← verifyInternetChecksum headerBytes
          if !valid then .ok (.error .invalidChecksum)
          else do
            let header : Ipv4Header :=
              { identification := u16OfBytes (← byteAt packet 4) (← byteAt packet 5)
                flagsFragmentOffset := u16OfBytes (← byteAt packet 6) (← byteAt packet 7)
                ttl := ← byteAt packet 8
                protocol := ← byteAt packet 9
                src :=
                  ⟨← byteAt packet 12, ← byteAt packet 13, ← byteAt packet 14, ← byteAt packet 15⟩
                dst :=
                  ⟨← byteAt packet 16, ← byteAt packet 17, ← byteAt packet 18,
                    ← byteAt packet 19⟩ }
            let payload ← sliceRange packet headerLen totalLen
            .ok (.ok { header := header, payload := payload })

def parse (packet : Bytes) : Exec (Except Ipv4ParseError Ipv4Datagram) := parseBytes packet

/-! ## What is accepted -/

/-- `header_len`. -/
def headerLenOf (packet : Bytes) : Nat := (packet.getD 0 0 &&& 0x0f).toNat * 4

/-- `total_len`. -/
def totalLenOf (packet : Bytes) : Nat := (u16OfBytes (packet.getD 2 0) (packet.getD 3 0)).toNat

def headerOf (packet : Bytes) : Ipv4Header where
  src := ⟨packet.getD 12 0, packet.getD 13 0, packet.getD 14 0, packet.getD 15 0⟩
  dst := ⟨packet.getD 16 0, packet.getD 17 0, packet.getD 18 0, packet.getD 19 0⟩
  ttl := packet.getD 8 0
  protocol := packet.getD 9 0
  identification := u16OfBytes (packet.getD 4 0) (packet.getD 5 0)
  flagsFragmentOffset := u16OfBytes (packet.getD 6 0) (packet.getD 7 0)

structure Accepted (packet : Bytes) : Prop where
  version : packet.getD 0 0 >>> 4 = 4
  minLen_le : 20 ≤ headerLenOf packet
  headerLen_le : headerLenOf packet ≤ totalLenOf packet
  totalLen_le : totalLenOf packet ≤ packet.length
  checksum : complementSum (packet.take (headerLenOf packet)) = 0

variable {packet : Bytes} {datagram : Ipv4Datagram}

theorem headerLenOf_le (packet : Bytes) : headerLenOf packet ≤ 60 := by
  rw [headerLenOf, toNat_lowNibble]
  omega

theorem Accepted.length_le (h : Accepted packet) : 20 ≤ packet.length :=
  le_trans h.minLen_le (le_trans h.headerLen_le h.totalLen_le)

/-- The parser stops on no input: it accepts a packet or rejects it. -/
theorem parseBytes_cases (packet : Bytes) :
    (Accepted packet ∧ parseBytes packet = .ok (.ok ⟨headerOf packet,
        (packet.take (totalLenOf packet)).drop (headerLenOf packet)⟩)) ∨
      (¬ Accepted packet ∧ ∃ err, parseBytes packet = .ok (.error err)) := by
  unfold parseBytes IPV4_HEADER_MIN_LEN
  by_cases hshort : packet.length < 20
  · rw [if_pos hshort]
    exact Or.inr ⟨fun h => absurd h.length_le (Nat.not_le.mpr hshort), _, rfl⟩
  have hbyte : ∀ i, i < 20 → byteAt packet i = .ok (packet.getD i 0) :=
    fun i hi => byteAt_of_lt (by omega)
  rw [if_neg hshort, hbyte 0 (by omega), Exec.ok_bind]
  by_cases hversion : packet.getD 0 0 >>> 4 ≠ 4
  · rw [if_pos hversion]
    exact Or.inr ⟨fun h => hversion h.version, _, rfl⟩
  have hheaderLen : (packet.getD 0 0 &&& 0x0f).toNat * 4 = headerLenOf packet := rfl
  have htotalLen : (u16OfBytes (packet.getD 2 0) (packet.getD 3 0)).toNat = totalLenOf packet := rfl
  rw [if_neg hversion]
  simp only [hheaderLen]
  by_cases hheader : headerLenOf packet < 20 ∨ packet.length < headerLenOf packet
  · rw [if_pos hheader]
    refine Or.inr ⟨fun h => ?_, _, rfl⟩
    have := h.minLen_le
    have := le_trans h.headerLen_le h.totalLen_le
    omega
  rw [if_neg hheader, hbyte 2 (by omega), hbyte 3 (by omega), Exec.ok_bind, Exec.ok_bind]
  simp only [htotalLen]
  by_cases hlength : totalLenOf packet < headerLenOf packet ∨ packet.length < totalLenOf packet
  · rw [if_pos hlength]
    refine Or.inr ⟨fun h => ?_, _, rfl⟩
    have := h.headerLen_le
    have := h.totalLen_le
    omega
  rw [not_or, Nat.not_lt, Nat.not_lt] at hheader hlength
  -- so few bytes do not overflow the sum
  have hsixty := headerLenOf_le packet
  have hbytes : wordSum (packet.take (headerLenOf packet)) < 2 ^ 32 := by
    apply wordSum_lt_of_length
    rw [List.length_take]
    omega
  rw [if_neg (by omega), sliceRange_of_le (Nat.zero_le _) hheader.2, Exec.ok_bind, List.drop_zero,
    verifyInternetChecksum_eq hbytes, Exec.ok_bind]
  by_cases hvalid : complementSum (packet.take (headerLenOf packet)) = 0
  · rw [hvalid, if_neg (by decide), sliceRange_of_le hlength.1 hlength.2]
    simp only [hbyte, Exec.ok_bind, Nat.reduceLT]
    exact Or.inl ⟨⟨not_not.mp hversion, hheader.1, hlength.1, hlength.2, hvalid⟩, rfl⟩
  · have hrejected : (!(complementSum (packet.take (headerLenOf packet)) == 0)) = true := by
      rw [Bool.not_eq_true', beq_eq_false_iff_ne]
      exact hvalid
    rw [if_pos hrejected]
    exact Or.inr ⟨fun h => hvalid h.checksum, _, rfl⟩

/-- The packets that the parser accepts, and what it makes of them. -/
theorem parseBytes_eq_ok : parseBytes packet = .ok (.ok datagram) ↔ Accepted packet ∧
    datagram = ⟨headerOf packet,
      (packet.take (totalLenOf packet)).drop (headerLenOf packet)⟩ := by
  rcases parseBytes_cases packet with ⟨haccepted, hparse⟩ | ⟨hrejected, err, hparse⟩
  · rw [hparse, Except.ok.injEq, Except.ok.injEq]
    exact ⟨fun h => ⟨haccepted, h.symm⟩, fun h => h.2.symm⟩
  · rw [hparse, Except.ok.injEq]
    exact ⟨fun h => (nomatch h), fun h => absurd h.1 hrejected⟩

/-- Any bytes are parsed or rejected; the payload is what the total length leaves behind the
header. -/
theorem parseBytes_total (packet : Bytes) : ∃ result, parseBytes packet = .ok result ∧
    ∀ datagram, result = .ok datagram →
      datagram.payload.length + IPV4_HEADER_MIN_LEN ≤ min packet.length 65535 := by
  rcases parseBytes_cases packet with ⟨haccepted, hparse⟩ | ⟨-, err, hparse⟩
  · refine ⟨_, hparse, ?_⟩
    rintro datagram ⟨⟩
    have htotal : totalLenOf packet < 65536 := UInt16.toNat_lt _
    have := haccepted.minLen_le
    have := haccepted.headerLen_le
    have := haccepted.totalLen_le
    unfold IPV4_HEADER_MIN_LEN
    simp only [List.length_drop, List.length_take]
    omega
  · exact ⟨_, hparse, fun _ h => nomatch h⟩

/-! ## What is serialized is parsed again -/

/-- The header of a datagram with the given total length and checksum. -/
def headerBytes (header : Ipv4Header) (totalLen : Nat) (checksum : UInt16) : Bytes :=
  [(4 : UInt8) <<< 4 ||| 5] ++ [0] ++ u16Bytes (UInt16.ofNat totalLen) ++
    u16Bytes header.identification ++ u16Bytes header.flagsFragmentOffset ++
    [header.ttl] ++ [header.protocol] ++ u16Bytes checksum ++
    (header.src.octets ++ header.dst.octets)

theorem length_headerBytes (header : Ipv4Header) (totalLen : Nat) (checksum : UInt16) :
    (headerBytes header totalLen checksum).length = 20 := rfl

theorem wordSum_headerBytes_lt (header : Ipv4Header) (totalLen : Nat) (checksum : UInt16) :
    wordSum (headerBytes header totalLen checksum) < 2 ^ 32 := by
  apply wordSum_lt_of_length
  rw [length_headerBytes]
  omega

theorem serialize_eq {datagram : Ipv4Datagram} (h : datagram.payload.length ≤ 65515) :
    datagram.serialize = .ok
      (headerBytes datagram.header (20 + datagram.payload.length)
          (complementSum (headerBytes datagram.header (20 + datagram.payload.length) 0)) ++
        datagram.payload) := by
  have hmax : 20 + datagram.payload.length ≤ u64Max := by
    unfold u64Max
    omega
  have hbuf : ∀ totalLen, [(4 : UInt8) <<< 4 ||| 5] ++ [0] ++ u16Bytes (UInt16.ofNat totalLen) ++
      u16Bytes datagram.header.identification ++ u16Bytes datagram.header.flagsFragmentOffset ++
      [datagram.header.ttl] ++ [datagram.header.protocol] ++ u16Bytes 0 ++
      datagram.header.src.octets ++ datagram.header.dst.octets
      = headerBytes datagram.header totalLen 0 := by
    intro totalLen
    rw [headerBytes, List.append_assoc]
  have hover : ∀ totalLen checksum, overwrite (headerBytes datagram.header totalLen 0) 10
      (u16Bytes checksum) = .ok (headerBytes datagram.header totalLen checksum) :=
    fun totalLen checksum => overwrite_middle rfl
  unfold serialize IPV4_HEADER_MIN_LEN
  rw [checkedAdd_of_le hmax, Exec.expect_some, Exec.ok_bind, Exec.assert_pos (by omega),
    Exec.ok_bind]
  simp only [hbuf]
  rw [Exec.assert_pos (length_headerBytes _ _ _), Exec.ok_bind,
    sliceRange_of_le (Nat.zero_le _) (le_of_eq (length_headerBytes _ _ _).symm), Exec.ok_bind,
    List.drop_zero, List.take_of_length_le (le_of_eq (length_headerBytes _ _ _)),
    internetChecksum_eq (wordSum_headerBytes_lt _ _ _), Exec.ok_bind, hover, Exec.ok_bind]

theorem payload_le_of_serialize {datagram : Ipv4Datagram} {bytes : Bytes}
    (h : datagram.serialize = .ok bytes) : datagram.payload.length ≤ 65515 := by
  unfold serialize at h
  obtain ⟨totalLen, htotal, h⟩ := Exec.bind_eq_ok.mp h
  obtain ⟨u, hassert, -⟩ := Exec.bind_eq_ok.mp h
  have hle := Exec.assert_eq_ok.mp hassert
  unfold IPV4_HEADER_MIN_LEN at htotal
  cases hadd : checkedAdd 20 datagram.payload.length with
  | none =>
      rw [hadd] at htotal
      exact absurd htotal (by simp [Exec.expect])
  | some sum =>
      obtain ⟨-, rfl⟩ := checkedAdd_eq_some.mp hadd
      rw [hadd, Exec.expect_some, Except.ok.injEq] at htotal
      omega

/-- The checksum of the serializer is accepted. -/
theorem complementSum_headerBytes (header : Ipv4Header) (totalLen : Nat) :
    complementSum (headerBytes header totalLen (complementSum (headerBytes header totalLen 0)))
      = 0 :=
  complementSum_inserted (show 10 % 2 = 0 from rfl)

section Packet

variable (header : Ipv4Header) (totalLen : Nat) (checksum : UInt16) (rest : Bytes)

theorem length_packet : (headerBytes header totalLen checksum ++ rest).length
    = 20 + rest.length := by
  rw [List.length_append, length_headerBytes]

theorem take_packet : (headerBytes header totalLen checksum ++ rest).take 20
    = headerBytes header totalLen checksum :=
  List.take_left' (length_headerBytes _ _ _)

theorem header_packet : headerOf (headerBytes header totalLen checksum ++ rest) = header := by
  obtain ⟨src, dst, ttl, protocol, identification, flagsFragmentOffset⟩ := header
  rw [headerOf, Ipv4Header.mk.injEq]
  exact ⟨rfl, rfl, rfl, rfl, u16OfBytes_u16Bytes identification,
    u16OfBytes_u16Bytes flagsFragmentOffset⟩

theorem version_packet : (headerBytes header totalLen checksum ++ rest).getD 0 0 = 0x45 := rfl

theorem headerLenOf_packet :
    headerLenOf (headerBytes header totalLen checksum ++ rest) = 20 := by
  rw [headerLenOf, version_packet]
  decide

theorem totalLenOf_packet : totalLenOf (headerBytes header totalLen checksum ++ rest)
    = (UInt16.ofNat totalLen).toNat :=
  congrArg UInt16.toNat (u16OfBytes_u16Bytes (UInt16.ofNat totalLen))

end Packet

/-- What is serialized is parsed again, whatever padding follows it. -/
theorem parseBytes_serialize_append {datagram : Ipv4Datagram} {bytes : Bytes}
    (h : datagram.serialize = .ok bytes) (pad : Bytes) :
    parseBytes (bytes ++ pad) = .ok (.ok datagram) := by
  have hlen := payload_le_of_serialize h
  rw [serialize_eq hlen, Except.ok.injEq] at h
  subst h
  obtain ⟨header, payload⟩ := datagram
  dsimp only at hlen ⊢
  have htotal : (UInt16.ofNat (20 + payload.length)).toNat = 20 + payload.length := by
    rw [UInt16.toNat_ofNat']
    exact Nat.mod_eq_of_lt (by omega)
  have hvalid := complementSum_headerBytes header (20 + payload.length)
  set checksum := complementSum (headerBytes header (20 + payload.length) 0) with hchecksum
  have hpacket := length_packet header (20 + payload.length) checksum payload
  have hheader := header_packet header (20 + payload.length) checksum (payload ++ pad)
  have hheaderLen := headerLenOf_packet header (20 + payload.length) checksum (payload ++ pad)
  have htotalLen := totalLenOf_packet header (20 + payload.length) checksum (payload ++ pad)
  have htake := take_packet header (20 + payload.length) checksum (payload ++ pad)
  rw [htotal] at htotalLen
  have hpayload : ((headerBytes header (20 + payload.length) checksum ++ payload ++ pad).take
      (20 + payload.length)).drop 20 = payload := by
    rw [List.take_left' hpacket, List.drop_left' (length_headerBytes _ _ _)]
  have hversion := version_packet header (20 + payload.length) checksum (payload ++ pad)
  rw [← List.append_assoc] at hheader hheaderLen htotalLen htake hversion
  rw [parseBytes_eq_ok, hheaderLen, htotalLen, hheader, hpayload]
  refine ⟨⟨?_, le_of_eq hheaderLen.symm, ?_, ?_, ?_⟩, rfl⟩
  · rw [hversion]
    decide
  · rw [hheaderLen, htotalLen]
    omega
  · rw [htotalLen, List.length_append, hpacket]
    omega
  · rw [hheaderLen, htake, hvalid]

theorem parseBytes_serialize {datagram : Ipv4Datagram} {bytes : Bytes}
    (h : datagram.serialize = .ok bytes) : parseBytes bytes = .ok (.ok datagram) := by
  have happend := parseBytes_serialize_append h []
  rwa [List.append_nil] at happend

end Ipv4Datagram

end Minnow
