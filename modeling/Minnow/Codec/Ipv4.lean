import Minnow.EthernetFrame
import Minnow.Ipv4Datagram
import Minnow.Library.Slice

set_option autoImplicit false

/-! # The wire format of IPv4 datagrams

`parseBytes_serialize_append` is one direction. For the other one, `eq_packet` puts an accepted
packet back together from the header that the parser reads, when it uses only what an
`Ipv4Header` has fields for.
-/

namespace Minnow

namespace Ipv4Datagram

variable {packet : Bytes} {datagram : Ipv4Datagram}

/-- There are no options and nothing in the DSCP/ECN byte, for which a header has no field. -/
structure Expressible (packet : Bytes) : Prop where
  headerLen : headerLenOf packet = 20
  dscp : packet.getD 1 0 = 0

/-- The bytes of the packet, as far as its total length goes. -/
def truncated (packet : Bytes) : Bytes := packet.take (totalLenOf packet)

theorem Accepted.byte_zero (h : Accepted packet) (hlen : headerLenOf packet = 20) :
    packet.getD 0 0 = 0x45 := by
  have hversion : (packet.getD 0 0).toNat / 16 = 4 := by
    rw [← toNat_highNibble, h.version]
    rfl
  rw [headerLenOf, toNat_lowNibble] at hlen
  apply UInt8.toNat_inj.mp
  show (packet.getD 0 0).toNat = 69
  omega

theorem Accepted.length_truncated (h : Accepted packet) :
    (truncated packet).length = totalLenOf packet := by
  rw [truncated, List.length_take, min_eq_left h.totalLen_le]

theorem take_twenty_eq (h : Accepted packet) (hexpressible : Expressible packet) :
    packet.take 20 = headerBytes (headerOf packet) (totalLenOf packet)
      (u16OfBytes (packet.getD 10 0) (packet.getD 11 0)) := by
  have hlen : 20 ≤ packet.length := h.length_le
  have htotal : u16Bytes (UInt16.ofNat (totalLenOf packet))
      = [packet.getD 2 0, packet.getD 3 0] := by
    rw [totalLenOf, UInt16.ofNat_toNat, u16Bytes_u16OfBytes]
  rw [List.take_eq_map_getD hlen 0, headerBytes, htotal]
  simp only [headerOf, u16Bytes_u16OfBytes]
  show [packet.getD 0 0, packet.getD 1 0, _, _, _, _, _, _, _, _, _, _, _, _, _, _, _, _, _, _]
    = (0x45 : UInt8) :: 0 :: _
  rw [h.byte_zero hexpressible.headerLen, hexpressible.dscp]
  rfl

/-- Such a packet is the wire format of what the parser makes of it. -/
theorem eq_packet (h : Accepted packet) (hexpressible : Expressible packet) :
    truncated packet = headerBytes (headerOf packet) (totalLenOf packet)
        (u16OfBytes (packet.getD 10 0) (packet.getD 11 0)) ++
      (truncated packet).drop 20 := by
  have hle : 20 ≤ totalLenOf packet := le_trans h.minLen_le h.headerLen_le
  have htake : (truncated packet).take 20 = packet.take 20 := by
    rw [truncated, List.take_take, min_eq_left hle]
  rw [← take_twenty_eq h hexpressible, ← htake, List.take_append_drop]

/-- The checksum of the serializer is the one of the packet, in its canonical form. -/
theorem complementSum_of_packet (h : Accepted packet) (hexpressible : Expressible packet) :
    complementSum (headerBytes (headerOf packet) (totalLenOf packet) 0)
      = if u16OfBytes (packet.getD 10 0) (packet.getD 11 0) = 0xffff then 0
        else u16OfBytes (packet.getD 10 0) (packet.getD 11 0) := by
  have hchecksum := h.checksum
  rw [hexpressible.headerLen, take_twenty_eq h hexpressible] at hchecksum
  have hversion : (0x45 : UInt8) ∈ headerBytes (headerOf packet) (totalLenOf packet) 0 :=
    List.mem_cons_self
  exact complementSum_of_accepted (show 10 % 2 = 0 from rfl) (wordSum_pos hversion (by decide))
    hchecksum

theorem canonicalChecksum_packet (header : Ipv4Header) (totalLen : Nat) (checksum : UInt16)
    (payload : Bytes) : canonicalChecksum 10 (headerBytes header totalLen checksum ++ payload)
      = headerBytes header totalLen (if checksum = 0xffff then 0 else checksum) ++ payload := by
  obtain ⟨before, hlen, hpacket⟩ : ∃ before : Bytes, before.length = 10 ∧
      ∀ checksum, headerBytes header totalLen checksum ++ payload
        = before ++ u16Bytes checksum ++ (header.src.octets ++ header.dst.octets ++ payload) :=
    ⟨_, rfl, fun checksum => List.append_assoc ..⟩
  rw [hpacket, hpacket, ← hlen, canonicalChecksum_append]

theorem serialize_parse (hexpressible : Expressible packet)
    (h : parseBytes packet = .ok (.ok datagram)) :
    datagram.serialize = .ok (canonicalChecksum 10 (truncated packet)) := by
  obtain ⟨haccepted, rfl⟩ := parseBytes_eq_ok.mp h
  have hle : 20 ≤ totalLenOf packet := le_trans haccepted.minLen_le haccepted.headerLen_le
  have htotal : totalLenOf packet < 65536 := UInt16.toNat_lt _
  have hlen : ((truncated packet).drop 20).length = totalLenOf packet - 20 := by
    rw [List.length_drop, haccepted.length_truncated]
  have hsum : 20 + ((truncated packet).drop 20).length = totalLenOf packet := by omega
  have hserialize := serialize_eq (show (Ipv4Datagram.mk (headerOf packet)
    ((truncated packet).drop 20)).payload.length ≤ 65515 from by dsimp only; omega)
  dsimp only at hserialize
  rw [hsum, complementSum_of_packet haccepted hexpressible, ← canonicalChecksum_packet,
    ← eq_packet haccepted hexpressible] at hserialize
  rw [hexpressible.headerLen]
  exact hserialize

/-- Padding behind a datagram is dropped, also inside a frame. A packet that is accepted and
uses only the fields of the header is written back as far as its total length goes, with the
checksum in the form the serializer writes. -/
theorem padded_codec :
    (∀ datagram : Ipv4Datagram, datagram.payload.length ≤ 65515 →
      ∃ bytes, datagram.serialize = .ok bytes ∧
        (∀ pad, parseBytes (bytes ++ pad) = .ok (.ok datagram)) ∧
        ∀ (dst src : EthernetAddress) (pad : Bytes), ∃ frame,
          EthernetFrame.parseBytes ((EthernetFrame.ipv4 dst src bytes).serialize ++ pad)
            = .ok (.ok frame) ∧
          frame.header = (EthernetFrame.ipv4 dst src bytes).header ∧
          parseBytes frame.payload = .ok (.ok datagram)) ∧
    ∀ (packet : Bytes) (datagram : Ipv4Datagram), parseBytes packet = .ok (.ok datagram) →
      Expressible packet → datagram.serialize = .ok (canonicalChecksum 10 (truncated packet)) := by
  constructor
  · intro datagram hlen
    have hserialize := serialize_eq hlen
    have hparse := parseBytes_serialize_append hserialize
    refine ⟨_, hserialize, hparse, ?_⟩
    intro dst src pad
    exact ⟨_, EthernetFrame.parseBytes_serialize_append _ pad, rfl, hparse pad⟩
  · intro packet datagram hparse hexpressible
    exact serialize_parse hexpressible hparse

theorem padded_codec_empty :
    (∃ bytes, (Ipv4Datagram.new ⟨10, 0, 0, 1⟩ ⟨10, 0, 0, 2⟩ 6 []).serialize = .ok bytes ∧
      parseBytes (bytes ++ [1, 2, 3])
        = .ok (.ok (Ipv4Datagram.new ⟨10, 0, 0, 1⟩ ⟨10, 0, 0, 2⟩ 6 []))) ∧
    (Ipv4Datagram.mk ⟨⟨0, 0, 0, 0⟩, ⟨0, 0, 0, 0⟩, 0, 0, 0xbaeb, 0⟩ []).serialize
      = .ok [0x45, 0, 0, 20, 0xba, 0xeb, 0, 0, 0, 0, 0, 0, 0, 0, 0, 0, 0, 0, 0, 0] := by
  obtain ⟨bytes, hserialize, hparse, -⟩ :=
    padded_codec.1 (Ipv4Datagram.new ⟨10, 0, 0, 1⟩ ⟨10, 0, 0, 2⟩ 6 []) (by decide)
  refine ⟨⟨bytes, hserialize, hparse [1, 2, 3]⟩, ?_⟩
  exact padded_codec.2
    [0x45, 0, 0, 20, 0xba, 0xeb, 0, 0, 0, 0, 0xff, 0xff, 0, 0, 0, 0, 0, 0, 0, 0, 7, 7] _
    (by decide +kernel) ⟨by decide, by decide⟩

end Ipv4Datagram

end Minnow
