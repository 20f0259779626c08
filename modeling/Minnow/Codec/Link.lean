import Minnow.ArpMessage
import Minnow.Library.Slice

set_option autoImplicit false

/-! # The wire formats of the link

Frames and ARP messages have no checksum and no length of their own, and every byte of them stands
for one thing. So the parsers accept what the serializers write and nothing else: a frame to its
last byte, a message to its 28th (`arp_frame_accepted_iff`).
-/

namespace Minnow

variable {data : Bytes}

namespace EthernetFrame

/-- The bytes of a frame are the frame. -/
theorem parseBytes_eq_ok {frame : EthernetFrame} :
    parseBytes data = .ok (.ok frame) ↔ data = frame.serialize := by
  constructor
  · intro h
    unfold parseBytes ETHERNET_HEADER_LEN at h
    by_cases hshort : data.length < 14
    · rw [if_pos hshort, Except.ok.injEq] at h
      exact absurd h (by simp)
    · have hbyte : ∀ i, i < 14 → byteAt data i = .ok (data.getD i 0) :=
        fun i hi => byteAt_of_lt (by omega)
      have hpayload : sliceFrom data 14 = .ok (data.drop 14) := sliceFrom_of_le (by omega)
      rw [if_neg hshort] at h
      simp only [hbyte, Exec.ok_bind, hpayload, Nat.reduceLT, Except.ok.injEq] at h
      rw [← h]
      have hlong : 14 ≤ data.length := Nat.le_of_not_lt hshort
      calc data = data.take 14 ++ data.drop 14 := (List.take_append_drop 14 data).symm
        _ = _ := by
            rw [List.take_eq_map_getD hlong 0]
            simp only [serialize, u16Bytes_u16OfBytes]
            rfl
  · rintro rfl
    exact parseBytes_serialize frame

end EthernetFrame

namespace ArpMessage

variable {message : ArpMessage}

/-- The bytes of a message. -/
def wire (message : ArpMessage) : Bytes :=
  u16Bytes ARP_HARDWARE_TYPE_ETHERNET ++ u16Bytes ARP_PROTOCOL_TYPE_IPV4 ++
    [ARP_HARDWARE_ADDRESS_LEN_ETHERNET] ++ [ARP_PROTOCOL_ADDRESS_LEN_IPV4] ++
    u16Bytes message.operation.opcode ++
    message.senderEthernetAddress.octets ++ message.senderIpAddress.octets ++
    message.targetEthernetAddress.octets ++ message.targetIpAddress.octets

theorem serialize_eq (message : ArpMessage) : message.serialize = .ok message.wire := rfl

theorem opcode_of_fromOpcode {opcode : UInt16} {operation : ArpOperation}
    (h : ArpOperation.fromOpcode opcode = some operation) : operation.opcode = opcode := by
  unfold ArpOperation.fromOpcode at h
  split_ifs at h with hrequest hreply
  · obtain rfl := Option.some.inj h
    exact hrequest.symm
  · obtain rfl := Option.some.inj h
    exact hreply.symm

/-- Bytes behind a message are ignored. -/
theorem parseBytes_wire_append (message : ArpMessage) (pad : Bytes) :
    parseBytes (message.wire ++ pad) = .ok (.ok message) := by
  obtain ⟨operation, ⟨m0, m1, m2, m3, m4, m5⟩, ⟨i0, i1, i2, i3⟩, ⟨n0, n1, n2, n3, n4, n5⟩,
    ⟨j0, j1, j2, j3⟩⟩ := message
  have hshort : ¬ (wire ⟨operation, ⟨m0, m1, m2, m3, m4, m5⟩, ⟨i0, i1, i2, i3⟩,
      ⟨n0, n1, n2, n3, n4, n5⟩, ⟨j0, j1, j2, j3⟩⟩ ++ pad).length < ARP_MESSAGE_LEN := by
    rw [List.length_append]
    exact Nat.not_lt.mpr (Nat.le_add_right 28 _)
  rw [parseBytes, if_neg hshort]
  simp [wire, u16Bytes, EthernetAddress.octets, Ipv4AddrBytes.octets, byteAt]

/-- A message is accepted if its first 28 bytes are those of a message. -/
theorem parseBytes_eq_ok :
    parseBytes data = .ok (.ok message) ↔ message.serialize = .ok (data.take ARP_MESSAGE_LEN) := by
  rw [serialize_eq, Except.ok.injEq]
  constructor
  · intro h
    unfold parseBytes ARP_MESSAGE_LEN at h
    by_cases hshort : data.length < 28
    · rw [if_pos hshort, Except.ok.injEq] at h
      exact absurd h (by simp)
    · have hbyte : ∀ i, i < 28 → byteAt data i = .ok (data.getD i 0) :=
        fun i hi => byteAt_of_lt (by omega)
      have hlong : 28 ≤ data.length := Nat.le_of_not_lt hshort
      rw [if_neg hshort] at h
      simp only [hbyte, Exec.ok_bind, Nat.reduceLT] at h
      split_ifs at h with hhardware hprotocol hhardwareLen hprotocolLen
      · exact absurd h (by simp)
      · exact absurd h (by simp)
      · exact absurd h (by simp)
      · exact absurd h (by simp)
      split at h
      · exact absurd h (by simp)
      · -- each field that is checked is what the serializer writes there
        rename_i operation hoperation
        rw [not_not] at hhardware hprotocol hhardwareLen hprotocolLen
        rw [Except.ok.injEq, Except.ok.injEq] at h
        rw [← h, ARP_MESSAGE_LEN, List.take_eq_map_getD hlong 0]
        simp only [wire, ← hhardware, ← hprotocol, ← hhardwareLen, ← hprotocolLen,
          opcode_of_fromOpcode hoperation, u16Bytes_u16OfBytes]
        rfl
  · intro h
    have hsplit : data = message.wire ++ data.drop ARP_MESSAGE_LEN := by
      rw [h, List.take_append_drop]
    rw [hsplit]
    exact parseBytes_wire_append message _

theorem length_wire (message : ArpMessage) : message.wire.length = ARP_MESSAGE_LEN := rfl

/-- Bytes are accepted as a frame with a message in it exactly if they are a header of 14 bytes, the
message and padding. -/
theorem arp_frame_accepted_iff {frame : EthernetFrame} :
    EthernetFrame.parseBytes data = .ok (.ok frame) ∧
        parseBytes frame.payload = .ok (.ok message) ↔
      ∃ bytes pad, message.serialize = .ok bytes ∧ frame.payload = bytes ++ pad ∧
        data = frame.header.dst.octets ++ frame.header.src.octets ++
          u16Bytes frame.header.ethertype ++ bytes ++ pad := by
  rw [EthernetFrame.parseBytes_eq_ok, parseBytes_eq_ok]
  constructor
  · rintro ⟨rfl, hserialize⟩
    refine ⟨_, frame.payload.drop ARP_MESSAGE_LEN, hserialize,
      (List.take_append_drop _ _).symm, ?_⟩
    rw [List.append_assoc _ (frame.payload.take _), List.take_append_drop]
    rfl
  · rintro ⟨bytes, pad, hserialize, hpayload, rfl⟩
    have hbytes := hserialize
    rw [serialize_eq, Except.ok.injEq] at hbytes
    subst hbytes
    refine ⟨?_, ?_⟩
    · rw [EthernetFrame.serialize, hpayload, List.append_assoc _ message.wire]
    · rw [hpayload, ← length_wire message, List.take_left]
      exact hserialize

end ArpMessage

end Minnow
