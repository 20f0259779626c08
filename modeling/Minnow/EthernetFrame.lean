import Minnow.Checksum

set_option autoImplicit false

/-! # Ethernet frames

`ethernet_frame.rs`. A frame has no length field, so whatever follows it on the wire is part of
its payload: `parseBytes_serialize_append`.
-/

namespace Minnow

def ETHERNET_HEADER_LEN : Nat := 14
def ETHERTYPE_IPV4 : UInt16 := 0x0800
def ETHERTYPE_ARP : UInt16 := 0x0806

/-- `[u8; 6]`. -/
structure EthernetAddress where
  b0 : UInt8
  b1 : UInt8
  b2 : UInt8
  b3 : UInt8
  b4 : UInt8
  b5 : UInt8
  deriving DecidableEq, Repr

namespace EthernetAddress

def BROADCAST : EthernetAddress := ⟨0xff, 0xff, 0xff, 0xff, 0xff, 0xff⟩

def ZERO : EthernetAddress := ⟨0, 0, 0, 0, 0, 0⟩

def octets (address : EthernetAddress) : Bytes :=
  [address.b0, address.b1, address.b2, address.b3, address.b4, address.b5]

def isBroadcast (address : EthernetAddress) : Bool := address == BROADCAST

end EthernetAddress

structure EthernetHeader where
  dst : EthernetAddress
  src : EthernetAddress
  ethertype : UInt16
  deriving DecidableEq, Repr

structure EthernetFrame where
  header : EthernetHeader
  payload : Bytes
  deriving DecidableEq, Repr

inductive EthernetParseError where
  | frameTooShort
  deriving DecidableEq, Repr

namespace EthernetFrame

def new (dst src : EthernetAddress) (ethertype : UInt16) (payload : Bytes) : EthernetFrame where
  header := { dst := dst, src := src, ethertype := ethertype }
  payload := payload

def ipv4 (dst src : EthernetAddress) (payload : Bytes) : EthernetFrame :=
  new dst src ETHERTYPE_IPV4 payload

def arp (dst src : EthernetAddress) (payload : Bytes) : EthernetFrame :=
  new dst src ETHERTYPE_ARP payload

def isFor (frame : EthernetFrame) (ethernetAddress : EthernetAddress) : Bool :=
  frame.header.dst == ethernetAddress || frame.header.dst.isBroadcast

def serialize (frame : EthernetFrame) : Bytes :=
  frame.header.dst.octets ++ frame.header.src.octets ++ u16Bytes frame.header.ethertype ++
    frame.payload

def parseBytes (data : Bytes) : Exec (Except EthernetParseError EthernetFrame) :=
  if data.length < ETHERNET_HEADER_LEN then .ok (.error .frameTooShort)
  else do
    let dst : EthernetAddress :=
      ⟨← byteAt data 0, ← byteAt data 1, ← byteAt data 2, ← byteAt data 3, ← byteAt data 4,
        ← byteAt data 5⟩
    let src : EthernetAddress :=
      ⟨← byteAt data 6, ← byteAt data 7, ← byteAt data 8, ← byteAt data 9, ← byteAt data 10,
        ← byteAt data 11⟩
    let ethertype := u16OfBytes (← byteAt data 12) (← byteAt data 13)
    let payload ← sliceFrom data ETHERNET_HEADER_LEN
    .ok (.ok { header := { dst := dst, src := src, ethertype := ethertype }, payload := payload })

def parse (data : Bytes) : Exec (Except EthernetParseError EthernetFrame) := parseBytes data

variable {frame : EthernetFrame}

theorem isFor_iff {ethernetAddress : EthernetAddress} : frame.isFor ethernetAddress = true ↔
    frame.header.dst = ethernetAddress ∨ frame.header.dst = EthernetAddress.BROADCAST := by
  unfold isFor EthernetAddress.isBroadcast
  rw [Bool.or_eq_true, beq_iff_eq, beq_iff_eq]

/-- Any bytes are parsed or rejected. -/
theorem parseBytes_total (data : Bytes) : ∃ result, parseBytes data = .ok result := by
  unfold parseBytes ETHERNET_HEADER_LEN
  by_cases hshort : data.length < 14
  · rw [if_pos hshort]
    exact ⟨_, rfl⟩
  · have hbyte : ∀ i, i < 14 → byteAt data i = .ok (data.getD i 0) :=
      fun i hi => byteAt_of_lt (by omega)
    have hpayload : sliceFrom data 14 = .ok (data.drop 14) := sliceFrom_of_le (by omega)
    rw [if_neg hshort]
    simp only [hbyte, Exec.ok_bind, hpayload, Nat.reduceLT]
    exact ⟨_, rfl⟩

/-- Bytes behind a frame are taken for payload. -/
theorem parseBytes_serialize_append (frame : EthernetFrame) (pad : Bytes) :
    parseBytes (frame.serialize ++ pad)
      = .ok (.ok { frame with payload := frame.payload ++ pad }) := by
  obtain ⟨⟨dst, src, ethertype⟩, payload⟩ := frame
  have hbytes : serialize ⟨⟨dst, src, ethertype⟩, payload⟩ ++ pad
      = dst.b0 :: dst.b1 :: dst.b2 :: dst.b3 :: dst.b4 :: dst.b5 :: src.b0 :: src.b1 :: src.b2 ::
        src.b3 :: src.b4 :: src.b5 :: (ethertype >>> 8).toUInt8 :: ethertype.toUInt8 ::
        (payload ++ pad) := rfl
  have hshort : ¬ (serialize ⟨⟨dst, src, ethertype⟩, payload⟩ ++ pad).length
      < ETHERNET_HEADER_LEN := by
    rw [hbytes]
    simp only [List.length_cons, ETHERNET_HEADER_LEN]
    omega
  rw [parseBytes, if_neg hshort, hbytes]
  simp [byteAt, sliceFrom, ETHERNET_HEADER_LEN]

theorem parseBytes_serialize (frame : EthernetFrame) :
    parseBytes frame.serialize = .ok (.ok frame) := by
  have h := frame.parseBytes_serialize_append []
  rwa [List.append_nil, List.append_nil] at h

end EthernetFrame

end Minnow
