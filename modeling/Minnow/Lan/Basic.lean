import Minnow.Internet.Safety
import Minnow.TapHost.Steps

set_option autoImplicit false

/-! # Two hosts on one wire

Two hosts behind their interfaces, and Ethernet frames between them. A station may be given any
frame at any moment, under one assumption: if a frame brings a segment to the connection, then the
other station has written it, and not too long ago. It may be padded. So frames may be lost,
repeated and reordered, anyone may speak ARP, and other hosts may be on the wire.

`internet` is what the two hosts themselves have done. No station sees it; without it nobody could
say what "too long ago" is.
-/

namespace Minnow

open IpHost TapHost

structure Lan where
  tap : Side → TapHost
  internet : Internet

namespace Lan

/-- What a step of a station does to its host. -/
def hostOp (lan : Lan) (move : Side × TapOp) : Option HostOp :=
  move.2.hostOp (lan.tap move.1).interface.ethernetAddress

def moves (lan : Lan) (move : Side × TapOp) : List (Side × HostOp) :=
  ((lan.hostOp move).map (Prod.mk move.1)).toList

def step (lan : Lan) (move : Side × TapOp) : Exec Lan := do
  let tap ← (lan.tap move.1).step move.2
  let internet ← Exec.run Internet.step lan.internet (lan.moves move)
  .ok { tap := Function.update lan.tap move.1 tap, internet := internet }

/-- If the other host has sent the bytes, then not too long ago. -/
def Recent (w : Internet) (side : Side) (bytes : Bytes) : Prop :=
  (∃ parcel ∈ w.sent side.peer, parcel.bytes = bytes) →
    ∃ parcel ∈ w.sent side.peer, parcel.bytes = bytes ∧
      ∀ packet ∈ parcel.packet, (Internet.endpointOf (w.station side)).InReach packet

instance (w : Internet) (side : Side) (bytes : Bytes) : Decidable (Recent w side bytes) :=
  inferInstanceAs (Decidable (_ → _))

/-- The frame that arrives is one that the other station has written, or it brings no segment to
the connection. -/
def Arrives (lan : Lan) (side : Side) (frameBytes : Bytes) : Prop :=
  (∀ datagram ∈ inbound (lan.tap side).interface.ethernetAddress frameBytes,
      (lan.tap side).host.segmentOf datagram = none) ∨
    ∃ frame ∈ (lan.tap side.peer).written, frame <+: frameBytes ∧
      Recent lan.internet side (frame.drop ETHERNET_HEADER_LEN)

instance (lan : Lan) (side : Side) (frameBytes : Bytes) : Decidable (lan.Arrives side frameBytes) :=
  inferInstanceAs (Decidable (_ ∨ ∃ frame ∈ (lan.tap side.peer).written, _))

/-- The frames that a step reads arrive, and fit in the buffer of the device. -/
def Reads (lan : Lan) (side : Side) : TapOp → Prop
  | .frame frameBytes => frameBytes.length ≤ 65535 ∧ lan.Arrives side frameBytes
  | _ => True

instance (lan : Lan) (side : Side) : (op : TapOp) → Decidable (lan.Reads side op)
  | .frame _ => inferInstanceAs (Decidable (_ ∧ _))
  | .connect | .app _ | .tick _ | .flush => inferInstanceAs (Decidable True)

/-- The assumptions on the wire and on the length of the streams. -/
def Allowed (lan : Lan) (move : Side × TapOp) : Prop :=
  (∀ op ∈ lan.hostOp move,
      ((lan.internet.station move.1).written ++
        Internet.acceptedBy (lan.tap move.1).host op).length < 2 ^ 63) ∧
    lan.Reads move.1 move.2

instance (lan : Lan) (move : Side × TapOp) : Decidable (lan.Allowed move) :=
  inferInstanceAs (Decidable (_ ∧ _))

/-- The two stations, before they connect. -/
def start (mac : Side → EthernetAddress) (config : Side → IpHostConfig) (capture : Bool) :
    Exec Lan := do
  let a ← TapHost.new (mac .a) (config .a) capture
  let b ← TapHost.new (mac .b) (config .b) capture
  let internet ← Internet.start config
  .ok
    { tap := fun
        | .a => a
        | .b => b
      internet := internet }

end Lan

end Minnow
