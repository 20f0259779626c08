import Minnow.Lan.Refinement
import Minnow.Mesh.Basic

set_option autoImplicit false

/-! # Two hosts and the routers between them

The stations of `Lan` and the routers of `Mesh`. A station may be given any frame, and so may a
router, under one assumption: what brings a segment of the connection is a frame that the other
station or a router has put on a wire, and a host gets it not too long after the other host has
sent it. The frame may be padded. So the hosts may be on different wires, with as many routers in
between as there are, in whatever order and with whatever tables.
-/

namespace Minnow

open IpHost TapHost Router

structure Routed (ι : Type) where
  lan : Lan
  mesh : Mesh ι

inductive RoutedMove (ι : Type) where
  | station (move : Side × TapOp)
  | router (move : ι × RouterOp)

namespace Routed

variable {ι : Type}

def step [DecidableEq ι] (r : Routed ι) : RoutedMove ι → Exec (Routed ι)
  | .station move => do
      let lan ← r.lan.step move
      .ok { r with lan := lan }
  | .router move => do
      let mesh ← r.mesh.step move
      .ok { r with mesh := mesh }

/-- The two stations before they connect, and routers without interfaces. -/
def start (mac : Side → EthernetAddress) (config : Side → IpHostConfig) (capture : Bool) :
    Exec (Routed ι) := do
  let lan ← Lan.start mac config capture
  .ok { lan := lan, mesh := Mesh.start }

/-- The other host has sent the segment. -/
def SentSegment (w : Internet) (side : Side) (segment : TcpSegment) : Prop :=
  ∃ parcel ∈ w.sent side.peer, ∃ packet ∈ parcel.packet, packet.segment = segment

/-- The other host has sent the segment, and not too long ago. -/
def Fresh (w : Internet) (side : Side) (segment : TcpSegment) : Prop :=
  ∃ parcel ∈ w.sent side.peer, ∃ packet ∈ parcel.packet, packet.segment = segment ∧
    (Internet.endpointOf (w.station side)).InReach packet

instance (w : Internet) (side : Side) (segment : TcpSegment) :
    Decidable (SentSegment w side segment) :=
  inferInstanceAs (Decidable (∃ parcel ∈ w.sent side.peer, _))

instance (w : Internet) (side : Side) (segment : TcpSegment) : Decidable (Fresh w side segment) :=
  inferInstanceAs (Decidable (∃ parcel ∈ w.sent side.peer, _))

/-- The frame is one that the other station or a router has written. -/
def FromWire (r : Routed ι) (side : Side) (frameBytes : Bytes) : Prop :=
  (∃ bytes ∈ (r.lan.tap side.peer).written, bytes <+: frameBytes) ∨
    ∃ frame ∈ r.mesh.wire, frame.serialize <+: frameBytes

instance (r : Routed ι) (side : Side) (frameBytes : Bytes) :
    Decidable (r.FromWire side frameBytes) :=
  inferInstanceAs (Decidable ((∃ bytes ∈ (r.lan.tap side.peer).written, _) ∨
    ∃ frame ∈ r.mesh.wire, _))

/-- A segment that the frame brings to the connection comes from a wire, and in time. -/
def Arrives (r : Routed ι) (side : Side) (frameBytes : Bytes) : Prop :=
  ∀ datagram ∈ inbound (r.lan.tap side).interface.ethernetAddress frameBytes,
    ∀ segment ∈ (r.lan.tap side).host.segmentOf datagram, r.FromWire side frameBytes ∧
      (SentSegment r.lan.internet side segment → Fresh r.lan.internet side segment)

instance (r : Routed ι) (side : Side) (frameBytes : Bytes) : Decidable (r.Arrives side frameBytes) :=
  inferInstanceAs (Decidable
    (∀ datagram ∈ inbound (r.lan.tap side).interface.ethernetAddress frameBytes,
      ∀ segment ∈ (r.lan.tap side).host.segmentOf datagram, _))

/-- The frames that a station reads arrive, and fit in the buffer of the device. -/
def Reads (r : Routed ι) (side : Side) : TapOp → Prop
  | .frame frameBytes => frameBytes.length ≤ 65535 ∧ r.Arrives side frameBytes
  | _ => True

instance (r : Routed ι) (side : Side) : (op : TapOp) → Decidable (r.Reads side op)
  | .frame _ => inferInstanceAs (Decidable (_ ∧ _))
  | .connect | .app _ | .tick _ | .flush => inferInstanceAs (Decidable True)

/-- The datagram brings no segment to either connection. -/
def Stray (lan : Lan) (datagram : Ipv4Datagram) : Prop :=
  ∀ side, (lan.tap side).host.segmentOf datagram = none

instance (lan : Lan) : DecidablePred (Stray lan) :=
  fun _ => decidable_of_iff
    ((lan.tap .a).host.segmentOf _ = none ∧ (lan.tap .b).host.segmentOf _ = none)
    ⟨fun h side => by cases side; exacts [h.1, h.2], fun h => ⟨h .a, h .b⟩⟩

/-- The frame is one that a station has written. -/
def FromStation (lan : Lan) (frame : EthernetFrame) : Prop :=
  (∃ bytes ∈ (lan.tap .a).written, bytes <+: frame.serialize) ∨
    ∃ bytes ∈ (lan.tap .b).written, bytes <+: frame.serialize

instance (lan : Lan) (frame : EthernetFrame) : Decidable (FromStation lan frame) :=
  inferInstanceAs (Decidable ((∃ bytes ∈ (lan.tap .a).written, _) ∨
    ∃ bytes ∈ (lan.tap .b).written, _))

/-- The assumptions on the wires and on the length of the streams. -/
def Allowed (r : Routed ι) : RoutedMove ι → Prop
  | .station move =>
      (∀ op ∈ r.lan.hostOp move,
        ((r.lan.internet.station move.1).written ++
          Internet.acceptedBy (r.lan.tap move.1).host op).length < 2 ^ 63) ∧
      r.Reads move.1 move.2
  | .router move =>
      r.mesh.Admits (Stray r.lan) move ∨ ∃ frame ∈ move.2.frame?, FromStation r.lan frame

instance (r : Routed ι) : (move : RoutedMove ι) → Decidable (r.Allowed move)
  | .station _ => inferInstanceAs (Decidable (_ ∧ _))
  | .router move => inferInstanceAs (Decidable (_ ∨ ∃ frame ∈ move.2.frame?, _))

end Routed

end Minnow
