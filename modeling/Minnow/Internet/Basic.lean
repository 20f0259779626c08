import Minnow.IpHost.Foreign
import Minnow.Network.Operations

set_option autoImplicit false

/-! # Two hosts and the bytes between them

The hosts exchange serialized IPv4 datagrams. The network may deliver to a host any bytes at any
moment, under one assumption: a segment that reaches its connection is one that the other host has
sent, and not too long ago. So datagrams may be lost, repeated and reordered, and whatever else
there is on the network may arrive, truncated and corrupted as it may be.

As in the network of segments, what was sent keeps the absolute numbers of the segment inside,
which no host sees.
-/

namespace Minnow

open IpHost TcpConnection

/-- The bytes of a datagram, and the numbered segment inside if there is one. -/
structure Parcel where
  bytes : Bytes
  packet : Option Network.Packet
  deriving DecidableEq, Repr

/-- A host, the bytes that `write` has accepted and the events that were reported. -/
structure Station where
  host : IpHost
  written : Bytes
  events : List IpHostEvent

structure Internet where
  station : Side → Station
  sent : Side → List Parcel

/-- The segment whose sending is reported. -/
def IpHostEvent.outgoing? : IpHostEvent → Option TcpSegment
  | .outgoingTcp segment => some segment
  | _ => none

/-- The loop of `emit_output`: what the device is given. -/
def emitOutput : List Ipv4Datagram → Exec (List Bytes)
  | [] => .ok []
  | datagram :: rest => do
      let packet ← datagram.serialize
      let packets ← emitOutput rest
      .ok (packet :: packets)

namespace Internet

/-- The numbered segments are those of the first datagrams. -/
def parcels : List Bytes → List Network.Packet → List Parcel
  | [], _ => []
  | bytes :: rest, [] => { bytes := bytes, packet := none } :: parcels rest []
  | bytes :: rest, packet :: packets =>
      { bytes := bytes, packet := some packet } :: parcels rest packets

/-- The bytes of a write that the host accepts. -/
def acceptedBy (host : IpHost) : HostOp → Bytes
  | .write data => data.take (host.connection.sender.write data).2
  | _ => []

def endpointOf (station : Station) : Network.Endpoint where
  connection := station.host.connection
  written := station.written
  read := []

/-- The segments that an operation has sent, with their numbers. -/
def numbered (host : IpHost) (op : HostOp) (station : Station) (output : IpHostOutput) :
    List Network.Packet :=
  match op.connOp host with
  | none => []
  | some connOp =>
      Network.packets (endpointOf station).ackno (firstSeqno host.connection connOp)
        (output.events.filterMap IpHostEvent.outgoing?)

def after (station : Station) (op : HostOp) (host : IpHost) (output : IpHostOutput) : Station where
  host := host
  written := station.written ++ acceptedBy station.host op
  events := station.events ++ output.events

def emit (w : Internet) (side : Side) (station : Station) (parcels : List Parcel) : Internet where
  station := Function.update w.station side station
  sent := Function.update w.sent side (w.sent side ++ parcels)

/-- A host performs an operation, and its output is serialized. -/
def step (w : Internet) (move : Side × HostOp) : Exec Internet := do
  let e := w.station move.1
  let (host, output) ← e.host.perform move.2
  let bytes ← emitOutput output.datagrams
  let station := after e move.2 host output
  .ok (w.emit move.1 station (parcels bytes (numbered e.host move.2 station output)))

/-- A datagram given as a value is one that can be serialized. -/
def Sendable : HostOp → Prop
  | .receiveDatagram datagram => datagram.payload.length ≤ 65515
  | _ => True

/-- The assumptions on the network and on the length of the streams. -/
structure Allowed (w : Internet) (move : Side × HostOp) : Prop where
  short : ((w.station move.1).written ++ acceptedBy (w.station move.1).host move.2).length < 2 ^ 63
  sendable : Sendable move.2
  authentic : ∀ segment ∈ move.2.segment (w.station move.1).host,
    ∃ parcel ∈ w.sent move.1.peer, ∃ packet ∈ parcel.packet, packet.segment = segment ∧
      (endpointOf (w.station move.1)).InReach packet

/-- Two fresh hosts. -/
def start (config : Side → IpHostConfig) : Exec Internet := do
  let a ← IpHost.new (config .a)
  let b ← IpHost.new (config .b)
  .ok
    { station := fun
        | .a => { host := a, written := [], events := [] }
        | .b => { host := b, written := [], events := [] }
      sent := fun _ => [] }

/-- Addresses and ports of the two hosts are crossed, and a segment fits in a datagram. -/
structure Paired (config : Side → IpHostConfig) : Prop where
  ips : ∀ side, (config side).localIp = (config side.peer).peerIp
  ports : ∀ side, (config side).localPort = (config side.peer).peerPort
  payload : ∀ side, (config side).senderConfig.maxPayloadSize ≤ 65495

/-- The states the two hosts can be in. -/
def Reachable (config : Side → IpHostConfig) (w : Internet) : Prop :=
  ∃ w0 moves, start config = .ok w0 ∧ Exec.RunWhile Allowed step w0 moves w

/-- The connections of the hosts, and the segments they have sent. -/
def toWorld (w : Internet) : Network.World where
  endpoint := fun side => endpointOf (w.station side)
  sent := fun side => (w.sent side).filterMap Parcel.packet

variable {w : Internet} {side : Side} {station : Station} {more : List Parcel}

@[simp] theorem emit_station_self : (w.emit side station more).station side = station :=
  Function.update_self ..

@[simp] theorem emit_station_peer :
    (w.emit side station more).station side.peer = w.station side.peer :=
  Function.update_of_ne side.peer_ne ..

@[simp] theorem emit_sent_self : (w.emit side station more).sent side = w.sent side ++ more :=
  Function.update_self ..

@[simp] theorem emit_sent_peer : (w.emit side station more).sent side.peer = w.sent side.peer :=
  Function.update_of_ne side.peer_ne ..

end Internet

end Minnow
