import Minnow.Library.Side
import Minnow.TcpConnection.Basic
import Mathlib.Logic.Function.Basic

set_option autoImplicit false

/-! # Two connections and the network between them

Everything an endpoint has emitted stays available to the network, which delivers it any
number of times, in any order, or never. A packet is a segment with the absolute numbers its
sequence number and its acknowledgment stand for; they are not visible to the endpoints and
only say how far a delayed segment is from the state that meets it.
-/

namespace Minnow

namespace Network

/-- A segment with the absolute numbers of its first symbol and of its acknowledgment. -/
structure Packet where
  segment : TcpSegment
  seqno : Nat
  ackno : Option Nat
  deriving DecidableEq, Repr

/-- A connection, the bytes `write` has accepted and the bytes that were read. -/
structure Endpoint where
  connection : TcpConnection
  written : Bytes
  read : Bytes

structure World where
  endpoint : Side → Endpoint
  sent : Side → List Packet

/-- The segments with the absolute sequence numbers from `start` on. -/
def packets (ackno : Option Nat) : Nat → List TcpSegment → List Packet
  | _, [] => []
  | start, segment :: rest =>
      { segment := segment, seqno := start, ackno := ackno } ::
        packets ackno (start + segment.toSenderMessage.sequenceLength) rest

/-- The absolute number that the connection acknowledges. -/
def Endpoint.ackno (endpoint : Endpoint) : Option Nat :=
  endpoint.connection.receiver.isn.map
    (fun _ => endpoint.connection.receiver.absoluteAckno)

/-- The new state of one endpoint, and the segments it has emitted from `start` on. -/
def World.emit (w : World) (side : Side) (endpoint : Endpoint) (start : Nat)
    (segments : List TcpSegment) : World where
  endpoint := Function.update w.endpoint side endpoint
  sent := Function.update w.sent side
    (w.sent side ++ packets endpoint.ackno start segments)

inductive NetOp where
  | connect (side : Side)
  | write (side : Side) (data : Bytes)
  | close (side : Side)
  | tick (side : Side) (elapsedMs : Nat)
  | read (side : Side) (len : Nat)
  | deliver (side : Side) (i : Nat)
  deriving DecidableEq, Repr

/-- New segments start at `SND.NXT`, a retransmission at `SND.UNA`. -/
def World.step (w : World) : NetOp → Exec World
  | .connect side => do
      let e := w.endpoint side
      let (connection, segments) ← e.connection.connect
      .ok (w.emit side { e with connection := connection } e.connection.sender.sndNxt segments)
  | .write side data => do
      let e := w.endpoint side
      let (connection, accepted, segments) ← e.connection.write data
      .ok (w.emit side
        { e with connection := connection, written := e.written ++ data.take accepted }
        e.connection.sender.sndNxt segments)
  | .close side => do
      let e := w.endpoint side
      let (connection, segments) ← e.connection.close
      .ok (w.emit side { e with connection := connection } e.connection.sender.sndNxt segments)
  | .tick side elapsedMs => do
      let e := w.endpoint side
      let (connection, segments) ← e.connection.tick elapsedMs
      .ok (w.emit side { e with connection := connection } e.connection.sender.sndUna segments)
  | .read side len =>
      let e := w.endpoint side
      .ok (w.emit side
        { e with
          connection := (e.connection.read len).1
          read := e.read ++ (e.connection.read len).2 }
        e.connection.sender.sndNxt [])
  | .deliver side i =>
      match (w.sent side.peer)[i]? with
      | none => .ok w
      | some packet => do
          let e := w.endpoint side
          let (connection, segments) ← e.connection.receiveSegment packet.segment
          .ok (w.emit side { e with connection := connection } e.connection.sender.sndNxt segments)

/-- Both numbers of the packet are less than half a cycle away from what the endpoint
compares them with. -/
def Endpoint.InReach (endpoint : Endpoint) (packet : Packet) : Prop :=
  absDiff packet.seqno (endpoint.connection.receiver.output.bytesPushed + 1) ≤ 2 ^ 31 - 1 ∧
    ∀ ackno ∈ packet.ackno, absDiff ackno endpoint.connection.sender.sndNxt ≤ 2 ^ 31 - 1

instance (endpoint : Endpoint) (packet : Packet) : Decidable (endpoint.InReach packet) :=
  inferInstanceAs (Decidable (_ ∧ ∀ ackno ∈ packet.ackno, _))

/-- The assumptions on the network and on the length of the streams. -/
def World.Allowed (w : World) : NetOp → Prop
  | .write side data => (w.endpoint side).written.length +
      ((w.endpoint side).connection.sender.write data).2 < 2 ^ 63
  | .deliver side i => ∀ packet ∈ (w.sent side.peer)[i]?, (w.endpoint side).InReach packet
  | _ => True

instance (w : World) : (op : NetOp) → Decidable (w.Allowed op)
  | .write _ _ => inferInstanceAs (Decidable (_ < _))
  | .deliver side i => inferInstanceAs (Decidable (∀ packet ∈ (w.sent side.peer)[i]?, _))
  | .connect _ | .close _ | .tick _ _ | .read _ _ => inferInstanceAs (Decidable True)

/-- Two fresh connections. -/
def start (config : Side → TcpConnectionConfig) : Exec World := do
  let a ← TcpConnection.new (config .a)
  let b ← TcpConnection.new (config .b)
  .ok
    { endpoint := fun
        | .a => { connection := a, written := [], read := [] }
        | .b => { connection := b, written := [], read := [] }
      sent := fun _ => [] }

/-- The ports of the two connections are crossed. -/
def Crossed (config : Side → TcpConnectionConfig) : Prop :=
  ∀ side, (config side).localPort = (config side.peer).peerPort

/-- The states the two connections can be in. -/
def Reachable (w : World) : Prop :=
  ∃ config w0 ops, Crossed config ∧ start config = .ok w0 ∧
    Exec.RunWhile World.Allowed World.step w0 ops w

variable {w : World} {side : Side} {endpoint : Endpoint} {first : Nat}
  {segments : List TcpSegment}

@[simp] theorem emit_endpoint_self : (w.emit side endpoint first segments).endpoint side = endpoint :=
  Function.update_self ..

@[simp] theorem emit_endpoint_peer :
    (w.emit side endpoint first segments).endpoint side.peer = w.endpoint side.peer :=
  Function.update_of_ne side.peer_ne ..

@[simp] theorem emit_sent_self : (w.emit side endpoint first segments).sent side
    = w.sent side ++ packets endpoint.ackno first segments :=
  Function.update_self ..

@[simp] theorem emit_sent_peer :
    (w.emit side endpoint first segments).sent side.peer = w.sent side.peer :=
  Function.update_of_ne side.peer_ne ..

end Network

end Minnow
