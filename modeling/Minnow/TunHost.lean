import Minnow.TapHost

set_option autoImplicit false

/-! # The host on a TUN device

`tun_host.rs`: a host that reads and writes packets. A turn of the main loop takes the packets that
the device holds, then what the application has done, then the time that has passed; what the host
answers is written at once. As at the other device, every call is answered here, and an error that
the program makes itself is a stop; `TunMain` has the errors of the calls.
-/

namespace Minnow

open IpHost

/-- The variables of `main`, with what was printed, written and dumped so far. -/
structure TunHost where
  host : IpHost
  events : List IpHostEvent
  written : List Bytes
  pcap : Option (List Bytes)

namespace TunHost

/-- A packet that is longer than a `u32` can say is refused. -/
def dumpPacket (t : TunHost) (packet : Bytes) : Exec TunHost :=
  match t.pcap with
  | none => .ok t
  | some packets => do
      Exec.assert (packet.length < 2 ^ 32)
      .ok { t with pcap := some (packets ++ [packet]) }

/-- `TunDevice::write_packet`, which refuses an empty packet. -/
def writePacket (t : TunHost) (packet : Bytes) : Exec TunHost := do
  Exec.assert (packet ≠ [])
  .ok { t with written := t.written ++ [packet] }

/-- The loop of `emit_output`. -/
def emitDatagrams (t : TunHost) : List Ipv4Datagram → Exec TunHost
  | [] => .ok t
  | datagram :: rest => do
      let packet ← datagram.serialize
      let t ← t.dumpPacket packet
      let t ← t.writePacket packet
      emitDatagrams t rest

def emitOutput (t : TunHost) (output : IpHostOutput) : Exec TunHost :=
  emitDatagrams { t with events := t.events ++ output.events } output.datagrams

/-- The host does something, and its output is emitted. -/
def operate (t : TunHost) (op : HostOp) : Exec TunHost := do
  let (host, output) ← t.host.perform op
  emitOutput { t with host := host } output

/-- One round of `drain_tun_packets`. -/
def drainPacket (t : TunHost) (packet : Bytes) : Exec TunHost := do
  let t ← t.dumpPacket packet
  t.operate (.receiveIpv4Bytes packet)

/-- The packets that `read_packet` returns until it would block. -/
def drainTunPackets (t : TunHost) (packets : List Bytes) : Exec TunHost :=
  Exec.run drainPacket t packets

def drainAppEvent (t : TunHost) : AppEvent → Exec TunHost
  | .data bytes => t.operate (.write bytes)
  | .close => t.operate .close

def drainAppEvents (t : TunHost) (events : List AppEvent) : Exec TunHost :=
  Exec.run drainAppEvent t events

/-- The variables as `main` declares them. -/
def new (config : IpHostConfig) (capture : Bool) : Exec TunHost := do
  let host ← IpHost.new config
  .ok
    { host := host
      events := []
      written := []
      pcap := if capture then some [] else none }

/-- What `main` does before its loop. -/
def start (config : IpHostConfig) (capture : Bool) : Exec TunHost := do
  let t ← new config capture
  t.operate .connect

/-- What happens between two rounds of the main loop. -/
structure Turn where
  packets : List Bytes
  events : List AppEvent
  elapsedMs : Nat
  deriving DecidableEq, Repr

/-- One round of the main loop. -/
def turn (t : TunHost) (turn : Turn) : Exec TunHost := do
  let t ← t.drainTunPackets turn.packets
  let t ← t.drainAppEvents turn.events
  if 0 < turn.elapsedMs then t.operate (.tick turn.elapsedMs) else .ok t

/-! ## Rounds as steps -/

/-- The single things a round does. -/
inductive TunOp where
  | connect
  | packet (packet : Bytes)
  | app (event : AppEvent)
  | tick (elapsedMs : Nat)
  deriving DecidableEq, Repr

def step (t : TunHost) : TunOp → Exec TunHost
  | .connect => t.operate .connect
  | .packet packet => t.drainPacket packet
  | .app event => t.drainAppEvent event
  | .tick elapsedMs => t.operate (.tick elapsedMs)

/-- A round as a list of steps. -/
def Turn.ops (turn : Turn) : List TunOp :=
  turn.packets.map .packet ++ turn.events.map .app ++
    (if 0 < turn.elapsedMs then [.tick turn.elapsedMs] else [])

/-- What a step does to the host. -/
def TunOp.hostOp : TunOp → HostOp
  | .connect => .connect
  | .packet bytes => .receiveIpv4Bytes bytes
  | .app (.data bytes) => .write bytes
  | .app .close => .close
  | .tick elapsedMs => .tick elapsedMs

end TunHost

end Minnow
