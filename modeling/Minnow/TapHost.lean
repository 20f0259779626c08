import Minnow.EthernetFrame
import Minnow.IpHost.Dispatch
import Minnow.NetworkInterface.Basic

set_option autoImplicit false

/-! # The host on a TAP device

`tap_host.rs`: a host behind a network interface. A turn of the main loop takes the frames that
the device holds, then what the application has done, then the time that has passed, and writes
the frames that the interface has collected meanwhile. What the device reads and writes is also
dumped, if a capture was asked for.

Here the device, the terminal, the clock and the file answer every call, and the device is the list
of frames that it was given. An error that the program makes itself, of an empty frame or one that
is too long to be captured, is a stop. `TapMain` has the errors of the calls too, and does what is
said here until one fails.
-/

namespace Minnow

open IpHost

inductive AppEvent where
  | data (bytes : Bytes)
  | close
  deriving DecidableEq, Repr

/-- The variables of `main`, with what was printed, written and dumped so far. -/
structure TapHost where
  interface : NetworkInterface
  host : IpHost
  events : List IpHostEvent
  written : List Bytes
  pcap : Option (List Bytes)

namespace TapHost

/-- A packet that is longer than a `u32` can say is refused. -/
def dumpPacket (t : TapHost) (packet : Bytes) : Exec TapHost :=
  match t.pcap with
  | none => .ok t
  | some packets => do
      Exec.assert (packet.length < 2 ^ 32)
      .ok { t with pcap := some (packets ++ [packet]) }

/-- `TapDevice::write_frame`, which refuses an empty frame. -/
def writeFrame (t : TapHost) (frame : Bytes) : Exec TapHost := do
  Exec.assert (frame ≠ [])
  .ok { t with written := t.written ++ [frame] }

/-- The loop of `send_host_output_to_interface`. -/
def sendDatagrams (interface : NetworkInterface) : List Ipv4Datagram → Exec NetworkInterface
  | [] => .ok interface
  | datagram :: rest => do
      let interface ← interface.sendDatagram datagram datagram.header.dst
      sendDatagrams interface rest

def sendHostOutputToInterface (t : TapHost) (output : IpHostOutput) : Exec TapHost := do
  let interface ← sendDatagrams t.interface output.datagrams
  .ok { t with interface := interface, events := t.events ++ output.events }

/-- The host does something, and its output goes to the interface. -/
def operate (t : TapHost) (op : HostOp) : Exec TapHost := do
  let (host, output) ← t.host.perform op
  sendHostOutputToInterface { t with host := host } output

/-- The loop of `drain_interface_datagrams`, on an iteration budget. -/
def drainLoop : Nat → TapHost → Exec TapHost
  | 0, _ => .error .divergence
  | budget + 1, t =>
      let (interface, popped) := t.interface.popDatagram
      let t := { t with interface := interface }
      match popped with
      | none => .ok t
      | some datagram => do
          let t ← t.operate (.receiveDatagram datagram)
          drainLoop budget t

/-- The last round finds the queue empty. -/
def drainInterfaceDatagrams (t : TapHost) : Exec TapHost :=
  drainLoop (t.interface.datagramsIn.length + 1) t

/-- One round of `drain_tap_frames`. -/
def drainFrame (t : TapHost) (frameBytes : Bytes) : Exec TapHost := do
  let t ← t.dumpPacket frameBytes
  match ← EthernetFrame.parseBytes frameBytes with
  | .ok frame => do
      let interface ← t.interface.recvFrame frame
      drainInterfaceDatagrams { t with interface := interface }
  | .error _ => .ok t

/-- The frames that `read_frame` returns until it would block. -/
def drainTapFrames (t : TapHost) (frames : List Bytes) : Exec TapHost :=
  Exec.run drainFrame t frames

def drainAppEvent (t : TapHost) : AppEvent → Exec TapHost
  | .data bytes => t.operate (.write bytes)
  | .close => t.operate .close

def drainAppEvents (t : TapHost) (events : List AppEvent) : Exec TapHost :=
  Exec.run drainAppEvent t events

/-- The time that has passed, for interface and host. -/
def tick (t : TapHost) (elapsedMs : Nat) : Exec TapHost :=
  operate { t with interface := t.interface.tick elapsedMs } (.tick elapsedMs)

/-- The loop of `flush_interface_frames`, on an iteration budget. -/
def flushLoop : Nat → TapHost → Exec TapHost
  | 0, _ => .error .divergence
  | budget + 1, t =>
      let (interface, popped) := t.interface.popFrame
      let t := { t with interface := interface }
      match popped with
      | none => .ok t
      | some frame => do
          let frameBytes := frame.serialize
          let t ← t.dumpPacket frameBytes
          let t ← t.writeFrame frameBytes
          flushLoop budget t

def flushInterfaceFrames (t : TapHost) : Exec TapHost :=
  flushLoop (t.interface.framesOut.length + 1) t

/-- The variables as `main` declares them. -/
def new (localMac : EthernetAddress) (config : IpHostConfig) (capture : Bool) : Exec TapHost := do
  let host ← IpHost.new config
  .ok
    { interface := NetworkInterface.new localMac config.localIp
      host := host
      events := []
      written := []
      pcap := if capture then some [] else none }

/-- What `main` does before its loop. -/
def start (localMac : EthernetAddress) (config : IpHostConfig) (capture : Bool) : Exec TapHost := do
  let t ← new localMac config capture
  let t ← t.operate .connect
  t.flushInterfaceFrames

/-- What happens between two rounds of the main loop. -/
structure Turn where
  frames : List Bytes
  events : List AppEvent
  elapsedMs : Nat
  deriving DecidableEq, Repr

/-- One round of the main loop. -/
def turn (t : TapHost) (turn : Turn) : Exec TapHost := do
  let t ← t.drainTapFrames turn.frames
  let t ← t.drainAppEvents turn.events
  let t ← if 0 < turn.elapsedMs then t.tick turn.elapsedMs else .ok t
  t.flushInterfaceFrames

/-! ## Rounds as steps -/

/-- The single things a round does. -/
inductive TapOp where
  | connect
  | frame (frameBytes : Bytes)
  | app (event : AppEvent)
  | tick (elapsedMs : Nat)
  | flush
  deriving DecidableEq, Repr

def step (t : TapHost) : TapOp → Exec TapHost
  | .connect => t.operate .connect
  | .frame frameBytes => t.drainFrame frameBytes
  | .app event => t.drainAppEvent event
  | .tick elapsedMs => t.tick elapsedMs
  | .flush => t.flushInterfaceFrames

/-- The steps of a round but for the last one. -/
def Turn.work (turn : Turn) : List TapOp :=
  turn.frames.map .frame ++ turn.events.map .app ++
    (if 0 < turn.elapsedMs then [.tick turn.elapsedMs] else [])

/-- A round as a list of steps. -/
def Turn.ops (turn : Turn) : List TapOp := turn.work ++ [.flush]

end TapHost

end Minnow
