import Minnow.Outside
import Minnow.TapHost

set_option autoImplicit false

/-! # The program on a TAP device

`tap_host.rs` with all its calls and their errors: what `TapHost` is when every call is answered.
The device gives frames and errors, of which only some end the program; the application is a list of
events for each round.
-/

namespace Minnow

open IpHost

/-- The variables of `main`. -/
structure TapMain where
  interface : NetworkInterface
  host : IpHost
  wasEstablished : Bool

namespace TapMain

/-- `TapDevice::write_frame` -/
def writeFrame (env : Env) (frame : Bytes) : Program Unit :=
  Outside.writeDevice env "cannot write an empty frame to TAP" frame

def sendHostOutputToInterface (env : Env) (m : TapMain) (output : IpHostOutput) :
    Program TapMain := do
  Outside.printEvents env output.events
  let interface ← Io.exec (TapHost.sendDatagrams m.interface output.datagrams)
  return { m with interface := interface }

/-- The host does something, and its output goes to the interface. -/
def operate (env : Env) (m : TapMain) (op : HostOp) : Program TapMain := do
  let (host, output) ← Io.exec (m.host.perform op)
  sendHostOutputToInterface env { m with host := host } output

/-- The loop of `drain_interface_datagrams`, on an iteration budget. -/
def drainLoop (env : Env) : Nat → TapMain → Program TapMain
  | 0, _ => Io.exec (.error .divergence)
  | budget + 1, m =>
      let (interface, popped) := m.interface.popDatagram
      let m := { m with interface := interface }
      match popped with
      | none => pure m
      | some datagram => do
          let m ← operate env m (.receiveDatagram datagram)
          drainLoop env budget m

def drainInterfaceDatagrams (env : Env) (m : TapMain) : Program TapMain :=
  drainLoop env (m.interface.datagramsIn.length + 1) m

/-- What `drain_tap_frames` does with a frame. -/
def drainFrame (env : Env) (m : TapMain) (frameBytes : Bytes) : Program TapMain := do
  Outside.received frameBytes
  Outside.dumpPacket env frameBytes
  match ← Io.exec (EthernetFrame.parseBytes frameBytes) with
  | .ok frame => do
      let interface ← Io.exec (m.interface.recvFrame frame)
      drainInterfaceDatagrams env { m with interface := interface }
  | .error _ => do
      Outside.eprintln env
      return m

def drainTapFrames (env : Env) (m : TapMain) (reads : List (Except IoError Bytes)) :
    Program TapMain :=
  Outside.drain (drainFrame env) m reads

def drainAppEvent (env : Env) (m : TapMain) : AppEvent → Program TapMain
  | .data bytes => do
      let (host, accepted, output) ← Io.exec (m.host.write bytes)
      if accepted < bytes.length then Outside.eprintln env
      sendHostOutputToInterface env { m with host := host } output
  | .close => do
      Outside.eprintln env
      operate env m .close

def drainAppEvents (env : Env) (m : TapMain) (events : List AppEvent) : Program TapMain :=
  Io.run (drainAppEvent env) m events

/-- The time that has passed, for interface and host. -/
def tick (env : Env) (m : TapMain) (elapsedMs : Nat) : Program TapMain :=
  operate env { m with interface := m.interface.tick elapsedMs } (.tick elapsedMs)

/-- The loop of `flush_interface_frames`, on an iteration budget. -/
def flushLoop (env : Env) : Nat → TapMain → Program TapMain
  | 0, _ => Io.exec (.error .divergence)
  | budget + 1, m =>
      let (interface, popped) := m.interface.popFrame
      let m := { m with interface := interface }
      match popped with
      | none => pure m
      | some frame => do
          let frameBytes := frame.serialize
          Outside.dumpPacket env frameBytes
          writeFrame env frameBytes
          flushLoop env budget m

def flushInterfaceFrames (env : Env) (m : TapMain) : Program TapMain :=
  flushLoop env (m.interface.framesOut.length + 1) m

/-- The messages at the end of a round. -/
def announce (env : Env) (m : TapMain) : Program TapMain := do
  let m ←
    if m.host.connection.isEstablished ∧ ¬ m.wasEstablished then do
      Outside.eprintlns env 2
      pure { m with wasEstablished := true }
    else pure m
  if m.host.connection.isFinished then Outside.eprintlns env 2
  return m

/-- What `main` does before its loop. -/
def start (env : Env) (localMac : EthernetAddress) (config : IpHostConfig) (capture : Bool) :
    Program TapMain := do
  Outside.eprintlns env (if capture then 8 else 7)
  -- the device is opened and made nonblocking
  Outside.askDevice env
  Outside.askDevice env
  Outside.createPcap env .ethernet capture
  Outside.eprintln env
  let host ← Io.exec (IpHost.new config)
  let m : TapMain :=
    { interface := NetworkInterface.new localMac config.localIp
      host := host
      wasEstablished := false }
  Outside.spawnStdinThread env
  Outside.eprintln env
  let m ← operate env m .connect
  let m ← flushInterfaceFrames env m
  Outside.eprintlns env 3
  return m

/-- What the calls answer in a round: the reads, the channel and the clock. -/
structure Turn where
  reads : List (Except IoError Bytes)
  events : List AppEvent
  elapsedMs : Nat
  deriving DecidableEq, Repr

/-- One round of the main loop. -/
def turn (env : Env) (m : TapMain) (turn : Turn) : Program TapMain := do
  let m ← drainTapFrames env m turn.reads
  let m ← drainAppEvents env m turn.events
  let m ← if 0 < turn.elapsedMs then tick env m turn.elapsedMs else pure m
  let m ← flushInterfaceFrames env m
  announce env m

/-- The loop has no end of its own: a run is any number of its rounds. -/
def main (env : Env) (localMac : EthernetAddress) (config : IpHostConfig) (capture : Bool)
    (turns : List Turn) : Program TapMain := do
  let m ← start env localMac config capture
  Io.run (turn env) m turns

end TapMain

end Minnow
