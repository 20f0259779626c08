import Minnow.Outside
import Minnow.TunHost

set_option autoImplicit false

/-! # The program on a TUN device

`tun_host.rs` with all its calls and their errors: what `TunHost` is when every call is answered.
-/

namespace Minnow

open IpHost

/-- The variables of `main`. -/
structure TunMain where
  host : IpHost
  wasEstablished : Bool

namespace TunMain

/-- `TunDevice::write_packet` -/
def writePacket (env : Env) (packet : Bytes) : Program Unit :=
  Outside.writeDevice env "cannot write an empty packet to TUN" packet

/-- The loop of `emit_output`. -/
def emitDatagrams (env : Env) : List Ipv4Datagram → Program Unit
  | [] => pure ()
  | datagram :: rest => do
      let packet ← Io.exec datagram.serialize
      Outside.dumpPacket env packet
      writePacket env packet
      emitDatagrams env rest

def emitOutput (env : Env) (output : IpHostOutput) : Program Unit := do
  Outside.printEvents env output.events
  emitDatagrams env output.datagrams

/-- The host does something, and its output is emitted. -/
def operate (env : Env) (m : TunMain) (op : HostOp) : Program TunMain := do
  let (host, output) ← Io.exec (m.host.perform op)
  emitOutput env output
  return { m with host := host }

/-- What `drain_tun_packets` does with a packet. -/
def drainPacket (env : Env) (m : TunMain) (packet : Bytes) : Program TunMain := do
  Outside.received packet
  Outside.dumpPacket env packet
  operate env m (.receiveIpv4Bytes packet)

def drainTunPackets (env : Env) (m : TunMain) (reads : List (Except IoError Bytes)) :
    Program TunMain :=
  Outside.drain (drainPacket env) m reads

def drainAppEvent (env : Env) (m : TunMain) : AppEvent → Program TunMain
  | .data bytes => do
      let (host, accepted, output) ← Io.exec (m.host.write bytes)
      if accepted < bytes.length then Outside.eprintln env
      emitOutput env output
      return { m with host := host }
  | .close => do
      Outside.eprintln env
      operate env m .close

def drainAppEvents (env : Env) (m : TunMain) (events : List AppEvent) : Program TunMain :=
  Io.run (drainAppEvent env) m events

/-- The messages at the end of a round. -/
def announce (env : Env) (m : TunMain) : Program TunMain := do
  let m ←
    if m.host.connection.isEstablished ∧ ¬ m.wasEstablished then do
      Outside.eprintlns env 2
      pure { m with wasEstablished := true }
    else pure m
  if m.host.connection.isFinished then Outside.eprintlns env 2
  return m

/-- What `main` does before its loop. -/
def start (env : Env) (config : IpHostConfig) (capture : Bool) : Program TunMain := do
  Outside.eprintlns env (if capture then 7 else 6)
  -- the device is opened and made nonblocking
  Outside.askDevice env
  Outside.askDevice env
  Outside.createPcap env .rawIpv4 capture
  Outside.eprintln env
  let host ← Io.exec (IpHost.new config)
  let m : TunMain := { host := host, wasEstablished := false }
  Outside.spawnStdinThread env
  Outside.eprintln env
  let m ← operate env m .connect
  Outside.eprintlns env 3
  return m

/-- What the calls answer in a round: the reads, the channel and the clock. -/
structure Turn where
  reads : List (Except IoError Bytes)
  events : List AppEvent
  elapsedMs : Nat
  deriving DecidableEq, Repr

/-- One round of the main loop. -/
def turn (env : Env) (m : TunMain) (turn : Turn) : Program TunMain := do
  let m ← drainTunPackets env m turn.reads
  let m ← drainAppEvents env m turn.events
  let m ← if 0 < turn.elapsedMs then operate env m (.tick turn.elapsedMs) else pure m
  announce env m

/-- As at the other device, a run is any number of rounds. -/
def main (env : Env) (config : IpHostConfig) (capture : Bool) (turns : List Turn) :
    Program TunMain := do
  let m ← start env config capture
  Io.run (turn env) m turns

end TunMain

end Minnow
