import Minnow.IpHost.Basic
import Minnow.Library.Io
import Minnow.Pcap

set_option autoImplicit false

/-! # What lies outside the programs

The two demo programs write to a device and to a terminal, start a thread, ask a clock and write a
file, and each of these calls can fail. `Env` says what is answered to them. A program passes an
error on with `?`, until `main` returns it; the macros that print and `thread::spawn` panic instead.
`Outside` is which calls were made, and what they have done so far.
-/

namespace Minnow

/-- The calls. Those on the capture are all that `dump_packet` or `PcapWriter::create` makes. -/
inductive Call where
  | read
  | print
  | flush
  | thread
  | device
  | create
  | dump
  deriving DecidableEq, Repr

/-- What is answered to a call that is no read, by the number of calls before it; of the file, one
by one. -/
structure Env where
  device : Nat → Option IoError
  terminal : Nat → Option IoError
  thread : Nat → Option IoError
  clock : Nat → Except IoError Timestamp
  created : Nat → Option IoError
  disk : Nat → Nat → Option (Nat × IoError)

/-- An outside that answers every call. -/
def Env.calm : Env where
  device := fun _ => none
  terminal := fun _ => none
  thread := fun _ => none
  clock := fun call => .ok ⟨UInt64.ofNat call, 0⟩
  created := fun _ => none
  disk := fun _ _ => none

/-- The device answers an error from that call on. -/
def Env.unplugged (calls : Nat) (err : IoError) : Env :=
  { Env.calm with device := fun call => if call < calls then none else some err }

/-- How a program ends before its time: `main` returns an error, or a call panics that has no other
way to say so. -/
inductive Failure where
  | error (err : IoError)
  | panic (err : IoError)
  deriving DecidableEq, Repr

/-- The calls, the events that were printed, the packets that the device has taken, all the packets
that it has given or taken, and the capture with the file behind it. -/
structure Outside where
  calls : List Call
  events : List IpHostEvent
  written : List Bytes
  traffic : List Bytes
  pcap : Option PcapWriter

abbrev Program (α : Type) : Type := Io Outside Failure α

namespace Outside

def start : Outside where
  calls := []
  events := []
  written := []
  traffic := []
  pcap := none

/-- One more call. -/
def made (s : Outside) (call : Call) : Outside := { s with calls := s.calls ++ [call] }

/-- A call that does what it has to, or fails. -/
def ask (call : Call) (answer : Nat → Option IoError) (fail : IoError → Failure) : Program Unit :=
  fun s =>
    match answer s.calls.length with
    | none => .ok (.ok (), s.made call)
    | some err => .ok (.error (fail err), s.made call)

/-! ## The terminal -/

def eprintln (env : Env) : Program Unit := ask .print env.terminal .panic

/-- So many lines. -/
def eprintlns (env : Env) : Nat → Program Unit
  | 0 => pure ()
  | lines + 1 => do
      eprintln env
      eprintlns env lines

def print (env : Env) : Program Unit := ask .print env.terminal .panic

/-- `io::stdout().flush()` -/
def flush (env : Env) : Program Unit := ask .flush env.terminal .error

/-- One round of `print_events`. -/
def printEvent (env : Env) (event : IpHostEvent) : Program Unit := do
  match event with
  | .tcpPayload _ => do
      print env
      flush env
  | _ => eprintln env
  Io.modify fun s => { s with events := s.events ++ [event] }

def printEvents (env : Env) : List IpHostEvent → Program Unit
  | [] => pure ()
  | event :: rest => do
      printEvent env event
      printEvents env rest

/-- `spawn_stdin_thread` -/
def spawnStdinThread (env : Env) : Program Unit := ask .thread env.thread .panic

/-! ## The device and the capture -/

/-- A call on the device that returns nothing. -/
def askDevice (env : Env) : Program Unit := ask .device env.device .error

/-- The device is read. -/
def read : Program Unit := Io.modify (made · .read)

/-- The loop that reads until the device would block, as it does after the last of its answers. -/
def drain {α : Type} (take : α → Bytes → Program α) :
    α → List (Except IoError Bytes) → Program α
  | a, [] => do
      read
      pure a
  | a, .ok packet :: rest => do
      read
      let a ← take a packet
      drain take a rest
  | a, .error err :: rest => do
      read
      match err.kind with
      | .wouldBlock => pure a
      | .interrupted => drain take a rest
      | _ => Io.throw (.error err)

/-- The device has given a packet. -/
def received (packet : Bytes) : Program Unit :=
  Io.modify fun s => { s with traffic := s.traffic ++ [packet] }

/-- `write_packet` and `write_frame`, which refuse an empty packet with this message. A packet of
which the device answers an error is not sent. -/
def writeDevice (env : Env) (message : String) (packet : Bytes) : Program Unit :=
  if packet = [] then Io.throw (.error ⟨.invalidInput, message⟩)
  else do
    askDevice env
    Io.modify fun s =>
      { s with written := s.written ++ [packet], traffic := s.traffic ++ [packet] }

/-- `PcapWriter::create`, if a capture was asked for. -/
def createPcap (env : Env) (linkType : PcapLinkType) (capture : Bool) : Program Unit := fun s =>
  if capture then
    match PcapWriter.create linkType (env.created s.calls.length) (env.disk s.calls.length) with
    | .error err => .ok (.error (.error err), s.made .create)
    | .ok writer => .ok (.ok (), { s.made .create with pcap := some writer })
  else .ok (.ok (), s)

/-- `dump_packet` -/
def dumpPacket (env : Env) (packet : Bytes) : Program Unit := fun s =>
  match s.pcap with
  | none => .ok (.ok (), s)
  | some writer =>
      let (failed, writer) :=
        writer.writePacket (env.clock s.calls.length) (env.disk s.calls.length) packet
      let s1 := { s.made .dump with pcap := some writer }
      match failed with
      | none => .ok (.ok (), s1)
      | some err => .ok (.error (.error err), s1)

end Outside

end Minnow
