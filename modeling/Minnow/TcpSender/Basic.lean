import Minnow.TcpMessage

set_option autoImplicit false

/-! # The sending half of a connection

`tcp_sender.rs`: bytes wait in `outbound` until the peer's window lets `push` cut them into
segments; transmitted segments stay in `outstanding` until they are acknowledged, and a
timer retransmits the oldest one.

The operations return the messages they hand to `transmit`, in order. The loop of `push`
gets one iteration for every sequence number of the window.
-/

namespace Minnow

structure TcpSenderConfig where
  initialRtoMs : UInt64
  maxTimerIntervalMs : UInt64
  maxPayloadSize : Nat

inductive TimerMode where
  | retransmission
  | persist
  deriving DecidableEq, Repr

/-! ## The timer -/

structure Timer where
  running : Bool
  elapsedMs : Nat
  timeoutMs : Nat
  mode : Option TimerMode
  deriving DecidableEq, Repr

namespace Timer

/-- A timer that was never started, and one that was stopped. -/
def stopped : Timer where
  running := false
  elapsedMs := 0
  timeoutMs := 0
  mode := none

def restart (timeoutMs : Nat) (mode : TimerMode) : Exec Timer := do
  Exec.assert (0 < timeoutMs)
  .ok { running := true, elapsedMs := 0, timeoutMs := timeoutMs, mode := some mode }

/-- The timer after `elapsedMs` more milliseconds, and whether it has expired. -/
def tick (timer : Timer) (elapsedMs : Nat) : Timer × Bool :=
  if !timer.running then (timer, false)
  else
    let elapsed := saturatingAdd timer.elapsedMs elapsedMs
    ({ timer with elapsedMs := elapsed }, decide (timer.timeoutMs ≤ elapsed))

/-- `Timer::timeout_ms`. -/
def timeout? (timer : Timer) : Option Nat := if timer.running then some timer.timeoutMs else none

end Timer

/-! ## Outstanding segments -/

structure OutstandingSegment where
  absoluteStart : Nat
  message : TcpSenderMessage
  deriving DecidableEq, Repr

namespace OutstandingSegment

def sequenceLength (segment : OutstandingSegment) : Nat := segment.message.sequenceLength

def absoluteEnd (segment : OutstandingSegment) : Exec Nat :=
  Exec.expect (checkedAdd segment.absoluteStart segment.sequenceLength)

/-- Remove an acknowledged prefix: SYN, payload bytes and FIN, in that order. -/
def trimPrefix (segment : OutstandingSegment) (acknowledgedLength : Nat) (isn : Wrap32) :
    Exec OutstandingSegment := do
  Exec.assert (0 < acknowledgedLength)
  Exec.assert (acknowledgedLength < segment.sequenceLength)
  let message := segment.message
  let trimSyn := message.syn && decide (0 < acknowledgedLength)
  let remaining := acknowledgedLength - trimSyn.toNat
  let payloadToDrop := min remaining message.payload.length
  let sliced :=
    if 0 < payloadToDrop then sliceFrom message.payload payloadToDrop else .ok message.payload
  let payload ← sliced
  let remaining := remaining - payloadToDrop
  let trimFin := message.fin && decide (0 < remaining)
  Exec.assert (trimFin = true → remaining = 1)
  let remaining := remaining - trimFin.toNat
  Exec.assert (remaining = 0)
  let absoluteStart ← Exec.expect (checkedAdd segment.absoluteStart acknowledgedLength)
  let trimmed : TcpSenderMessage :=
    { message with
      seqno := Wrap32.wrap absoluteStart isn
      syn := message.syn && !trimSyn
      payload := payload
      fin := message.fin && !trimFin }
  Exec.assert (trimmed.isEmptyInSequenceSpace = false)
  .ok { absoluteStart := absoluteStart, message := trimmed }

end OutstandingSegment

/-! ## The sender -/

structure TcpSender where
  outbound : ByteStream
  isn : Wrap32
  sndUna : Nat
  sndNxt : Nat
  advertisedWindow : Nat
  outstanding : List OutstandingSegment
  synSent : Bool
  finSent : Bool
  config : TcpSenderConfig
  currentRtoMs : Nat
  persistIntervalMs : Nat
  timer : Timer
  consecutiveRetransmissions : Nat

namespace TcpSender

def new (capacity : Nat) (isn : Wrap32) (config : TcpSenderConfig) : Exec TcpSender := do
  Exec.assert (0 < config.initialRtoMs)
  Exec.assert (config.initialRtoMs ≤ config.maxTimerIntervalMs)
  Exec.assert (0 < config.maxPayloadSize)
  .ok
    { outbound := ByteStream.new capacity
      isn := isn
      sndUna := 0
      sndNxt := 0
      advertisedWindow := 1
      outstanding := []
      synSent := false
      finSent := false
      config := config
      currentRtoMs := config.initialRtoMs.toNat
      persistIntervalMs := config.initialRtoMs.toNat
      timer := Timer.stopped
      consecutiveRetransmissions := 0 }

def bytesInFlight (sender : TcpSender) : Exec Nat :=
  Exec.expect (checkedSub sender.sndNxt sender.sndUna)

def isFinished (sender : TcpSender) : Bool := sender.finSent && sender.outstanding.isEmpty

/-- The loop of `debug_check_invariants` over the outstanding segments. -/
def checkOutstanding : Nat → List OutstandingSegment → Exec Unit
  | _, [] => .ok ()
  | previousEnd, segment :: rest => do
      Exec.assert (segment.message.isEmptyInSequenceSpace = false)
      Exec.assert (previousEnd ≤ segment.absoluteStart)
      let segmentEnd ← segment.absoluteEnd
      checkOutstanding segmentEnd rest

def debugCheckInvariants (sender : TcpSender) : Exec Unit := do
  Exec.assert (sender.sndUna ≤ sender.sndNxt)
  checkOutstanding sender.sndUna sender.outstanding
  Exec.assert (∀ first ∈ sender.outstanding.head?, first.absoluteStart = sender.sndUna)
  Exec.assert (sender.outstanding = [] → sender.sndUna = sender.sndNxt)
  let inFlight ← sender.bytesInFlight
  Exec.assert (inFlight = sender.sndNxt - sender.sndUna)

/-- An empty carrier for an acknowledgment. -/
def makeEmptyMessage (sender : TcpSender) : TcpSenderMessage where
  seqno := Wrap32.wrap sender.sndNxt sender.isn
  syn := false
  payload := []
  fin := false
  rst := sender.outbound.error

def backedOff (sender : TcpSender) (timeoutMs : Nat) : Nat :=
  min (saturatingMul timeoutMs 2) sender.config.maxTimerIntervalMs.toNat

def restartTimerForCurrentWindow (sender : TcpSender) : Exec TcpSender :=
  if sender.outstanding = [] then .ok { sender with timer := Timer.stopped }
  else if sender.advertisedWindow = 0 then do
    let timer ← Timer.restart sender.persistIntervalMs .persist
    .ok { sender with timer := timer }
  else do
    let timer ← Timer.restart sender.currentRtoMs .retransmission
    .ok { sender with timer := timer }

/-! ## Transmitting new segments -/

def readOutboundPayload (outbound : ByteStream) (maxLen : Nat) : ByteStream × Bytes :=
  if maxLen = 0 then (outbound, []) else outbound.pop (min maxLen outbound.bytesBuffered)

/-- The body of the loop of `push` up to the test for an empty message: the message that
fills up to `available` sequence numbers. -/
def makeSegment (sender : TcpSender) (available : Nat) : TcpSender × TcpSenderMessage :=
  let empty := sender.makeEmptyMessage
  let syn := !sender.synSent && decide (0 < available)
  let remaining := available - syn.toNat
  let payloadBudget := min remaining sender.config.maxPayloadSize
  let (outbound, payload) := readOutboundPayload sender.outbound payloadBudget
  let remaining := remaining - payload.length
  let fin := !sender.finSent && outbound.closed && outbound.bytesBuffered == 0
    && decide (0 < remaining)
  ({ sender with
      outbound := outbound
      synSent := sender.synSent || syn
      finSent := sender.finSent || fin },
    { empty with syn := syn, payload := payload, fin := fin })

/-- `track_and_transmit`; the caller transmits the message. -/
def track (sender : TcpSender) (message : TcpSenderMessage) : Exec TcpSender := do
  Exec.assert (0 < message.sequenceLength)
  let absoluteStart := sender.sndNxt
  let sndNxt ← Exec.expect (checkedAdd sender.sndNxt message.sequenceLength)
  let tracked : TcpSender :=
    { sender with
      sndNxt := sndNxt
      outstanding := sender.outstanding ++
        [{ absoluteStart := absoluteStart, message := message }] }
  if sender.outstanding = [] then tracked.restartTimerForCurrentWindow else .ok tracked

/-- The loop of `push`. -/
def pushLoop (effectiveWindow : Nat) : Nat → TcpSender → Exec (TcpSender × List TcpSenderMessage)
  | budget, sender => do
      let inFlight ← sender.bytesInFlight
      if inFlight < effectiveWindow then
        match budget with
        | 0 => .error .divergence
        | budget + 1 =>
            let (sender, message) := sender.makeSegment (effectiveWindow - inFlight)
            if message.isEmptyInSequenceSpace then .ok (sender, [])
            else do
              let sender ← sender.track message
              let (sender, messages) ← pushLoop effectiveWindow budget sender
              .ok (sender, message :: messages)
      else .ok (sender, [])

/-- The window, or one sequence number as a probe when it is closed. -/
def effectiveWindow (sender : TcpSender) : Nat := max sender.advertisedWindow 1

def push (sender : TcpSender) : Exec (TcpSender × List TcpSenderMessage) := do
  let (sender, messages) ← pushLoop sender.effectiveWindow sender.effectiveWindow sender
  sender.debugCheckInvariants
  .ok (sender, messages)

/-! ## Acknowledgments -/

/-- The loop of `discard_acknowledged_prefix`. -/
def dropAcknowledged (sndUna : Nat) : List OutstandingSegment → Exec (List OutstandingSegment)
  | [] => .ok []
  | front :: rest => do
      let frontEnd ← front.absoluteEnd
      if frontEnd ≤ sndUna then dropAcknowledged sndUna rest else .ok (front :: rest)

def discardAcknowledgedPrefix (sender : TcpSender) : Exec TcpSender := do
  let kept ← dropAcknowledged sender.sndUna sender.outstanding
  match kept with
  | [] => .ok { sender with outstanding := [] }
  | front :: rest =>
      if front.absoluteStart < sender.sndUna then do
        let front ← front.trimPrefix (sender.sndUna - front.absoluteStart) sender.isn
        .ok { sender with outstanding := front :: rest }
      else .ok { sender with outstanding := front :: rest }

def abort (sender : TcpSender) : TcpSender :=
  { sender with
    outbound := sender.outbound.setError
    outstanding := []
    sndUna := sender.sndNxt
    timer := Timer.stopped }

/-- The part of `receive` for a message without an acknowledgment. -/
def receiveWindow (sender : TcpSender) (newWindow : Nat) : Exec TcpSender := do
  let windowChanged := decide (sender.advertisedWindow ≠ newWindow)
  let updated : TcpSender := { sender with advertisedWindow := newWindow }
  let restarted :=
    if windowChanged && decide (updated.outstanding ≠ []) then
      updated.restartTimerForCurrentWindow
    else .ok updated
  let sender ← restarted
  sender.debugCheckInvariants
  .ok sender

/-- The part of `receive` for an acknowledgment, decoded. -/
def receiveAck (sender : TcpSender) (absoluteAckno newWindow : Nat) : Exec TcpSender :=
  if sender.sndNxt < absoluteAckno then .ok sender
  else do
    let windowChanged := decide (sender.advertisedWindow ≠ newWindow)
    let ackAdvanced := decide (sender.sndUna < absoluteAckno)
    let updated : TcpSender := { sender with advertisedWindow := newWindow }
    let acknowledged : Exec TcpSender :=
      if ackAdvanced then do
        let sender ← discardAcknowledgedPrefix { updated with sndUna := absoluteAckno }
        .ok
          { sender with
            currentRtoMs := sender.config.initialRtoMs.toNat
            persistIntervalMs := sender.config.initialRtoMs.toNat
            consecutiveRetransmissions := 0 }
      else .ok updated
    let sender ← acknowledged
    let timed :=
      if sender.outstanding = [] then .ok { sender with timer := Timer.stopped }
      else if ackAdvanced || windowChanged then sender.restartTimerForCurrentWindow
      else .ok sender
    let sender ← timed
    sender.debugCheckInvariants
    .ok sender

def receive (sender : TcpSender) (message : TcpReceiverMessage) : Exec TcpSender :=
  if message.rst then .ok sender.abort
  else
    match message.ackno with
    | none => sender.receiveWindow message.windowSize.toNat
    | some ackno =>
        sender.receiveAck (ackno.unwrap sender.isn sender.sndNxt) message.windowSize.toNat

/-! ## Time -/

/-- The part of `tick` that backs off the interval of the current mode: a probe of a closed
window is not counted as a loss. -/
def backOff (sender : TcpSender) : TcpSender :=
  if sender.advertisedWindow = 0 then
    { sender with persistIntervalMs := sender.backedOff sender.persistIntervalMs }
  else
    { sender with
      consecutiveRetransmissions := saturatingAdd sender.consecutiveRetransmissions 1
      currentRtoMs := sender.backedOff sender.currentRtoMs }

def tick (sender : TcpSender) (elapsedMs : Nat) : Exec (TcpSender × List TcpSenderMessage) :=
  let (timer, expired) := sender.timer.tick elapsedMs
  let sender := { sender with timer := timer }
  if !expired then .ok (sender, [])
  else
    match sender.outstanding with
    | [] => .ok ({ sender with timer := Timer.stopped }, [])
    | oldest :: _ => do
        let sender ← sender.backOff.restartTimerForCurrentWindow
        sender.debugCheckInvariants
        .ok (sender, [oldest.message])

/-! ## The application's side -/

/-- The sender after `outbound_mut().push(data)`, and how many bytes were accepted. -/
def write (sender : TcpSender) (data : Bytes) : TcpSender × Nat :=
  ({ sender with outbound := (sender.outbound.push data).1 }, (sender.outbound.push data).2)

/-- The sender after `outbound_mut().close()`. -/
def close (sender : TcpSender) : TcpSender := { sender with outbound := sender.outbound.close }

end TcpSender

end Minnow
