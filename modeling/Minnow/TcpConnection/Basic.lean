import Minnow.TcpReceiver
import Minnow.TcpSegment
import Minnow.TcpSender.Run

set_option autoImplicit false

/-! # A connection

`tcp_connection.rs`: the local sender and the local receiver, joined by segments. Every
segment that goes out carries a sender message and the receiver's feedback; every segment
that comes in goes first to the sender, then to the receiver, and may release new segments
or a bare acknowledgment.

The invariant here is the one that holds whatever the peer sends.
-/

namespace Minnow

structure TcpConnectionConfig where
  localPort : UInt16
  peerPort : UInt16
  senderCapacity : Nat
  receiverCapacity : Nat
  isn : Wrap32
  senderConfig : TcpSenderConfig

structure TcpConnection where
  localPort : UInt16
  peerPort : UInt16
  sender : TcpSender
  receiver : TcpReceiver

namespace TcpConnection

def new (config : TcpConnectionConfig) : Exec TcpConnection := do
  Exec.assert (config.localPort ≠ 0)
  Exec.assert (config.peerPort ≠ 0)
  let sender ← TcpSender.new config.senderCapacity config.isn config.senderConfig
  let receiver ← TcpReceiver.new config.receiverCapacity
  .ok
    { localPort := config.localPort
      peerPort := config.peerPort
      sender := sender
      receiver := receiver }

def isEstablished (connection : TcpConnection) : Bool :=
  connection.sender.synSent && decide (0 < connection.sender.sndUna) &&
    connection.receiver.send.ackno.isSome

def isFinished (connection : TcpConnection) : Bool := connection.sender.isFinished

def bytesInFlight (connection : TcpConnection) : Exec Nat := connection.sender.bytesInFlight

def belongsToThisConnection (connection : TcpConnection) (segment : TcpSegment) : Bool :=
  segment.header.srcPort == connection.peerPort && segment.header.dstPort == connection.localPort

def buildSegment (localPort peerPort : UInt16) (senderMessage : TcpSenderMessage)
    (receiverFeedback : TcpReceiverMessage) : TcpSegment :=
  TcpSegment.fromMessages localPort peerPort senderMessage (some receiverFeedback)

/-- The segments for a list of sender messages, each with the feedback of this moment. -/
def buildSegments (connection : TcpConnection) (messages : List TcpSenderMessage) :
    List TcpSegment :=
  messages.map (fun message =>
    buildSegment connection.localPort connection.peerPort message connection.receiver.send)

def flushSender (connection : TcpConnection) : Exec (TcpConnection × List TcpSegment) := do
  let (sender, messages) ← connection.sender.push
  .ok ({ connection with sender := sender }, connection.buildSegments messages)

def connect (connection : TcpConnection) : Exec (TcpConnection × List TcpSegment) :=
  connection.flushSender

/-- `write`; the number is how many bytes were accepted. -/
def write (connection : TcpConnection) (data : Bytes) :
    Exec (TcpConnection × Nat × List TcpSegment) := do
  let (sender, bytesWritten) := connection.sender.write data
  let (connection, segments) ← flushSender { connection with sender := sender }
  .ok (connection, bytesWritten, segments)

def close (connection : TcpConnection) : Exec (TcpConnection × List TcpSegment) :=
  flushSender { connection with sender := connection.sender.close }

def makePureAckSegment (connection : TcpConnection) : Option TcpSegment :=
  let receiverFeedback := connection.receiver.send
  if receiverFeedback.ackno.isNone && !receiverFeedback.rst then none
  else
    some (buildSegment connection.localPort connection.peerPort
      connection.sender.makeEmptyMessage receiverFeedback)

/-- The part of `receive_segment` for the local receiver: an error of the reassembler puts
the output into the error state. -/
def receiveData (connection : TcpConnection) (message : TcpSenderMessage) :
    Exec TcpConnection :=
  if 0 < message.sequenceLength ∨ message.rst = true then do
    let (receiver, result) ← connection.receiver.receive message
    match result with
    | .ok () => .ok { connection with receiver := receiver }
    | .error _ => .ok { connection with receiver := receiver.setError }
  else .ok connection

def receiveSegment (connection : TcpConnection) (segment : TcpSegment) :
    Exec (TcpConnection × List TcpSegment) :=
  if !connection.belongsToThisConnection segment then .ok (connection, [])
  else do
    let incoming := segment.toSenderMessage
    let sender ← connection.sender.receive segment.toReceiverMessage
    let connection ← receiveData { connection with sender := sender } incoming
    let (connection, outgoing) ← connection.flushSender
    if 0 < incoming.sequenceLength ∧ outgoing = [] then
      .ok (connection, connection.makePureAckSegment.toList)
    else .ok (connection, outgoing)

def tick (connection : TcpConnection) (elapsedMs : Nat) :
    Exec (TcpConnection × List TcpSegment) := do
  let (sender, messages) ← connection.sender.tick elapsedMs
  .ok ({ connection with sender := sender }, connection.buildSegments messages)

/-- The connection after `receiver_mut().output_mut().pop(len)`, and the bytes popped. -/
def read (connection : TcpConnection) (len : Nat) : TcpConnection × Bytes :=
  ({ connection with receiver := (connection.receiver.read len).1 },
    (connection.receiver.read len).2)

/-! ## Runs with an arbitrary peer -/

inductive ConnOp where
  | flushSender
  | write (data : Bytes)
  | close
  | tick (elapsedMs : Nat)
  | receiveSegment (segment : TcpSegment)
  | read (len : Nat)

def perform (connection : TcpConnection) : ConnOp → Exec (TcpConnection × List TcpSegment)
  | .flushSender => connection.flushSender
  | .write data => do
      let (connection, _, segments) ← connection.write data
      .ok (connection, segments)
  | .close => connection.close
  | .tick elapsedMs => connection.tick elapsedMs
  | .receiveSegment segment => connection.receiveSegment segment
  | .read len => .ok ((connection.read len).1, [])

/-- One operation of a connection together with the segments it has emitted so far. -/
def emitStep (state : TcpConnection × List TcpSegment) (op : ConnOp) :
    Exec (TcpConnection × List TcpSegment) := do
  let (connection, segments) ← state.1.perform op
  .ok (connection, state.2 ++ segments)

/-- The states a connection can be in, whatever the peer sends. -/
def Reachable (connection : TcpConnection) : Prop :=
  ∃ config connection0 ops emitted, new config = .ok connection0 ∧
    Exec.run emitStep (connection0, []) ops = .ok (connection, emitted)

/-- The sender has accepted some bytes, and the reassembler is well formed. -/
structure ConnInv (connection : TcpConnection) : Prop where
  sender : ∃ data, connection.sender.Inv data
  receiver : connection.receiver.reassembler.RepInv

variable {connection connection1 : TcpConnection} {segments : List TcpSegment}
  {segment : TcpSegment} {config : TcpConnectionConfig}

theorem new_eq_ok (h : new config = .ok connection) :
    connection.localPort = config.localPort ∧ connection.peerPort = config.peerPort ∧
      TcpSender.new config.senderCapacity config.isn config.senderConfig = .ok connection.sender ∧
      TcpReceiver.new config.receiverCapacity = .ok connection.receiver := by
  obtain ⟨u1, -, h⟩ := Exec.bind_eq_ok.mp h
  obtain ⟨u2, -, h⟩ := Exec.bind_eq_ok.mp h
  obtain ⟨sender, hsender, h⟩ := Exec.bind_eq_ok.mp h
  obtain ⟨receiver, hreceiver, h⟩ := Exec.bind_eq_ok.mp h
  obtain rfl := Except.ok.inj h
  exact ⟨rfl, rfl, hsender, hreceiver⟩

theorem connInv_new (h : new config = .ok connection) : ConnInv connection := by
  obtain ⟨-, -, hsender, hreceiver⟩ := new_eq_ok h
  rw [TcpReceiver.new_ok, Except.ok.injEq] at hreceiver
  refine ⟨⟨[], (TcpSender.new_ok hsender).1⟩, ?_⟩
  rw [← hreceiver]
  exact Reassembler.repInv_new config.receiverCapacity

/-! ## What the operations return -/

theorem flushSender_eq_ok : connection.flushSender = .ok (connection1, segments) ↔
    ∃ sender messages, connection.sender.push = .ok (sender, messages) ∧
      connection1 = { connection with sender := sender } ∧
      segments = connection.buildSegments messages := by
  unfold flushSender
  rw [Exec.bind_eq_ok]
  constructor
  · rintro ⟨⟨sender, messages⟩, hrun, hok⟩
    simp only [Except.ok.injEq, Prod.mk.injEq] at hok
    exact ⟨sender, messages, hrun, hok.1.symm, hok.2.symm⟩
  · rintro ⟨sender, messages, hrun, rfl, rfl⟩
    exact ⟨(sender, messages), hrun, rfl⟩

/-- What may go out as a bare acknowledgment. -/
theorem mem_makePureAckSegment (h : segment ∈ connection.makePureAckSegment.toList) :
    segment = buildSegment connection.localPort connection.peerPort
      connection.sender.makeEmptyMessage connection.receiver.send := by
  unfold makePureAckSegment at h
  dsimp only at h
  split_ifs at h
  · exact absurd h List.not_mem_nil
  · exact List.mem_singleton.mp h

/-- Once the receiver knows the peer's initial sequence number, or has failed, there is something
to tell the peer. -/
theorem makePureAckSegment_ne_nil
    (h : connection.receiver.isn ≠ none ∨ connection.receiver.output.error = true) :
    connection.makePureAckSegment.toList ≠ [] := by
  have htold : ¬ (connection.receiver.send.ackno.isNone && !connection.receiver.send.rst) = true := by
    rcases h with hknown | herror
    · obtain ⟨isn, hisn⟩ := Option.ne_none_iff_exists'.mp hknown
      simp [TcpReceiver.send, hisn]
    · have hrst : connection.receiver.send.rst = true := herror
      simp [hrst]
  unfold makePureAckSegment
  dsimp only
  rw [if_neg htold]
  exact List.cons_ne_nil _ _

/-- What incoming data does to a connection: the receiver takes it, and its output reports an
error if that failed, unless there is nothing in it for the receiver. -/
theorem receiveData_eq_ok {message : TcpSenderMessage}
    (hrun : connection.receiveData message = .ok connection1) :
    (connection1 = connection ∧ message.sequenceLength = 0 ∧ message.rst = false) ∨
      (0 < message.sequenceLength ∨ message.rst = true) ∧ ∃ receiver result,
        connection.receiver.receive message = .ok (receiver, result) ∧
        (connection1 = { connection with receiver := receiver } ∧ result = .ok () ∨
          connection1 = { connection with receiver := receiver.setError } ∧ result ≠ .ok ()) := by
  unfold receiveData at hrun
  split_ifs at hrun with htaken
  · obtain ⟨⟨receiver, result⟩, hreceive, hok⟩ := Exec.bind_eq_ok.mp hrun
    refine Or.inr ⟨htaken, receiver, result, hreceive, ?_⟩
    cases result with
    | ok u => exact Or.inl ⟨(Except.ok.inj hok).symm, rfl⟩
    | error e => exact Or.inr ⟨(Except.ok.inj hok).symm, by simp⟩
  · rw [not_or, Bool.not_eq_true] at htaken
    exact Or.inl ⟨(Except.ok.inj hrun).symm, by omega, htaken.2⟩

/-- The receiver takes whatever arrives; RST puts its output into the error state. -/
theorem receiveData_total (connection : TcpConnection)
    (h : connection.receiver.reassembler.RepInv) (message : TcpSenderMessage) : ∃ receiver,
      connection.receiveData message = .ok { connection with receiver := receiver } ∧
      receiver.reassembler.RepInv ∧ (message.rst = true → receiver.output.error = true) := by
  unfold receiveData
  by_cases htaken : 0 < message.sequenceLength ∨ message.rst = true
  · rw [if_pos htaken]
    obtain ⟨receiver, result, hrun, hinv⟩ := TcpReceiver.receive_total h message
    have herr : message.rst = true → receiver.output.error = true := by
      intro hrst
      rw [TcpReceiver.receive, if_pos hrst, Except.ok.injEq, Prod.mk.injEq] at hrun
      rw [← hrun.1]
      rfl
    rw [hrun]
    cases result with
    | ok u => exact ⟨receiver, rfl, hinv, herr⟩
    | error e => exact ⟨receiver.setError, rfl, hinv.setError, fun _ => rfl⟩
  · rw [if_neg htaken]
    exact ⟨connection.receiver, rfl, h, fun hrst => absurd (Or.inr hrst) htaken⟩

theorem receiveData_repInv {message : TcpSenderMessage}
    (hrun : connection.receiveData message = .ok connection1)
    (h : connection.receiver.reassembler.RepInv) :
    connection1.receiver.reassembler.RepInv := by
  obtain ⟨receiver, hrun1, hrep, -⟩ := receiveData_total connection h message
  obtain rfl := Except.ok.inj (hrun.symm.trans hrun1)
  exact hrep

/-- An incoming segment passes the sender, the receiver and the sender's queue. -/
theorem receiveSegment_eq_ok (hport : connection.belongsToThisConnection segment = true)
    (hrun : connection.receiveSegment segment = .ok (connection1, segments)) :
    ∃ sender connection2 outgoing, connection.sender.receive segment.toReceiverMessage = .ok sender ∧
      receiveData { connection with sender := sender } segment.toSenderMessage = .ok connection2 ∧
      connection2.flushSender = .ok (connection1, outgoing) ∧
      segments = if 0 < segment.toSenderMessage.sequenceLength ∧ outgoing = [] then
        connection1.makePureAckSegment.toList else outgoing := by
  unfold receiveSegment at hrun
  rw [hport, if_neg (by simp)] at hrun
  obtain ⟨sender, hsender, hrun⟩ := Exec.bind_eq_ok.mp hrun
  obtain ⟨connection2, hdata, hrun⟩ := Exec.bind_eq_ok.mp hrun
  obtain ⟨⟨connection3, outgoing⟩, hflush, hrun⟩ := Exec.bind_eq_ok.mp hrun
  refine ⟨sender, connection2, outgoing, hsender, hdata, ?_⟩
  by_cases hack : 0 < segment.toSenderMessage.sequenceLength ∧ outgoing = []
  · rw [if_pos hack]
    simp only [if_pos hack, Except.ok.injEq, Prod.mk.injEq] at hrun
    obtain ⟨rfl, rfl⟩ := hrun
    exact ⟨hflush, rfl⟩
  · rw [if_neg hack]
    simp only [if_neg hack, Except.ok.injEq, Prod.mk.injEq] at hrun
    obtain ⟨rfl, rfl⟩ := hrun
    exact ⟨hflush, rfl⟩

/-! ## The invariant is kept -/

theorem ConnInv.flushSender (h : ConnInv connection)
    (hrun : connection.flushSender = .ok (connection1, segments)) : ConnInv connection1 := by
  obtain ⟨data, hinv⟩ := h.sender
  obtain ⟨sender, messages, hpush, rfl, -⟩ := flushSender_eq_ok.mp hrun
  exact ⟨⟨data, (TcpSender.push_pushed hinv hpush).inv⟩, h.receiver⟩

end TcpConnection

end Minnow
