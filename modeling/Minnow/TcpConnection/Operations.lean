import Minnow.TcpConnection.Basic

set_option autoImplicit false

/-! # What an operation can do

Every operation of a connection is one of three things: it prepares sender and receiver and
then flushes the sender, it lets time pass, or it leaves the sender alone. `perform_performed`
says so once; what holds in every run is proved from it, one case for each of the three.
-/

namespace Minnow

namespace TcpConnection

open TcpSender

variable {connection connection0 connection1 : TcpConnection} {op : ConnOp}
  {segment : TcpSegment} {segments : List TcpSegment}

/-- The connection an operation hands to `flush_sender`. -/
inductive Prepared (connection : TcpConnection) : ConnOp → TcpConnection → Prop where
  | flushSender : Prepared connection .flushSender connection
  | write (data : Bytes) :
      Prepared connection (.write data)
        { connection with sender := (connection.sender.write data).1 }
  | close : Prepared connection .close { connection with sender := connection.sender.close }
  | receiveSegment {segment : TcpSegment} {sender : TcpSender} {receiver : TcpReceiver}
      (hport : connection.belongsToThisConnection segment = true)
      (hsender : connection.sender.receive segment.toReceiverMessage = .ok sender)
      (hdata : receiveData { connection with sender := sender } segment.toSenderMessage
        = .ok { connection with sender := sender, receiver := receiver }) :
      Prepared connection (.receiveSegment segment)
        { connection with sender := sender, receiver := receiver }

/-- What an operation does and returns. -/
inductive Performed (connection : TcpConnection) :
    ConnOp → TcpConnection → List TcpSegment → Prop where
  | flushed {op : ConnOp} {connection0 connection1 : TcpConnection}
      {outgoing segments : List TcpSegment} (hprepared : Prepared connection op connection0)
      (hflush : connection0.flushSender = .ok (connection1, outgoing))
      (hsegments : segments = outgoing ∨
        (outgoing = [] ∧ segments = connection1.makePureAckSegment.toList)) :
      Performed connection op connection1 segments
  | ticked {elapsedMs : Nat} {sender : TcpSender} {messages : List TcpSenderMessage}
      (htick : connection.sender.tick elapsedMs = .ok (sender, messages)) :
      Performed connection (.tick elapsedMs) { connection with sender := sender }
        (connection.buildSegments messages)
  | foreign {segment : TcpSegment}
      (hport : connection.belongsToThisConnection segment = false) :
      Performed connection (.receiveSegment segment) connection []
  | read (len : Nat) : Performed connection (.read len) (connection.read len).1 []

/-- Incoming data touches the receiver only. -/
theorem receiveData_frame {message : TcpSenderMessage}
    (hrun : connection.receiveData message = .ok connection1) :
    connection1 = { connection with receiver := connection1.receiver } := by
  rcases receiveData_eq_ok hrun with ⟨rfl, -⟩ | ⟨-, receiver, result, -, ⟨rfl, -⟩ | ⟨rfl, -⟩⟩
  · rfl
  · rfl
  · rfl

/-- An incoming segment prepares sender and receiver, and what goes out is what the flush behind
it transmits, or a bare acknowledgment. -/
theorem receiveSegment_flushed (hport : connection.belongsToThisConnection segment = true)
    (hrun : connection.receiveSegment segment = .ok (connection1, segments)) :
    ∃ connection0 outgoing, Prepared connection (.receiveSegment segment) connection0 ∧
      connection0.flushSender = .ok (connection1, outgoing) ∧
      segments = if 0 < segment.toSenderMessage.sequenceLength ∧ outgoing = [] then
        connection1.makePureAckSegment.toList else outgoing := by
  obtain ⟨sender, connection2, outgoing, hsender, hdata, hflush, hsegments⟩ :=
    receiveSegment_eq_ok hport hrun
  have hframe : connection2
      = { connection with sender := sender, receiver := connection2.receiver } :=
    receiveData_frame hdata
  rw [hframe] at hdata hflush
  exact ⟨_, outgoing, .receiveSegment hport hsender hdata, hflush, hsegments⟩

theorem receiveSegment_performed
    (hrun : connection.receiveSegment segment = .ok (connection1, segments)) :
    Performed connection (.receiveSegment segment) connection1 segments := by
  cases hport : connection.belongsToThisConnection segment with
  | false =>
      rw [receiveSegment, hport, if_pos (by simp), Except.ok.injEq, Prod.mk.injEq] at hrun
      obtain ⟨rfl, rfl⟩ := hrun
      exact .foreign hport
  | true =>
      obtain ⟨connection0, outgoing, hprepared, hflush, hsegments⟩ :=
        receiveSegment_flushed hport hrun
      apply Performed.flushed hprepared hflush
      split_ifs at hsegments with hack
      · exact Or.inr ⟨hack.2, hsegments⟩
      · exact Or.inl hsegments

theorem perform_performed (hrun : connection.perform op = .ok (connection1, segments)) :
    Performed connection op connection1 segments := by
  cases op with
  | flushSender => exact .flushed .flushSender hrun (Or.inl rfl)
  | write data =>
      obtain ⟨⟨connection2, n, segments2⟩, hwrite, hok⟩ := Exec.bind_eq_ok.mp hrun
      obtain ⟨⟨connection3, segments3⟩, hflush, hok2⟩ := Exec.bind_eq_ok.mp hwrite
      simp only [Except.ok.injEq, Prod.mk.injEq] at hok hok2
      obtain ⟨rfl, rfl⟩ := hok
      obtain ⟨rfl, -, rfl⟩ := hok2
      exact .flushed (.write data) hflush (Or.inl rfl)
  | close => exact .flushed .close hrun (Or.inl rfl)
  | tick elapsedMs =>
      obtain ⟨⟨sender, messages⟩, htick, hok⟩ := Exec.bind_eq_ok.mp hrun
      simp only [Except.ok.injEq, Prod.mk.injEq] at hok
      obtain ⟨rfl, rfl⟩ := hok
      exact .ticked htick
  | receiveSegment segment => exact receiveSegment_performed hrun
  | read len =>
      simp only [TcpConnection.perform, Except.ok.injEq, Prod.mk.injEq] at hrun
      obtain ⟨rfl, rfl⟩ := hrun
      exact .read len

/-! ## What a prepared connection is -/

/-- Preparing keeps the invariant. -/
theorem Prepared.inv (hp : Prepared connection op connection0) (h : ConnInv connection) :
    ConnInv connection0 := by
  obtain ⟨data, hinv⟩ := h.sender
  cases hp with
  | flushSender => exact h
  | write data => exact ⟨⟨_, hinv.write data⟩, h.receiver⟩
  | close => exact ⟨⟨data, hinv.close⟩, h.receiver⟩
  | @receiveSegment segment sender receiver hport hsender hdata =>
      exact ⟨⟨data, hinv.receive hsender⟩, receiveData_repInv hdata h.receiver⟩

theorem Performed.inv (hp : Performed connection op connection1 segments)
    (h : ConnInv connection) : ConnInv connection1 := by
  cases hp with
  | flushed hprepared hflush hsegments => exact (hprepared.inv h).flushSender hflush
  | ticked htick =>
      obtain ⟨data, hinv⟩ := h.sender
      exact ⟨⟨data, (tick_ticked hinv htick).1.inv⟩, h.receiver⟩
  | foreign hport => exact h
  | read len => exact ⟨h.sender, h.receiver.read len⟩

theorem ConnInv.perform (h : ConnInv connection)
    (hrun : connection.perform op = .ok (connection1, segments)) : ConnInv connection1 :=
  (perform_performed hrun).inv h

/-! ## When an operation returns -/

/-- A flush runs out of sequence numbers at the earliest when the application has. -/
theorem flushSender_total (h : ConnInv connection)
    (hmax : connection.sender.outbound.bytesPushed + 2 ≤ u64Max) :
    ∃ connection1 segments, connection.flushSender = .ok (connection1, segments) := by
  obtain ⟨data, hinv⟩ := h.sender
  obtain ⟨sender, messages, hpush, -⟩ := push_total hinv (by rwa [← hinv.pushed_eq])
  exact ⟨_, _, flushSender_eq_ok.mpr ⟨sender, messages, hpush, rfl, rfl⟩⟩

theorem receiveSegment_total (h : ConnInv connection)
    (hmax : connection.sender.outbound.bytesPushed + 2 ≤ u64Max) (segment : TcpSegment) :
    ∃ result, connection.receiveSegment segment = .ok result := by
  cases hport : connection.belongsToThisConnection segment with
  | false =>
      refine ⟨(connection, []), ?_⟩
      rw [receiveSegment, if_pos (by simp [hport])]
  | true =>
      obtain ⟨data, hinv⟩ := h.sender
      obtain ⟨sender, hsender, hinv1⟩ := receive_total hinv segment.toReceiverMessage
      obtain ⟨receiver, hdata, hrep, -⟩ := receiveData_total
        { connection with sender := sender } h.receiver segment.toSenderMessage
      have h1 : ConnInv { connection with sender := sender, receiver := receiver } :=
        ⟨⟨data, hinv1⟩, hrep⟩
      -- feedback adds no byte to the stream
      have hpushed : sender.outbound.bytesPushed = connection.sender.outbound.bytesPushed :=
        hinv1.pushed_eq.trans hinv.pushed_eq.symm
      obtain ⟨connection1, outgoing, hflush⟩ := flushSender_total h1 (by rwa [← hpushed] at hmax)
      rw [receiveSegment, if_neg (by simp [hport]), hsender]
      simp only [Exec.ok_bind, hdata, hflush]
      split_ifs
      · exact ⟨_, rfl⟩
      · exact ⟨_, rfl⟩

/-! ## The ports -/

/-- The ports of a connection do not change. -/
def SamePorts (connection connection1 : TcpConnection) : Prop :=
  connection1.localPort = connection.localPort ∧ connection1.peerPort = connection.peerPort

theorem Prepared.ports (hp : Prepared connection op connection0) :
    SamePorts connection connection0 := by
  cases hp <;> exact ⟨rfl, rfl⟩

theorem flushSender_ports (hflush : connection0.flushSender = .ok (connection1, segments)) :
    SamePorts connection0 connection1 := by
  obtain ⟨sender, messages, -, rfl, -⟩ := flushSender_eq_ok.mp hflush
  exact ⟨rfl, rfl⟩

theorem Performed.ports (hp : Performed connection op connection1 segments) :
    SamePorts connection connection1 := by
  cases hp with
  | flushed hprepared hflush hsegments =>
      obtain ⟨hlocal, hpeer⟩ := hprepared.ports
      obtain ⟨hlocal1, hpeer1⟩ := flushSender_ports hflush
      exact ⟨hlocal1.trans hlocal, hpeer1.trans hpeer⟩
  | ticked htick => exact ⟨rfl, rfl⟩
  | foreign hport => exact ⟨rfl, rfl⟩
  | read len => exact ⟨rfl, rfl⟩

theorem SamePorts.belongs (h : SamePorts connection connection1) (segment : TcpSegment) :
    connection1.belongsToThisConnection segment = connection.belongsToThisConnection segment := by
  unfold belongsToThisConnection
  rw [h.1, h.2]

/-- An operation in a run appends the segments it returns. -/
theorem emitStep_eq_ok {emitted emitted1 : List TcpSegment} :
    emitStep (connection, emitted) op = .ok (connection1, emitted1) ↔
      ∃ segments, connection.perform op = .ok (connection1, segments) ∧
        emitted1 = emitted ++ segments := by
  unfold emitStep
  rw [Exec.bind_eq_ok]
  constructor
  · rintro ⟨⟨connection2, segments⟩, hperform, hok⟩
    simp only [Except.ok.injEq, Prod.mk.injEq] at hok
    obtain ⟨rfl, rfl⟩ := hok
    exact ⟨segments, hperform, rfl⟩
  · rintro ⟨segments, hperform, rfl⟩
    exact ⟨(connection1, segments), hperform, rfl⟩

theorem connInv_of_reachable (h : Reachable connection) : ConnInv connection := by
  obtain ⟨config, connection0, ops, emitted, hnew, hrun⟩ := h
  refine Exec.run_invariant (fun state => ConnInv state.1) ?_ (connInv_new hnew) hrun
  rintro ⟨connection2, emitted2⟩ op ⟨connection3, emitted3⟩ hinv hstep
  obtain ⟨segments, hperform, -⟩ := emitStep_eq_ok.mp hstep
  exact hinv.perform hperform

end TcpConnection

end Minnow
