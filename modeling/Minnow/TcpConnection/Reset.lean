import Minnow.TcpConnection.Operations

set_option autoImplicit false

/-! # RST

RST empties the queue of the local sender and puts its stream into the error state. The
sender does not look at that state before it transmits: `push` still sends SYN, the bytes
that were buffered and FIN, and a segment with RST that occupies sequence space is
acknowledged.

* `rst_final_iff`: RST is final exactly if it occupies no sequence space and FIN was already
  sent, for then there is nothing left to transmit.
* `rst_not_final`: a connection that answers RST with buffered data.
-/

namespace Minnow

namespace TcpConnection

open TcpSender TcpSenderMessage

/-- RST is final: nothing is answered, and whatever happens afterwards, nothing that occupies
sequence space is emitted, nothing is in flight and no timer runs. -/
def RstFinal (connection : TcpConnection) (segment : TcpSegment) : Prop :=
  ∃ connection1, connection.receiveSegment segment = .ok (connection1, []) ∧
    ∀ ops, ∃ connection2 emitted,
      Exec.run emitStep (connection1, []) ops = .ok (connection2, emitted) ∧
      (∀ s ∈ emitted, s.toSenderMessage.sequenceLength = 0) ∧
      connection2.bytesInFlight = .ok 0 ∧ connection2.sender.outstanding = [] ∧
      connection2.sender.timer.running = false

variable {connection connection1 : TcpConnection} {segment : TcpSegment} {data : Bytes}
  {sender sender1 : TcpSender}

/-! ## A sender that is done -/

/-- After FIN there is nothing to push. -/
theorem push_of_finSent (h : sender.Inv data) (hfin : sender.finSent = true) :
    sender.push = .ok (sender, []) := by
  have hloop : pushLoop sender.effectiveWindow sender.effectiveWindow sender = .ok (sender, []) := by
    unfold pushLoop
    rw [h.bytesInFlight_ok, Exec.ok_bind]
    by_cases hroom : sender.sndNxt - sender.sndUna < sender.effectiveWindow
    · rw [if_pos hroom]
      obtain ⟨budget, hbudget⟩ : ∃ budget, sender.effectiveWindow = budget + 1 :=
        ⟨sender.effectiveWindow - 1, by omega⟩
      have hcut := makeSegment_cut h
        (show 0 < sender.effectiveWindow - (sender.sndNxt - sender.sndUna) by omega)
      rw [hbudget] at hcut ⊢
      generalize sender.makeSegment (budget + 1 - (sender.sndNxt - sender.sndUna)) = cut at hcut ⊢
      obtain ⟨sender1, message⟩ := cut
      dsimp only at hcut ⊢
      have hzero : message.sequenceLength = 0 := by
        by_contra hpos
        have hopen := hcut.finSent_eq_false h (Nat.pos_of_ne_zero hpos)
        rw [hfin] at hopen
        exact absurd hopen (by simp)
      have hempty : message.isEmptyInSequenceSpace = true := by
        rw [isEmptyInSequenceSpace, hzero]
        rfl
      rw [if_pos hempty, (hcut.exhausted hzero).1]
    · rw [if_neg hroom]
  rw [push, hloop]
  simp only [Exec.ok_bind, h.debugCheckInvariants_ok]

/-- FIN was sent, the stream is in the error state and nothing is outstanding. -/
structure Done (sender : TcpSender) : Prop where
  inv : ∃ data, sender.Inv data
  finSent : sender.finSent = true
  error : sender.outbound.error = true
  outstanding : sender.outstanding = []

theorem Done.una_eq (h : Done sender) : sender.sndUna = sender.sndNxt := by
  obtain ⟨data, hinv⟩ := h.inv
  exact hinv.queue.eq_nil_iff.mp h.outstanding

theorem Done.push (h : Done sender) : sender.push = .ok (sender, []) := by
  obtain ⟨data, hinv⟩ := h.inv
  exact push_of_finSent hinv h.finSent

theorem Done.write (h : Done sender) (bytes : Bytes) : (sender.write bytes).1 = sender := by
  have hacc : ¬ sender.outbound.Accepting := by
    intro hacc
    have herr := h.error
    rw [hacc.2] at herr
    exact absurd herr (by simp)
  show { sender with outbound := (sender.outbound.push bytes).1 } = sender
  rw [sender.outbound.push_of_not_accepting bytes hacc]

theorem Done.close (h : Done sender) : Done sender.close := by
  obtain ⟨data, hinv⟩ := h.inv
  exact ⟨⟨data, hinv.close⟩, h.finSent, h.error, h.outstanding⟩

theorem Done.receive (h : Done sender) (message : TcpReceiverMessage) :
    ∃ sender1, sender.receive message = .ok sender1 ∧ Done sender1 := by
  obtain ⟨data, hinv⟩ := h.inv
  by_cases hrst : message.rst = true
  · exact ⟨sender.abort, receive_rst hrst, ⟨data, hinv.abort⟩, h.finSent, rfl, rfl⟩
  · rcases receive_spec hinv (by simpa using hrst) with ⟨hacc, sender1, hrun, hr⟩ | ⟨-, hrun⟩
    · -- nothing is in flight, so nothing can be acknowledged
      have hsame : sender.ackedUna message = sender.sndUna := by
        unfold ackedUna
        cases hack : message.ackno with
        | none => rfl
        | some ackno =>
            have hle := hacc ackno hack
            have huna := h.una_eq
            dsimp only
            omega
      refine ⟨sender1, hrun, ⟨data, hr.inv⟩, ?_, ?_, ?_⟩
      · rw [hr.frame]
        exact h.finSent
      · rw [hr.frame]
        exact h.error
      · rw [hr.outstanding hinv hsame]
        exact h.outstanding
    · exact ⟨sender, hrun, h⟩

theorem Done.tick (h : Done sender) (elapsedMs : Nat) :
    ∃ sender1, sender.tick elapsedMs = .ok (sender1, []) ∧ Done sender1 := by
  obtain ⟨data, hinv⟩ := h.inv
  obtain ⟨sender1, messages, hrun, ht, hmessages⟩ := tick_spec hinv elapsedMs
  have hstopped : ¬ sender.Expires elapsedMs :=
    fun hexpires => hinv.timed.running_iff.mp hexpires.1 h.outstanding
  rcases hmessages with ⟨-, rfl⟩ | ⟨hexpires, -⟩
  · refine ⟨sender1, hrun, ⟨data, ht.inv⟩, ?_, ?_, ?_⟩
    · rw [ht.frame]
      exact h.finSent
    · rw [ht.frame]
      exact h.error
    · rw [ht.frame]
      exact h.outstanding
  · exact absurd hexpires hstopped

/-! ## A connection whose sender is done -/

theorem flushSender_of_done (h : Done connection.sender) :
    connection.flushSender = .ok (connection, []) := by
  rw [flushSender, h.push]
  rfl

theorem makePureAckSegment_empty {s : TcpSegment}
    (hs : s ∈ connection.makePureAckSegment.toList) : s.toSenderMessage.sequenceLength = 0 := by
  rw [mem_makePureAckSegment hs]
  rfl

/-- No operation makes such a connection emit anything but bare acknowledgments. -/
theorem perform_of_done (h : Done connection.sender)
    (hrep : connection.receiver.reassembler.RepInv) (op : ConnOp) :
    ∃ connection1 segments, connection.perform op = .ok (connection1, segments) ∧
      Done connection1.sender ∧ connection1.receiver.reassembler.RepInv ∧
      ∀ s ∈ segments, s.toSenderMessage.sequenceLength = 0 := by
  have hnone : ∀ s ∈ ([] : List TcpSegment), s.toSenderMessage.sequenceLength = 0 :=
    fun _ hs => absurd hs List.not_mem_nil
  cases op with
  | flushSender => exact ⟨connection, [], flushSender_of_done h, h, hrep, hnone⟩
  | write bytes =>
      refine ⟨connection, [], ?_, h, hrep, hnone⟩
      have hsame : { connection with sender := (connection.sender.write bytes).1 } = connection := by
        rw [h.write bytes]
      rw [perform, TcpConnection.write]
      dsimp only
      rw [hsame, flushSender_of_done h]
      rfl
  | close =>
      exact ⟨{ connection with sender := connection.sender.close }, [],
        flushSender_of_done h.close, h.close, hrep, hnone⟩
  | tick elapsedMs =>
      obtain ⟨sender1, hrun, hdone⟩ := h.tick elapsedMs
      refine ⟨{ connection with sender := sender1 }, [], ?_, hdone, hrep, hnone⟩
      rw [perform, TcpConnection.tick, hrun]
      rfl
  | receiveSegment segment =>
      -- only a segment of this connection does anything, and then at most a pure ACK goes out
      by_cases hport : connection.belongsToThisConnection segment = true
      · obtain ⟨sender1, hsender, hdone⟩ := h.receive segment.toReceiverMessage
        obtain ⟨receiver, hdata, hrep1, -⟩ :=
          receiveData_total { connection with sender := sender1 } hrep
            segment.toSenderMessage
        set connection2 : TcpConnection :=
          { connection with sender := sender1, receiver := receiver } with hconnection2
        have hflush : connection2.flushSender = .ok (connection2, []) := flushSender_of_done hdone
        have hrun : connection.receiveSegment segment = .ok (connection2,
            if 0 < segment.toSenderMessage.sequenceLength then
              connection2.makePureAckSegment.toList else []) := by
          rw [receiveSegment, if_neg (by simp [hport]), hsender]
          simp only [Exec.ok_bind, hdata, hflush, and_true]
          split_ifs <;> rfl
        refine ⟨connection2, _, hrun, hdone, hrep1, ?_⟩
        intro s hs
        split_ifs at hs
        · exact makePureAckSegment_empty hs
        · exact hnone s hs
      · refine ⟨connection, [], ?_, h, hrep, hnone⟩
        rw [perform, receiveSegment, if_pos (by simpa using hport)]
  | read len =>
      exact ⟨(connection.read len).1, [], rfl, h, hrep.read len, hnone⟩

/-- A connection whose sender is done and that has emitted bare acknowledgments only. -/
structure Quiet (state : TcpConnection × List TcpSegment) : Prop where
  done : Done state.1.sender
  repInv : state.1.receiver.reassembler.RepInv
  empty : ∀ s ∈ state.2, s.toSenderMessage.sequenceLength = 0

theorem run_of_done (h : Done connection.sender)
    (hrep : connection.receiver.reassembler.RepInv) (ops : List ConnOp) :
    ∃ connection2 emitted, Exec.run emitStep (connection, []) ops = .ok (connection2, emitted) ∧
      (∀ s ∈ emitted, s.toSenderMessage.sequenceLength = 0) ∧ Done connection2.sender := by
  have hstep : ∀ (state : TcpConnection × List TcpSegment) (op : ConnOp), Quiet state →
      ∃ state1, emitStep state op = .ok state1 ∧ Quiet state1 := by
    rintro ⟨connection1, emitted1⟩ op ⟨hdone1, hrep1, hempty1⟩
    obtain ⟨connection2, segments, hperform, hdone2, hrep2, hsegments⟩ :=
      perform_of_done hdone1 hrep1 op
    refine ⟨(connection2, emitted1 ++ segments), ?_, hdone2, hrep2, ?_⟩
    · rw [emitStep, hperform]
      rfl
    · intro s hs
      rcases List.mem_append.mp hs with hs | hs
      · exact hempty1 s hs
      · exact hsegments s hs
  have hstart : Quiet (connection, []) := ⟨h, hrep, fun _ hs => absurd hs List.not_mem_nil⟩
  obtain ⟨⟨connection2, emitted⟩, hrun, hquiet⟩ := Exec.run_total Quiet hstep hstart ops
  exact ⟨connection2, emitted, hrun, hquiet.empty, hquiet.done⟩

/-! ## When RST is final -/

/-- A bare RST behind FIN is final. -/
theorem rstFinal_of_finSent (h : ConnInv connection)
    (hport : connection.belongsToThisConnection segment = true)
    (hrst : segment.header.rst = true) (hempty : segment.toSenderMessage.sequenceLength = 0)
    (hfin : connection.sender.finSent = true) : RstFinal connection segment := by
  obtain ⟨data, hinv⟩ := h.sender
  have hdone : Done connection.sender.abort := ⟨⟨data, hinv.abort⟩, hfin, rfl, rfl⟩
  obtain ⟨receiver, hdata, hrep, -⟩ :=
    receiveData_total { connection with sender := connection.sender.abort }
      h.receiver segment.toSenderMessage
  set connection1 : TcpConnection :=
    { connection with sender := connection.sender.abort, receiver := receiver } with hconnection1
  refine ⟨connection1, ?_, ?_⟩
  · have hflush : connection1.flushSender = .ok (connection1, []) := flushSender_of_done hdone
    rw [receiveSegment, if_neg (by simp [hport]), receive_rst hrst]
    simp only [Exec.ok_bind, hdata, hflush, hempty, lt_irrefl, false_and, if_false]
  · intro ops
    have hdone1 : Done connection1.sender := hdone
    obtain ⟨connection2, emitted, hrun, hemitted, hdone2⟩ := run_of_done hdone1 hrep ops
    obtain ⟨data2, hinv2⟩ := hdone2.inv
    refine ⟨connection2, emitted, hrun, hemitted, ?_, hdone2.outstanding, ?_⟩
    · rw [bytesInFlight, hinv2.bytesInFlight_ok, hdone2.una_eq, Nat.sub_self]
    · by_contra hrunning
      exact hinv2.timed.running_iff.mp (by simpa using hrunning) hdone2.outstanding

/-- If RST is final, it was not acknowledged: it occupies no sequence space. -/
theorem RstFinal.empty (hfinal : RstFinal connection segment) (h : ConnInv connection)
    (hport : connection.belongsToThisConnection segment = true)
    (hrst : segment.header.rst = true) : segment.toSenderMessage.sequenceLength = 0 := by
  obtain ⟨connection1, hrun, -⟩ := hfinal
  obtain ⟨sender, connection2, outgoing, -, hdata, hflush, hsegments⟩ :=
    receiveSegment_eq_ok hport hrun
  obtain ⟨receiver, hdata1, -, herr⟩ := receiveData_total
    { connection with sender := sender } h.receiver segment.toSenderMessage
  rw [hdata, Except.ok.injEq] at hdata1
  obtain ⟨sender3, messages, -, hconnection1, -⟩ := flushSender_eq_ok.mp hflush
  have herror : connection1.receiver.output.error = true := by
    rw [hconnection1, hdata1]
    exact herr hrst
  -- the error state of the receiver is reported, so an acknowledgment would go out
  have hack : connection1.makePureAckSegment.toList ≠ [] :=
    makePureAckSegment_ne_nil (Or.inr herror)
  by_contra hpos
  by_cases hnil : outgoing = []
  · rw [if_pos ⟨Nat.pos_of_ne_zero hpos, hnil⟩] at hsegments
    exact hack hsegments.symm
  · rw [if_neg (fun hc => hnil hc.2)] at hsegments
    exact hnil hsegments.symm

/-- What was transmitted determines whether FIN was sent. -/
theorem finSent_of_same_nxt {sender sender1 : TcpSender} {bytes : Bytes} (h : sender.Inv data)
    (h1 : sender1.Inv data)
    (hdrained : ByteStream.Drained sender.outbound bytes sender1.outbound)
    (hnxt : sender1.sndNxt = sender.sndNxt) (hfin : sender1.finSent = true) :
    sender.finSent = true := by
  have hsyn : sender1.synSent = true := by
    by_contra hs
    have hopen := (h1.syn_first (by simpa using hs)).2
    rw [hfin] at hopen
    exact absurd hopen (by simp)
  have hold := h.nxt_eq
  have hnew := h1.nxt_eq
  have hsynle : sender.synSent.toNat ≤ 1 := Bool.toNat_le _
  have hpopped := hdrained.popped
  rw [hsyn, hfin, Bool.toNat_true] at hnew
  by_contra hopen
  rw [Bool.not_eq_true] at hopen
  rw [hopen, Bool.toNat_false] at hold
  omega

/-- With nothing in flight, closing the stream transmits FIN unless that was done before. -/
theorem finSent_of_close_silent {messages : List TcpSenderMessage} (h : sender.Inv data)
    (hidle : sender.sndUna = sender.sndNxt) (hpush : sender.close.push = .ok (sender1, messages))
    (hidle1 : sender1.bytesInFlight = .ok 0) : sender.finSent = true := by
  have hp := push_pushed h.close hpush
  have huna : sender1.sndUna = sender.sndUna := by
    rw [hp.frame]
    rfl
  have hle := hp.inv.una_le
  rw [hp.inv.bytesInFlight_ok, Except.ok.injEq] at hidle1
  obtain ⟨bytes, hdrained⟩ := hp.drained
  rcases hp.filled with hfull | ⟨-, -, hfin⟩
  · -- the window has room for at least one sequence number
    have hroom : 1 ≤ sender.close.effectiveWindow := le_max_right _ _
    have hstart : sender.close.sndUna = sender.sndUna := rfl
    omega
  · have hnxt : sender1.sndNxt = sender.sndNxt := by omega
    have hclosed : sender1.outbound.closed = true := hdrained.closed
    have hfin0 : sender.close.finSent = true :=
      finSent_of_same_nxt h.close hp.inv hdrained hnxt (hfin hclosed)
    exact hfin0

/-- If RST is final, FIN was sent before: closing the connection would send it now. -/
theorem RstFinal.finSent (hfinal : RstFinal connection segment) (h : ConnInv connection)
    (hport : connection.belongsToThisConnection segment = true)
    (hrst : segment.header.rst = true) : connection.sender.finSent = true := by
  obtain ⟨connection1, hrun, hlater⟩ := hfinal
  obtain ⟨data, hinv⟩ := h.sender
  obtain ⟨sender, connection2, outgoing, hsender, hdata, hflush, -⟩ :=
    receiveSegment_eq_ok hport hrun
  rw [receive_rst hrst, Except.ok.injEq] at hsender
  subst hsender
  obtain ⟨receiver, hdata1, -, -⟩ := receiveData_total
    { connection with sender := connection.sender.abort } h.receiver
    segment.toSenderMessage
  rw [hdata, Except.ok.injEq] at hdata1
  obtain ⟨sender1, messages, hpush, hconnection1, -⟩ := flushSender_eq_ok.mp hflush
  have hpush1 : connection.sender.abort.push = .ok (sender1, messages) := by
    rw [hdata1] at hpush
    exact hpush
  have hp := push_pushed hinv.abort hpush1
  obtain ⟨bytes, hdrained⟩ := hp.drained
  have hsender1 : connection1.sender = sender1 := by rw [hconnection1]
  have huna1 : sender1.sndUna = connection.sender.sndNxt := by
    rw [hp.frame]
    rfl
  -- nothing was transmitted in answer
  have hidle : sender1.sndUna = sender1.sndNxt := by
    obtain ⟨connection3, emitted, hnothing, -, hflight, -⟩ := hlater []
    rw [Exec.run_nil, Except.ok.injEq, Prod.mk.injEq] at hnothing
    rw [← hnothing.1, TcpConnection.bytesInFlight, hsender1, hp.inv.bytesInFlight_ok,
      Except.ok.injEq] at hflight
    have hle := hp.inv.una_le
    omega
  -- and nothing is when the stream is closed
  obtain ⟨connection3, emitted, hclose, -, hflight, -⟩ := hlater [.close]
  obtain ⟨⟨connection4, segments4⟩, hstep, hrest⟩ := Exec.run_cons_eq_ok.mp hclose
  rw [Exec.run_nil, Except.ok.injEq, Prod.mk.injEq] at hrest
  obtain ⟨⟨connection5, segments5⟩, hperform, hok⟩ := Exec.bind_eq_ok.mp hstep
  simp only [Except.ok.injEq, Prod.mk.injEq] at hok
  obtain ⟨sender5, messages5, hpush5, hconnection5, -⟩ := flushSender_eq_ok.mp hperform
  have hsender3 : connection3.sender = sender5 := by
    rw [← hrest.1, ← hok.1, hconnection5]
  rw [hsender1] at hpush5
  rw [TcpConnection.bytesInFlight, hsender3] at hflight
  have hfin1 := finSent_of_close_silent hp.inv hidle hpush5 hflight
  have hnxt : sender1.sndNxt = connection.sender.sndNxt := by omega
  have hfin0 : connection.sender.abort.finSent = true :=
    finSent_of_same_nxt hinv.abort hp.inv hdrained hnxt hfin1
  exact hfin0

theorem rst_final_iff (hreach : Reachable connection)
    (hport : connection.belongsToThisConnection segment = true)
    (hrst : segment.header.rst = true) :
    RstFinal connection segment ↔
      segment.toSenderMessage.sequenceLength = 0 ∧ connection.sender.finSent = true := by
  have h := connInv_of_reachable hreach
  constructor
  · intro hfinal
    exact ⟨hfinal.empty h hport hrst, hfinal.finSent h hport hrst⟩
  · rintro ⟨hempty, hfin⟩
    exact rstFinal_of_finSent h hport hrst hempty hfin

/-! ## Two runs -/

def exampleConfig : TcpConnectionConfig where
  localPort := 1000
  peerPort := 2000
  senderCapacity := 64
  receiverCapacity := 64
  isn := ⟨0⟩
  senderConfig := ⟨100, 1000, 4⟩

/-- SYN and ACK of the peer, whose own sequence numbers start at 500. -/
def examplePeerSyn (windowSize : UInt16) : TcpSegment where
  header :=
    { srcPort := 2000, dstPort := 1000, seqno := ⟨500⟩, ackno := some ⟨1⟩
      windowSize := windowSize, syn := true, fin := false, rst := false }
  payload := []

def examplePeerRst : TcpSegment where
  header :=
    { srcPort := 2000, dstPort := 1000, seqno := ⟨501⟩, ackno := none
      windowSize := 0, syn := false, fin := false, rst := true }
  payload := []

/-- The state after the operations, with what was emitted. -/
def exampleRun (ops : List ConnOp) : Exec (TcpConnection × List TcpSegment) := do
  let connection ← new exampleConfig
  Exec.run emitStep (connection, []) ops

theorem reachable_of_exampleRun {ops : List ConnOp} {emitted : List TcpSegment}
    (h : exampleRun ops = .ok (connection, emitted)) : Reachable connection := by
  obtain ⟨connection0, hnew, hrun⟩ := Exec.bind_eq_ok.mp h
  exact ⟨exampleConfig, connection0, ops, emitted, hnew, hrun⟩

/-- RST behind FIN. -/
theorem rst_final_after_fin : ∃ connection, Reachable connection ∧
    connection.belongsToThisConnection examplePeerRst = true ∧
    examplePeerRst.header.rst = true ∧ connection.sender.finSent = true ∧
    RstFinal connection examplePeerRst := by
  obtain ⟨state, hrun, hfin, hport⟩ : ∃ state,
      exampleRun [.close, .receiveSegment (examplePeerSyn 10)] = .ok state ∧
        state.1.sender.finSent = true ∧
        state.1.belongsToThisConnection examplePeerRst = true := by
    decide +kernel
  have hreach : Reachable state.1 := reachable_of_exampleRun hrun
  exact ⟨state.1, hreach, hport, rfl, hfin, (rst_final_iff hreach hport rfl).mpr ⟨rfl, hfin⟩⟩

/-- The peer grants one byte of six and then resets the connection: the second byte is the
answer. -/
theorem rst_not_final : ¬ ∀ connection segment, Reachable connection →
    connection.belongsToThisConnection segment = true → segment.header.rst = true →
    RstFinal connection segment := by
  intro hclaim
  obtain ⟨state, hrun, hport, answer, hreceive, hanswer⟩ : ∃ state,
      exampleRun [.flushSender, .receiveSegment (examplePeerSyn 1), .write [1, 2, 3, 4, 5, 6]]
          = .ok state ∧
        state.1.belongsToThisConnection examplePeerRst = true ∧
        ∃ answer, state.1.receiveSegment examplePeerRst = .ok answer ∧
          answer.2.map TcpSegment.payload = [[2]] := by
    decide +kernel
  obtain ⟨connection1, hsilent, -⟩ :=
    hclaim state.1 examplePeerRst (reachable_of_exampleRun hrun) hport rfl
  rw [hreceive, Except.ok.injEq] at hsilent
  rw [hsilent] at hanswer
  exact absurd hanswer (by simp)

end TcpConnection

end Minnow
