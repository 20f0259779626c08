import Minnow.TcpSender.Run
import Mathlib.Order.Bounds.Basic

set_option autoImplicit false

/-! # Acknowledgments are cumulative

While nothing new is pushed, `sndNxt` stays where it is, and every acknowledgment number stands
for the same absolute number whenever it is read. Each one that is not beyond `sndNxt` cuts the
queue there, and a cut further on makes up for the ones before it.

* `receive_queue`: one message.
* `acks_cumulative`: any list of them leaves what the greatest alone would have left.
-/

namespace Minnow

namespace TcpSender

open OutstandingSegment

variable {sender sender1 : TcpSender} {data : Bytes} {messages : List TcpReceiverMessage}
  {message : TcpReceiverMessage}

/-- The absolute numbers that the messages acknowledge. -/
def ackValues (sender : TcpSender) (messages : List TcpReceiverMessage) : List Nat :=
  messages.filterMap (fun message =>
    message.ackno.map (fun ackno => ackno.unwrap sender.isn sender.sndNxt))

/-- The greatest of the ones that were sent, or `sndUna` if it is greater. -/
def greatestAck (sender : TcpSender) (messages : List TcpReceiverMessage) : Nat :=
  ((sender.ackValues messages).filter (fun ackno => decide (ackno ≤ sender.sndNxt))).foldl max
    sender.sndUna

theorem foldl_max_isGreatest (l : List Nat) (a : Nat) :
    IsGreatest {x | x = a ∨ x ∈ l} (l.foldl max a) := by
  induction l generalizing a with
  | nil =>
      refine ⟨Or.inl rfl, ?_⟩
      rintro x (rfl | hx)
      · exact le_refl _
      · exact absurd hx List.not_mem_nil
  | cons b l ih =>
      obtain ⟨hmem, hupper⟩ := ih (max a b)
      rw [List.foldl_cons]
      constructor
      · rcases hmem with heq | hmem
        · rw [heq]
          rcases max_choice a b with h | h
          · exact Or.inl h
          · exact Or.inr (by rw [h]; exact List.mem_cons_self)
        · exact Or.inr (List.mem_cons_of_mem _ hmem)
      · have hstart : max a b ≤ l.foldl max (max a b) := hupper (Or.inl rfl)
        rintro x (rfl | hx)
        · exact le_trans (le_max_left _ _) hstart
        · rcases List.mem_cons.mp hx with rfl | hx
          · exact le_trans (le_max_right _ _) hstart
          · exact hupper (Or.inr hx)

/-- The greatest acknowledgment only depends on which numbers are acknowledged. -/
theorem greatestAck_congr {others : List TcpReceiverMessage}
    (h : ∀ ackno, ackno ∈ sender.ackValues others ↔ ackno ∈ sender.ackValues messages) :
    sender.greatestAck others = sender.greatestAck messages := by
  apply (foldl_max_isGreatest _ sender.sndUna).unique
  have hsame : {x | x = sender.sndUna ∨
        x ∈ (sender.ackValues others).filter (fun ackno => decide (ackno ≤ sender.sndNxt))}
      = {x | x = sender.sndUna ∨
        x ∈ (sender.ackValues messages).filter (fun ackno => decide (ackno ≤ sender.sndNxt))} := by
    ext x
    simp only [Set.mem_ofPred_eq, List.mem_filter, h x]
  rw [hsame]
  exact foldl_max_isGreatest _ _

theorem sndUna_le_greatestAck (sender : TcpSender) (messages : List TcpReceiverMessage) :
    sender.sndUna ≤ sender.greatestAck messages :=
  (foldl_max_isGreatest _ _).2 (Or.inl rfl)

theorem greatestAck_le (h : sender.sndUna ≤ sender.sndNxt) (messages : List TcpReceiverMessage) :
    sender.greatestAck messages ≤ sender.sndNxt := by
  rcases (foldl_max_isGreatest ((sender.ackValues messages).filter
      (fun ackno => decide (ackno ≤ sender.sndNxt))) sender.sndUna).1 with heq | hmem
  · exact le_of_eq_of_le heq h
  · exact of_decide_eq_true (List.mem_filter.mp hmem).2

/-- What a message acknowledges is read with the same checkpoint before and after the others. -/
theorem greatestAck_cons (hisn : sender1.isn = sender.isn) (hnxt : sender1.sndNxt = sender.sndNxt)
    (huna : sender1.sndUna = sender.greatestAck [message]) :
    sender.greatestAck (message :: messages) = sender1.greatestAck messages := by
  have hsplit : sender.ackValues (message :: messages)
      = sender.ackValues [message] ++ sender.ackValues messages := by
    show List.filterMap _ ([message] ++ messages) = _
    exact List.filterMap_append
  unfold greatestAck at huna ⊢
  rw [hsplit, List.filter_append, List.foldl_append, ← huna]
  unfold ackValues
  rw [hisn, hnxt]

/-- A message without RST cuts the queue where it acknowledges it. -/
theorem receive_queue (h : Inv data sender) (hrst : message.rst = false) :
    ∃ sender1, sender.receive message = .ok sender1 ∧ Inv data sender1 ∧
      sender1.isn = sender.isn ∧ sender1.sndNxt = sender.sndNxt ∧
      sender1.sndUna = sender.greatestAck [message] ∧
      sender1.outstanding = acknowledged sender.isn sender1.sndUna sender.outstanding := by
  rcases receive_spec h hrst with ⟨haccepts, sender1, hrun, hr⟩ | ⟨hdropped, hrun⟩
  · have huna : sender1.sndUna = sender.ackedUna message := by rw [hr.frame]
    refine ⟨sender1, hrun, hr.inv, by rw [hr.frame], by rw [hr.frame], ?_, huna ▸ hr.queue_eq⟩
    rw [huna]
    unfold Accepts at haccepts
    unfold ackedUna greatestAck ackValues
    cases hack : message.ackno with
    | none => simp [hack]
    | some ackno =>
        have hsent := haccepts ackno hack
        simp [hack, hsent]
  · refine ⟨sender, hrun, h, rfl, rfl, ?_, h.queue.cutAt_self.symm⟩
    unfold Accepts at hdropped
    unfold greatestAck ackValues
    cases hack : message.ackno with
    | none => simp [hack] at hdropped
    | some ackno =>
        have hbeyond : ¬ ackno.unwrap sender.isn sender.sndNxt ≤ sender.sndNxt := by
          simpa [hack] using hdropped
        simp [hack, hbeyond]

/-- A list of them cuts it at the greatest acknowledgment. -/
theorem receive_run_queue (h : Inv data sender) (hrst : ∀ message ∈ messages, message.rst = false) :
    ∃ sender1, Exec.run receive sender messages = .ok sender1 ∧
      sender1.sndUna = sender.greatestAck messages ∧
      sender1.outstanding = acknowledged sender.isn sender1.sndUna sender.outstanding := by
  induction messages generalizing sender with
  | nil => exact ⟨sender, rfl, rfl, h.queue.cutAt_self.symm⟩
  | cons message messages ih =>
      obtain ⟨sender1, hrun1, hinv1, hisn, hnxt, huna1, hqueue1⟩ :=
        receive_queue h (hrst message List.mem_cons_self)
      obtain ⟨sender2, hrun2, huna2, hqueue2⟩ :=
        ih hinv1 (fun m hm => hrst m (List.mem_cons_of_mem _ hm))
      refine ⟨sender2, Exec.run_cons_eq_ok.mpr ⟨sender1, hrun1, hrun2⟩, ?_, ?_⟩
      · rw [huna2, greatestAck_cons hisn hnxt huna1]
      · have hle : sender1.sndUna ≤ sender2.sndUna := by
          rw [huna2]
          exact sndUna_le_greatestAck sender1 messages
        calc sender2.outstanding
            = acknowledged sender1.isn sender2.sndUna sender1.outstanding := hqueue2
          _ = acknowledged sender.isn sender2.sndUna
                (acknowledged sender.isn sender1.sndUna sender.outstanding) := by rw [hisn, hqueue1]
          _ = acknowledged sender.isn sender2.sndUna sender.outstanding :=
              (trims sender.isn).cutAt_cutAt hle _

/-- In every state of a run, any list of acknowledgments moves `sndUna` to the greatest that was
sent and leaves the queue that one alone would have left; another list of the same numbers, in
any order and with any repetition, does the same; and a message that acknowledges what was never
sent changes nothing. -/
theorem acks_cumulative {capacity : Nat} {isn : Wrap32} {config : TcpSenderConfig}
    {ops : List SenderOp} {log : Log} (hnew : TcpSender.new capacity isn config = .ok sender)
    (hrun : Exec.run Log.step (Log.start sender) ops = .ok log)
    (hrst : ∀ message ∈ messages, message.rst = false) :
    ∃ sender1, Exec.run receive log.sender messages = .ok sender1 ∧
      sender1.sndUna = log.sender.greatestAck messages ∧
      (sender1.sndUna = log.sender.sndUna → sender1.outstanding = log.sender.outstanding) ∧
      (∀ greatest ackno, greatest.rst = false → greatest.ackno = some ackno →
        ackno.unwrap log.sender.isn log.sender.sndNxt = sender1.sndUna →
        ∃ sender2, log.sender.receive greatest = .ok sender2 ∧
          sender2.sndUna = sender1.sndUna ∧ sender2.outstanding = sender1.outstanding) ∧
      (∀ others, (∀ message ∈ others, message.rst = false) →
        (∀ ackno, ackno ∈ log.sender.ackValues others ↔ ackno ∈ log.sender.ackValues messages) →
        ∃ sender2, Exec.run receive log.sender others = .ok sender2 ∧
          sender2.sndUna = sender1.sndUna ∧ sender2.outstanding = sender1.outstanding) ∧
      ∀ beyond ackno, beyond.rst = false → beyond.ackno = some ackno →
        log.sender.sndNxt < ackno.unwrap log.sender.isn log.sender.sndNxt →
        log.sender.receive beyond = .ok log.sender := by
  have h := (Log.logInv_run hnew hrun).inv
  obtain ⟨sender1, hrun1, huna1, hqueue1⟩ := receive_run_queue h hrst
  refine ⟨sender1, hrun1, huna1, ?_, ?_, ?_, ?_⟩
  · intro hsame
    rw [hqueue1, hsame]
    exact h.queue.cutAt_self
  · intro greatest ackno hgreatest hack heq
    -- the queue is cut at `snd_una`, so the greatest acknowledgment alone cuts the same part
    obtain ⟨sender2, hrun2, -, -, -, huna2, hqueue2⟩ := receive_queue h hgreatest
    have hle : log.sender.sndUna ≤ sender1.sndUna := huna1 ▸ sndUna_le_greatestAck _ messages
    have hsent : sender1.sndUna ≤ log.sender.sndNxt := huna1 ▸ greatestAck_le h.una_le messages
    have huna : sender2.sndUna = sender1.sndUna := by
      rw [huna2]
      simp [greatestAck, ackValues, hack, heq, hsent, hle]
    exact ⟨sender2, hrun2, huna, by rw [hqueue2, hqueue1, huna]⟩
  · intro others hothers hsame
    -- the greatest acknowledgment depends on the set of values, not on their order
    obtain ⟨sender2, hrun2, huna2, hqueue2⟩ := receive_run_queue h hothers
    have huna : sender2.sndUna = sender1.sndUna := by
      rw [huna2, huna1, greatestAck_congr hsame]
    exact ⟨sender2, hrun2, huna, by rw [hqueue2, hqueue1, huna]⟩
  · intro beyond ackno hbeyond hack hlt
    rcases receive_spec h hbeyond with ⟨haccepts, -⟩ | ⟨-, hsame⟩
    · exact absurd (haccepts ackno hack) (Nat.not_le.mpr hlt)
    · exact hsame

/-- Two segments are in flight, just behind the largest sequence number. -/
def wrappedRun : List SenderOp :=
  [.push, .receive ⟨some ⟨0⟩, 8, false⟩, .write [1, 2, 3, 4, 5, 6], .push]

/-- The second acknowledgment is old when it comes, and the third was never sent. -/
def lateAcks : List TcpReceiverMessage :=
  [⟨some ⟨3⟩, 8, false⟩, ⟨some ⟨1⟩, 4, false⟩, ⟨some ⟨100⟩, 4, false⟩, ⟨some ⟨3⟩, 2, false⟩]

theorem acks_cumulative_late : ∃ sender log sender1,
    TcpSender.new 16 ⟨0xffffffff⟩ ⟨100, 1000, 4⟩ = .ok sender ∧
    Exec.run Log.step (Log.start sender) wrappedRun = .ok log ∧
    Exec.run receive log.sender lateAcks = .ok sender1 ∧ log.sender.greatestAck lateAcks = 4 ∧
    sender1.sndUna = log.sender.greatestAck lateAcks ∧
    ∃ sender2, Exec.run receive log.sender lateAcks.reverse = .ok sender2 ∧
      sender2.sndUna = sender1.sndUna ∧ sender2.outstanding = sender1.outstanding := by
  obtain ⟨sender, hnew, log, hrun, hgreatest⟩ : ∃ sender,
      TcpSender.new 16 ⟨0xffffffff⟩ ⟨100, 1000, 4⟩ = .ok sender ∧
        ∃ log, Exec.run Log.step (Log.start sender) wrappedRun = .ok log ∧
          log.sender.greatestAck lateAcks = 4 := by
    decide +kernel
  obtain ⟨sender1, hrun1, huna1, -, -, hothers, -⟩ :=
    acks_cumulative hnew hrun (show ∀ message ∈ lateAcks, message.rst = false by decide)
  refine ⟨sender, log, sender1, hnew, hrun, hrun1, hgreatest, huna1, hothers _ (by decide) ?_⟩
  intro ackno
  unfold ackValues
  rw [List.filterMap_reverse, List.mem_reverse]

end TcpSender

end Minnow
