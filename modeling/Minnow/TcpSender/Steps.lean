import Minnow.TcpSender.Push

set_option autoImplicit false

/-! # The other operations of the sender

What writing, closing, acknowledgments, resets and time do to a sender with the invariant.
None of them stops abnormally.
-/

namespace Minnow

namespace TcpSender

open OutstandingSegment ByteStream

variable {data : Bytes} {sender sender1 : TcpSender}

theorem new_eq_ok {capacity : Nat} {isn : Wrap32} {config : TcpSenderConfig}
    (hrun : new capacity isn config = .ok sender) : sender =
      { outbound := ByteStream.new capacity
        isn := isn
        sndUna := 0
        sndNxt := 0
        advertisedWindow := 1
        outstanding := []
        synSent := false
        finSent := false
        config := config
        currentRtoMs := config.initialRtoMs.toNat
        persistIntervalMs := config.initialRtoMs.toNat
        timer := Timer.stopped
        consecutiveRetransmissions := 0 } := by
  unfold new at hrun
  obtain ⟨u1, -, hrun⟩ := Exec.bind_eq_ok.mp hrun
  obtain ⟨u2, -, hrun⟩ := Exec.bind_eq_ok.mp hrun
  obtain ⟨u3, -, hrun⟩ := Exec.bind_eq_ok.mp hrun
  exact (Except.ok.inj hrun).symm

theorem new_ok {capacity : Nat} {isn : Wrap32} {config : TcpSenderConfig}
    (hrun : new capacity isn config = .ok sender) : Inv [] sender ∧ sender.isn = isn ∧
      sender.sndNxt = 0 ∧ sender.sndUna = 0 ∧ sender.synSent = false ∧
      sender.advertisedWindow = 1 ∧ sender.outbound = ByteStream.new capacity := by
  unfold new at hrun
  obtain ⟨u1, h1, hrun⟩ := Exec.bind_eq_ok.mp hrun
  obtain ⟨u2, h2, hrun⟩ := Exec.bind_eq_ok.mp hrun
  obtain ⟨u3, h3, hrun⟩ := Exec.bind_eq_ok.mp hrun
  have hinitial : 0 < config.initialRtoMs.toNat := UInt64.lt_iff_toNat_lt.mp (Exec.assert_eq_ok.mp h1)
  have hmax : config.initialRtoMs.toNat ≤ config.maxTimerIntervalMs.toNat :=
    UInt64.le_iff_toNat_le.mp (Exec.assert_eq_ok.mp h2)
  have hpayload := Exec.assert_eq_ok.mp h3
  obtain rfl := Except.ok.inj hrun
  refine ⟨?_, rfl, rfl, rfl, rfl, rfl, rfl⟩
  refine
    { pushed_eq := rfl
      contents_eq := by simp
      nxt_eq := rfl
      syn_first := fun _ => ⟨rfl, rfl⟩
      fin_last := fun h => absurd h (by simp)
      nxt_le := Nat.zero_le _
      queue := rfl
      genuine := fun _ hs => absurd hs List.not_mem_nil
      rst_eq := fun _ hs => absurd hs List.not_mem_nil
      payload_pos := hpayload
      window_le := by show 1 ≤ 65535; omega
      flight_le := Nat.zero_le _
      backoff := ⟨hinitial, hmax, hinitial, hmax, hinitial, hmax⟩
      timed := ?_ }
  constructor <;> simp [Timer.stopped]

/-- A valid configuration gives a sender. -/
theorem new_total (capacity : Nat) (isn : Wrap32) {config : TcpSenderConfig}
    (hinitial : 0 < config.initialRtoMs)
    (hmax : config.initialRtoMs ≤ config.maxTimerIntervalMs) (hpayload : 0 < config.maxPayloadSize) :
    ∃ sender, new capacity isn config = .ok sender := by
  unfold new
  rw [Exec.assert_pos hinitial, Exec.assert_pos hmax, Exec.assert_pos hpayload]
  exact ⟨_, rfl⟩

/-- The timer is all that restarting it changes. -/
theorem restartTimerForCurrentWindow_frame
    (hrun : sender.restartTimerForCurrentWindow = .ok sender1) :
    sender1 = { sender with timer := sender1.timer } := by
  unfold restartTimerForCurrentWindow at hrun
  split_ifs at hrun
  · rw [← Except.ok.inj hrun]
  · obtain ⟨timer, -, hok⟩ := Exec.bind_eq_ok.mp hrun
    rw [← Except.ok.inj hok]
  · obtain ⟨timer, -, hok⟩ := Exec.bind_eq_ok.mp hrun
    rw [← Except.ok.inj hok]

/-! ## The application's side -/

/-- An open stream grows at its end, and so does the sequence space. -/
theorem prefix_write (data : Bytes) (sender : TcpSender) (bytes : Bytes) :
    seqSpace data sender.outbound.closed <+:
      seqSpace (data ++ bytes.take (sender.write bytes).2)
        (sender.write bytes).1.outbound.closed := by
  have happ := sender.outbound.push_appended bytes
  show _ <+: seqSpace (data ++ bytes.take (sender.outbound.push bytes).2)
    (sender.outbound.push bytes).1.closed
  by_cases hacc : sender.outbound.Accepting
  · rw [hacc.1]
    exact prefix_seqSpace data _ _
  · rw [sender.outbound.push_of_not_accepting bytes hacc, List.take_zero, List.append_nil]

theorem prefix_close (data : Bytes) (sender : TcpSender) :
    seqSpace data sender.outbound.closed <+: seqSpace data sender.close.outbound.closed := by
  show _ <+: seqSpace data true
  cases sender.outbound.closed with
  | true => exact List.prefix_refl _
  | false =>
      have hpre := prefix_seqSpace data [] true
      rwa [List.append_nil] at hpre

theorem Inv.write (h : Inv data sender) (bytes : Bytes) :
    Inv (data ++ bytes.take (sender.write bytes).2) (sender.write bytes).1 := by
  have happ := sender.outbound.push_appended bytes
  have hpopped : (sender.outbound.push bytes).1.bytesPopped = sender.outbound.bytesPopped :=
    happ.popped
  show Inv (data ++ bytes.take (sender.outbound.push bytes).2)
    { sender with outbound := (sender.outbound.push bytes).1 }
  have hpre := prefix_write data sender bytes
  by_cases hacc : sender.outbound.Accepting
  · -- a stream that still accepts is not closed, so its FIN is still to come
    have hfin : sender.finSent = false := by
      by_contra hf
      have hclosed := (h.fin_last (by simpa using hf)).1
      rw [hacc.1] at hclosed
      exact absurd hclosed (by simp)
    refine
      { pushed_eq := ?_
        contents_eq := ?_
        nxt_eq := ?_
        syn_first := ?_
        fin_last := fun hf => absurd (hf.symm.trans hfin) (by simp)
        nxt_le := h.nxt_le
        queue := h.queue
        genuine := ?_
        rst_eq := ?_
        payload_pos := h.payload_pos
        window_le := h.window_le
        flight_le := h.flight_le
        backoff := h.backoff
        timed := ⟨h.timed.running_iff, h.timed.timeout_eq, h.timed.mode_eq, h.timed.elapsed_lt⟩ }
    · show (sender.outbound.push bytes).1.bytesPushed = _
      rw [happ.pushed, h.pushed_eq, List.length_append]
    · show (sender.outbound.push bytes).1.contents =
        (data ++ _).drop (sender.outbound.push bytes).1.bytesPopped
      rw [happ.contents, h.contents_eq, hpopped, List.drop_append_of_le_length h.popped_le]
    · show sender.sndNxt = _ + (sender.outbound.push bytes).1.bytesPopped + _
      rw [hpopped]
      exact h.nxt_eq
    · show _ → (sender.outbound.push bytes).1.bytesPopped = 0 ∧ _
      rw [hpopped]
      exact h.syn_first
    · exact fun segment hs => (h.genuine segment hs).mono hpre
    · show ∀ segment ∈ sender.outstanding,
        segment.message.rst = (sender.outbound.push bytes).1.error
      rw [happ.error]
      exact h.rst_eq
  · -- otherwise nothing is taken
    rw [sender.outbound.push_of_not_accepting bytes hacc, List.take_zero, List.append_nil]
    exact h

theorem Inv.close (h : Inv data sender) : Inv data sender.close where
  pushed_eq := h.pushed_eq
  contents_eq := h.contents_eq
  nxt_eq := h.nxt_eq
  syn_first := h.syn_first
  fin_last := fun hf => ⟨rfl, (h.fin_last hf).2⟩
  nxt_le := h.nxt_le
  queue := h.queue
  genuine := fun segment hs => (h.genuine segment hs).mono (prefix_close data sender)
  rst_eq := h.rst_eq
  payload_pos := h.payload_pos
  window_le := h.window_le
  flight_le := h.flight_le
  backoff := h.backoff
  timed := ⟨h.timed.running_iff, h.timed.timeout_eq, h.timed.mode_eq, h.timed.elapsed_lt⟩

/-! ## Feedback from the peer -/

theorem Inv.abort (h : Inv data sender) : Inv data sender.abort where
  pushed_eq := h.pushed_eq
  contents_eq := h.contents_eq
  nxt_eq := h.nxt_eq
  syn_first := h.syn_first
  fin_last := h.fin_last
  nxt_le := h.nxt_le
  queue := rfl
  genuine := fun _ hs => absurd hs List.not_mem_nil
  rst_eq := fun _ hs => absurd hs List.not_mem_nil
  payload_pos := h.payload_pos
  window_le := h.window_le
  flight_le := Nat.le_add_right _ _
  backoff := h.backoff
  timed := by constructor <;> simp [TcpSender.abort, Timer.stopped]

/-- The message is not dropped for acknowledging what was never sent. -/
def Accepts (sender : TcpSender) (message : TcpReceiverMessage) : Prop :=
  ∀ ackno ∈ message.ackno, ackno.unwrap sender.isn sender.sndNxt ≤ sender.sndNxt

instance (sender : TcpSender) (message : TcpReceiverMessage) : Decidable (sender.Accepts message) :=
  inferInstanceAs (Decidable (∀ ackno ∈ message.ackno, _))

/-- The oldest unacknowledged sequence number after an accepted message. -/
def ackedUna (sender : TcpSender) (message : TcpReceiverMessage) : Nat :=
  match message.ackno with
  | none => sender.sndUna
  | some ackno => max sender.sndUna (ackno.unwrap sender.isn sender.sndNxt)

/-- `sender1` is `sender` after feedback; the stream and what was transmitted are as before. -/
structure Received (data : Bytes) (sender : TcpSender) (una window : Nat) (sender1 : TcpSender) :
    Prop where
  inv : Inv data sender1
  frame : sender1 =
    { sender with
      sndUna := una, advertisedWindow := window, outstanding := sender1.outstanding
      currentRtoMs := sender1.currentRtoMs, persistIntervalMs := sender1.persistIntervalMs
      timer := sender1.timer
      consecutiveRetransmissions := sender1.consecutiveRetransmissions }
  queue_eq : sender1.outstanding = acknowledged sender.isn una sender.outstanding

theorem Received.outstanding {una window : Nat} (hr : Received data sender una window sender1)
    (h : Inv data sender) (hsame : una = sender.sndUna) :
    sender1.outstanding = sender.outstanding := by
  rw [hr.queue_eq, hsame]
  exact h.queue.cutAt_self

/-- The timer still suits the window if the window is the same, or if nothing is outstanding. -/
theorem Timed.withWindow (h : Timed sender) {window : Nat}
    (hkept : sender.advertisedWindow = window ∨ sender.outstanding = []) :
    Timed { sender with advertisedWindow := window } := by
  rcases hkept with rfl | hnil
  · exact h
  · have hstopped : ¬ sender.timer.running = true := fun hr => h.running_iff.mp hr hnil
    exact ⟨h.running_iff, fun hr => absurd hr hstopped, fun hr => absurd hr hstopped,
      fun hr => absurd hr hstopped⟩

theorem Inv.withWindow (h : Inv data sender) {window : Nat} (hwindow : window ≤ 65535)
    {timer : Timer} (htimed : Timed { sender with advertisedWindow := window, timer := timer }) :
    Inv data { sender with advertisedWindow := window, timer := timer } :=
  { h with window_le := hwindow, timed := htimed }

/-- A sender with nothing outstanding needs no timer. -/
theorem stopOrRestart_ok (sender : TcpSender)
    (h : Backoff sender.config sender.currentRtoMs sender.persistIntervalMs) :
    (if sender.outstanding = [] then Except.ok { sender with timer := Timer.stopped }
      else sender.restartTimerForCurrentWindow) = .ok { sender with timer := sender.timerFor } := by
  by_cases hnil : sender.outstanding = []
  · rw [if_pos hnil, timerFor, if_pos hnil]
  · rw [if_neg hnil, restartTimerForCurrentWindow_ok sender h]

theorem receiveWindow_spec (h : Inv data sender) {window : Nat} (hwindow : window ≤ 65535) :
    ∃ sender1, sender.receiveWindow window = .ok sender1 ∧
      Received data sender sender.sndUna window sender1 := by
  set updated : TcpSender := { sender with advertisedWindow := window } with hupdated
  unfold receiveWindow
  dsimp only
  by_cases hrestart : (decide (sender.advertisedWindow ≠ window) &&
      decide (sender.outstanding ≠ [])) = true
  · have hinv : Inv data { updated with timer := updated.timerFor } :=
      h.withWindow hwindow (timed_timerFor updated h.backoff)
    refine ⟨{ updated with timer := updated.timerFor }, ?_, hinv, rfl, h.queue.cutAt_self.symm⟩
    rw [if_pos hrestart, ← hupdated, restartTimerForCurrentWindow_ok updated h.backoff]
    simp only [Exec.ok_bind, hinv.debugCheckInvariants_ok]
  · -- either the window is the same or no timer runs
    have hkept : sender.advertisedWindow = window ∨ sender.outstanding = [] := by
      by_cases hsame : sender.advertisedWindow = window
      · exact Or.inl hsame
      · exact Or.inr (by simpa [hsame] using hrestart)
    have hinv : Inv data updated := h.withWindow hwindow (h.timed.withWindow hkept)
    refine ⟨updated, ?_, hinv, rfl, h.queue.cutAt_self.symm⟩
    rw [if_neg hrestart, ← hupdated]
    simp only [Exec.ok_bind, hinv.debugCheckInvariants_ok]

/-- An acknowledgment of something new shortens the queue, and everything about the timer
starts afresh. -/
theorem receiveAck_advanced (h : Inv data sender) {ackno window : Nat} (hwindow : window ≤ 65535)
    (hadvanced : sender.sndUna < ackno) (hsent : ackno ≤ sender.sndNxt) :
    ∃ sender1, sender.receiveAck ackno window = .ok sender1 ∧
      Received data sender ackno window sender1 := by
  obtain ⟨kept, hdiscard, hcut, hqueue, hgenuine, hrst⟩ := discardAcknowledgedPrefix_spec
    { sender with advertisedWindow := window, sndUna := ackno } h.queue h.genuine
    (le_of_lt hadvanced) hsent h.nxt_le
  set acked : TcpSender :=
    { sender with
      advertisedWindow := window, sndUna := ackno, outstanding := kept
      currentRtoMs := sender.config.initialRtoMs.toNat
      persistIntervalMs := sender.config.initialRtoMs.toNat
      consecutiveRetransmissions := 0 } with hacked
  have hbackoff : Backoff acked.config acked.currentRtoMs acked.persistIntervalMs :=
    ⟨h.backoff.initial_pos, h.backoff.initial_le, h.backoff.initial_pos, h.backoff.initial_le,
      h.backoff.initial_pos, h.backoff.initial_le⟩
  have hinv : Inv data { acked with timer := acked.timerFor } :=
    { h with
      queue := hqueue
      genuine := hgenuine
      rst_eq := by
        intro segment hs
        obtain ⟨old, hold, heq⟩ := hrst segment hs
        exact heq.trans (h.rst_eq old hold)
      window_le := hwindow
      flight_le := by
        have := h.flight_le
        show sender.sndNxt ≤ ackno + 65535
        omega
      backoff := hbackoff
      timed := timed_timerFor acked hbackoff }
  refine ⟨{ acked with timer := acked.timerFor }, ?_, hinv, rfl, hcut⟩
  unfold receiveAck
  rw [if_neg (Nat.not_lt.mpr hsent)]
  dsimp only
  simp only [hadvanced, decide_true, if_true, Bool.true_or, hdiscard, Exec.ok_bind, ← hacked]
  rw [stopOrRestart_ok acked hbackoff]
  simp only [Exec.ok_bind, hinv.debugCheckInvariants_ok]

/-- An old acknowledgment only updates the window. -/
theorem receiveAck_old (h : Inv data sender) {ackno window : Nat} (hwindow : window ≤ 65535)
    (hold : ackno ≤ sender.sndUna) :
    ∃ sender1, sender.receiveAck ackno window = .ok sender1 ∧
      Received data sender sender.sndUna window sender1 := by
  set updated : TcpSender := { sender with advertisedWindow := window } with hupdated
  have htimed : ∃ timer, (if updated.outstanding = [] then
        Except.ok { updated with timer := Timer.stopped }
      else if (decide (sender.advertisedWindow ≠ window)) = true then
        updated.restartTimerForCurrentWindow
      else .ok updated) = .ok { updated with timer := timer } ∧
      Timed { updated with timer := timer } := by
    by_cases hsame : sender.advertisedWindow = window ∧ updated.outstanding ≠ []
    · -- nothing has changed, and the timer goes on
      obtain ⟨hsame, hne⟩ := hsame
      refine ⟨sender.timer, ?_, h.timed.withWindow (Or.inl hsame)⟩
      rw [if_neg hne, if_neg (by simp [hsame])]
    · refine ⟨updated.timerFor, ?_, timed_timerFor updated h.backoff⟩
      rw [← stopOrRestart_ok updated h.backoff]
      by_cases hnil : updated.outstanding = []
      · rw [if_pos hnil, if_pos hnil]
      · rw [if_neg hnil, if_neg hnil, if_pos (by simpa [hnil] using hsame)]
  obtain ⟨timer, hrun, htimed⟩ := htimed
  have hinv : Inv data { updated with timer := timer } := h.withWindow hwindow htimed
  refine ⟨{ updated with timer := timer }, ?_, hinv, rfl, h.queue.cutAt_self.symm⟩
  unfold receiveAck
  rw [if_neg (Nat.not_lt.mpr (le_trans hold h.una_le))]
  dsimp only
  simp only [Nat.not_lt.mpr hold, decide_false, Bool.false_eq_true, if_false, Bool.false_or,
    Exec.ok_bind]
  rw [hrun]
  simp only [Exec.ok_bind, hinv.debugCheckInvariants_ok]

theorem receiveAck_spec (h : Inv data sender) {ackno window : Nat} (hwindow : window ≤ 65535)
    (hsent : ackno ≤ sender.sndNxt) :
    ∃ sender1, sender.receiveAck ackno window = .ok sender1 ∧
      Received data sender (max sender.sndUna ackno) window sender1 := by
  by_cases hadvanced : sender.sndUna < ackno
  · rw [max_eq_right (le_of_lt hadvanced)]
    exact receiveAck_advanced h hwindow hadvanced hsent
  · rw [max_eq_left (Nat.not_lt.mp hadvanced)]
    exact receiveAck_old h hwindow (Nat.not_lt.mp hadvanced)

/-- Feedback without RST: dropped if it acknowledges what was never sent. -/
theorem receive_spec (h : Inv data sender) {message : TcpReceiverMessage}
    (hrst : message.rst = false) :
    (sender.Accepts message ∧ ∃ sender1, sender.receive message = .ok sender1 ∧
      Received data sender (sender.ackedUna message) message.windowSize.toNat sender1) ∨
    (¬ sender.Accepts message ∧ sender.receive message = .ok sender) := by
  have hwindow := message.windowSize_le
  unfold receive Accepts ackedUna
  rw [hrst, if_neg (by simp)]
  cases hack : message.ackno with
  | none => exact Or.inl ⟨by simp, receiveWindow_spec h hwindow⟩
  | some ackno =>
      dsimp only
      by_cases hsent : ackno.unwrap sender.isn sender.sndNxt ≤ sender.sndNxt
      · refine Or.inl ⟨?_, receiveAck_spec h hwindow hsent⟩
        intro z hz
        obtain rfl := Option.mem_some_iff.mp hz
        exact hsent
      · refine Or.inr ⟨fun hall => hsent (hall ackno rfl), ?_⟩
        rw [receiveAck, if_pos (Nat.not_le.mp hsent)]

theorem receive_rst {message : TcpReceiverMessage} (hrst : message.rst = true) :
    sender.receive message = .ok sender.abort := by
  rw [receive, if_pos hrst]

/-- Feedback of any kind leaves a sender with the invariant. -/
theorem receive_total (h : Inv data sender) (message : TcpReceiverMessage) :
    ∃ sender1, sender.receive message = .ok sender1 ∧ Inv data sender1 := by
  cases hrst : message.rst with
  | true => exact ⟨sender.abort, receive_rst hrst, h.abort⟩
  | false =>
      rcases receive_spec h hrst with ⟨-, sender1, hrun, hr⟩ | ⟨-, hrun⟩
      · exact ⟨sender1, hrun, hr.inv⟩
      · exact ⟨sender, hrun, h⟩

/-- What feedback of any kind does to a sender. -/
theorem receive_cases (h : Inv data sender) {message : TcpReceiverMessage}
    (hrun : sender.receive message = .ok sender1) :
    (message.rst = true ∧ sender1 = sender.abort) ∨
    (message.rst = false ∧ sender.Accepts message ∧
      Received data sender (sender.ackedUna message) message.windowSize.toNat sender1) ∨
    (message.rst = false ∧ ¬ sender.Accepts message ∧ sender1 = sender) := by
  cases hrst : message.rst with
  | true =>
      rw [receive_rst hrst] at hrun
      exact Or.inl ⟨rfl, (Except.ok.inj hrun).symm⟩
  | false =>
      rcases receive_spec h hrst with ⟨haccepts, sender2, hrun2, hr⟩ | ⟨hdropped, hrun2⟩
      · obtain rfl := Except.ok.inj (hrun.symm.trans hrun2)
        exact Or.inr (Or.inl ⟨rfl, haccepts, hr⟩)
      · exact Or.inr (Or.inr ⟨rfl, hdropped, Except.ok.inj (hrun.symm.trans hrun2)⟩)

theorem Inv.receive (h : Inv data sender) {message : TcpReceiverMessage}
    (hrun : sender.receive message = .ok sender1) : Inv data sender1 := by
  obtain ⟨sender2, hrun2, hinv⟩ := receive_total h message
  obtain rfl := Except.ok.inj (hrun.symm.trans hrun2)
  exact hinv

/-- What is left to transmit and what was transmitted so far are the same. -/
structure SameSent (sender sender1 : TcpSender) : Prop where
  config : sender1.config = sender.config
  nxt : sender1.sndNxt = sender.sndNxt
  syn : sender1.synSent = sender.synSent
  fin : sender1.finSent = sender.finSent
  buffered : sender1.outbound.bytesBuffered = sender.outbound.bytesBuffered

/-- Feedback transmits nothing. -/
theorem receive_sameSent (h : Inv data sender) {message : TcpReceiverMessage}
    (hrun : sender.receive message = .ok sender1) : SameSent sender sender1 := by
  rcases receive_cases h hrun with ⟨-, rfl⟩ | ⟨-, -, hr⟩ | ⟨-, -, rfl⟩
  · exact ⟨rfl, rfl, rfl, rfl, rfl⟩
  · rw [hr.frame]
    exact ⟨rfl, rfl, rfl, rfl, rfl⟩
  · exact ⟨rfl, rfl, rfl, rfl, rfl⟩

/-! ## Time -/

/-- The timer expires within the next `elapsedMs` milliseconds. -/
def Expires (sender : TcpSender) (elapsedMs : Nat) : Prop :=
  sender.timer.running = true ∧
    sender.timer.timeoutMs ≤ saturatingAdd sender.timer.elapsedMs elapsedMs

/-- `sender1` is `sender` after time has passed; only the timer and its intervals change. -/
structure Ticked (data : Bytes) (sender sender1 : TcpSender) : Prop where
  inv : Inv data sender1
  frame : sender1 =
    { sender with
      currentRtoMs := sender1.currentRtoMs, persistIntervalMs := sender1.persistIntervalMs
      timer := sender1.timer
      consecutiveRetransmissions := sender1.consecutiveRetransmissions }

theorem backOff_frame (sender : TcpSender) : sender.backOff =
    { sender with
      currentRtoMs := sender.backOff.currentRtoMs
      persistIntervalMs := sender.backOff.persistIntervalMs
      consecutiveRetransmissions := sender.backOff.consecutiveRetransmissions } := by
  unfold backOff
  split_ifs <;> rfl

theorem backOff_backoff (sender : TcpSender)
    (h : Backoff sender.config sender.currentRtoMs sender.persistIntervalMs) :
    Backoff sender.backOff.config sender.backOff.currentRtoMs sender.backOff.persistIntervalMs := by
  have hinitial := h.initial_pos
  have hle := h.initial_le
  have hmax : 0 < u64Max := by decide
  have hbacked : ∀ interval, 0 < interval → 0 < sender.backedOff interval ∧
      sender.backedOff interval ≤ sender.config.maxTimerIntervalMs.toNat := by
    intro interval hpos
    unfold backedOff saturatingMul
    omega
  unfold backOff
  split_ifs
  · obtain ⟨h1, h2⟩ := hbacked _ h.persist_pos
    exact { h with persist_pos := h1, persist_le := h2 }
  · obtain ⟨h1, h2⟩ := hbacked _ h.rto_pos
    exact { h with rto_pos := h1, rto_le := h2 }

/-- Exactly when the timer expires, the front of the queue is transmitted again. -/
theorem tick_spec (h : Inv data sender) (elapsedMs : Nat) :
    ∃ sender1 messages, sender.tick elapsedMs = .ok (sender1, messages) ∧
      Ticked data sender sender1 ∧
      ((¬ sender.Expires elapsedMs ∧ messages = []) ∨
        (sender.Expires elapsedMs ∧ ∃ front rest, sender.outstanding = front :: rest ∧
          messages = [front.message])) := by
  unfold tick
  by_cases hrunning : sender.timer.running = true
  · set ticked : TcpSender :=
      { sender with
        timer := { sender.timer with
          elapsedMs := saturatingAdd sender.timer.elapsedMs elapsedMs } } with hticked
    have htick : sender.timer.tick elapsedMs = (ticked.timer,
        decide (sender.timer.timeoutMs ≤ saturatingAdd sender.timer.elapsedMs elapsedMs)) := by
      unfold Timer.tick
      rw [if_neg (by simp [hrunning])]
    have hwith : { sender with timer := ticked.timer } = ticked := rfl
    rw [htick]
    dsimp only
    rw [hwith]
    by_cases hexpired : sender.timer.timeoutMs ≤ saturatingAdd sender.timer.elapsedMs elapsedMs
    · -- the oldest segment goes out again
      rw [if_neg (by simp [hexpired])]
      have hbackoff := backOff_backoff ticked h.backoff
      have hframe := backOff_frame ticked
      have hinv : Inv data { ticked.backOff with timer := ticked.backOff.timerFor } := by
        have htimed := timed_timerFor ticked.backOff hbackoff
        rw [hframe] at htimed hbackoff ⊢
        exact { h with backoff := hbackoff, timed := htimed }
      have hrestarted : { ticked.backOff with timer := ticked.backOff.timerFor } =
          { sender with
            currentRtoMs := ticked.backOff.currentRtoMs
            persistIntervalMs := ticked.backOff.persistIntervalMs
            timer := ticked.backOff.timerFor
            consecutiveRetransmissions := ticked.backOff.consecutiveRetransmissions } := by
        rw [hframe]
      split
      · rename_i hnil
        exact absurd hnil (h.timed.running_iff.mp hrunning)
      · rename_i front rest hfront
        refine ⟨{ ticked.backOff with timer := ticked.backOff.timerFor }, [front.message], ?_,
          ⟨hinv, ?_⟩, Or.inr ⟨⟨hrunning, hexpired⟩, front, rest, hfront, rfl⟩⟩
        · simp only [restartTimerForCurrentWindow_ok ticked.backOff hbackoff, Exec.ok_bind,
            hinv.debugCheckInvariants_ok]
        · exact hrestarted
    · rw [if_pos (by simp [hexpired])]
      refine ⟨ticked, [], rfl, ⟨{ h with timed := ?_ }, rfl⟩,
        Or.inl ⟨fun he => hexpired he.2, rfl⟩⟩
      exact
        { running_iff := h.timed.running_iff
          timeout_eq := h.timed.timeout_eq
          mode_eq := h.timed.mode_eq
          elapsed_lt := fun _ => Nat.not_le.mp hexpired }
  · have htick : sender.timer.tick elapsedMs = (sender.timer, false) := by
      unfold Timer.tick
      rw [if_pos (by simpa using hrunning)]
    rw [htick]
    dsimp only
    exact ⟨sender, [], rfl, ⟨h, rfl⟩, Or.inl ⟨fun he => hrunning he.1, rfl⟩⟩

/-- What the passing of time does to a sender. -/
theorem tick_ticked (h : Inv data sender) {elapsedMs : Nat} {messages : List TcpSenderMessage}
    (hrun : sender.tick elapsedMs = .ok (sender1, messages)) :
    Ticked data sender sender1 ∧
      ((¬ sender.Expires elapsedMs ∧ messages = []) ∨
        (sender.Expires elapsedMs ∧ ∃ front rest, sender.outstanding = front :: rest ∧
          messages = [front.message])) := by
  obtain ⟨sender2, messages2, hrun2, ht, hmessages⟩ := tick_spec h elapsedMs
  obtain ⟨rfl, rfl⟩ := Prod.mk.inj (Except.ok.inj (hrun.symm.trans hrun2))
  exact ⟨ht, hmessages⟩

end TcpSender

end Minnow
