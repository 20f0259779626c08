import Minnow.TcpSender.Timers

set_option autoImplicit false

/-! # Feedback that acknowledges nothing new

A loss is repaired when the timer of the front segment runs out. Feedback that acknowledges
nothing new leaves the queue as it is, but `receive` restarts the timer whenever the advertised
window has changed, not only when it has closed or opened. A peer whose window keeps changing can
hold the timer back for ever.

* `receive_idle`: what such feedback does.
* `retransmits_iff`: exactly which runs repeat the front segment in time.
-/

namespace Minnow

namespace TcpSender

open OutstandingSegment

variable {sender sender1 : TcpSender} {data : Bytes} {message : TcpReceiverMessage}

/-! ## One message -/

/-- The sender after the peer has advertised a window and acknowledged nothing new, with
something outstanding. -/
def advertised (sender : TcpSender) (window : Nat) : TcpSender :=
  { sender with
    advertisedWindow := window
    timer :=
      if sender.advertisedWindow = window then sender.timer
      else timerFor { sender with advertisedWindow := window } }

theorem Inv.advertised (h : Inv data sender) {window : Nat} (hwindow : window ≤ 65535) :
    Inv data (sender.advertised window) := by
  apply h.withWindow hwindow
  by_cases hsame : sender.advertisedWindow = window
  · rw [if_pos hsame]
    exact h.timed.withWindow (Or.inl hsame)
  · rw [if_neg hsame]
    exact timed_timerFor { sender with advertisedWindow := window } h.backoff

theorem receive_idle (h : Inv data sender) (hout : sender.outstanding ≠ [])
    (hrst : message.rst = false) (haccepts : sender.Accepts message)
    (hidle : ¬ sender.Advances message) :
    sender.receive message = .ok (sender.advertised message.windowSize.toNat) := by
  have hchecks := (h.advertised message.windowSize_le).debugCheckInvariants_ok
  set window := message.windowSize.toNat
  -- either way the last step restarts the timer exactly when the window has changed
  have htimed : ∀ changed : Bool, changed = decide (sender.advertisedWindow ≠ window) →
      (if changed = true then
        restartTimerForCurrentWindow { sender with advertisedWindow := window }
      else .ok { sender with advertisedWindow := window }) = .ok (sender.advertised window) := by
    rintro changed rfl
    unfold advertised
    by_cases hsame : sender.advertisedWindow = window
    · rw [if_neg (by simp [hsame]), if_pos hsame]
    · rw [if_pos (by simp [hsame]), if_neg hsame]
      exact restartTimerForCurrentWindow_ok { sender with advertisedWindow := window } h.backoff
  unfold receive
  rw [hrst, if_neg Bool.false_ne_true]
  cases hack : message.ackno with
  | none =>
      show sender.receiveWindow window = _
      unfold receiveWindow
      dsimp only
      rw [htimed _ (by simp [hout])]
      simp only [Exec.ok_bind, hchecks]
  | some ackno =>
      have hsent := haccepts ackno hack
      have hold : ¬ sender.sndUna < ackno.unwrap sender.isn sender.sndNxt :=
        fun hlt => hidle ⟨hrst, ackno, hack, hlt, hsent⟩
      show sender.receiveAck (ackno.unwrap sender.isn sender.sndNxt) window = _
      unfold receiveAck
      rw [if_neg (Nat.not_lt.mpr hsent)]
      dsimp only
      simp only [hold, decide_false, Bool.false_eq_true, if_false, Bool.false_or, Exec.ok_bind]
      rw [if_neg hout, htimed _ rfl]
      simp only [Exec.ok_bind, hchecks]

/-! ## Harmless operations -/

/-- Time passes, or the peer sends a message that neither resets the connection nor acknowledges
anything new nor closes the window. Such operations leave `sndUna` and `sndNxt` as they are, so
`sender` may be the sender at the beginning of all of them. -/
def Harmless (sender : TcpSender) : SenderOp → Prop
  | .tick _ => True
  | .receive message =>
      message.rst = false ∧ ¬ sender.Advances message ∧ message.windowSize ≠ 0
  | _ => False

instance (sender : TcpSender) (op : SenderOp) : Decidable (sender.Harmless op) :=
  match op with
  | .tick _ => inferInstanceAs (Decidable True)
  | .receive message => inferInstanceAs (Decidable (_ ∧ ¬ sender.Advances message ∧ _))
  | .write _ => inferInstanceAs (Decidable False)
  | .close => inferInstanceAs (Decidable False)
  | .push => inferInstanceAs (Decidable False)

/-- The milliseconds that pass. -/
def ticked (ops : List SenderOp) : Nat :=
  (ops.map (fun op => match op with
    | .tick elapsedMs => elapsedMs
    | _ => 0)).sum

/-- The window advertised last. -/
def windowAfter (sender : TcpSender) (window : Nat) (ops : List SenderOp) : Nat :=
  ops.foldl (fun window op => match op with
    | .receive message =>
        if sender.Accepts message then message.windowSize.toNat else window
    | _ => window) window

/-- No accepted message advertises another window. -/
def Steady (sender : TcpSender) (window : Nat) (ops : List SenderOp) : Prop :=
  ∀ message, SenderOp.receive message ∈ ops → sender.Accepts message →
    message.windowSize.toNat = window

/-- Some stretch without a change of the window is as long as the timeout. What has elapsed
before counts for a stretch at the beginning. -/
def Uninterrupted (sender : TcpSender) (timeoutMs elapsedMs window : Nat) (ops : List SenderOp) :
    Prop :=
  (∃ stretch after, ops = stretch ++ after ∧ sender.Steady window stretch ∧
    timeoutMs ≤ elapsedMs + ticked stretch) ∨
  ∃ before stretch after, ops = before ++ stretch ++ after ∧
    sender.Steady (sender.windowAfter window before) stretch ∧ timeoutMs ≤ ticked stretch

variable {op : SenderOp} {ops : List SenderOp} {timeoutMs elapsedMs window : Nat}

theorem ticked_cons (op : SenderOp) (ops : List SenderOp) :
    ticked (op :: ops) = ticked [op] + ticked ops := by
  simp only [ticked, List.map_cons, List.map_nil, List.sum_cons, List.sum_nil, Nat.add_zero]

theorem windowAfter_cons (sender : TcpSender) (window : Nat) (op : SenderOp)
    (ops : List SenderOp) : sender.windowAfter window (op :: ops) =
      sender.windowAfter (sender.windowAfter window [op]) ops := rfl

theorem steady_cons : sender.Steady window (op :: ops) ↔
    sender.Steady window [op] ∧ sender.Steady window ops := by
  unfold Steady
  constructor
  · intro h
    refine ⟨fun message hmem => h message ?_, fun message hmem => h message ?_⟩
    · exact List.mem_cons.mpr (Or.inl (List.mem_singleton.mp hmem))
    · exact List.mem_cons_of_mem _ hmem
  · rintro ⟨hop, hops⟩ message hmem
    rcases List.mem_cons.mp hmem with heq | hmem
    · exact hop message (List.mem_singleton.mpr heq)
    · exact hops message hmem

theorem steady_tick (sender : TcpSender) (window elapsedMs : Nat) :
    sender.Steady window [.tick elapsedMs] := by
  intro message hmem
  exact absurd (List.mem_singleton.mp hmem) (by simp)

theorem steady_receive : sender.Steady window [.receive message] ↔
    (sender.Accepts message → message.windowSize.toNat = window) := by
  unfold Steady
  constructor
  · exact fun h => h message List.mem_cons_self
  · intro h other hmem
    obtain rfl := SenderOp.receive.inj (List.mem_singleton.mp hmem)
    exact h

theorem Steady.windowAfter_eq (h : sender.Steady window [op]) :
    sender.windowAfter window [op] = window := by
  cases op with
  | receive message =>
      show (if sender.Accepts message then message.windowSize.toNat else window) = window
      by_cases haccepts : sender.Accepts message
      · rw [if_pos haccepts]
        exact h message List.mem_cons_self haccepts
      · rw [if_neg haccepts]
  | write bytes => rfl
  | close => rfl
  | push => rfl
  | tick elapsedMs => rfl

theorem not_uninterrupted_nil (hlt : elapsedMs < timeoutMs) :
    ¬ sender.Uninterrupted timeoutMs elapsedMs window [] := by
  have hnone : ticked [] = 0 := rfl
  rintro (⟨stretch, after, hsplit, -, hlong⟩ | ⟨before, stretch, after, hsplit, -, hlong⟩)
  · obtain ⟨rfl, -⟩ := List.append_eq_nil_iff.mp hsplit.symm
    omega
  · obtain ⟨hsplit, -⟩ := List.append_eq_nil_iff.mp hsplit.symm
    obtain ⟨-, rfl⟩ := List.append_eq_nil_iff.mp hsplit
    omega

/-- The first operation either goes on with the stretch or starts a new one. -/
theorem uninterrupted_cons (hlt : elapsedMs < timeoutMs) :
    sender.Uninterrupted timeoutMs elapsedMs window (op :: ops) ↔
      (sender.Steady window [op] ∧
        sender.Uninterrupted timeoutMs (elapsedMs + ticked [op]) window ops) ∨
      (¬ sender.Steady window [op] ∧
        sender.Uninterrupted timeoutMs 0 (sender.windowAfter window [op]) ops) := by
  have hnone : ticked [] = 0 := rfl
  -- a stretch from here on contains the first operation, for it is not empty
  have hnow : ∀ stretch after, op :: ops = stretch ++ after → sender.Steady window stretch →
      timeoutMs ≤ elapsedMs + ticked stretch → sender.Steady window [op] ∧
        sender.Uninterrupted timeoutMs (elapsedMs + ticked [op]) window ops := by
    intro stretch after hsplit hsteady hlong
    cases stretch with
    | nil => omega
    | cons first stretch =>
        obtain ⟨rfl, rfl⟩ := List.cons.inj hsplit
        obtain ⟨hfirst, hrest⟩ := steady_cons.mp hsteady
        rw [ticked_cons] at hlong
        exact ⟨hfirst, Or.inl ⟨stretch, after, rfl, hrest, by omega⟩⟩
  constructor
  · rintro (⟨stretch, after, hsplit, hsteady, hlong⟩ |
      ⟨before, stretch, after, hsplit, hsteady, hlong⟩)
    · exact Or.inl (hnow stretch after hsplit hsteady hlong)
    · cases before with
      | nil => exact Or.inl (hnow stretch after hsplit hsteady (by omega))
      | cons first before =>
          obtain ⟨rfl, rfl⟩ := List.cons.inj hsplit
          rw [windowAfter_cons] at hsteady
          by_cases hfirst : sender.Steady window [op]
          · rw [hfirst.windowAfter_eq] at hsteady
            exact Or.inl ⟨hfirst, Or.inr ⟨before, stretch, after, rfl, hsteady, hlong⟩⟩
          · exact Or.inr ⟨hfirst, Or.inr ⟨before, stretch, after, rfl, hsteady, hlong⟩⟩
  · rintro (⟨hfirst, ⟨stretch, after, rfl, hsteady, hlong⟩ |
        ⟨before, stretch, after, rfl, hsteady, hlong⟩⟩ |
      ⟨-, ⟨stretch, after, rfl, hsteady, hlong⟩ |
        ⟨before, stretch, after, rfl, hsteady, hlong⟩⟩)
    · refine Or.inl ⟨op :: stretch, after, rfl, steady_cons.mpr ⟨hfirst, hsteady⟩, ?_⟩
      rw [ticked_cons]
      omega
    · refine Or.inr ⟨op :: before, stretch, after, rfl, ?_, hlong⟩
      rw [windowAfter_cons, hfirst.windowAfter_eq]
      exact hsteady
    · exact Or.inr ⟨[op], stretch, after, rfl, hsteady, by omega⟩
    · exact Or.inr ⟨op :: before, stretch, after, rfl, hsteady, hlong⟩

/-- A stretch that is long enough by its first operation. -/
theorem uninterrupted_of_le (hfirst : sender.Steady window [op])
    (hlong : timeoutMs ≤ elapsedMs + ticked [op]) :
    sender.Uninterrupted timeoutMs elapsedMs window (op :: ops) :=
  Or.inl ⟨[op], ops, rfl, hfirst, hlong⟩

/-! ## Waiting for the timer -/

variable {isn : Wrap32} {log log1 : Log} {front : OutstandingSegment}
  {rest : List OutstandingSegment}

/-- The sequence numbers and the queue are those of `sender`, and the window is open. -/
structure Waiting (isn : Wrap32) (sender : TcpSender) (window : Nat) (log : Log) : Prop where
  logInv : Log.LogInv isn log
  isn_eq : log.sender.isn = sender.isn
  una_eq : log.sender.sndUna = sender.sndUna
  nxt_eq : log.sender.sndNxt = sender.sndNxt
  queue_eq : log.sender.outstanding = sender.outstanding
  window_eq : log.sender.advertisedWindow = window
  window_ne : window ≠ 0

theorem Waiting.outstanding_ne (h : Waiting isn sender window log)
    (hfront : sender.outstanding = front :: rest) : log.sender.outstanding ≠ [] := by
  rw [h.queue_eq, hfront]
  exact List.cons_ne_nil _ _

theorem Waiting.running (h : Waiting isn sender window log)
    (hfront : sender.outstanding = front :: rest) : log.sender.timer.running = true :=
  h.logInv.inv.timed.running_iff.mpr (h.outstanding_ne hfront)

theorem Waiting.accepts_iff (h : Waiting isn sender window log) (message : TcpReceiverMessage) :
    log.sender.Accepts message ↔ sender.Accepts message := by
  unfold Accepts
  rw [h.isn_eq, h.nxt_eq]

theorem Waiting.advances_iff (h : Waiting isn sender window log) (message : TcpReceiverMessage) :
    log.sender.Advances message ↔ sender.Advances message := by
  unfold Advances
  rw [h.isn_eq, h.nxt_eq, h.una_eq]

/-- What a harmless operation does to the timer: the front is repeated, or the time goes on, or
the timer starts anew with another window. -/
inductive Progress (sender : TcpSender) (window : Nat) (op : SenderOp)
    (front : OutstandingSegment) (log log1 : Log) : Prop where
  | repeated (hsent : log1.sent = log.sent ++ [front]) (hsteady : sender.Steady window [op])
      (hlong : log.sender.timer.timeoutMs ≤ log.sender.timer.elapsedMs + ticked [op])
  | waited (hsent : log1.sent = log.sent) (hsteady : sender.Steady window [op])
      (htimeout : log1.sender.timer.timeoutMs = log.sender.timer.timeoutMs)
      (helapsed : log1.sender.timer.elapsedMs = log.sender.timer.elapsedMs + ticked [op])
  | restarted (hsent : log1.sent = log.sent) (hchanged : ¬ sender.Steady window [op])
      (htimeout : log1.sender.timer.timeoutMs = log.sender.timer.timeoutMs)
      (helapsed : log1.sender.timer.elapsedMs = 0)

/-- Before the timer expires, the time goes on and nothing is transmitted. -/
theorem tick_quiet (h : Inv data sender) (hrunning : sender.timer.running = true)
    (hlt : sender.timer.elapsedMs + elapsedMs < sender.timer.timeoutMs) :
    sender.tick elapsedMs = .ok
      ({ sender with
          timer := { sender.timer with elapsedMs := sender.timer.elapsedMs + elapsedMs } }, []) := by
  have hword := Probed.timeoutMs_le h hrunning
  have hsum : saturatingAdd sender.timer.elapsedMs elapsedMs
      = sender.timer.elapsedMs + elapsedMs := saturatingAdd_of_le (by omega)
  unfold TcpSender.tick Timer.tick
  rw [if_neg (by simp [hrunning])]
  dsimp only
  rw [hsum, if_pos (by simpa using hlt)]

theorem Waiting.passed (h : Waiting isn sender window log) {sender1 : TcpSender}
    {sent : List OutstandingSegment} (ht : Ticked log.accepted log.sender sender1)
    (hnext : Log.LogInv isn { log with sender := sender1, sent := sent }) :
    Waiting isn sender window { log with sender := sender1, sent := sent } where
  logInv := hnext
  isn_eq := (congrArg TcpSender.isn ht.frame).trans h.isn_eq
  una_eq := (congrArg TcpSender.sndUna ht.frame).trans h.una_eq
  nxt_eq := (congrArg TcpSender.sndNxt ht.frame).trans h.nxt_eq
  queue_eq := (congrArg TcpSender.outstanding ht.frame).trans h.queue_eq
  window_eq := (congrArg TcpSender.advertisedWindow ht.frame).trans h.window_eq
  window_ne := h.window_ne

theorem Waiting.tick (h : Waiting isn sender window log)
    (hfront : sender.outstanding = front :: rest) (elapsedMs : Nat) :
    ∃ log1, log.step (.tick elapsedMs) = .ok log1 ∧
      Waiting isn sender (sender.windowAfter window [.tick elapsedMs]) log1 ∧
      Progress sender window (.tick elapsedMs) front log log1 := by
  have hinv := h.logInv.inv
  have hrunning := h.running hfront
  have hsteady := steady_tick sender window elapsedMs
  by_cases hlong : log.sender.timer.timeoutMs ≤ log.sender.timer.elapsedMs + elapsedMs
  · obtain ⟨sender1, messages, hrun, ht, hmessages⟩ := tick_spec hinv elapsedMs
    rcases hmessages with ⟨hquiet, -⟩ | ⟨-, front1, rest1, hfront1, rfl⟩
    · exact absurd ((Probed.expires_iff hinv elapsedMs).mpr ⟨hrunning, hlong⟩) hquiet
    · obtain ⟨rfl, rfl⟩ := List.cons.inj (hfront1.symm.trans (h.queue_eq.trans hfront))
      refine ⟨_, by rw [Log.step, hrun]; rfl,
        h.passed ht (h.logInv.tick ht (Or.inr ⟨front1, rest1, hfront1, rfl⟩)),
        .repeated ?_ hsteady hlong⟩
      rw [stamp, stamp, ← hinv.front_start hfront1]
  · have hrun := tick_quiet hinv hrunning (Nat.not_le.mp hlong)
    have ht := (tick_ticked hinv hrun).1
    exact ⟨_, by rw [Log.step, hrun]; rfl, h.passed ht (h.logInv.tick ht (Or.inl rfl)),
      .waited (List.append_nil _) hsteady rfl rfl⟩

/-- The window advertised is the one to wait with. -/
theorem Waiting.advertised (h : Waiting isn sender window log) {next : Nat} (hle : next ≤ 65535)
    (hne : next ≠ 0) :
    Waiting isn sender next { log with sender := log.sender.advertised next } where
  logInv := h.logInv.silent (h.logInv.inv.advertised hle) rfl rfl (List.prefix_refl _)
  isn_eq := h.isn_eq
  una_eq := h.una_eq
  nxt_eq := h.nxt_eq
  queue_eq := h.queue_eq
  window_eq := rfl
  window_ne := hne

/-- The timer goes on if the window is the same, and otherwise starts anew. -/
theorem Waiting.progress_advertised (h : Waiting isn sender window log)
    (hfront : sender.outstanding = front :: rest) (haccepts : sender.Accepts message)
    (hne : message.windowSize.toNat ≠ 0) :
    Progress sender window (.receive message) front log
      { log with sender := log.sender.advertised message.windowSize.toNat } := by
  have hpassed : ticked [.receive message] = 0 := rfl
  by_cases hsame : log.sender.advertisedWindow = message.windowSize.toNat
  · have htimer : (log.sender.advertised message.windowSize.toNat).timer = log.sender.timer :=
      if_pos hsame
    refine .waited rfl (steady_receive.mpr fun _ => hsame.symm.trans h.window_eq) ?_ ?_
    · show (log.sender.advertised message.windowSize.toNat).timer.timeoutMs = _
      rw [htimer]
    · show (log.sender.advertised message.windowSize.toNat).timer.elapsedMs = _
      rw [htimer, hpassed, Nat.add_zero]
  · have htimer : (log.sender.advertised message.windowSize.toNat).timer =
        { running := true, elapsedMs := 0, timeoutMs := log.sender.currentRtoMs
          mode := some .retransmission } :=
      ((if_neg hsame).trans (if_neg (h.outstanding_ne hfront))).trans (if_neg hne)
    refine .restarted rfl (fun hsteady => ?_) ?_ ?_
    · exact hsame (h.window_eq.trans (steady_receive.mp hsteady haccepts).symm)
    · show (log.sender.advertised message.windowSize.toNat).timer.timeoutMs = _
      rw [htimer, h.logInv.inv.timed.timeout_eq (h.running hfront),
        if_neg (h.window_eq ▸ h.window_ne)]
    · show (log.sender.advertised message.windowSize.toNat).timer.elapsedMs = _
      rw [htimer]

theorem Waiting.receive (h : Waiting isn sender window log)
    (hfront : sender.outstanding = front :: rest)
    (hharmless : sender.Harmless (.receive message)) :
    ∃ log1, log.step (.receive message) = .ok log1 ∧
      Waiting isn sender (sender.windowAfter window [.receive message]) log1 ∧
      Progress sender window (.receive message) front log log1 := by
  obtain ⟨hrst, hidle, hopen⟩ := hharmless
  have hinv := h.logInv.inv
  have hne : message.windowSize.toNat ≠ 0 := fun heq => hopen (UInt16.toNat_inj.mp heq)
  by_cases haccepts : sender.Accepts message
  · have hrun := receive_idle hinv (h.outstanding_ne hfront) hrst
      ((h.accepts_iff message).mpr haccepts) (fun hadv => hidle ((h.advances_iff message).mp hadv))
    have hlast : sender.windowAfter window [.receive message] = message.windowSize.toNat :=
      if_pos haccepts
    rw [hlast]
    exact ⟨_, by rw [Log.step, hrun]; rfl, h.advertised message.windowSize_le hne,
      h.progress_advertised hfront haccepts hne⟩
  · have hdropped : log.sender.receive message = .ok log.sender := by
      rcases receive_spec hinv hrst with ⟨haccepts1, -⟩ | ⟨-, hrun⟩
      · exact absurd ((h.accepts_iff message).mp haccepts1) haccepts
      · exact hrun
    have hsteady : sender.Steady window [.receive message] :=
      steady_receive.mpr (fun hmem => absurd hmem haccepts)
    refine ⟨log, by rw [Log.step, hdropped]; rfl, ?_, .waited rfl hsteady rfl rfl⟩
    rw [hsteady.windowAfter_eq]
    exact h

theorem Waiting.step (h : Waiting isn sender window log)
    (hfront : sender.outstanding = front :: rest) (hharmless : sender.Harmless op) :
    ∃ log1, log.step op = .ok log1 ∧ Waiting isn sender (sender.windowAfter window [op]) log1 ∧
      Progress sender window op front log log1 := by
  cases op with
  | tick elapsedMs => exact h.tick hfront elapsedMs
  | receive message => exact h.receive hfront hharmless
  | write bytes => exact absurd hharmless id
  | close => exact absurd hharmless id
  | push => exact absurd hharmless id

/-- The front is repeated exactly if some stretch is long enough. -/
theorem Waiting.run (h : Waiting isn sender window log)
    (hfront : sender.outstanding = front :: rest) (hharmless : ∀ op ∈ ops, sender.Harmless op) :
    ∃ log1 repeated, Exec.run Log.step log ops = .ok log1 ∧ log1.sent = log.sent ++ repeated ∧
      (front ∈ repeated ↔ sender.Uninterrupted log.sender.timer.timeoutMs
        log.sender.timer.elapsedMs window ops) := by
  induction ops generalizing log window with
  | nil =>
      have hlt := h.logInv.inv.timed.elapsed_lt (h.running hfront)
      exact ⟨log, [], rfl, (List.append_nil _).symm,
        iff_of_false List.not_mem_nil (not_uninterrupted_nil hlt)⟩
  | cons op ops ih =>
      have hlt := h.logInv.inv.timed.elapsed_lt (h.running hfront)
      obtain ⟨log1, hstep, h1, hprogress⟩ := h.step hfront (hharmless op List.mem_cons_self)
      obtain ⟨log2, repeated, hrun, hsent2, hiff⟩ :=
        ih h1 (fun op hop => hharmless op (List.mem_cons_of_mem _ hop))
      have hrun2 := Exec.run_cons_eq_ok.mpr ⟨log1, hstep, hrun⟩
      cases hprogress with
      | repeated hsent hsteady hlong =>
          refine ⟨log2, front :: repeated, hrun2, ?_, ?_⟩
          · rw [hsent2, hsent, List.append_assoc, List.singleton_append]
          · exact iff_of_true List.mem_cons_self (uninterrupted_of_le hsteady hlong)
      | waited hsent hsteady htimeout helapsed =>
          refine ⟨log2, repeated, hrun2, by rw [hsent2, hsent], ?_⟩
          rw [hiff, htimeout, helapsed, hsteady.windowAfter_eq, uninterrupted_cons hlt]
          simp [hsteady]
      | restarted hsent hchanged htimeout helapsed =>
          refine ⟨log2, repeated, hrun2, by rw [hsent2, hsent], ?_⟩
          rw [hiff, htimeout, helapsed, uninterrupted_cons hlt]
          simp [hchanged]

/-- In every state of a run with something outstanding and an open window, harmless operations
whose ticks add up to the timeout repeat the front segment exactly if they were shorter than that
or some stretch of them, in which the window stays the same, adds up to the timeout by itself. -/
theorem retransmits_iff {capacity : Nat} {config : TcpSenderConfig} {more : List SenderOp}
    (hnew : TcpSender.new capacity isn config = .ok sender)
    (hrun : Exec.run Log.step (Log.start sender) ops = .ok log)
    (hfront : log.sender.outstanding = front :: rest) (hopen : log.sender.advertisedWindow ≠ 0)
    (hharmless : ∀ op ∈ more, log.sender.Harmless op) :
    ∃ log1 repeated, Exec.run Log.step log more = .ok log1 ∧ log1.sent = log.sent ++ repeated ∧
      ((log.sender.timer.timeoutMs ≤ ticked more → front ∈ repeated) ↔
        (ticked more < log.sender.timer.timeoutMs ∨
          log.sender.Uninterrupted log.sender.timer.timeoutMs log.sender.timer.elapsedMs
            log.sender.advertisedWindow more)) := by
  have hwaiting : Waiting isn log.sender log.sender.advertisedWindow log :=
    ⟨Log.logInv_run hnew hrun, rfl, rfl, rfl, rfl, rfl, hopen⟩
  obtain ⟨log1, repeated, hrun1, hsent, hiff⟩ := hwaiting.run hfront hharmless
  refine ⟨log1, repeated, hrun1, hsent, ?_⟩
  rw [hiff]
  constructor
  · intro himp
    by_cases hshort : ticked more < log.sender.timer.timeoutMs
    · exact Or.inl hshort
    · exact Or.inr (himp (Nat.not_lt.mp hshort))
  · rintro (hshort | hlong) hle
    · exact absurd hle (Nat.not_le.mpr hshort)
    · exact hlong

/-- A SYN is in flight, with a timeout of 100 milliseconds, and the window is 1. -/
def synRun : List SenderOp := [.push, .tick 40]

def synSegment : OutstandingSegment where
  absoluteStart := 0
  message := { seqno := ⟨7⟩, syn := true, payload := [], fin := false, rst := false }

/-- The window goes up once, and stays there. -/
def steadying : List SenderOp :=
  [.receive ⟨some ⟨7⟩, 8, false⟩, .tick 60, .receive ⟨some ⟨7⟩, 8, false⟩, .tick 40]

theorem retransmits_iff_steadying : ∃ sender log log1 repeated,
    TcpSender.new 8 ⟨7⟩ ⟨100, 1000, 4⟩ = .ok sender ∧
    Exec.run Log.step (Log.start sender) synRun = .ok log ∧
    Exec.run Log.step log steadying = .ok log1 ∧ log1.sent = log.sent ++ repeated ∧
    synSegment ∈ repeated := by
  obtain ⟨sender, hnew, log, hrun, hfront, hopen, hharmless, hreached, hlast⟩ : ∃ sender,
      TcpSender.new 8 ⟨7⟩ ⟨100, 1000, 4⟩ = .ok sender ∧
        ∃ log, Exec.run Log.step (Log.start sender) synRun = .ok log ∧
          log.sender.outstanding = [synSegment] ∧ log.sender.advertisedWindow ≠ 0 ∧
          (∀ op ∈ steadying, log.sender.Harmless op) ∧
          log.sender.timer.timeoutMs ≤ ticked steadying ∧
          log.sender.windowAfter log.sender.advertisedWindow (steadying.take 1) = 8 := by
    decide +kernel
  obtain ⟨log1, repeated, hrun1, hsent, hiff⟩ := retransmits_iff hnew hrun hfront hopen hharmless
  refine ⟨sender, log, log1, repeated, hnew, hrun, hrun1, hsent, hiff.mpr (Or.inr ?_) hreached⟩
  -- the stretch is everything behind the first message
  refine Or.inr ⟨steadying.take 1, steadying.drop 1, [], rfl, ?_, hreached⟩
  intro message hmem _
  obtain rfl : message = ⟨some ⟨7⟩, 8, false⟩ := by simpa [steadying] using hmem
  exact hlast.symm

/-- The same acknowledgment over and over, with a window that goes up and down. -/
def wavering : List SenderOp :=
  [.receive ⟨some ⟨7⟩, 8, false⟩, .tick 99, .receive ⟨none, 9, false⟩, .tick 99,
    .receive ⟨some ⟨7⟩, 8, false⟩, .tick 99]

/-- Almost three times the timeout passes, and nothing is repeated. -/
theorem wavering_window_starves : ∃ sender, TcpSender.new 8 ⟨7⟩ ⟨100, 1000, 4⟩ = .ok sender ∧
    ∃ log, Exec.run Log.step (Log.start sender) synRun = .ok log ∧
      log.sender.outstanding = [synSegment] ∧ log.sender.advertisedWindow ≠ 0 ∧
      (∀ op ∈ wavering, log.sender.Harmless op) ∧
      log.sender.timer.timeoutMs ≤ ticked wavering ∧
      ∃ log1, Exec.run Log.step log wavering = .ok log1 ∧ log1.sent = log.sent := by
  decide +kernel

end TcpSender

end Minnow
