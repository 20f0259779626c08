import Minnow.TcpSender.Run

set_option autoImplicit false

/-! # The timer over a run

The timer has two modes and each has its own interval. Both intervals double with every
expiry in their mode, up to the configured maximum, and an acknowledgment that advances
`sndUna` resets both. `timer_run` gives them in closed form: the retransmission timeout by the
counter the sender keeps, the persist interval by the number of probes, which nobody counts.
-/

namespace Minnow

namespace TcpSender

/-- An acknowledgment that moves `sndUna`. -/
def Advances (sender : TcpSender) (message : TcpReceiverMessage) : Prop :=
  message.rst = false ∧ ∃ ackno ∈ message.ackno,
    sender.sndUna < ackno.unwrap sender.isn sender.sndNxt ∧
      ackno.unwrap sender.isn sender.sndNxt ≤ sender.sndNxt

instance (sender : TcpSender) (message : TcpReceiverMessage) :
    Decidable (sender.Advances message) :=
  inferInstanceAs (Decidable (_ ∧ ∃ ackno ∈ message.ackno, _))

variable {sender sender1 : TcpSender} {data : Bytes} {message : TcpReceiverMessage}

/-! ## What moves the intervals -/

/-- Both intervals and the counter are those of `sender`. -/
structure SameIntervals (sender sender1 : TcpSender) : Prop where
  rto : sender1.currentRtoMs = sender.currentRtoMs
  persist : sender1.persistIntervalMs = sender.persistIntervalMs
  count : sender1.consecutiveRetransmissions = sender.consecutiveRetransmissions
  config : sender1.config = sender.config

/-- Both intervals and the counter start afresh. -/
structure FreshIntervals (sender sender1 : TcpSender) : Prop where
  rto : sender1.currentRtoMs = sender.config.initialRtoMs.toNat
  persist : sender1.persistIntervalMs = sender.config.initialRtoMs.toNat
  count : sender1.consecutiveRetransmissions = 0
  config : sender1.config = sender.config

theorem SameIntervals.refl (sender : TcpSender) : SameIntervals sender sender :=
  ⟨rfl, rfl, rfl, rfl⟩

theorem discardAcknowledgedPrefix_frame
    (hrun : discardAcknowledgedPrefix sender = .ok sender1) :
    sender1 = { sender with outstanding := sender1.outstanding } := by
  obtain ⟨kept, -, hrun⟩ := Exec.bind_eq_ok.mp hrun
  cases kept with
  | nil => rw [← Except.ok.inj hrun]
  | cons front rest =>
      dsimp only at hrun
      split_ifs at hrun
      · obtain ⟨trimmed, -, hok⟩ := Exec.bind_eq_ok.mp hrun
        rw [← Except.ok.inj hok]
      · rw [← Except.ok.inj hrun]

/-- Feedback without an acknowledgment moves no interval. -/
theorem receiveWindow_intervals {window : Nat}
    (hrun : sender.receiveWindow window = .ok sender1) : SameIntervals sender sender1 := by
  obtain ⟨sender2, htimed, hrun⟩ := Exec.bind_eq_ok.mp hrun
  obtain ⟨u, -, hok⟩ := Exec.bind_eq_ok.mp hrun
  obtain rfl := Except.ok.inj hok
  split_ifs at htimed
  · rw [restartTimerForCurrentWindow_frame htimed]
    exact ⟨rfl, rfl, rfl, rfl⟩
  · rw [← Except.ok.inj htimed]
    exact ⟨rfl, rfl, rfl, rfl⟩

/-- The last part of `receiveAck`: the timer of the queue and the window. -/
theorem timed_intervals {sender2 : TcpSender} {changed : Bool}
    (hrun : (if sender2.outstanding = [] then .ok { sender2 with timer := Timer.stopped }
      else if changed = true then sender2.restartTimerForCurrentWindow
      else .ok sender2 : Exec TcpSender) = .ok sender1) : SameIntervals sender2 sender1 := by
  split_ifs at hrun
  · rw [← Except.ok.inj hrun]
    exact ⟨rfl, rfl, rfl, rfl⟩
  · rw [restartTimerForCurrentWindow_frame hrun]
    exact ⟨rfl, rfl, rfl, rfl⟩
  · rw [← Except.ok.inj hrun]
    exact SameIntervals.refl sender2

theorem receiveAck_intervals {ackno window : Nat} (hle : ackno ≤ sender.sndNxt)
    (hrun : sender.receiveAck ackno window = .ok sender1) :
    (sender.sndUna < ackno → FreshIntervals sender sender1) ∧
      (¬ sender.sndUna < ackno → SameIntervals sender sender1) := by
  unfold receiveAck at hrun
  rw [if_neg (Nat.not_lt.mpr hle)] at hrun
  obtain ⟨sender2, hacked, hrun⟩ := Exec.bind_eq_ok.mp hrun
  obtain ⟨sender3, htimed, hrun⟩ := Exec.bind_eq_ok.mp hrun
  obtain ⟨u, -, hok⟩ := Exec.bind_eq_ok.mp hrun
  obtain rfl := Except.ok.inj hok
  have hlast := timed_intervals htimed
  by_cases hadvanced : sender.sndUna < ackno
  · refine ⟨fun _ => ?_, fun hnot => absurd hadvanced hnot⟩
    rw [if_pos (by simpa using hadvanced)] at hacked
    obtain ⟨sender4, hdiscard, hok⟩ := Exec.bind_eq_ok.mp hacked
    have hframe := discardAcknowledgedPrefix_frame hdiscard
    obtain rfl := Except.ok.inj hok
    have hconfig : sender4.config = sender.config := by rw [hframe]
    refine ⟨?_, ?_, hlast.count, hlast.config.trans hconfig⟩
    · rw [hlast.rto, hconfig]
    · rw [hlast.persist, hconfig]
  · refine ⟨fun h => absurd h hadvanced, fun _ => ?_⟩
    rw [if_neg (by simpa using hadvanced)] at hacked
    obtain rfl := Except.ok.inj hacked
    exact ⟨hlast.rto, hlast.persist, hlast.count, hlast.config⟩

theorem receive_intervals (hrun : sender.receive message = .ok sender1) :
    (sender.Advances message → FreshIntervals sender sender1) ∧
      (¬ sender.Advances message → SameIntervals sender sender1) := by
  by_cases hrst : message.rst = true
  · -- RST stops the timer and leaves its intervals
    rw [receive_rst hrst, Except.ok.injEq] at hrun
    subst hrun
    refine ⟨fun hadv => ?_, fun _ => ⟨rfl, rfl, rfl, rfl⟩⟩
    rw [hadv.1] at hrst
    exact absurd hrst (by simp)
  · unfold receive at hrun
    rw [if_neg hrst] at hrun
    unfold Advances
    cases hack : message.ackno with
    | none =>
        rw [hack] at hrun
        refine ⟨?_, fun _ => receiveWindow_intervals hrun⟩
        rintro ⟨-, ackno, hmem, -⟩
        exact absurd hmem (by simp)
    | some ackno =>
        rw [hack] at hrun
        dsimp only at hrun
        by_cases hle : ackno.unwrap sender.isn sender.sndNxt ≤ sender.sndNxt
        · obtain ⟨hfresh, hsame⟩ := receiveAck_intervals hle hrun
          constructor
          · rintro ⟨-, z, hz, hlt, -⟩
            obtain rfl := Option.mem_some_iff.mp hz
            exact hfresh hlt
          · intro hnot
            apply hsame
            intro hlt
            exact hnot ⟨by simpa using hrst, ackno, rfl, hlt, hle⟩
        · -- dropped: it acknowledges what was never sent
          rw [receiveAck, if_pos (Nat.not_le.mp hle), Except.ok.injEq] at hrun
          subst hrun
          refine ⟨?_, fun _ => SameIntervals.refl sender⟩
          rintro ⟨-, z, hz, -, hsent⟩
          obtain rfl := Option.mem_some_iff.mp hz
          exact absurd hsent hle

/-- What an expiry in the current mode leaves. -/
structure BackedOff (sender sender1 : TcpSender) : Prop where
  rto : sender1.currentRtoMs = if sender.advertisedWindow = 0 then sender.currentRtoMs
    else sender.backedOff sender.currentRtoMs
  persist : sender1.persistIntervalMs = if sender.advertisedWindow = 0 then
    sender.backedOff sender.persistIntervalMs else sender.persistIntervalMs
  count : sender1.consecutiveRetransmissions = if sender.advertisedWindow = 0 then
    sender.consecutiveRetransmissions
    else saturatingAdd sender.consecutiveRetransmissions 1
  config : sender1.config = sender.config

theorem backOff_intervals (sender : TcpSender) : BackedOff sender sender.backOff := by
  unfold backOff
  by_cases hzero : sender.advertisedWindow = 0
  · rw [if_pos hzero]
    constructor
    · rw [if_pos hzero]
    · rw [if_pos hzero]
    · rw [if_pos hzero]
    · rfl
  · rw [if_neg hzero]
    constructor
    · rw [if_neg hzero]
    · rw [if_neg hzero]
    · rw [if_neg hzero]
    · rfl

theorem tick_intervals {elapsedMs : Nat} {messages : List TcpSenderMessage}
    (hrun : sender.tick elapsedMs = .ok (sender1, messages)) :
    (messages ≠ [] → BackedOff sender sender1) ∧
      (messages = [] → SameIntervals sender sender1) := by
  have hsame : ∀ (timer : Timer) (sender2 : TcpSender) (messages2 : List TcpSenderMessage),
      (Except.ok ({ sender with timer := timer }, []) : Exec _) = .ok (sender2, messages2) →
      (messages2 ≠ [] → BackedOff sender sender2) ∧
        (messages2 = [] → SameIntervals sender sender2) := by
    intro timer sender2 messages2 hok
    simp only [Except.ok.injEq, Prod.mk.injEq] at hok
    obtain ⟨rfl, rfl⟩ := hok
    exact ⟨fun hne => absurd rfl hne, fun _ => ⟨rfl, rfl, rfl, rfl⟩⟩
  unfold tick at hrun
  dsimp only at hrun
  split_ifs at hrun
  · -- not expired
    exact hsame _ _ _ hrun
  · split at hrun
    · -- nothing to repeat
      exact hsame _ _ _ hrun
    · -- the front goes out, and the interval of the mode doubles before the restart
      obtain ⟨sender2, hrestart, hrun⟩ := Exec.bind_eq_ok.mp hrun
      obtain ⟨u, -, hok⟩ := Exec.bind_eq_ok.mp hrun
      simp only [Except.ok.injEq, Prod.mk.injEq] at hok
      obtain ⟨rfl, rfl⟩ := hok
      refine ⟨fun _ => ?_, fun hnil => absurd hnil (List.cons_ne_nil _ _)⟩
      have hframe := restartTimerForCurrentWindow_frame hrestart
      have hback := backOff_intervals { sender with timer := (sender.timer.tick elapsedMs).1 }
      rw [hframe]
      exact ⟨hback.rto, hback.persist, hback.count, hback.config⟩

/-! ## The intervals in closed form -/

/-- An interval after `n` doublings under the configured maximum. -/
def doubled (config : TcpSenderConfig) (n : Nat) : Nat :=
  min (config.initialRtoMs.toNat * 2 ^ n) config.maxTimerIntervalMs.toNat

theorem doubled_zero {config : TcpSenderConfig}
    (hle : config.initialRtoMs.toNat ≤ config.maxTimerIntervalMs.toNat) :
    doubled config 0 = config.initialRtoMs.toNat := by
  rw [doubled, pow_zero, Nat.mul_one, min_eq_left hle]

/-- The saturating product and the cap agree with one more doubling. -/
theorem backedOff_doubled (sender : TcpSender) (n : Nat) :
    sender.backedOff (doubled sender.config n) = doubled sender.config (n + 1) := by
  have hmax : sender.config.maxTimerIntervalMs.toNat ≤ u64Max := by
    have := sender.config.maxTimerIntervalMs.toNat_lt
    unfold u64Max
    omega
  have hpow : sender.config.initialRtoMs.toNat * 2 ^ (n + 1)
      = sender.config.initialRtoMs.toNat * 2 ^ n * 2 := by
    rw [pow_succ, Nat.mul_assoc]
  -- a product that saturates is far above the cap
  unfold backedOff saturatingMul doubled
  rw [hpow]
  omega

/-- From the largest word on, the maximum is reached. -/
theorem doubled_of_le {config : TcpSenderConfig} {n : Nat} (hpos : 0 < config.initialRtoMs.toNat)
    (hn : u64Max ≤ n) : doubled config n = config.maxTimerIntervalMs.toNat := by
  have hmax : config.maxTimerIntervalMs.toNat ≤ u64Max := by
    have := config.maxTimerIntervalMs.toNat_lt
    unfold u64Max
    omega
  have hlarge : config.maxTimerIntervalMs.toNat ≤ config.initialRtoMs.toNat * 2 ^ n :=
    calc config.maxTimerIntervalMs.toNat ≤ n := le_trans hmax hn
      _ ≤ 2 ^ n := le_of_lt Nat.lt_two_pow_self
      _ ≤ config.initialRtoMs.toNat * 2 ^ n := Nat.le_mul_of_pos_left _ hpos
  exact min_eq_right hlarge

/-- The counter saturates, but by then the interval does not grow any more. -/
theorem doubled_saturatingAdd {config : TcpSenderConfig} {n : Nat}
    (hpos : 0 < config.initialRtoMs.toNat) (hn : n ≤ u64Max) :
    doubled config (saturatingAdd n 1) = doubled config (n + 1) := by
  by_cases hroom : n + 1 ≤ u64Max
  · rw [saturatingAdd_of_le hroom]
  · have hlast : saturatingAdd n 1 = u64Max := by
      unfold saturatingAdd
      omega
    rw [hlast, doubled_of_le hpos (le_refl _), doubled_of_le hpos (by omega)]

/-! ## Runs -/

/-- A sender with the number of persist probes since the last advancing acknowledgment. -/
structure Probed where
  sender : TcpSender
  probes : Nat

namespace Probed

def start (sender : TcpSender) : Probed where
  sender := sender
  probes := 0

/-- A probe is a segment transmitted by a tick while the timer runs in persist mode. -/
def step (s : Probed) : SenderOp → Exec Probed
  | .write bytes => .ok { s with sender := (s.sender.write bytes).1 }
  | .close => .ok { s with sender := s.sender.close }
  | .push => do
      let (sender, _) ← s.sender.push
      .ok { s with sender := sender }
  | .receive message => do
      let probes := if s.sender.Advances message then 0 else s.probes
      let sender ← s.sender.receive message
      .ok { sender := sender, probes := probes }
  | .tick elapsedMs => do
      let (sender, messages) ← s.sender.tick elapsedMs
      let probes :=
        if s.sender.timer.mode = some .persist then s.probes + messages.length else s.probes
      .ok { sender := sender, probes := probes }

/-- What the timer and its intervals are in every state of a run. -/
structure TimerInv (config : TcpSenderConfig) (s : Probed) : Prop where
  running_iff : s.sender.timer.running = true ↔ s.sender.outstanding ≠ []
  mode_eq : s.sender.timer.running = true → s.sender.timer.mode =
    some (if s.sender.advertisedWindow = 0 then .persist else .retransmission)
  timeout_eq : s.sender.timer.running = true → s.sender.timer.timeoutMs =
    if s.sender.timer.mode = some .persist then s.sender.persistIntervalMs
    else s.sender.currentRtoMs
  timeout_pos : s.sender.timer.running = true → 0 < s.sender.timer.timeoutMs
  elapsed_lt : s.sender.timer.running = true →
    s.sender.timer.elapsedMs < s.sender.timer.timeoutMs
  rto_eq : s.sender.currentRtoMs =
    min (config.initialRtoMs.toNat * 2 ^ s.sender.consecutiveRetransmissions)
      config.maxTimerIntervalMs.toNat
  persist_eq : s.sender.persistIntervalMs =
    min (config.initialRtoMs.toNat * 2 ^ s.probes) config.maxTimerIntervalMs.toNat

/-- What a tick transmits: the front of the queue, exactly when the time accumulated since the
timer was started reaches the timeout. -/
def TickSends (sender : TcpSender) : Prop :=
  ∀ elapsedMs, ∃ sender1 messages, sender.tick elapsedMs = .ok (sender1, messages) ∧
    messages =
      if sender.timer.running = true ∧
          sender.timer.timeoutMs ≤ sender.timer.elapsedMs + elapsedMs then
        (sender.outstanding.head?.map OutstandingSegment.message).toList
      else []

/-- The invariant of a run on a configuration. -/
structure ProbedInv (config : TcpSenderConfig) (s : Probed) : Prop where
  inv : ∃ data, Inv data s.sender
  config_eq : s.sender.config = config
  count_le : s.sender.consecutiveRetransmissions ≤ u64Max
  rto_eq : s.sender.currentRtoMs = doubled config s.sender.consecutiveRetransmissions
  persist_eq : s.sender.persistIntervalMs = doubled config s.probes

variable {config : TcpSenderConfig} {capacity : Nat} {isn : Wrap32} {s s1 : Probed}
  {ops : List SenderOp}

theorem probedInv_start (hnew : TcpSender.new capacity isn config = .ok sender) :
    ProbedInv config (start sender) := by
  have hinv := (new_ok hnew).1
  obtain rfl := new_eq_ok hnew
  have hzero := doubled_zero hinv.backoff.initial_le
  exact ⟨⟨[], hinv⟩, rfl, Nat.zero_le _, hzero.symm, hzero.symm⟩

/-- A step that leaves the intervals and the number of probes. -/
theorem ProbedInv.same (h : ProbedInv config s) (hinv : Inv data sender1)
    (hsame : SameIntervals s.sender sender1) : ProbedInv config { s with sender := sender1 } where
  inv := ⟨data, hinv⟩
  config_eq := hsame.config.trans h.config_eq
  count_le := le_of_eq_of_le hsame.count h.count_le
  rto_eq := by
    show sender1.currentRtoMs = doubled config sender1.consecutiveRetransmissions
    rw [hsame.rto, hsame.count]
    exact h.rto_eq
  persist_eq := hsame.persist.trans h.persist_eq

/-- An advancing acknowledgment. -/
theorem ProbedInv.fresh (h : ProbedInv config s) (hinv : Inv data sender1)
    (hfresh : FreshIntervals s.sender sender1) :
    ProbedInv config { sender := sender1, probes := 0 } := by
  have hconfig : sender1.config = config := hfresh.config.trans h.config_eq
  have hzero : s.sender.config.initialRtoMs.toNat = doubled config 0 := by
    have hle := hinv.backoff.initial_le
    rw [hconfig] at hle
    rw [doubled_zero hle, h.config_eq]
  constructor
  · exact ⟨data, hinv⟩
  · exact hconfig
  · exact le_of_eq_of_le hfresh.count (Nat.zero_le _)
  · show sender1.currentRtoMs = doubled config sender1.consecutiveRetransmissions
    rw [hfresh.rto, hfresh.count]
    exact hzero
  · exact hfresh.persist.trans hzero

/-- An expiry, in either mode. -/
theorem ProbedInv.backedOff (h : ProbedInv config s) (hinv : Inv data sender1)
    (hback : BackedOff s.sender sender1) :
    ProbedInv config
      { sender := sender1
        probes := if s.sender.advertisedWindow = 0 then s.probes + 1 else s.probes } := by
  have hconfig : sender1.config = config := hback.config.trans h.config_eq
  have hpos : 0 < config.initialRtoMs.toNat := by
    have := hinv.backoff.initial_pos
    rwa [hconfig] at this
  have hbacked : ∀ n, s.sender.backedOff (doubled config n) = doubled config (n + 1) := by
    rw [← h.config_eq]
    exact backedOff_doubled s.sender
  by_cases hzero : s.sender.advertisedWindow = 0
  · -- a probe: only the persist interval moves
    rw [if_pos hzero]
    constructor
    · exact ⟨data, hinv⟩
    · exact hconfig
    · show sender1.consecutiveRetransmissions ≤ u64Max
      rw [hback.count, if_pos hzero]
      exact h.count_le
    · show sender1.currentRtoMs = doubled config sender1.consecutiveRetransmissions
      rw [hback.rto, hback.count, if_pos hzero, if_pos hzero]
      exact h.rto_eq
    · calc sender1.persistIntervalMs
          = s.sender.backedOff s.sender.persistIntervalMs := by rw [hback.persist, if_pos hzero]
        _ = s.sender.backedOff (doubled config s.probes) := by rw [h.persist_eq]
        _ = doubled config (s.probes + 1) := hbacked s.probes
  · -- a retransmission: only the timeout and its counter move
    rw [if_neg hzero]
    constructor
    · exact ⟨data, hinv⟩
    · exact hconfig
    · show sender1.consecutiveRetransmissions ≤ u64Max
      rw [hback.count, if_neg hzero]
      exact min_le_right _ _
    · calc sender1.currentRtoMs
          = s.sender.backedOff s.sender.currentRtoMs := by rw [hback.rto, if_neg hzero]
        _ = s.sender.backedOff (doubled config s.sender.consecutiveRetransmissions) := by
            rw [h.rto_eq]
        _ = doubled config (s.sender.consecutiveRetransmissions + 1) := hbacked _
        _ = doubled config (saturatingAdd s.sender.consecutiveRetransmissions 1) :=
            (doubled_saturatingAdd hpos h.count_le).symm
        _ = doubled config sender1.consecutiveRetransmissions := by rw [hback.count, if_neg hzero]
    · show sender1.persistIntervalMs = doubled config s.probes
      rw [hback.persist, if_neg hzero]
      exact h.persist_eq

theorem probedInv_step (h : ProbedInv config s) {op : SenderOp} (hstep : s.step op = .ok s1) :
    ProbedInv config s1 := by
  obtain ⟨data, hinv⟩ := h.inv
  cases op with
  | write bytes =>
      obtain rfl := Except.ok.inj hstep
      exact h.same (hinv.write bytes) ⟨rfl, rfl, rfl, rfl⟩
  | close =>
      obtain rfl := Except.ok.inj hstep
      exact h.same hinv.close ⟨rfl, rfl, rfl, rfl⟩
  | push =>
      obtain ⟨⟨sender1, messages⟩, hrun, hok⟩ := Exec.bind_eq_ok.mp hstep
      obtain rfl := Except.ok.inj hok
      have hp := push_pushed hinv hrun
      apply h.same hp.inv
      rw [hp.frame]
      exact ⟨rfl, rfl, rfl, rfl⟩
  | receive message =>
      obtain ⟨sender1, hrun, hok⟩ := Exec.bind_eq_ok.mp hstep
      obtain rfl := Except.ok.inj hok
      have hinv1 : Inv data sender1 := hinv.receive hrun
      obtain ⟨hfresh, hsame⟩ := receive_intervals hrun
      by_cases hadv : s.sender.Advances message
      · rw [if_pos hadv]
        exact h.fresh hinv1 (hfresh hadv)
      · rw [if_neg hadv]
        exact h.same hinv1 (hsame hadv)
  | tick elapsedMs =>
      obtain ⟨⟨sender1, messages⟩, hrun, hok⟩ := Exec.bind_eq_ok.mp hstep
      obtain rfl := Except.ok.inj hok
      obtain ⟨ht, hmessages⟩ := tick_ticked hinv hrun
      obtain ⟨hback, hsame⟩ := tick_intervals hrun
      rcases hmessages with ⟨-, rfl⟩ | ⟨hexpires, front, rest, -, rfl⟩
      · have hsilent := h.same ht.inv (hsame rfl)
        simpa using hsilent
      · -- the mode of a running timer is that of the window
        have hmode := hinv.timed.mode_eq hexpires.1
        have hprobes := h.backedOff ht.inv (hback (List.cons_ne_nil _ _))
        by_cases hzero : s.sender.advertisedWindow = 0
        · rw [if_pos hzero] at hmode hprobes
          simpa [hmode] using hprobes
        · rw [if_neg hzero] at hmode hprobes
          simpa [hmode] using hprobes

theorem ProbedInv.timerInv (h : ProbedInv config s) : TimerInv config s := by
  obtain ⟨data, hinv⟩ := h.inv
  have htimed := hinv.timed
  constructor
  · exact htimed.running_iff
  · exact htimed.mode_eq
  · intro hrunning
    have htimeout := htimed.timeout_eq hrunning
    have hmode := htimed.mode_eq hrunning
    by_cases hzero : s.sender.advertisedWindow = 0
    · rw [if_pos hzero] at htimeout hmode
      rw [htimeout, if_pos hmode]
    · rw [if_neg hzero] at htimeout hmode
      rw [htimeout, if_neg (by simp [hmode])]
  · exact fun hrunning => lt_of_le_of_lt (Nat.zero_le _) (htimed.elapsed_lt hrunning)
  · exact htimed.elapsed_lt
  · exact h.rto_eq
  · exact h.persist_eq

/-- Either interval is at most the configured maximum, which is a word. -/
theorem timeoutMs_le (h : Inv data sender) (hrunning : sender.timer.running = true) :
    sender.timer.timeoutMs ≤ u64Max := by
  have hmax := sender.config.maxTimerIntervalMs.toNat_lt
  have hrto := h.backoff.rto_le
  have hpersist := h.backoff.persist_le
  rw [h.timed.timeout_eq hrunning]
  unfold u64Max
  split_ifs <;> omega

/-- A timeout is a word, so the saturating sum of the elapsed times reaches it exactly when
the sum does. -/
theorem expires_iff (h : Inv data sender) (elapsedMs : Nat) :
    sender.Expires elapsedMs ↔ sender.timer.running = true ∧
      sender.timer.timeoutMs ≤ sender.timer.elapsedMs + elapsedMs := by
  unfold Expires
  apply and_congr_right
  intro hrunning
  have hword := timeoutMs_le h hrunning
  unfold saturatingAdd
  omega

theorem tickSends (h : Inv data sender) : TickSends sender := by
  intro elapsedMs
  obtain ⟨sender1, messages, hrun, -, hmessages⟩ := tick_spec h elapsedMs
  refine ⟨sender1, messages, hrun, ?_⟩
  rcases hmessages with ⟨hquiet, rfl⟩ | ⟨hexpires, front, rest, hfront, rfl⟩
  · rw [if_neg (fun hc => hquiet ((expires_iff h elapsedMs).mpr hc))]
  · rw [if_pos ((expires_iff h elapsedMs).mp hexpires), hfront]
    rfl

/-- In every state of a run the timer runs for what is outstanding, in the mode and with the
interval of the window, and has not expired; the intervals have their closed form; and a tick
transmits the front of the queue exactly when the timer expires. -/
theorem timer_run (hnew : TcpSender.new capacity isn config = .ok sender)
    (hrun : Exec.run step (start sender) ops = .ok s) :
    TimerInv config s ∧ TickSends s.sender := by
  have h : ProbedInv config s := by
    apply Exec.run_invariant (ProbedInv config) ?_ (probedInv_start hnew) hrun
    exact fun s1 op s2 hinv hstep => probedInv_step hinv hstep
  obtain ⟨data, hinv⟩ := h.inv
  exact ⟨h.timerInv, tickSends hinv⟩

/-- A loss, a closed window, and two probes of it. -/
def probeRun : List SenderOp :=
  [.push, .tick 100, .receive ⟨none, 0, false⟩, .tick 100, .tick 250]

theorem timer_run_probes : ∃ sender s, TcpSender.new 8 ⟨0⟩ ⟨100, 1000, 4⟩ = .ok sender ∧
    Exec.run step (start sender) probeRun = .ok s ∧ s.probes = 2 ∧
    s.sender.consecutiveRetransmissions = 1 ∧ TimerInv ⟨100, 1000, 4⟩ s ∧ TickSends s.sender := by
  obtain ⟨sender, hnew, s, hrun, hprobes, hcount⟩ : ∃ sender,
      TcpSender.new 8 ⟨0⟩ ⟨100, 1000, 4⟩ = .ok sender ∧
        ∃ s, Exec.run step (start sender) probeRun = .ok s ∧ s.probes = 2 ∧
          s.sender.consecutiveRetransmissions = 1 := by
    decide +kernel
  exact ⟨sender, s, hnew, hrun, hprobes, hcount, timer_run hnew hrun⟩

end Probed

end TcpSender

end Minnow
