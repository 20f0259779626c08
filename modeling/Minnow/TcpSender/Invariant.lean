import Minnow.TcpSender.Segments

set_option autoImplicit false

/-! # The invariant of the sender

`Inv data sender` relates a sender to the bytes `data` its outbound stream has accepted.
The sequence numbers below `sndNxt` are the ones transmitted: SYN, the bytes that have left
the stream, and FIN; the outstanding segments tile what is not acknowledged, and each is the
part of the sequence space at its start.

The timer runs exactly while something is outstanding, and its mode and timeout are those of
the current window.
-/

namespace Minnow

namespace TcpSender

open OutstandingSegment ByteStream

/-! ## The timer of the current window -/

/-- The timer `restartTimerForCurrentWindow` starts. -/
def timerFor (sender : TcpSender) : Timer :=
  if sender.outstanding = [] then Timer.stopped
  else if sender.advertisedWindow = 0 then
    { running := true, elapsedMs := 0, timeoutMs := sender.persistIntervalMs, mode := some .persist }
  else
    { running := true, elapsedMs := 0, timeoutMs := sender.currentRtoMs
      mode := some .retransmission }

/-- Both intervals are positive and stay below the configured maximum. -/
structure Backoff (config : TcpSenderConfig) (rtoMs persistMs : Nat) : Prop where
  initial_pos : 0 < config.initialRtoMs.toNat
  initial_le : config.initialRtoMs.toNat ≤ config.maxTimerIntervalMs.toNat
  rto_pos : 0 < rtoMs
  rto_le : rtoMs ≤ config.maxTimerIntervalMs.toNat
  persist_pos : 0 < persistMs
  persist_le : persistMs ≤ config.maxTimerIntervalMs.toNat

/-- The timer runs for what is outstanding, in the mode of the window, and has not expired. -/
structure Timed (sender : TcpSender) : Prop where
  running_iff : sender.timer.running = true ↔ sender.outstanding ≠ []
  timeout_eq : sender.timer.running = true → sender.timer.timeoutMs =
    if sender.advertisedWindow = 0 then sender.persistIntervalMs else sender.currentRtoMs
  mode_eq : sender.timer.running = true → sender.timer.mode =
    some (if sender.advertisedWindow = 0 then .persist else .retransmission)
  elapsed_lt : sender.timer.running = true → sender.timer.elapsedMs < sender.timer.timeoutMs

variable {sender sender1 sender2 : TcpSender} {data : Bytes} {available : Nat}
  {message : TcpSenderMessage}

theorem restartTimerForCurrentWindow_ok (sender : TcpSender)
    (h : Backoff sender.config sender.currentRtoMs sender.persistIntervalMs) :
    sender.restartTimerForCurrentWindow = .ok { sender with timer := sender.timerFor } := by
  unfold restartTimerForCurrentWindow timerFor Timer.restart
  split_ifs
  · rfl
  · rw [Exec.assert_pos h.persist_pos]
    rfl
  · rw [Exec.assert_pos h.rto_pos]
    rfl

theorem timed_timerFor (sender : TcpSender)
    (h : Backoff sender.config sender.currentRtoMs sender.persistIntervalMs) :
    Timed { sender with timer := sender.timerFor } := by
  have hrto := h.rto_pos
  have hpersist := h.persist_pos
  unfold timerFor
  by_cases hnil : sender.outstanding = []
  · constructor <;> simp [hnil, Timer.stopped]
  · by_cases hwindow : sender.advertisedWindow = 0
    · constructor <;> simp [hnil, hwindow, hpersist]
    · constructor <;> simp [hnil, hwindow, hrto]

/-! ## The invariant -/

structure Inv (data : Bytes) (sender : TcpSender) : Prop where
  pushed_eq : sender.outbound.bytesPushed = data.length
  contents_eq : sender.outbound.contents = data.drop sender.outbound.bytesPopped
  nxt_eq : sender.sndNxt =
    sender.synSent.toNat + sender.outbound.bytesPopped + sender.finSent.toNat
  syn_first : sender.synSent = false → sender.outbound.bytesPopped = 0 ∧ sender.finSent = false
  fin_last : sender.finSent = true →
    sender.outbound.closed = true ∧ sender.outbound.bytesPopped = data.length
  nxt_le : sender.sndNxt ≤ u64Max
  queue : Queue sender.sndUna sender.outstanding sender.sndNxt
  genuine : ∀ segment ∈ sender.outstanding,
    segment.Genuine data sender.outbound.closed sender.isn
  rst_eq : ∀ segment ∈ sender.outstanding, segment.message.rst = sender.outbound.error
  payload_pos : 0 < sender.config.maxPayloadSize
  window_le : sender.advertisedWindow ≤ 65535
  flight_le : sender.sndNxt ≤ sender.sndUna + 65535
  backoff : Backoff sender.config sender.currentRtoMs sender.persistIntervalMs
  timed : Timed sender

theorem Inv.popped_le (h : Inv data sender) : sender.outbound.bytesPopped ≤ data.length := by
  have := sender.outbound.pushed_eq
  have := h.pushed_eq
  omega

/-- The sequence numbers used so far lie inside the sequence space. -/
theorem Inv.nxt_le_space (h : Inv data sender) :
    sender.sndNxt ≤ data.length + 1 + sender.outbound.closed.toNat := by
  have hle := h.popped_le
  have hnxt := h.nxt_eq
  have hsyn : sender.synSent.toNat ≤ 1 := Bool.toNat_le _
  cases hfin : sender.finSent with
  | false =>
      rw [hfin, Bool.toNat_false] at hnxt
      omega
  | true =>
      have hclosed := (h.fin_last hfin).1
      rw [hfin, Bool.toNat_true] at hnxt
      rw [hclosed, Bool.toNat_true]
      omega

theorem Inv.una_le (h : Inv data sender) : sender.sndUna ≤ sender.sndNxt := h.queue.le

theorem Inv.bytesInFlight_ok (h : Inv data sender) :
    sender.bytesInFlight = .ok (sender.sndNxt - sender.sndUna) := by
  rw [bytesInFlight, checkedSub_of_le h.una_le]
  rfl

theorem Inv.debugCheckInvariants_ok (h : Inv data sender) :
    sender.debugCheckInvariants = .ok () :=
  TcpSender.debugCheckInvariants_ok h.queue h.nxt_le

/-- The front of the queue is the oldest unacknowledged segment. -/
theorem Inv.front_start (h : Inv data sender) {front : OutstandingSegment}
    {rest : List OutstandingSegment} (hfront : sender.outstanding = front :: rest) :
    front.absoluteStart = sender.sndUna := by
  have hqueue := h.queue
  rw [hfront] at hqueue
  exact hqueue.1

/-! ## Cutting a segment -/

theorem readOutboundPayload_drained (outbound : ByteStream) (maxLen : Nat) :
    Drained outbound (readOutboundPayload outbound maxLen).2
      (readOutboundPayload outbound maxLen).1 := by
  unfold readOutboundPayload
  split_ifs
  · exact Drained.refl outbound
  · exact pop_drained outbound _

theorem length_readOutboundPayload_le (outbound : ByteStream) (maxLen : Nat) :
    (readOutboundPayload outbound maxLen).2.length ≤ maxLen := by
  unfold readOutboundPayload
  split_ifs
  · exact Nat.zero_le _
  · exact le_trans (length_pop_le outbound _) (min_le_left _ _)

/-- No payload means no room or nothing buffered, and then nothing changes. -/
theorem readOutboundPayload_nil {outbound : ByteStream} {maxLen : Nat}
    (h : (readOutboundPayload outbound maxLen).2 = []) :
    (readOutboundPayload outbound maxLen).1 = outbound ∧
      (0 < maxLen → outbound.bytesBuffered = 0) := by
  unfold readOutboundPayload at h ⊢
  by_cases hzero : maxLen = 0
  · simp only [if_pos hzero]
    exact ⟨trivial, fun hpos => by omega⟩
  · simp only [if_neg hzero] at h ⊢
    refine ⟨pop_of_nil outbound _ h, fun _ => ?_⟩
    by_contra hbuf
    exact pop_ne_nil outbound (min maxLen outbound.bytesBuffered) (by omega) (by omega) h

/-- Nothing is left to transmit. -/
def Exhausted (sender : TcpSender) : Prop :=
  sender.synSent = true ∧ sender.outbound.bytesBuffered = 0 ∧
    (sender.outbound.closed = true → sender.finSent = true)

/-- What `makeSegment` returns. -/
structure Cut (data : Bytes) (sender : TcpSender) (available : Nat) (sender1 : TcpSender)
    (message : TcpSenderMessage) : Prop where
  frame : sender1 =
    { sender with outbound := sender1.outbound, synSent := true, finSent := sender1.finSent }
  drained : Drained sender.outbound message.payload sender1.outbound
  syn_eq : message.syn = !sender.synSent
  fin_eq : sender1.finSent = (sender.finSent || message.fin)
  fin_last : message.fin = true → sender.finSent = false ∧ sender.outbound.closed = true ∧
    sender1.outbound.bytesBuffered = 0
  seqno : message.seqno = Wrap32.wrap sender.sndNxt sender.isn
  rst : message.rst = sender.outbound.error
  fits : message.sequenceLength ≤ available
  exhausted : message.sequenceLength = 0 → sender1 = sender ∧ Exhausted sender

theorem makeSegment_cut (h : Inv data sender) (hpos : 0 < available) :
    Cut data sender available (sender.makeSegment available).1 (sender.makeSegment available).2 := by
  set syn := !sender.synSent with hsyn
  set budget := min (available - syn.toNat) sender.config.maxPayloadSize with hbudget
  set outbound1 := (readOutboundPayload sender.outbound budget).1 with hout
  set payload := (readOutboundPayload sender.outbound budget).2 with hpayload
  set fin := !sender.finSent && outbound1.closed && outbound1.bytesBuffered == 0
    && decide (0 < available - syn.toNat - payload.length) with hfin
  have hdrained : Drained sender.outbound payload outbound1 := readOutboundPayload_drained _ _
  have hlen : payload.length ≤ budget := length_readOutboundPayload_le _ _
  have hrun : sender.makeSegment available =
      ({ sender with
          outbound := outbound1, synSent := sender.synSent || syn, finSent := sender.finSent || fin },
        { sender.makeEmptyMessage with syn := syn, payload := payload, fin := fin }) := by
    unfold makeSegment
    simp only [hpos, decide_true, Bool.and_true, ← hsyn, ← hbudget, ← hout, ← hpayload, ← hfin]
  have hsynSent : (sender.synSent || syn) = true := by simp [hsyn]
  have hsynle : syn.toNat ≤ 1 := Bool.toNat_le syn
  have hfinle : fin.toNat ≤ 1 := Bool.toNat_le fin
  have hlast : fin = true → sender.finSent = false ∧ outbound1.closed = true ∧
      outbound1.bytesBuffered = 0 ∧ 0 < available - syn.toNat - payload.length := by
    intro hf
    rw [hfin] at hf
    simpa [and_assoc] using hf
  rw [hrun]
  constructor
  · simp only [hsynSent]
  · exact hdrained
  · exact hsyn
  · rfl
  · intro hf
    obtain ⟨h1, h2, h3, -⟩ := hlast hf
    exact ⟨h1, hdrained.closed.symm.trans h2, h3⟩
  · rfl
  · rfl
  · show syn.toNat + payload.length + fin.toNat ≤ available
    by_cases hf : fin = true
    · have := (hlast hf).2.2.2
      omega
    · rw [Bool.not_eq_true] at hf
      rw [hf, Bool.toNat_false]
      omega
  · -- an empty message: SYN was sent, nothing is buffered, and FIN is not due
    intro hzero
    have hzero1 : syn.toNat + payload.length + fin.toNat = 0 := hzero
    have hsynSent1 : sender.synSent = true := by
      cases hs : sender.synSent with
      | true => rfl
      | false =>
          rw [hsyn, hs] at hzero1
          simp at hzero1
    have hnil : payload = [] := List.length_eq_zero_iff.mp (by omega)
    have hfin0 : fin = false := by
      cases hf : fin with
      | false => rfl
      | true =>
          rw [hf] at hzero1
          simp at hzero1
    have hpay := h.payload_pos
    obtain ⟨hsame, hbuf⟩ := readOutboundPayload_nil hnil
    have hbuffered := hbuf (by omega)
    have hout1 : outbound1 = sender.outbound := hsame
    refine ⟨?_, hsynSent1, hbuffered, ?_⟩
    · rw [hout1, hsynSent, hfin0, Bool.or_false, ← hsynSent1]
    · intro hclosed
      by_contra hns
      rw [Bool.not_eq_true] at hns
      have hroom : 0 < available - syn.toNat - payload.length := by omega
      rw [hfin, hout1, hclosed, hbuffered, hns] at hfin0
      simp [hroom] at hfin0

/-- After FIN there is nothing left to cut. -/
theorem Cut.finSent_eq_false (hcut : Cut data sender available sender1 message)
    (h : Inv data sender) (hpos : 0 < message.sequenceLength) : sender.finSent = false := by
  by_contra hf
  rw [Bool.not_eq_false] at hf
  have hpopped := (h.fin_last hf).2
  have hlen := congrArg List.length hcut.drained.contents
  rw [List.length_append, length_contents, length_contents] at hlen
  have hbuf := sender.outbound.pushed_eq
  have hpushed := h.pushed_eq
  have hsynSent : sender.synSent = true := by
    by_contra hs
    have hfin := (h.syn_first (by simpa using hs)).2
    rw [hf] at hfin
    exact absurd hfin (by simp)
  have hnofin : message.fin = false := by
    by_contra hcon
    have hopen := (hcut.fin_last (by simpa using hcon)).1
    rw [hf] at hopen
    exact absurd hopen (by simp)
  have hnosyn : message.syn = false := by
    rw [hcut.syn_eq, hsynSent]
    rfl
  unfold TcpSenderMessage.sequenceLength at hpos
  rw [hnofin, hnosyn] at hpos
  simp only [Bool.toNat_false] at hpos
  omega

/-- SYN is the first of the sequence space. -/
theorem Cut.syn_iff (hcut : Cut data sender available sender1 message) (h : Inv data sender) :
    message.syn = true ↔ sender.sndNxt = 0 := by
  have hnxt := h.nxt_eq
  rw [hcut.syn_eq]
  cases hs : sender.synSent with
  | true =>
      rw [hs, Bool.toNat_true] at hnxt
      simp only [Bool.not_true, Bool.false_eq_true, false_iff]
      omega
  | false =>
      obtain ⟨hpop, hfin⟩ := h.syn_first hs
      rw [hs, hpop, hfin] at hnxt
      simpa using hnxt

/-- Before FIN, SYN and the bytes that were popped are all that was sent. -/
theorem Cut.position (hcut : Cut data sender available sender1 message) (h : Inv data sender)
    (hopen : sender.finSent = false) : sender.sndNxt - 1 = sender.outbound.bytesPopped ∧
      sender.sndNxt + message.syn.toNat = sender.outbound.bytesPopped + 1 := by
  have hnxt := h.nxt_eq
  rw [hopen, Bool.toNat_false] at hnxt
  rw [hcut.syn_eq]
  cases hs : sender.synSent with
  | true =>
      rw [hs] at hnxt
      simp only [Bool.toNat_true, Bool.not_true, Bool.toNat_false] at hnxt ⊢
      omega
  | false =>
      have hpop := (h.syn_first hs).1
      rw [hs] at hnxt
      simp only [Bool.toNat_false, Bool.not_false, Bool.toNat_true] at hnxt ⊢
      omega

/-- A message that was cut is the next part of the sequence space. -/
theorem Cut.carries (hcut : Cut data sender available sender1 message) (h : Inv data sender)
    (hpos : 0 < message.sequenceLength) :
    message.Carries data sender.outbound.closed sender.isn sender.sndNxt := by
  have hdrained := hcut.drained
  have hlen := congrArg List.length hdrained.contents
  rw [List.length_append, length_contents, length_contents] at hlen
  have hbuf := sender.outbound.pushed_eq
  have hpushed := h.pushed_eq
  have hspace := h.nxt_le_space
  have hpopped := hcut.position h (hcut.finSent_eq_false h hpos)
  have hfin : message.fin = true → sender.outbound.closed = true ∧
      sender.outbound.bytesPopped + message.payload.length = data.length := by
    intro hf
    obtain ⟨-, hclosed, hempty⟩ := hcut.fin_last hf
    exact ⟨hclosed, by omega⟩
  have hlensum : message.sequenceLength =
      message.syn.toNat + message.payload.length + message.fin.toNat := rfl
  have hpaylen : sender.outbound.bytesPopped + message.payload.length ≤ data.length := by omega
  refine ⟨hcut.seqno, ?_, hcut.syn_iff h, ?_, ?_⟩
  · cases hf : message.fin with
    | true =>
        rw [hf, Bool.toNat_true] at hlensum
        rw [(hfin hf).1, Bool.toNat_true]
        omega
    | false =>
        rw [hf, Bool.toNat_false] at hlensum
        omega
  · -- the payload is the front of what was buffered
    rw [hpopped.1]
    have hcontents := hdrained.contents
    rw [h.contents_eq] at hcontents
    rw [List.slice, Nat.add_sub_cancel_left, ← hcontents, List.take_left]
  · constructor
    · intro hf
      rw [hf, Bool.toNat_true] at hlensum
      obtain ⟨hclosed, hall⟩ := hfin hf
      exact ⟨hclosed, by omega⟩
    · rintro ⟨hclosed, hend⟩
      by_contra hf
      rw [Bool.not_eq_true] at hf
      rw [hf, Bool.toNat_false] at hlensum
      omega

/-- The sender after a message was cut and queued. -/
def queued (sender sender1 : TcpSender) (message : TcpSenderMessage) : TcpSender :=
  { sender1 with
    sndNxt := sender.sndNxt + message.sequenceLength
    outstanding := sender.outstanding ++
      [{ absoluteStart := sender.sndNxt, message := message }] }

/-- The sender after a message was cut and tracked. -/
def tracked (sender sender1 : TcpSender) (message : TcpSenderMessage) : TcpSender :=
  { queued sender sender1 message with
    timer :=
      if sender.outstanding = [] then (queued sender sender1 message).timerFor
      else sender.timer }

@[simp] theorem tracked_sndNxt (sender sender1 : TcpSender) (message : TcpSenderMessage) :
    (tracked sender sender1 message).sndNxt = sender.sndNxt + message.sequenceLength := rfl

theorem Cut.tracked_sndUna (hcut : Cut data sender available sender1 message) :
    (tracked sender sender1 message).sndUna = sender.sndUna := by
  show sender1.sndUna = sender.sndUna
  rw [hcut.frame]

theorem Cut.backoff (hcut : Cut data sender available sender1 message) (h : Inv data sender) :
    Backoff sender1.config sender1.currentRtoMs sender1.persistIntervalMs := by
  rw [hcut.frame]
  exact h.backoff

theorem Cut.track_ok (hcut : Cut data sender available sender1 message) (h : Inv data sender)
    (hpos : 0 < message.sequenceLength)
    (hmax : sender.sndNxt + message.sequenceLength ≤ u64Max) :
    sender1.track message = .ok (tracked sender sender1 message) := by
  have hbackoff := hcut.backoff h
  have hnxt : sender1.sndNxt = sender.sndNxt := by rw [hcut.frame]
  have hout : sender1.outstanding = sender.outstanding := by rw [hcut.frame]
  have htimer : sender1.timer = sender.timer := by rw [hcut.frame]
  unfold track tracked queued
  rw [Exec.assert_pos hpos, hnxt, hout, checkedAdd_of_le hmax]
  simp only [Exec.ok_bind, Exec.expect_some]
  by_cases hnil : sender.outstanding = []
  · rw [if_pos hnil, if_pos hnil]
    exact restartTimerForCurrentWindow_ok _ hbackoff
  · rw [if_neg hnil, if_neg hnil, ← htimer]

theorem Cut.track_overflow (hcut : Cut data sender available sender1 message)
    (hpos : 0 < message.sequenceLength)
    (hmax : u64Max < sender.sndNxt + message.sequenceLength) :
    sender1.track message = .error .expectation := by
  have hnxt : sender1.sndNxt = sender.sndNxt := by rw [hcut.frame]
  unfold track
  rw [Exec.assert_pos hpos, hnxt, checkedAdd_eq_none.mpr hmax]
  rfl

/-- What is buffered now is what was buffered without its front. -/
theorem Cut.contents_eq (hcut : Cut data sender available sender1 message)
    (h : Inv data sender) :
    sender1.outbound.contents = data.drop sender1.outbound.bytesPopped := by
  have hdrained := hcut.drained
  calc sender1.outbound.contents
      = (message.payload ++ sender1.outbound.contents).drop message.payload.length := by
        rw [List.drop_left]
    _ = (data.drop sender.outbound.bytesPopped).drop message.payload.length := by
        rw [hdrained.contents, h.contents_eq]
    _ = data.drop sender1.outbound.bytesPopped := by
        rw [List.drop_drop, hdrained.popped]

theorem Cut.bytesPopped_of_fin (hcut : Cut data sender available sender1 message)
    (h : Inv data sender) (hfin : message.fin = true) :
    sender1.outbound.bytesPopped = data.length := by
  have hempty := (hcut.fin_last hfin).2.2
  have hbuffered := sender1.outbound.pushed_eq
  have hpushed := hcut.drained.pushed
  have hall := h.pushed_eq
  omega

theorem Cut.nxt_eq (hcut : Cut data sender available sender1 message) (h : Inv data sender)
    (hopen : sender.finSent = false) :
    sender.sndNxt + message.sequenceLength =
      sender1.synSent.toNat + sender1.outbound.bytesPopped + sender1.finSent.toNat := by
  have hsyn : sender1.synSent = true := by rw [hcut.frame]
  rw [hsyn, hcut.fin_eq, hopen, Bool.false_or, hcut.drained.popped, h.nxt_eq, hopen,
    TcpSenderMessage.sequenceLength, hcut.syn_eq]
  cases sender.synSent <;> simp only [Bool.toNat_true, Bool.toNat_false, Bool.not_true,
    Bool.not_false] <;> omega

/-- The timer is started if nothing was outstanding, and goes on otherwise. -/
theorem Cut.timed_tracked (hcut : Cut data sender available sender1 message)
    (h : Inv data sender) : Timed (tracked sender sender1 message) := by
  by_cases hnil : sender.outstanding = []
  · unfold tracked
    simp only [if_pos hnil]
    exact timed_timerFor (queued sender sender1 message) (hcut.backoff h)
  · have hwindow : sender1.advertisedWindow = sender.advertisedWindow := by rw [hcut.frame]
    have hrto : sender1.currentRtoMs = sender.currentRtoMs := by rw [hcut.frame]
    have hpersist : sender1.persistIntervalMs = sender.persistIntervalMs := by rw [hcut.frame]
    unfold tracked
    simp only [if_neg hnil]
    constructor
    · exact iff_of_true (h.timed.running_iff.mpr hnil) (by simp [queued])
    · show sender.timer.running = true → sender.timer.timeoutMs =
        if sender1.advertisedWindow = 0 then sender1.persistIntervalMs else sender1.currentRtoMs
      rw [hwindow, hrto, hpersist]
      exact h.timed.timeout_eq
    · show sender.timer.running = true → sender.timer.mode =
        some (if sender1.advertisedWindow = 0 then .persist else .retransmission)
      rw [hwindow]
      exact h.timed.mode_eq
    · exact h.timed.elapsed_lt

theorem Cut.inv_tracked (hcut : Cut data sender available sender1 message) (h : Inv data sender)
    (hpos : 0 < message.sequenceLength)
    (hmax : sender.sndNxt + message.sequenceLength ≤ u64Max)
    (hflight : sender.sndNxt + message.sequenceLength ≤ sender.sndUna + 65535) :
    Inv data (tracked sender sender1 message) := by
  have hgenuine := (hcut.carries h hpos).occupies
  have hopen := hcut.finSent_eq_false h hpos
  have hdrained := hcut.drained
  have hframe := hcut.frame
  have hisn : sender1.isn = sender.isn := by rw [hframe]
  have huna : sender1.sndUna = sender.sndUna := by rw [hframe]
  have hconfig : sender1.config = sender.config := by rw [hframe]
  have hwindow : sender1.advertisedWindow = sender.advertisedWindow := by rw [hframe]
  have hsyn : sender1.synSent = true := by rw [hframe]
  have hfin : sender1.finSent = message.fin := by
    rw [hcut.fin_eq, hopen, Bool.false_or]
  have hmem : ∀ segment ∈ (tracked sender sender1 message).outstanding,
      segment ∈ sender.outstanding ∨
        segment = { absoluteStart := sender.sndNxt, message := message } := by
    intro segment hs
    rcases List.mem_append.mp hs with hs | hs
    · exact Or.inl hs
    · exact Or.inr (List.mem_singleton.mp hs)
  constructor
  · exact hdrained.pushed.trans h.pushed_eq
  · exact hcut.contents_eq h
  · exact hcut.nxt_eq h hopen
  · intro hs
    rw [show (tracked sender sender1 message).synSent = sender1.synSent from rfl, hsyn] at hs
    exact absurd hs (by simp)
  · intro hf
    have hf1 : message.fin = true := hfin.symm.trans hf
    exact ⟨hdrained.closed.trans (hcut.fin_last hf1).2.1, hcut.bytesPopped_of_fin h hf1⟩
  · exact hmax
  · show Queue sender1.sndUna (sender.outstanding ++ [_]) _
    rw [huna]
    exact h.queue.append ⟨rfl, hpos, rfl⟩
  · -- the old segments are as they were, and the new one carries its part of the space
    intro segment hs
    show segment.Genuine data sender1.outbound.closed sender1.isn
    rw [hisn, hdrained.closed]
    rcases hmem segment hs with hs | rfl
    · exact h.genuine segment hs
    · exact hgenuine
  · intro segment hs
    show segment.message.rst = sender1.outbound.error
    rw [hdrained.error]
    rcases hmem segment hs with hs | rfl
    · exact h.rst_eq segment hs
    · exact hcut.rst
  · show 0 < sender1.config.maxPayloadSize
    rw [hconfig]
    exact h.payload_pos
  · show sender1.advertisedWindow ≤ 65535
    rw [hwindow]
    exact h.window_le
  · show sender.sndNxt + message.sequenceLength ≤ sender1.sndUna + 65535
    rw [huna]
    exact hflight
  · exact hcut.backoff h
  · exact hcut.timed_tracked h

end TcpSender

end Minnow
