import Minnow.TcpSender.Invariant

set_option autoImplicit false

/-! # Transmitting new segments

`push_spec`: what `push` transmits is the next stretch of the sequence space, cut into
segments that go to the end of the queue, and none of it lies behind the edge of the window.
It stops when the window is full or nothing is left to transmit. The only way to stop
abnormally is to run out of 64-bit sequence numbers, which takes a stream of that length.
-/

namespace Minnow

namespace TcpSender

open OutstandingSegment ByteStream

/-- The messages with the sequence numbers they take from `a` on. -/
def stamp : Nat → List TcpSenderMessage → List OutstandingSegment
  | _, [] => []
  | a, message :: rest =>
      { absoluteStart := a, message := message } :: stamp (a + message.sequenceLength) rest

theorem map_message_stamp (a : Nat) (messages : List TcpSenderMessage) :
    (stamp a messages).map OutstandingSegment.message = messages := by
  induction messages generalizing a with
  | nil => rfl
  | cons message rest ih => rw [stamp, List.map_cons, ih]

variable {data : Bytes} {sender sender1 sender2 : TcpSender} {messages : List TcpSenderMessage}
  {window budget : Nat}

/-- `sender1` is `sender` after the messages were transmitted in a window of the given size. -/
structure Pushed (data : Bytes) (window : Nat) (sender : TcpSender)
    (messages : List TcpSenderMessage) (sender1 : TcpSender) : Prop where
  inv : Inv data sender1
  frame : sender1 =
    { sender with
      outbound := sender1.outbound, sndNxt := sender1.sndNxt, outstanding := sender1.outstanding
      synSent := sender1.synSent, finSent := sender1.finSent, timer := sender1.timer }
  drained : ∃ bytes, Drained sender.outbound bytes sender1.outbound
  outstanding : sender1.outstanding = sender.outstanding ++ stamp sender.sndNxt messages
  edge : sender1.sndNxt ≤ max sender.sndNxt (sender.sndUna + window)
  filled : sender.sndUna + window ≤ sender1.sndNxt ∨ Exhausted sender1

theorem Pushed.nothing (h : Inv data sender)
    (hfilled : sender.sndUna + window ≤ sender.sndNxt ∨ Exhausted sender) :
    Pushed data window sender [] sender where
  inv := h
  frame := rfl
  drained := ⟨[], Drained.refl _⟩
  outstanding := by rw [stamp, List.append_nil]
  edge := le_max_left _ _
  filled := hfilled

/-- One more segment in front. -/
theorem Pushed.cons {available : Nat} {message : TcpSenderMessage}
    (hcut : Cut data sender available sender1 message)
    (hedge : sender.sndNxt + message.sequenceLength ≤ sender.sndUna + window)
    (h : Pushed data window (tracked sender sender1 message) messages sender2) :
    Pushed data window sender (message :: messages) sender2 := by
  have hcutFrame := hcut.frame
  have hframe := h.frame
  refine
    { inv := h.inv
      frame := ?_
      drained := ?_
      outstanding := ?_
      edge := ?_
      filled := ?_ }
  · rw [hframe]
    show _ = { sender with
      outbound := sender2.outbound, sndNxt := sender2.sndNxt, outstanding := sender2.outstanding
      synSent := sender2.synSent, finSent := sender2.finSent, timer := sender2.timer }
    unfold tracked queued
    rw [hcutFrame]
  · obtain ⟨bytes, hrest⟩ := h.drained
    exact ⟨message.payload ++ bytes, hcut.drained.trans hrest⟩
  · rw [h.outstanding, stamp]
    show (sender.outstanding ++ [_]) ++ stamp (sender.sndNxt + message.sequenceLength) messages = _
    rw [List.append_assoc, List.singleton_append]
  · have hrest := h.edge
    rw [hcut.tracked_sndUna, tracked_sndNxt] at hrest
    omega
  · have := h.filled
    rw [hcut.tracked_sndUna] at this
    exact this

/-- One iteration of the loop. -/
theorem pushLoop_succ (h : Inv data sender) (window budget : Nat) :
    pushLoop window (budget + 1) sender =
      if sender.sndNxt - sender.sndUna < window then
        let cut := sender.makeSegment (window - (sender.sndNxt - sender.sndUna))
        if cut.2.sequenceLength = 0 then .ok (sender, [])
        else if sender.sndNxt + cut.2.sequenceLength ≤ u64Max then do
          let (sender1, messages) ← pushLoop window budget (tracked sender cut.1 cut.2)
          .ok (sender1, cut.2 :: messages)
        else .error .expectation
      else .ok (sender, []) := by
  rw [pushLoop, h.bytesInFlight_ok, Exec.ok_bind]
  by_cases hroom : sender.sndNxt - sender.sndUna < window
  · rw [if_pos hroom, if_pos hroom]
    have hcut := makeSegment_cut h (show 0 < window - (sender.sndNxt - sender.sndUna) by omega)
    generalize sender.makeSegment (window - (sender.sndNxt - sender.sndUna)) = cut at hcut ⊢
    obtain ⟨sender1, message⟩ := cut
    dsimp only at hcut ⊢
    unfold TcpSenderMessage.isEmptyInSequenceSpace
    by_cases hzero : message.sequenceLength = 0
    · -- nothing is left to send
      rw [if_pos hzero, if_pos (by simp [hzero]), (hcut.exhausted hzero).1]
    · have hpos : 0 < message.sequenceLength := Nat.pos_of_ne_zero hzero
      rw [if_neg hzero, if_neg (by simp [hzero])]
      by_cases hmax : sender.sndNxt + message.sequenceLength ≤ u64Max
      · rw [if_pos hmax, hcut.track_ok h hpos hmax, Exec.ok_bind]
      · rw [if_neg hmax, hcut.track_overflow hpos (Nat.not_le.mp hmax), Exec.error_bind]
  · rw [if_neg hroom, if_neg hroom]

/-- The loop either does its work or runs out of sequence numbers. -/
theorem pushLoop_spec (hwindow : window ≤ 65535) : ∀ (budget : Nat) (sender : TcpSender),
    Inv data sender → sender.sndUna + window ≤ sender.sndNxt + budget →
    (∃ sender1 messages, pushLoop window budget sender = .ok (sender1, messages) ∧
      Pushed data window sender messages sender1) ∨
    (u64Max < data.length + 2 ∧ pushLoop window budget sender = .error .expectation) := by
  intro budget
  induction budget with
  | zero =>
      intro sender h hbudget
      have hfull : ¬ sender.sndNxt - sender.sndUna < window := by omega
      refine Or.inl ⟨sender, [], ?_, Pushed.nothing h (Or.inl (by omega))⟩
      unfold pushLoop
      rw [h.bytesInFlight_ok, Exec.ok_bind, if_neg hfull]
  | succ budget ih =>
      intro sender h hbudget
      rw [pushLoop_succ h]
      have huna := h.una_le
      by_cases hroom : sender.sndNxt - sender.sndUna < window
      · rw [if_pos hroom]
        have hcut := makeSegment_cut h
          (show 0 < window - (sender.sndNxt - sender.sndUna) by omega)
        generalize sender.makeSegment (window - (sender.sndNxt - sender.sndUna)) = cut at hcut ⊢
        obtain ⟨sender1, message⟩ := cut
        dsimp only at hcut ⊢
        have hfits := hcut.fits
        -- the loop stops at an empty message, and the sender it was cut from is kept
        by_cases hzero : message.sequenceLength = 0
        · rw [if_pos hzero]
          exact Or.inl ⟨sender, [], rfl, Pushed.nothing h (Or.inr (hcut.exhausted hzero).2)⟩
        · have hpos : 0 < message.sequenceLength := Nat.pos_of_ne_zero hzero
          rw [if_neg hzero]
          have hbound := (hcut.carries h hpos).bound
          have hclosed : sender.outbound.closed.toNat ≤ 1 := Bool.toNat_le _
          -- `snd_nxt` passes the largest `u64` only when the stream itself is that long
          by_cases hmax : sender.sndNxt + message.sequenceLength ≤ u64Max
          · rw [if_pos hmax]
            have hinv := hcut.inv_tracked h hpos hmax (by omega)
            -- every round fills at least one position of the window
            have hbudget1 : (tracked sender sender1 message).sndUna + window
                ≤ (tracked sender sender1 message).sndNxt + budget := by
              rw [hcut.tracked_sndUna, tracked_sndNxt]
              omega
            rcases ih (tracked sender sender1 message) hinv hbudget1 with
              ⟨sender2, messages, hrun, hpushed⟩ | ⟨hover, hrun⟩
            · refine Or.inl ⟨sender2, message :: messages, ?_, hpushed.cons hcut (by omega)⟩
              rw [hrun]
              rfl
            · refine Or.inr ⟨hover, ?_⟩
              rw [hrun]
              rfl
          · rw [if_neg hmax]
            exact Or.inr ⟨by omega, rfl⟩
      · rw [if_neg hroom]
        exact Or.inl ⟨sender, [], rfl, Pushed.nothing h (Or.inl (by omega))⟩

theorem push_spec (h : Inv data sender) :
    (∃ sender1 messages, sender.push = .ok (sender1, messages) ∧
      Pushed data sender.effectiveWindow sender messages sender1) ∨
    (u64Max < data.length + 2 ∧ sender.push = .error .expectation) := by
  have hwindow : sender.effectiveWindow ≤ 65535 := by
    have := h.window_le
    unfold effectiveWindow
    omega
  have huna := h.una_le
  rcases pushLoop_spec hwindow sender.effectiveWindow sender h (by omega) with
    ⟨sender1, messages, hrun, hpushed⟩ | ⟨hover, hrun⟩
  · refine Or.inl ⟨sender1, messages, ?_, hpushed⟩
    rw [push, hrun]
    simp only [Exec.ok_bind, hpushed.inv.debugCheckInvariants_ok]
  · refine Or.inr ⟨hover, ?_⟩
    rw [push, hrun]
    rfl

theorem push_pushed (h : Inv data sender) (hrun : sender.push = .ok (sender1, messages)) :
    Pushed data sender.effectiveWindow sender messages sender1 := by
  rcases push_spec h with ⟨sender2, messages2, hrun2, hpushed⟩ | ⟨-, hrun2⟩
  · rw [hrun, Except.ok.injEq, Prod.mk.injEq] at hrun2
    rw [hrun2.1, hrun2.2]
    exact hpushed
  · rw [hrun] at hrun2
    exact absurd hrun2 (by simp)

theorem push_total (h : Inv data sender) (hmax : data.length + 2 ≤ u64Max) :
    ∃ sender1 messages, sender.push = .ok (sender1, messages) ∧
      Pushed data sender.effectiveWindow sender messages sender1 := by
  rcases push_spec h with hdone | ⟨hover, -⟩
  · exact hdone
  · omega

/-- The new segments tile the sequence numbers that `push` has used. -/
theorem Pushed.queue (h : Inv data sender) (hp : Pushed data window sender messages sender1) :
    Queue sender.sndNxt (stamp sender.sndNxt messages) sender1.sndNxt := by
  have hall := hp.inv.queue
  have huna : sender1.sndUna = sender.sndUna := by rw [hp.frame]
  rw [hp.outstanding, huna] at hall
  obtain ⟨b, hold, hnew⟩ := tiles_append.mp hall
  rw [hold.unique h.queue] at hnew
  exact hnew

/-- A new segment is never empty in sequence space. -/
theorem Pushed.positive (hp : Pushed data window sender messages sender1) (h : Inv data sender) :
    ∀ message ∈ messages, 0 < message.sequenceLength := by
  intro message hm
  rw [← map_message_stamp sender.sndNxt messages] at hm
  obtain ⟨segment, hs, rfl⟩ := List.mem_map.mp hm
  exact ((hp.queue h).mem hs).2.1

/-- The new segments are genuine. -/
theorem Pushed.genuine (hp : Pushed data window sender messages sender1) :
    ∀ segment ∈ stamp sender.sndNxt messages,
      segment.Genuine data sender.outbound.closed sender.isn ∧
        segment.message.rst = sender.outbound.error := by
  intro segment hs
  obtain ⟨bytes, hdrained⟩ := hp.drained
  have hmem : segment ∈ sender1.outstanding := by
    rw [hp.outstanding]
    exact List.mem_append_right _ hs
  have hgenuine := hp.inv.genuine segment hmem
  have hrst := hp.inv.rst_eq segment hmem
  have hisn : sender1.isn = sender.isn := by rw [hp.frame]
  rw [hdrained.closed, hisn] at hgenuine
  rw [hdrained.error] at hrst
  exact ⟨hgenuine, hrst⟩

end TcpSender

end Minnow
