import Minnow.TcpSender.PayloadSize
import Minnow.TcpSender.Run

set_option autoImplicit false

/-! # What one push does

`push_spec` says what a push transmits. Here is what the peer and the caller rely on: the bytes
in flight stay within the window or below what they were, and what could be sent was sent, so
that a second push has nothing to do (`push_again`).

* `push_fills`: all of this in every state that a run reaches.
-/

namespace Minnow

namespace TcpSender

variable {data : Bytes} {sender sender1 : TcpSender} {messages : List TcpSenderMessage}
  {window : Nat}

/-! ## A second push -/

/-- With nothing left to transmit the message is empty. -/
theorem makeSegment_exhausted (h : Exhausted sender) (available : Nat) :
    sender.makeSegment available = (sender, sender.makeEmptyMessage) := by
  obtain ⟨hsyn, hbuffered, hfin⟩ := h
  have hread : ∀ maxLen, readOutboundPayload sender.outbound maxLen = (sender.outbound, []) := by
    intro maxLen
    have hpayload : (readOutboundPayload sender.outbound maxLen).2 = [] := by
      rw [← List.length_eq_zero_iff]
      unfold readOutboundPayload
      split_ifs
      · rfl
      · have hle := sender.outbound.length_pop_le (min maxLen sender.outbound.bytesBuffered)
        omega
    exact Prod.ext (readOutboundPayload_nil hpayload).1 hpayload
  have hnofin : ∀ room : Bool, (!sender.finSent && sender.outbound.closed &&
      sender.outbound.bytesBuffered == 0 && room) = false := by
    intro room
    cases hclosed : sender.outbound.closed with
    | false => rw [Bool.and_false, Bool.false_and, Bool.false_and]
    | true => rw [hfin hclosed, Bool.not_true, Bool.false_and, Bool.false_and, Bool.false_and]
  unfold makeSegment
  simp only [hread, hnofin, hsyn, Bool.not_true, Bool.false_and, Bool.or_false]
  rw [← hsyn]
  rfl

/-- A push that finds the window full, or nothing to transmit, does nothing. -/
theorem push_again (h : Inv data sender)
    (hfilled : sender.effectiveWindow ≤ sender.sndNxt - sender.sndUna ∨ Exhausted sender) :
    sender.push = .ok (sender, []) := by
  have hloop : ∀ budget, 0 < budget →
      pushLoop sender.effectiveWindow budget sender = .ok (sender, []) := by
    intro budget hbudget
    obtain ⟨rest, rfl⟩ := Nat.exists_eq_add_one_of_ne_zero (Nat.pos_iff_ne_zero.mp hbudget)
    unfold pushLoop
    rw [h.bytesInFlight_ok, Exec.ok_bind]
    by_cases hroom : sender.sndNxt - sender.sndUna < sender.effectiveWindow
    · have hexhausted := hfilled.resolve_left (Nat.not_le.mpr hroom)
      rw [if_pos hroom]
      dsimp only
      rw [makeSegment_exhausted hexhausted]
      rfl
    · rw [if_neg hroom]
  have hwindow : 0 < sender.effectiveWindow := lt_of_lt_of_le Nat.zero_lt_one (le_max_right _ _)
  rw [push, hloop _ hwindow]
  simp only [Exec.ok_bind, h.debugCheckInvariants_ok]

/-! ## What is in flight -/

/-- What a push from `sender` leads to, with the bytes in flight before and after it. -/
structure Filled (sender : TcpSender) (inFlight : Nat) (messages : List TcpSenderMessage)
    (sender1 : TcpSender) (inFlight1 : Nat) : Prop where
  before : sender.bytesInFlight = .ok inFlight
  after : sender1.bytesInFlight = .ok inFlight1
  flight_le : inFlight1 ≤ max inFlight (max sender.advertisedWindow 1)
  payload_le : ∀ m ∈ messages, m.payload.length ≤ sender.config.maxPayloadSize
  filled : max sender.advertisedWindow 1 ≤ inFlight1 ∨ Exhausted sender1
  again : sender1.push = .ok (sender1, [])

theorem push_filled (h : Inv data sender) (hrun : sender.push = .ok (sender1, messages)) :
    Filled sender (sender.sndNxt - sender.sndUna) messages sender1
      (sender1.sndNxt - sender1.sndUna) := by
  have hp := push_pushed h hrun
  have hframe := hp.frame
  have huna : sender1.sndUna = sender.sndUna := by rw [hframe]
  have hwindow : sender1.effectiveWindow = sender.effectiveWindow := by
    rw [hframe]
    rfl
  have hfilled : sender.effectiveWindow ≤ sender1.sndNxt - sender1.sndUna ∨ Exhausted sender1 := by
    rcases hp.filled with hfull | hexhausted
    · left
      omega
    · exact Or.inr hexhausted
  refine
    { before := h.bytesInFlight_ok
      after := hp.inv.bytesInFlight_ok
      flight_le := ?_
      payload_le := push_payload_le hrun
      filled := hfilled
      again := push_again hp.inv (by rwa [hwindow]) }
  have hedge := hp.edge
  unfold effectiveWindow at hedge
  omega

variable {capacity : Nat} {isn : Wrap32} {config : TcpSenderConfig} {ops : List SenderOp}
  {log : Log}

/-- In every state that a run reaches, a push returns; afterwards the window is full or nothing
is left to transmit, no message is larger than configured, and a second push does nothing. Only
a stream as long as the sequence numbers makes it stop abnormally. -/
theorem push_fills (hnew : TcpSender.new capacity isn config = .ok sender)
    (hrun : Exec.run Log.step (Log.start sender) ops = .ok log) :
    (∃ sender1 messages inFlight inFlight1, log.sender.push = .ok (sender1, messages) ∧
      Filled log.sender inFlight messages sender1 inFlight1) ∨
    (u64Max < log.accepted.length + 2 ∧ log.sender.push = .error .expectation) := by
  have h := (Log.logInv_run hnew hrun).inv
  rcases push_spec h with ⟨sender1, messages, hpush, -⟩ | hover
  · exact Or.inl ⟨sender1, messages, _, _, hpush, push_filled h hpush⟩
  · exact Or.inr hover

/-- The payload fills the window and FIN has to wait. -/
theorem push_fills_fin_waits :
    ∃ sender log, TcpSender.new 8 ⟨0⟩ ⟨100, 1000, 2⟩ = .ok sender ∧
      Exec.run Log.step (Log.start sender)
        [.push, .receive ⟨some ⟨1⟩, 3, false⟩, .write [1, 2, 3], .close] = .ok log ∧
      ((∃ sender1 messages inFlight inFlight1, log.sender.push = .ok (sender1, messages) ∧
          Filled log.sender inFlight messages sender1 inFlight1) ∨
        (u64Max < log.accepted.length + 2 ∧ log.sender.push = .error .expectation)) := by
  obtain ⟨sender, hnew⟩ : ∃ sender, TcpSender.new 8 ⟨0⟩ ⟨100, 1000, 2⟩ = .ok sender :=
    TcpSender.new_total 8 ⟨0⟩ (by decide) (by decide) (by decide)
  obtain ⟨log, hrun⟩ := Log.run_total hnew
    [.push, .receive ⟨some ⟨1⟩, 3, false⟩, .write [1, 2, 3], .close] (by decide)
  exact ⟨sender, log, hnew, hrun, push_fills hnew hrun⟩

end TcpSender

end Minnow
