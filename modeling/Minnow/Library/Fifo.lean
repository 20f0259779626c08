import Mathlib.Data.List.Infix
import Mathlib.Tactic.Common

set_option autoImplicit false

/-! # Bounded queues

A queue of bounded length takes as much of what it is offered as fits, until it is stopped, and
gives out elements in the order they came in. How many elements it gives out at once is its own
choice: at least one, if there is one.

* `Steps.conserved`: what was accepted is what was taken and what is still there.
* `Steps.empties`: taking again and again empties the queue.
-/

structure Fifo (α : Type) where
  capacity : Nat
  contents : List α
  isStopped : Bool

namespace Fifo

variable {α : Type}

inductive Event (α : Type) where
  | offer (data accepted : List α)
  | take (len : Nat) (out : List α)
  | stop

namespace Event

def accepted : Event α → List α
  | .offer _ accepted => accepted
  | .take _ _ => []
  | .stop => []

def taken : Event α → List α
  | .offer _ _ => []
  | .take _ out => out
  | .stop => []

end Event

def empty (capacity : Nat) : Fifo α where
  capacity := capacity
  contents := []
  isStopped := false

/-- How many elements the queue accepts. -/
def room (queue : Fifo α) : Nat :=
  if queue.isStopped then 0 else queue.capacity - queue.contents.length

inductive Step : Fifo α → Event α → Fifo α → Prop where
  | offer (queue : Fifo α) (data : List α) :
      Step queue (.offer data (data.take queue.room))
        { queue with contents := queue.contents ++ data.take queue.room }
  | take (queue : Fifo α) (len : Nat) (out rest : List α) (hsplit : queue.contents = out ++ rest)
      (hle : out.length ≤ len) (hsome : 0 < len → queue.contents ≠ [] → out ≠ []) :
      Step queue (.take len out) { queue with contents := rest }
  | stop (queue : Fifo α) : Step queue .stop { queue with isStopped := true }

inductive Steps : Fifo α → List (Event α) → Fifo α → Prop where
  | nil (queue : Fifo α) : Steps queue [] queue
  | cons {queue queue1 queue2 : Fifo α} {event : Event α} {events : List (Event α)}
      (hstep : Step queue event queue1) (hrest : Steps queue1 events queue2) :
      Steps queue (event :: events) queue2

/-- Everything the queue accepted. -/
def accepted (events : List (Event α)) : List α := events.flatMap Event.accepted

/-- Everything it gave out. -/
def taken (events : List (Event α)) : List α := events.flatMap Event.taken

variable {queue queue1 : Fifo α} {event : Event α} {events : List (Event α)}

theorem Step.conserved (h : Step queue event queue1) :
    queue.contents ++ event.accepted = event.taken ++ queue1.contents := by
  cases h with
  | offer data => rfl
  | take len out rest hsplit hle hsome =>
      rw [hsplit]
      exact List.append_nil _
  | stop => exact List.append_nil _

theorem Step.capacity (h : Step queue event queue1) : queue1.capacity = queue.capacity := by
  cases h <;> rfl

/-- The length stays within the capacity. -/
theorem Step.bounded (h : Step queue event queue1)
    (hle : queue.contents.length ≤ queue.capacity) :
    queue1.contents.length ≤ queue1.capacity := by
  cases h with
  | offer data =>
      show (queue.contents ++ data.take queue.room).length ≤ queue.capacity
      rw [List.length_append, List.length_take, room]
      split_ifs <;> omega
  | take len out rest hsplit hlen hsome =>
      rw [hsplit, List.length_append] at hle
      show rest.length ≤ queue.capacity
      omega
  | stop => exact hle

/-- What was accepted is what was taken, in the same order, and what is still there. -/
theorem Steps.conserved (h : Steps queue events queue1) :
    queue.contents ++ accepted events = taken events ++ queue1.contents := by
  induction h with
  | nil queue => exact List.append_nil _
  | cons hstep _ ih =>
      unfold accepted taken at ih ⊢
      rw [List.flatMap_cons, List.flatMap_cons, ← List.append_assoc, hstep.conserved,
        List.append_assoc, ih, List.append_assoc]

theorem Steps.bounded (h : Steps queue events queue1)
    (hle : queue.contents.length ≤ queue.capacity) :
    queue1.contents.length ≤ queue1.capacity ∧ queue1.capacity = queue.capacity := by
  induction h with
  | nil queue => exact ⟨hle, rfl⟩
  | cons hstep _ ih =>
      obtain ⟨hle1, hcapacity⟩ := ih (hstep.bounded hle)
      exact ⟨hle1, hcapacity.trans hstep.capacity⟩

/-- As many takes as there are elements leave nothing. -/
theorem Steps.empties (h : Steps queue events queue1)
    (htakes : ∀ event ∈ events, ∃ len out, event = .take len out ∧ 0 < len)
    (hmany : queue.contents.length ≤ events.length) : queue1.contents = [] := by
  induction h with
  | nil queue => exact List.length_eq_zero_iff.mp (Nat.le_zero.mp hmany)
  | cons hstep _ ih =>
      obtain ⟨len, out, rfl, hpos⟩ := htakes _ List.mem_cons_self
      apply ih (fun event hevent => htakes event (List.mem_cons_of_mem _ hevent))
      cases hstep with
      | take len out rest hsplit hle hsome =>
          -- every take makes the queue shorter
          show rest.length ≤ _
          rw [List.length_cons] at hmany
          cases hout : out with
          | nil =>
              have hnil : rest = [] := by
                by_contra hne
                apply hsome hpos ?_ hout
                rw [hsplit, hout]
                exact hne
              rw [hnil]
              exact Nat.zero_le _
          | cons a tl =>
              rw [hsplit, hout, List.length_append, List.length_cons] at hmany
              omega

end Fifo
