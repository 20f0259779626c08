import Minnow.ByteStream
import Minnow.Library.Fifo

set_option autoImplicit false

/-! # The byte stream is a bounded queue

The chunks are an implementation detail: `toFifo` forgets them, and each operation is one step
of the queue (`perform_step`). What holds of all runs of a queue then holds of the stream.

* `refines_fifo`: the stream after any sequence of operations.
-/

namespace Minnow

namespace ByteStream

open Fifo

inductive StreamOp where
  | push (data : Bytes)
  | pop (len : Nat)
  | close
  | setError

/-- The queue that the stream implements. -/
def toFifo (stream : ByteStream) : Fifo UInt8 where
  capacity := stream.capacity
  contents := stream.contents
  isStopped := stream.closed || stream.error

/-- The stream after an operation, and what the caller has seen of it. -/
def perform (stream : ByteStream) : StreamOp → ByteStream × Event UInt8
  | .push data => ((stream.push data).1, .offer data (data.take (stream.push data).2))
  | .pop len => ((stream.pop len).1, .take len (stream.pop len).2)
  | .close => (stream.close, .stop)
  | .setError => (stream.setError, .stop)

def performAll (stream : ByteStream) : List StreamOp → ByteStream × List (Event UInt8)
  | [] => (stream, [])
  | op :: ops =>
      let (stream, event) := stream.perform op
      let (stream, events) := stream.performAll ops
      (stream, event :: events)

variable (stream : ByteStream)

theorem take_push_snd (data : Bytes) :
    data.take (stream.push data).2 = data.take stream.toFifo.room := by
  have hlen := stream.length_contents
  have hroom : stream.toFifo.room = if stream.closed || stream.error then 0
      else stream.availableCapacity := by
    unfold room toFifo availableCapacity
    rw [hlen]
  rw [push_snd, hroom]
  split_ifs
  · rfl
  · rw [List.take_eq_take_iff]
    omega

theorem perform_step (op : StreamOp) :
    Step stream.toFifo (stream.perform op).2 (stream.perform op).1.toFifo := by
  cases op with
  | push data =>
      have happended := stream.push_appended data
      have hafter : (stream.push data).1.toFifo = { stream.toFifo with
          contents := stream.contents ++ data.take stream.toFifo.room } := by
        unfold toFifo at *
        rw [happended.capacity, happended.closed, happended.error, happended.contents]
        exact congrArg (fun tl => Fifo.mk _ (stream.contents ++ tl) _) (stream.take_push_snd data)
      show Step stream.toFifo (.offer data (data.take (stream.push data).2)) _
      rw [take_push_snd]
      show Step _ _ (stream.push data).1.toFifo
      rw [hafter]
      exact Step.offer stream.toFifo data
  | pop len =>
      have hdrained := stream.pop_drained len
      have hafter : (stream.pop len).1.toFifo
          = { stream.toFifo with contents := (stream.pop len).1.contents } := by
        unfold toFifo
        rw [hdrained.capacity, hdrained.closed, hdrained.error]
      show Step stream.toFifo (.take len (stream.pop len).2) (stream.pop len).1.toFifo
      rw [hafter]
      apply Step.take stream.toFifo len _ _ hdrained.contents.symm (stream.length_pop_le len)
      -- a pop that asks for bytes gets some while there are any
      intro hpos hne
      apply stream.pop_ne_nil len hpos
      rw [← stream.length_contents]
      exact List.length_pos_iff.mpr hne
  | close =>
      have hafter : stream.close.toFifo = { stream.toFifo with isStopped := true } := by
        unfold toFifo close
        rw [Bool.true_or]
        rfl
      show Step stream.toFifo .stop stream.close.toFifo
      rw [hafter]
      exact Step.stop stream.toFifo
  | setError =>
      have hafter : stream.setError.toFifo = { stream.toFifo with isStopped := true } := by
        unfold toFifo setError
        rw [Bool.or_true]
        rfl
      show Step stream.toFifo .stop stream.setError.toFifo
      rw [hafter]
      exact Step.stop stream.toFifo

theorem performAll_steps (ops : List StreamOp) :
    Steps stream.toFifo (stream.performAll ops).2 (stream.performAll ops).1.toFifo := by
  induction ops generalizing stream with
  | nil => exact Steps.nil _
  | cons op ops ih => exact Steps.cons (stream.perform_step op) (ih (stream.perform op).1)

/-! ## Draining -/

theorem performAll_pops (n len : Nat) :
    (stream.performAll (List.replicate n (.pop len))).2.length = n ∧
    ∀ event ∈ (stream.performAll (List.replicate n (.pop len))).2, ∃ out, event = .take len out := by
  induction n generalizing stream with
  | zero => exact ⟨rfl, fun event hevent => absurd hevent List.not_mem_nil⟩
  | succ n ih =>
      obtain ⟨hlen, htakes⟩ := ih (stream.pop len).1
      constructor
      · exact congrArg Nat.succ hlen
      · intro event hevent
        rcases List.mem_cons.mp hevent with rfl | hevent
        · exact ⟨_, rfl⟩
        · exact htakes event hevent

/-- Enough pops return everything that is buffered. -/
theorem pops_drain {n len : Nat} (hlen : 0 < len) (hn : stream.bytesBuffered ≤ n) :
    taken (stream.performAll (List.replicate n (.pop len))).2 = stream.contents ∧
      (stream.performAll (List.replicate n (.pop len))).1.bytesBuffered = 0 := by
  have hsteps := stream.performAll_steps (List.replicate n (.pop len))
  obtain ⟨hcount, htakes⟩ := stream.performAll_pops n len
  set last := stream.performAll (List.replicate n (.pop len)) with hlast
  have hempty : last.1.contents = [] := by
    apply hsteps.empties
    · intro event hevent
      obtain ⟨out, rfl⟩ := htakes event hevent
      exact ⟨len, out, rfl, hlen⟩
    · show stream.contents.length ≤ last.2.length
      rw [hcount, stream.length_contents]
      exact hn
  have hnothing : accepted last.2 = [] := by
    rw [accepted, List.flatMap_eq_nil_iff]
    intro event hevent
    obtain ⟨out, rfl⟩ := htakes event hevent
    rfl
  have hconserved : stream.contents ++ accepted last.2 = taken last.2 ++ last.1.contents :=
    hsteps.conserved
  constructor
  · rw [hnothing, hempty, List.append_nil, List.append_nil] at hconserved
    exact hconserved.symm
  · rw [← last.1.length_contents, hempty]
    rfl

/-! ## Every run -/

/-- What a stream of the given capacity is after the events. -/
structure Refines (capacity : Nat) (events : List (Event UInt8)) (stream : ByteStream) : Prop where
  run : Steps (Fifo.empty capacity) events stream.toFifo
  buffered_eq : stream.bytesBuffered = (stream.chunks.map List.length).sum
  counters : stream.bytesPopped ≤ stream.bytesPushed ∧
    stream.bytesBuffered = stream.bytesPushed - stream.bytesPopped
  buffered_le : stream.bytesBuffered ≤ capacity
  chunk_ne_nil : ∀ chunk ∈ stream.chunks, chunk ≠ []
  conserved : taken events ++ stream.chunks.flatten = accepted events
  push_accepts : ∀ data, (stream.push data).2 =
    if stream.closed || stream.error then 0 else min data.length (capacity - stream.bytesBuffered)
  pop_prefix : ∀ len, (stream.pop len).2 <+: stream.chunks.flatten ∧
    (stream.pop len).2.length ≤ len ∧
    (0 < len → 0 < stream.bytesBuffered → (stream.pop len).2 ≠ [])
  pops_drain : ∀ n len, 0 < len → stream.bytesBuffered ≤ n →
    taken (stream.performAll (List.replicate n (.pop len))).2 = stream.chunks.flatten ∧
      (stream.performAll (List.replicate n (.pop len))).1.bytesBuffered = 0

/-- After any operations the stream is the queue that has seen the same events: the counters
agree with the chunks, and the bytes that were popped and are still there are the accepted ones
in their order. -/
theorem refines_fifo (capacity : Nat) (ops : List StreamOp) :
    Refines capacity ((new capacity).performAll ops).2 ((new capacity).performAll ops).1 := by
  have hsteps := (new capacity).performAll_steps ops
  set stream := ((new capacity).performAll ops).1 with hstream
  set events := ((new capacity).performAll ops).2 with hevents
  have hstart : (new capacity).toFifo = Fifo.empty capacity := rfl
  rw [hstart] at hsteps
  have hcapacity : stream.capacity = capacity := (hsteps.bounded (Nat.zero_le _)).2
  have hconserved : accepted events = taken events ++ stream.contents := hsteps.conserved
  have hpushed := stream.pushed_eq
  refine
    { run := hsteps
      buffered_eq := ?_
      counters := by omega
      buffered_le := hcapacity ▸ stream.buffered_le
      chunk_ne_nil := stream.chunk_ne_nil
      conserved := hconserved.symm
      push_accepts := ?_
      pop_prefix := ?_
      pops_drain := fun n len hlen hn => stream.pops_drain hlen hn }
  · rw [stream.buffered_eq, List.length_flatten]
  · intro data
    rw [stream.push_snd, availableCapacity, hcapacity]
  · intro len
    exact ⟨⟨_, stream.pop_contents len⟩, stream.length_pop_le len, stream.pop_ne_nil len⟩

end ByteStream

end Minnow
