import Minnow.Library.Exec
import Mathlib.Algebra.Order.BigOperators.Group.List
import Mathlib.Tactic.Common

set_option autoImplicit false

/-! # The bounded byte stream

`ByteStream` (`byte_stream.rs`) is a queue of byte chunks with a capacity. The counters are
redundant: `bytesBuffered` is the total length of the chunks, and the bytes pushed are the
bytes popped and the bytes still buffered. These facts, with the bound by the capacity and
the absence of empty chunks, are fields of the structure, so the subtraction in
`availableCapacity` never goes below zero.

`contents` is what the stream is for: the queue of buffered bytes, whatever the chunks are.
-/

namespace Minnow

/-- `bytes::Bytes`. -/
abbrev Bytes : Type := List UInt8

structure ByteStream where
  capacity : Nat
  chunks : List Bytes
  bytesBuffered : Nat
  closed : Bool
  error : Bool
  bytesPushed : Nat
  bytesPopped : Nat
  chunk_ne_nil : ∀ chunk ∈ chunks, chunk ≠ []
  buffered_eq : bytesBuffered = chunks.flatten.length
  pushed_eq : bytesPushed = bytesPopped + bytesBuffered
  buffered_le : bytesBuffered ≤ capacity

namespace ByteStream

def new (capacity : Nat) : ByteStream where
  capacity := capacity
  chunks := []
  bytesBuffered := 0
  closed := false
  error := false
  bytesPushed := 0
  bytesPopped := 0
  chunk_ne_nil := by simp
  buffered_eq := rfl
  pushed_eq := rfl
  buffered_le := Nat.zero_le _

def availableCapacity (stream : ByteStream) : Nat := stream.capacity - stream.bytesBuffered

/-- Append as much of `data` as fits; the number is how many bytes were accepted. -/
def push (stream : ByteStream) (data : Bytes) : ByteStream × Nat :=
  if stream.closed || stream.error then (stream, 0)
  else
    let accepted := min data.length stream.availableCapacity
    if hpos : 0 < accepted then
      ({ stream with
          chunks := stream.chunks ++ [data.take accepted]
          bytesBuffered := stream.bytesBuffered + accepted
          bytesPushed := stream.bytesPushed + accepted
          chunk_ne_nil := by
            intro chunk hchunk
            rcases List.mem_append.mp hchunk with hchunk | hchunk
            · exact stream.chunk_ne_nil chunk hchunk
            · rw [List.mem_singleton.mp hchunk, ← List.length_pos_iff, List.length_take]
              omega
          buffered_eq := by
            have hlen : (data.take accepted).length = accepted := by
              rw [List.length_take]
              omega
            simp [hlen, stream.buffered_eq]
          pushed_eq := by have := stream.pushed_eq; omega
          buffered_le := by
            have := stream.buffered_le
            have hle : accepted ≤ stream.availableCapacity := min_le_right _ _
            unfold availableCapacity at hle
            omega }, accepted)
    else (stream, accepted)

def close (stream : ByteStream) : ByteStream := { stream with closed := true }

def setError (stream : ByteStream) : ByteStream := { stream with error := true }

/-- Take up to `len` bytes off the front chunk; a pop does not cross a chunk boundary. -/
def pop (stream : ByteStream) (len : Nat) : ByteStream × Bytes :=
  match hchunks : stream.chunks with
  | [] => (stream, [])
  | front :: rest =>
      let popped := min len front.length
      if popped = 0 then (stream, [])
      else
        -- the suffix of a chunk that was not used up goes back to the front
        let kept := if popped = front.length then rest else front.drop popped :: rest
        ({ stream with
            chunks := kept
            bytesBuffered := stream.bytesBuffered - popped
            bytesPopped := stream.bytesPopped + popped
            chunk_ne_nil := by
              have hne := stream.chunk_ne_nil
              rw [hchunks] at hne
              intro chunk hchunk
              by_cases hall : popped = front.length
              · simp only [kept, if_pos hall] at hchunk
                exact hne chunk (List.mem_cons_of_mem _ hchunk)
              · simp only [kept, if_neg hall] at hchunk
                rcases List.mem_cons.mp hchunk with rfl | hchunk
                · rw [← List.length_pos_iff, List.length_drop]
                  omega
                · exact hne chunk (List.mem_cons_of_mem _ hchunk)
            buffered_eq := by
              have hbuf := stream.buffered_eq
              rw [hchunks, List.flatten_cons, List.length_append] at hbuf
              by_cases hall : popped = front.length
              · simp only [kept, if_pos hall]
                omega
              · simp only [kept, if_neg hall, List.flatten_cons, List.length_append,
                  List.length_drop]
                omega
            pushed_eq := by
              have hbuf := stream.buffered_eq
              rw [hchunks, List.flatten_cons, List.length_append] at hbuf
              have := stream.pushed_eq
              omega
            buffered_le := by have := stream.buffered_le; omega }, front.take popped)

def isFinished (stream : ByteStream) : Bool := stream.closed && stream.bytesBuffered == 0

/-! ## The queue of buffered bytes -/

def contents (stream : ByteStream) : Bytes := stream.chunks.flatten

/-- The stream takes bytes: it is neither closed nor in the error state. -/
def Accepting (stream : ByteStream) : Prop := stream.closed = false ∧ stream.error = false

instance (stream : ByteStream) : Decidable stream.Accepting :=
  inferInstanceAs (Decidable (_ ∧ _))

/-- `s1` is `s` with `tl` appended, and closed or not. -/
structure Grown (s : ByteStream) (tl : Bytes) (s1 : ByteStream) : Prop where
  contents : s1.contents = s.contents ++ tl
  pushed : s1.bytesPushed = s.bytesPushed + tl.length
  popped : s1.bytesPopped = s.bytesPopped
  capacity : s1.capacity = s.capacity
  error : s1.error = s.error

/-- `s1` is `s` with `tl` appended and nothing else changed. -/
structure Appended (s : ByteStream) (tl : Bytes) (s1 : ByteStream) : Prop extends
    Grown s tl s1 where
  closed : s1.closed = s.closed

theorem Appended.refl (s : ByteStream) : Appended s [] s := by
  constructor
  · constructor <;> simp
  · rfl

theorem Grown.trans {s s1 s2 : ByteStream} {t1 t2 : Bytes} (h1 : Grown s t1 s1)
    (h2 : Grown s1 t2 s2) : Grown s (t1 ++ t2) s2 where
  contents := by rw [h2.contents, h1.contents, List.append_assoc]
  pushed := by rw [h2.pushed, h1.pushed, List.length_append, Nat.add_assoc]
  popped := h2.popped.trans h1.popped
  capacity := h2.capacity.trans h1.capacity
  error := h2.error.trans h1.error

theorem Appended.trans {s s1 s2 : ByteStream} {t1 t2 : Bytes} (h1 : Appended s t1 s1)
    (h2 : Appended s1 t2 s2) : Appended s (t1 ++ t2) s2 where
  toGrown := h1.toGrown.trans h2.toGrown
  closed := h2.closed.trans h1.closed

theorem Grown.close {s s1 : ByteStream} {tl : Bytes} (h : Grown s tl s1) :
    Grown s tl s1.close where
  contents := h.contents
  pushed := h.pushed
  popped := h.popped
  capacity := h.capacity
  error := h.error

variable (stream : ByteStream) (data : Bytes) (len : Nat)

theorem length_contents : stream.contents.length = stream.bytesBuffered :=
  stream.buffered_eq.symm

@[simp] theorem contents_new (capacity : Nat) : (new capacity).contents = [] := rfl

@[simp] theorem contents_close : stream.close.contents = stream.contents := rfl

@[simp] theorem contents_setError : stream.setError.contents = stream.contents := rfl

/-- How many of the bytes offered a push accepts. -/
theorem push_snd : (stream.push data).2
    = if stream.closed || stream.error then 0 else min data.length stream.availableCapacity := by
  unfold push
  split_ifs with h
  · rfl
  · simp only [apply_dite Prod.snd]
    split <;> rfl

theorem push_snd_le : (stream.push data).2 ≤ data.length := by
  rw [push_snd]
  split_ifs
  · exact Nat.zero_le _
  · exact min_le_left _ _

/-- A push appends exactly the accepted bytes. -/
theorem push_appended : Appended stream (data.take (stream.push data).2) (stream.push data).1 := by
  unfold push
  by_cases h : (stream.closed || stream.error) = true
  · simp only [h, if_true, List.take_zero]
    exact Appended.refl stream
  · simp only [h]
    by_cases hpos : 0 < min data.length stream.availableCapacity
    · simp only [hpos, dite_true]
      constructor
      · constructor
        · simp [contents]
        · simp
        all_goals rfl
      · rfl
    · have hzero : min data.length stream.availableCapacity = 0 := by omega
      simp only [hzero, lt_irrefl, dite_false, List.take_zero]
      exact Appended.refl stream

theorem push_pushed :
    (stream.push data).1.bytesPushed = stream.bytesPushed + (stream.push data).2 := by
  have hpushed := (push_appended stream data).pushed
  rwa [List.length_take, min_eq_left (push_snd_le stream data)] at hpushed

/-- An accepting stream with room takes everything. -/
theorem push_snd_of_room (hacc : stream.Accepting)
    (hroom : data.length ≤ stream.availableCapacity) :
    (stream.push data).2 = data.length := by
  rw [push_snd, hacc.1, hacc.2]
  simpa using hroom

/-- A closed stream, or one in the error state, takes nothing. -/
theorem push_of_not_accepting (hacc : ¬ stream.Accepting) : stream.push data = (stream, 0) := by
  have h : (stream.closed || stream.error) = true := by
    unfold Accepting at hacc
    revert hacc
    cases stream.closed <;> cases stream.error <;> simp
  rw [push, if_pos h]

theorem Appended.available {s s1 : ByteStream} {tl : Bytes} (h : Appended s tl s1) :
    s1.availableCapacity + tl.length = s.availableCapacity := by
  have h1 := h.pushed
  have h2 := s1.pushed_eq
  have h3 := s.pushed_eq
  have h4 := s1.buffered_le
  have h5 := h.capacity
  have h6 := h.popped
  unfold availableCapacity
  omega

theorem Appended.accepting {s s1 : ByteStream} {tl : Bytes} (h : Appended s tl s1) :
    s1.Accepting ↔ s.Accepting := by
  unfold Accepting
  rw [h.closed, h.error]

/-- The stream takes no more bytes, whatever it is offered. -/
def Refuses (stream : ByteStream) : Prop := ∀ data, (stream.push data).2 = 0

theorem refuses_of_not_accepting (hacc : ¬ stream.Accepting) : stream.Refuses := by
  intro data
  rw [push_of_not_accepting stream data hacc]

theorem refuses_of_full (hfull : stream.availableCapacity = 0) : stream.Refuses := by
  intro data
  rw [push_snd, hfull, Nat.min_zero, ite_self]

/-- Two reasons to refuse bytes. -/
theorem Refuses.full {s : ByteStream} (h : s.Refuses) (hacc : s.Accepting) :
    s.availableCapacity = 0 := by
  have hone := h [0]
  rw [push_snd, hacc.1, hacc.2, Bool.or_self, if_neg Bool.false_ne_true, List.length_singleton]
    at hone
  omega

/-- A push that leaves bytes behind leaves a stream that takes no more. -/
theorem refuses_of_partial (hpart : (stream.push data).2 < data.length) :
    (stream.push data).1.Refuses := by
  have happ := stream.push_appended data
  by_cases hacc : stream.Accepting
  · apply refuses_of_full
    have havail := happ.available
    rw [List.length_take] at havail
    rw [push_snd, hacc.1, hacc.2, Bool.or_self, if_neg Bool.false_ne_true] at hpart havail
    omega
  · exact refuses_of_not_accepting _ (fun h => hacc (happ.accepting.mp h))

/-! ## Popping -/

/-- A pop takes a prefix of the queue. -/
theorem pop_contents : (stream.pop len).2 ++ (stream.pop len).1.contents = stream.contents := by
  unfold pop
  split
  · simp
  · rename_i front rest hchunks
    simp only
    split_ifs with hzero hall
    · simp
    · simp [contents, hchunks, hall]
    · simp [contents, hchunks, ← List.append_assoc]

theorem length_pop_le : (stream.pop len).2.length ≤ len := by
  unfold pop
  split
  · simp
  · rename_i front rest hchunks
    by_cases hzero : min len front.length = 0
    · simp only [if_pos hzero, List.length_nil, Nat.zero_le]
    · simp only [if_neg hzero, List.length_take]
      omega

theorem pop_popped :
    (stream.pop len).1.bytesPopped = stream.bytesPopped + (stream.pop len).2.length := by
  unfold pop
  split
  · simp
  · rename_i front rest hchunks
    by_cases hzero : min len front.length = 0
    · simp only [if_pos hzero, List.length_nil, Nat.add_zero]
    · simp only [if_neg hzero, List.length_take]
      omega

@[simp] theorem pop_pushed : (stream.pop len).1.bytesPushed = stream.bytesPushed := by
  unfold pop
  split
  · rfl
  · simp only
    split_ifs <;> rfl

@[simp] theorem pop_capacity : (stream.pop len).1.capacity = stream.capacity := by
  unfold pop
  split
  · rfl
  · simp only
    split_ifs <;> rfl

@[simp] theorem pop_closed : (stream.pop len).1.closed = stream.closed := by
  unfold pop
  split
  · rfl
  · simp only
    split_ifs <;> rfl

@[simp] theorem pop_error : (stream.pop len).1.error = stream.error := by
  unfold pop
  split
  · rfl
  · simp only
    split_ifs <;> rfl

/-- `s1` is `s` without the bytes `out` at the front. -/
structure Drained (s : ByteStream) (out : Bytes) (s1 : ByteStream) : Prop where
  contents : out ++ s1.contents = s.contents
  popped : s1.bytesPopped = s.bytesPopped + out.length
  pushed : s1.bytesPushed = s.bytesPushed
  capacity : s1.capacity = s.capacity
  closed : s1.closed = s.closed
  error : s1.error = s.error

theorem Drained.refl (s : ByteStream) : Drained s [] s := by
  constructor <;> simp

theorem Drained.trans {s s1 s2 : ByteStream} {t1 t2 : Bytes} (h1 : Drained s t1 s1)
    (h2 : Drained s1 t2 s2) : Drained s (t1 ++ t2) s2 where
  contents := by rw [List.append_assoc, h2.contents, h1.contents]
  popped := by rw [h2.popped, h1.popped, List.length_append, Nat.add_assoc]
  pushed := h2.pushed.trans h1.pushed
  capacity := h2.capacity.trans h1.capacity
  closed := h2.closed.trans h1.closed
  error := h2.error.trans h1.error

theorem pop_drained : Drained stream (stream.pop len).2 (stream.pop len).1 where
  contents := pop_contents stream len
  popped := pop_popped stream len
  pushed := pop_pushed stream len
  capacity := pop_capacity stream len
  closed := pop_closed stream len
  error := pop_error stream len

/-- A pop that returns nothing changes nothing. -/
theorem pop_of_nil : (stream.pop len).2 = [] → (stream.pop len).1 = stream := by
  unfold pop
  split
  · exact fun _ => rfl
  · rename_i front rest hchunks
    by_cases hzero : min len front.length = 0
    · simp only [if_pos hzero, imp_self]
    · simp only [if_neg hzero]
      intro h
      have hlen := congrArg List.length h
      rw [List.length_take, List.length_nil] at hlen
      omega

/-- A pop of a positive length from a non-empty stream returns something. -/
theorem pop_ne_nil (hlen : 0 < len) (hbuf : 0 < stream.bytesBuffered) :
    (stream.pop len).2 ≠ [] := by
  unfold pop
  split
  · rename_i hchunks
    have := stream.buffered_eq
    rw [hchunks] at this
    simp at this
    omega
  · rename_i front rest hchunks
    have hne : front ≠ [] := stream.chunk_ne_nil front (by rw [hchunks]; simp)
    have hfront : 0 < front.length := List.length_pos_iff.mpr hne
    have hpopped : min len front.length ≠ 0 := by omega
    simp only [if_neg hpopped]
    rw [← List.length_pos_iff, List.length_take]
    omega

end ByteStream

end Minnow
