import Mathlib.Data.List.Basic
import Mathlib.Order.Basic
import Mathlib.Tactic.Common

set_option autoImplicit false

/-! # A writer with a buffer

`std::io::BufWriter`: what is written is kept in a buffer until that is full, and goes to the file
then. The file may fail, and has then taken some of what it was given. Whatever happens, the file
and the buffer behind it are a beginning of all that was written, and what reached the file stays
there (`writePieces_written`).
-/

structure BufWriter (β : Type) where
  capacity : Nat
  file : List β
  buffer : List β
  fits : buffer.length ≤ capacity

namespace BufWriter

variable {β ε : Type}

/-- `BufWriter::with_capacity` -/
def new (capacity : Nat) : BufWriter β where
  capacity := capacity
  file := []
  buffer := []
  fits := Nat.zero_le _

/-- `BufWriter::spare_capacity` -/
def spare (w : BufWriter β) : Nat := w.capacity - w.buffer.length

/-- What was written so far. -/
def given (w : BufWriter β) : List β := w.file ++ w.buffer

/-- What a file takes of the bytes. It takes all of them, or some and then answers with an error. -/
def taken (answer : Option (Nat × ε)) (bytes : List β) : List β :=
  match answer with
  | none => bytes
  | some (count, _) => bytes.take count

/-- The error of a file, if it did not take all of the bytes. -/
def failure (answer : Option (Nat × ε)) (bytes : List β) : Option ε :=
  match answer with
  | none => none
  | some (count, err) => if count < bytes.length then some err else none

/-- `BufWriter::write_to_buffer_unchecked` -/
def push (w : BufWriter β) (bytes : List β) (h : bytes.length ≤ w.spare) : BufWriter β :=
  { w with
    buffer := w.buffer ++ bytes
    fits := by
      have := w.fits
      unfold spare at h
      rw [List.length_append]
      omega }

/-- `BufWriter::flush_buf`: what the file has taken is no longer in the buffer. -/
def flushBuf (w : BufWriter β) (answer : Option (Nat × ε)) : BufWriter β :=
  { w with
    file := w.file ++ taken answer w.buffer
    buffer := w.buffer.drop (taken answer w.buffer).length
    fits := by
      have := w.fits
      rw [List.length_drop]
      omega }

/-- The writer after its buffer has reached the file. -/
def flushed (w : BufWriter β) : BufWriter β :=
  { w with file := w.file ++ w.buffer, buffer := [], fits := Nat.zero_le _ }

/-- The end of `BufWriter::write_all_cold`: what does not fit in any buffer goes to the file. -/
def store (w : BufWriter β) (direct : Option (Nat × ε)) (bytes : List β)
    (h : bytes.length < w.capacity → bytes.length ≤ w.spare) : Option ε × BufWriter β :=
  if hlarge : w.capacity ≤ bytes.length then
    (failure direct bytes, { w with file := w.file ++ taken direct bytes })
  else (none, w.push bytes (h (Nat.lt_of_not_le hlarge)))

/-- `BufWriter::write_all`, with what the file answers if it is given the buffer, and if it is given
the bytes themselves. -/
def writeAll (w : BufWriter β) (flush direct : Option (Nat × ε)) (bytes : List β) :
    Option ε × BufWriter β :=
  if hshort : bytes.length < w.spare then (none, w.push bytes (Nat.le_of_lt hshort))
  else if hroom : w.spare < bytes.length then
    match failure flush w.buffer with
    | some err => (some err, w.flushBuf flush)
    | none => w.flushed.store direct bytes (fun h => Nat.le_of_lt h)
  else w.store direct bytes (fun _ => Nat.le_of_not_lt hroom)

/-- Pieces that are written one after the other, until a call fails. -/
def writePieces (answers : Nat → Option (Nat × ε)) (w : BufWriter β) :
    List (List β) → Option ε × BufWriter β
  | [] => (none, w)
  | piece :: rest =>
      match w.writeAll (answers 0) (answers 1) piece with
      | (none, w) => writePieces (fun call => answers (call + 2)) w rest
      | (some err, w) => (some err, w)

/-- The file that a writer leaves when it is dropped, whatever its last flush answers. -/
def dropped (w : BufWriter β) (answer : Option (Nat × ε)) : List β := (w.flushBuf answer).file

/-! ## What was written -/

variable {w w1 w2 : BufWriter β} {answer : Option (Nat × ε)} {bytes more : List β}
  {failed failed1 : Option ε} {err : ε}

theorem failure_eq_some (h : failure answer bytes = some err) :
    ∃ count, answer = some (count, err) ∧ count < bytes.length := by
  cases answer with
  | none => exact nomatch h
  | some answer =>
      obtain ⟨count, other⟩ := answer
      unfold failure at h
      dsimp only at h
      split_ifs at h with hlt
      obtain rfl := Option.some.inj h
      exact ⟨count, rfl, hlt⟩

theorem taken_of_failure_none (h : failure answer bytes = none) : taken answer bytes = bytes := by
  cases answer with
  | none => rfl
  | some answer =>
      obtain ⟨count, other⟩ := answer
      unfold failure at h
      dsimp only at h
      split_ifs at h with hlt
      exact List.take_of_length_le (Nat.le_of_not_lt hlt)

theorem taken_begins (answer : Option (Nat × ε)) (bytes : List β) :
    taken answer bytes <+: bytes := by
  cases answer with
  | none => exact List.prefix_refl _
  | some answer => exact List.take_prefix _ _

/-- A flush moves bytes from the buffer to the file. -/
theorem flushBuf_given (w : BufWriter β) (answer : Option (Nat × ε)) :
    (w.flushBuf answer).given = w.given := by
  unfold given flushBuf
  dsimp only
  rw [List.append_assoc, List.prefix_iff_eq_append.mp (taken_begins answer w.buffer)]

theorem dropped_begins (w : BufWriter β) (answer : Option (Nat × ε)) :
    w.dropped answer <+: w.given := by
  rw [← w.flushBuf_given answer]
  exact List.prefix_append _ _

theorem prefix_dropped (w : BufWriter β) (answer : Option (Nat × ε)) :
    w.file <+: w.dropped answer :=
  List.prefix_append _ _

/-- What it means that bytes are written from the first writer to the second: all of them, or some
of them if a call fails. -/
structure Written (w : BufWriter β) (bytes : List β) (failed : Option ε) (w1 : BufWriter β) :
    Prop where
  capacity : w1.capacity = w.capacity
  file : w.file <+: w1.file
  keeps : w.given <+: w1.given
  given : w1.given <+: w.given ++ bytes
  whole : failed = none → w1.given = w.given ++ bytes

theorem written_of_eq (hcapacity : w1.capacity = w.capacity) (hfile : w.file <+: w1.file)
    (h : w1.given = w.given ++ bytes) (failed : Option ε) : Written w bytes failed w1 where
  capacity := hcapacity
  file := hfile
  keeps := h ▸ List.prefix_append _ _
  given := h ▸ List.prefix_refl _
  whole := fun _ => h

theorem push_written (w : BufWriter β) (bytes : List β) (h : bytes.length ≤ w.spare) :
    Written w bytes (none : Option ε) (w.push bytes h) := by
  refine written_of_eq ?_ ?_ ?_ none
  · rfl
  · exact List.prefix_refl _
  · exact (List.append_assoc ..).symm

theorem store_written (direct : Option (Nat × ε))
    (h : bytes.length < w.capacity → bytes.length ≤ w.spare)
    (hempty : w.capacity ≤ bytes.length → w.buffer = []) :
    Written w bytes (w.store direct bytes h).1 (w.store direct bytes h).2 := by
  unfold store
  split_ifs with hlarge
  · -- the buffer is empty, and the bytes go to the file
    have hgiven : w.given = w.file := by rw [given, hempty hlarge, List.append_nil]
    have hgiven1 : ({ w with file := w.file ++ taken direct bytes } : BufWriter β).given
        = w.file ++ taken direct bytes := by
      show w.file ++ taken direct bytes ++ w.buffer = _
      rw [hempty hlarge, List.append_nil]
    refine ⟨rfl, List.prefix_append _ _, ?_, ?_, ?_⟩
    · rw [hgiven1, hgiven]
      exact List.prefix_append _ _
    · rw [hgiven1, hgiven]
      exact (List.prefix_append_right_inj _).mpr (taken_begins direct bytes)
    · intro hnone
      rw [hgiven1, hgiven, taken_of_failure_none hnone]
  · exact push_written w bytes (h (Nat.lt_of_not_le hlarge))

theorem writeAll_written (w : BufWriter β) (flush direct : Option (Nat × ε)) (bytes : List β) :
    Written w bytes (w.writeAll flush direct bytes).1 (w.writeAll flush direct bytes).2 := by
  unfold writeAll
  split_ifs with hshort hroom
  · exact push_written w bytes (Nat.le_of_lt hshort)
  · cases hfailed : failure flush w.buffer with
    | some err =>
        have hgiven := w.flushBuf_given flush
        refine ⟨rfl, List.prefix_append _ _, ?_, ?_, fun hnone => nomatch hnone⟩
        · exact ⟨[], (List.append_nil _).trans hgiven.symm⟩
        · rw [hgiven]
          exact List.prefix_append _ _
    | none =>
        have hstored : Written w.flushed bytes _ _ :=
          store_written direct (fun h => Nat.le_of_lt h) (fun _ => rfl)
        have hsame : w.flushed.given = w.given := List.append_nil _
        exact ⟨hstored.capacity, (List.prefix_append _ _).trans hstored.file,
          hsame ▸ hstored.keeps, hsame ▸ hstored.given, hsame ▸ hstored.whole⟩
  · refine store_written direct _ ?_
    intro hlarge
    have hfits := w.fits
    unfold spare at hroom
    exact List.eq_nil_of_length_eq_zero (by omega)

theorem Written.trans (h : Written w bytes (none : Option ε) w1) (h1 : Written w1 more failed w2) :
    Written w (bytes ++ more) failed w2 where
  capacity := h1.capacity.trans h.capacity
  file := h.file.trans h1.file
  keeps := h.keeps.trans h1.keeps
  given := by
    have hgiven := h1.given
    rw [h.whole rfl, List.append_assoc] at hgiven
    exact hgiven
  whole := fun hnone => by rw [h1.whole hnone, h.whole rfl, List.append_assoc]

/-- Where a call has failed, nothing more is written. -/
theorem Written.stop (h : Written w bytes (some err) w1) (more : List β) :
    Written w (bytes ++ more) (some err) w1 where
  capacity := h.capacity
  file := h.file
  keeps := h.keeps
  given := by
    rw [← List.append_assoc]
    exact h.given.trans (List.prefix_append _ _)
  whole := fun hnone => nomatch hnone

theorem writePieces_written (answers : Nat → Option (Nat × ε)) (w : BufWriter β)
    (pieces : List (List β)) :
    Written w pieces.flatten (w.writePieces answers pieces).1 (w.writePieces answers pieces).2 := by
  induction pieces generalizing answers w with
  | nil => exact written_of_eq rfl (List.prefix_refl _) (List.append_nil _).symm none
  | cons piece rest ih =>
      have hfirst := w.writeAll_written (answers 0) (answers 1) piece
      rw [writePieces, List.flatten_cons]
      cases hwrite : w.writeAll (answers 0) (answers 1) piece with
      | mk failed w1 =>
          rw [hwrite] at hfirst
          cases failed with
          | none => exact hfirst.trans (ih _ w1)
          | some err => exact hfirst.stop rest.flatten

/-- A call that fails has the error of the file. -/
theorem writeAll_failed {flush direct : Option (Nat × ε)}
    (h : (w.writeAll flush direct bytes).1 = some err) :
    ∃ count, flush = some (count, err) ∨ direct = some (count, err) := by
  have hstore : ∀ (w : BufWriter β) h, (w.store direct bytes h).1 = some err →
      ∃ count, direct = some (count, err) := by
    intro w hspare hfailed
    unfold store at hfailed
    split_ifs at hfailed
    obtain ⟨count, hanswer, -⟩ := failure_eq_some hfailed
    exact ⟨count, hanswer⟩
  unfold writeAll at h
  split_ifs at h with hshort hroom
  · cases hfailed : failure flush w.buffer with
    | some other =>
        rw [hfailed] at h
        obtain ⟨count, hanswer, -⟩ := failure_eq_some hfailed
        obtain rfl := Option.some.inj h
        exact ⟨count, Or.inl hanswer⟩
    | none =>
        rw [hfailed] at h
        obtain ⟨count, hanswer⟩ := hstore _ _ h
        exact ⟨count, Or.inr hanswer⟩
  · obtain ⟨count, hanswer⟩ := hstore _ _ h
    exact ⟨count, Or.inr hanswer⟩

theorem writePieces_failed {answers : Nat → Option (Nat × ε)} {pieces : List (List β)}
    (h : (w.writePieces answers pieces).1 = some err) :
    ∃ call count, answers call = some (count, err) := by
  induction pieces generalizing answers w with
  | nil => exact nomatch h
  | cons piece rest ih =>
      rw [writePieces] at h
      cases hwrite : w.writeAll (answers 0) (answers 1) piece with
      | mk failed w1 =>
          rw [hwrite] at h
          cases failed with
          | none =>
              obtain ⟨call, count, hanswer⟩ := ih h
              exact ⟨call + 2, count, hanswer⟩
          | some other =>
              obtain rfl := Option.some.inj h
              have hfailed : (w.writeAll (answers 0) (answers 1) piece).1 = some other := by
                rw [hwrite]
              obtain ⟨count, hanswer | hanswer⟩ := writeAll_failed hfailed
              · exact ⟨0, count, hanswer⟩
              · exact ⟨1, count, hanswer⟩

end BufWriter
