import Minnow.Reassembler.Insert
import Minnow.Library.Run
import Mathlib.Order.Bounds.Basic

set_option autoImplicit false

/-! # Reassembling a stream

What the reassembler is for: all fragments come from one byte string, and the reader gets a
prefix of it.

* `Agrees`: everything the reassembler holds, and everything read from it, is part of the
  byte string. Inserting a fragment of the string and reading keep this, and such a fragment
  is never refused.
* `Session`: a run of insertions and reads with a record of what was offered and when.
  `session_run` says how far the output is at the end of any run: exactly up to the first
  position that was never offered inside the window.
-/

namespace Minnow

namespace Reassembler

open Fragments ByteStream

/-! ## Fragments of one byte string -/

/-- All bytes belong to `stream`, of which `read` has been read; the end is recorded only if
the stream has `ended`. -/
structure Agrees (stream : Bytes) (ended : Prop) (read : Bytes) (r : Reassembler) : Prop
    extends RepInv r where
  read_length : read.length = r.output.bytesPopped
  assembled : read ++ r.output.contents = stream.take r.output.bytesPushed
  pending_eq : ∀ k b, Holds r.pending k b → stream[k]? = some b
  eof_eq : ∀ eof ∈ r.eofIndex, ended ∧ eof = stream.length

variable {stream : Bytes} {ended : Prop} {read : Bytes} {r r1 : Reassembler} {first : Nat}
  {data : Bytes} {last : Bool}

theorem Agrees.pushed_le_length (h : Agrees stream ended read r) :
    r.output.bytesPushed ≤ stream.length := by
  have hlen := congrArg List.length h.assembled
  rw [List.length_append, List.length_take, length_contents, h.read_length] at hlen
  have := r.output.pushed_eq
  omega

theorem Agrees.covers_lt (h : Agrees stream ended read r) {k : Nat} (hk : Covers r.pending k) :
    k < stream.length := by
  obtain ⟨b, hb⟩ := covers_iff_holds.mp hk
  obtain ⟨hlt, -⟩ := List.getElem?_eq_some_iff.mp (h.pending_eq k b hb)
  exact hlt

/-- The output is closed when it is complete, and only if the end is known. -/
theorem Agrees.closed_iff (h : Agrees stream ended read r) :
    r.output.closed = true ↔ r.eofIndex.isSome ∧ r.output.bytesPushed = stream.length := by
  constructor
  · intro hclosed
    have heof := h.eof_of_closed hclosed
    exact ⟨by rw [heof]; rfl, (h.eof_eq _ heof).2⟩
  · rintro ⟨hsome, hall⟩
    obtain ⟨eof, heof⟩ := Option.isSome_iff_exists.mp hsome
    refine h.closed_of_eof ?_
    rw [heof, (h.eof_eq eof heof).2, hall]

theorem Agrees.new (stream : Bytes) (ended : Prop) (capacity : Nat) :
    Agrees stream ended []
      { output := ByteStream.new capacity, pending := SortedMap.empty, eofIndex := none } :=
  { repInv_new capacity with
    read_length := rfl
    assembled := by
      show [] ++ (ByteStream.new capacity).contents = stream.take 0
      rw [contents_new, List.append_nil, List.take_zero]
    pending_eq := by
      rintro k b ⟨x, hx, -⟩
      exact absurd hx SortedMap.not_mem_empty
    eof_eq := by simp }

/-- The fragment `data` at `first` is part of the stream, and the last one only at its end. -/
structure PartOf (stream : Bytes) (ended : Prop) (first : Nat) (data : Bytes) (last : Bool) :
    Prop where
  fits : first + data.length ≤ stream.length
  bytes : ∀ i b, data[i]? = some b → stream[first + i]? = some b
  last : last = true → ended ∧ first + data.length = stream.length

theorem Agrees.consistent (h : Agrees stream ended read r) (hmax : stream.length ≤ u64Max)
    (hpart : PartOf stream ended first data last) : Consistent r first data last where
  fits := le_trans hpart.fits hmax
  beforeEof := by
    intro eof hmem
    rw [(h.eof_eq eof hmem).2]
    exact hpart.fits
  sameEof := by
    intro hlast eof hmem
    rw [(h.eof_eq eof hmem).2, (hpart.last hlast).2]
  pushed_le := by
    intro hlast
    rw [(hpart.last hlast).2]
    exact h.pushed_le_length
  covers_lt := by
    intro hlast k hk
    rw [(hpart.last hlast).2]
    exact h.covers_lt hk

/-- A fragment of the stream is taken, and what is held then still belongs to the stream. -/
theorem Agrees.tryInsert (h : Agrees stream ended read r) (hmax : stream.length ≤ u64Max)
    (hpart : PartOf stream ended first data last) :
    ∃ r1, r.tryInsert first data last = .ok (r1, .ok ()) ∧ Agrees stream ended read r1 ∧
      Inserted r first data r1 ∧ r1.eofIndex = r.recordedEof first data last := by
  obtain ⟨r1, hrun, hinv, hins, heof⟩ := tryInsert_spec h.toRepInv (h.consistent hmax hpart)
  have hdata : ∀ k b, first ≤ k → data[k - first]? = some b → stream[k]? = some b := by
    intro k b hle hb
    have := hpart.bytes (k - first) b hb
    rwa [Nat.add_sub_cancel' hle] at this
  refine ⟨r1, hrun, ?_, hins, heof⟩
  obtain ⟨tl, hgrown, htl⟩ := hins.grown
  refine { hinv with read_length := ?_, assembled := ?_, pending_eq := ?_, eof_eq := ?_ }
  · rw [hgrown.popped]
    exact h.read_length
  · rw [hgrown.contents, ← List.append_assoc, h.assembled, hgrown.pushed]
    refine List.take_append_of_getElem? ?_
    intro i b hb
    rcases htl i b hb with hheld | ⟨hle, hget⟩
    · exact h.pending_eq _ b hheld
    · exact hdata _ b hle hget
  · intro k b hb
    rcases hins.holds k b hb with hheld | ⟨hle, hget⟩
    · exact h.pending_eq k b hheld
    · exact hdata k b hle hget
  · intro eof hmem
    rw [heof, recordedEof] at hmem
    split_ifs at hmem with hlast
    · obtain rfl := Option.mem_some_iff.mp hmem
      exact hpart.last hlast
    · exact h.eof_eq eof hmem

theorem Agrees.read_step (h : Agrees stream ended read r) (len : Nat) :
    Agrees stream ended (read ++ (r.read len).2) (r.read len).1 :=
  { h.toRepInv.read len with
    read_length := by
      show (read ++ (r.output.pop len).2).length = (r.output.pop len).1.bytesPopped
      rw [List.length_append, h.read_length, pop_popped]
    assembled := by
      show (read ++ (r.output.pop len).2) ++ (r.output.pop len).1.contents
        = stream.take (r.output.pop len).1.bytesPushed
      rw [List.append_assoc, pop_contents, pop_pushed]
      exact h.assembled
    pending_eq := h.pending_eq
    eof_eq := h.eof_eq }

/-- The stream may grow as long as its end is not known. -/
theorem Agrees.mono {stream1 : Bytes} {ended1 : Prop} (h : Agrees stream ended read r)
    (hpre : stream <+: stream1) (hended : ended → ended1 ∧ stream1 = stream) :
    Agrees stream1 ended1 read r :=
  { h.toRepInv with
    read_length := h.read_length
    assembled := by
      rw [h.assembled]
      obtain ⟨more, rfl⟩ := hpre
      rw [List.take_append_of_le_length h.pushed_le_length]
    pending_eq := by
      intro k b hb
      obtain ⟨more, rfl⟩ := hpre
      have hk := h.pending_eq k b hb
      obtain ⟨hlt, -⟩ := List.getElem?_eq_some_iff.mp hk
      rw [List.getElem?_append_left hlt, hk]
    eof_eq := by
      intro eof hmem
      obtain ⟨hend, heq⟩ := h.eof_eq eof hmem
      obtain ⟨hend1, rfl⟩ := hended hend
      exact ⟨hend1, heq⟩ }

/-! ## What one fragment of the stream brings about -/

theorem Inserted.pushed_le (h : Inserted r first data r1) :
    r.output.bytesPushed ≤ r1.output.bytesPushed := by
  obtain ⟨tl, hgrown, -⟩ := h.grown
  rw [hgrown.pushed]
  exact Nat.le_add_right _ _

/-- A closed output stays closed. -/
theorem Inserted.closed (h : Inserted r first data r1) (hold : Agrees stream ended read r)
    (hnew : Agrees stream ended read r1) (heof : r1.eofIndex = r.recordedEof first data last)
    (hclosed : r.output.closed = true) : r1.output.closed = true := by
  obtain ⟨hsome, hall⟩ := hold.closed_iff.mp hclosed
  have hle := hnew.pushed_le_length
  have hmore := h.pushed_le
  apply hnew.closed_iff.mpr
  refine ⟨?_, by omega⟩
  rw [heof, recordedEof]
  split_ifs
  · rfl
  · exact hsome

/-- The end of the stream is recorded behind the last byte that was assembled. -/
theorem Inserted.closed_of_eof (h : Inserted r first data r1) (hnew : Agrees stream ended read r1)
    (heof : r1.eofIndex = some r.output.bytesPushed) : r1.output.closed = true := by
  have heq := (hnew.eof_eq _ heof).2
  have hle := hnew.pushed_le_length
  have hmore := h.pushed_le
  apply hnew.closed_iff.mpr
  refine ⟨by rw [heof]; rfl, by omega⟩

/-- A byte that is due and inside the window is assembled. -/
theorem Inserted.pushed_lt (h : Inserted r r.output.bytesPushed data r1) (hnew : RepInv r1)
    (herror : r.output.error = false) (hdata : data ≠ [])
    (hroom : r.output.bytesPushed < r.firstUnacceptable) :
    r.output.bytesPushed < r1.output.bytesPushed := by
  have hlen : 0 < data.length := List.length_pos_iff.mpr hdata
  have hreached : r1.Reached r.output.bytesPushed := by
    apply (h.reached herror _).mpr
    exact Or.inr ⟨le_refl _, by omega, hroom⟩
  rcases hreached with hlt | hcov
  · exact hlt
  · have hahead := hnew.ahead _ hcov
    have hmore := h.pushed_le
    omega

/-! ## Sessions -/

/-- What a user may do with the reassembler of `stream`: insert one of its substrings, marked
as the last one only when it reaches the end, or read. -/
inductive StreamOp (stream : Bytes) where
  | insert (i j : Nat) (last : Bool) (hij : i ≤ j) (hj : j ≤ stream.length)
      (hlast : last = true → j = stream.length)
  | read (len : Nat)

/-- A substring that was inserted, and the first index outside the window at that moment. -/
structure Offer where
  first : Nat
  stop : Nat
  limit : Nat
  last : Bool

def Offer.Covers (offer : Offer) (k : Nat) : Prop :=
  offer.first ≤ k ∧ k < offer.stop ∧ k < offer.limit

/-- A reassembler with the history of its use. -/
structure Session where
  reassembler : Reassembler
  read : Bytes
  offers : List Offer
  results : List (Except ReassemblerError Unit)

namespace Session

def start (r : Reassembler) : Session :=
  { reassembler := r, read := [], offers := [], results := [] }

def step (stream : Bytes) (s : Session) : StreamOp stream → Exec Session
  | .insert i j last _ _ _ => do
      let limit := s.reassembler.output.bytesPopped + s.reassembler.output.capacity
      let (r, result) ← s.reassembler.tryInsert i (stream.slice i j) last
      .ok
        { reassembler := r
          read := s.read
          offers := s.offers ++ [{ first := i, stop := j, limit := limit, last := last }]
          results := s.results ++ [result] }
  | .read len =>
      .ok
        { s with
          reassembler := (s.reassembler.read len).1
          read := s.read ++ (s.reassembler.read len).2 }

/-- Some offer had position `k` inside the window. -/
def Offered (s : Session) (k : Nat) : Prop := ∃ offer ∈ s.offers, offer.Covers k

/-- The end of the stream was offered. -/
def EndOffered (s : Session) : Prop := ∃ offer ∈ s.offers, offer.last = true

/-- The invariant of a session over `stream`. -/
structure Inv (stream : Bytes) (s : Session) : Prop where
  agrees : Agrees stream s.EndOffered s.read s.reassembler
  noError : s.reassembler.output.error = false
  reached : ∀ k, s.reassembler.Reached k ↔ s.Offered k
  eof : s.EndOffered → s.reassembler.eofIndex = some stream.length
  results : ∀ result ∈ s.results, result = .ok ()

theorem inv_start (stream : Bytes) (capacity : Nat) :
    Inv stream (start
      { output := ByteStream.new capacity, pending := SortedMap.empty, eofIndex := none }) where
  agrees := Agrees.new stream _ capacity
  noError := rfl
  reached := by
    intro k
    constructor
    · rintro (hk | hk)
      · exact absurd hk (Nat.not_lt_zero k)
      · exact absurd hk not_covers_empty
    · rintro ⟨offer, hmem, -⟩
      exact absurd hmem List.not_mem_nil
  eof := by
    rintro ⟨offer, hmem, -⟩
    exact absurd hmem List.not_mem_nil
  results := by simp [start]

/-- The substring from `i` to `j` is part of the stream. -/
theorem partOf_slice {ended : Prop} {i j : Nat} (hij : i ≤ j) (hj : j ≤ stream.length)
    (hlast : last = true → ended ∧ j = stream.length) :
    PartOf stream ended i (stream.slice i j) last := by
  have hlen := List.length_slice_of_le hj (a := i)
  refine ⟨by omega, ?_, ?_⟩
  · intro k b hb
    rw [List.getElem?_slice] at hb
    split_ifs at hb
    exact hb
  · intro hl
    obtain ⟨hended, heq⟩ := hlast hl
    exact ⟨hended, by omega⟩

theorem inv_step (hmax : stream.length ≤ u64Max) (s : Session) (op : StreamOp stream)
    (h : Inv stream s) : ∃ s1, s.step stream op = .ok s1 ∧ Inv stream s1 := by
  cases op with
  | read len =>
      refine ⟨_, rfl, h.agrees.read_step len, ?_, ?_, h.eof, h.results⟩
      · show (s.reassembler.output.pop len).1.error = false
        rw [pop_error]
        exact h.noError
      · intro k
        show (k < (s.reassembler.output.pop len).1.bytesPushed ∨ _) ↔ _
        rw [pop_pushed]
        exact h.reached k
  | insert i j last hij hj hlast =>
      set offer : Offer :=
        { first := i, stop := j, last := last
          limit := s.reassembler.output.bytesPopped + s.reassembler.output.capacity } with hoffer
      have hend : (∃ o ∈ s.offers ++ [offer], o.last = true) ↔ s.EndOffered ∨ last = true := by
        simp [EndOffered, or_and_right, exists_or, hoffer]
      have hoffered : ∀ k, (∃ o ∈ s.offers ++ [offer], o.Covers k) ↔
          s.Offered k ∨ offer.Covers k := by
        intro k
        simp [Offered, or_and_right, exists_or]
      -- slices of one stream never contradict what is recorded
      have hagrees : Agrees stream (∃ o ∈ s.offers ++ [offer], o.last = true) s.read
          s.reassembler :=
        h.agrees.mono (List.prefix_refl _) (fun he => ⟨hend.mpr (Or.inl he), rfl⟩)
      obtain ⟨r1, hrun, hagrees1, hins, heof⟩ := hagrees.tryInsert hmax
        (partOf_slice hij hj (fun hl => ⟨hend.mpr (Or.inr hl), hlast hl⟩))
      have hlen := List.length_slice_of_le hj (a := i)
      refine ⟨{ reassembler := r1, read := s.read, offers := s.offers ++ [offer],
                results := s.results ++ [.ok ()] }, ?_, hagrees1, ?_, ?_, ?_, ?_⟩
      · simp only [step, hrun, Exec.ok_bind, hoffer]
      · -- the four facts that are kept: no error, what is reached, the end, the results
        obtain ⟨tl, hgrown, -⟩ := hins.grown
        exact hgrown.error.trans h.noError
      · intro k
        show r1.Reached k ↔ ∃ o ∈ s.offers ++ [offer], o.Covers k
        rw [hins.reached h.noError k, h.reached k, hoffered k]
        refine or_congr Iff.rfl ?_
        unfold Offer.Covers firstUnacceptable saturatingAdd
        simp only [hoffer]
        omega
      · intro he
        show r1.eofIndex = some stream.length
        rw [heof, recordedEof]
        split_ifs with hl
        · have := hlast hl
          congr 1
          omega
        · rcases hend.mp he with he | hl1
          · exact h.eof he
          · exact absurd hl1 hl
      · intro result hmem
        rcases List.mem_append.mp hmem with hmem | hmem
        · exact h.results result hmem
        · exact List.mem_singleton.mp hmem

/-- After any run over a stream: nothing was refused, the output is a prefix of the stream,
it ends at the first position that was never offered inside the window, and it is closed
exactly when it is complete and the end was offered. -/
theorem session_run (stream : Bytes) (hmax : stream.length ≤ u64Max) (capacity : Nat)
    (ops : List (StreamOp stream)) :
    ∃ r s, Reassembler.new capacity = .ok r ∧ Exec.run (step stream) (start r) ops = .ok s ∧
      (∀ result ∈ s.results, result = .ok ()) ∧
      s.read ++ s.reassembler.output.contents = stream.take s.reassembler.output.bytesPushed ∧
      IsGreatest {p | p ≤ stream.length ∧ ∀ k, k < p → s.Offered k}
        s.reassembler.output.bytesPushed ∧
      (s.reassembler.output.closed = true ↔
        s.EndOffered ∧ s.reassembler.output.bytesPushed = stream.length) := by
  have hnew : Reassembler.new capacity = .ok
      { output := ByteStream.new capacity, pending := SortedMap.empty, eofIndex := none } := by
    obtain ⟨⟨output, pending, eofIndex⟩, hrun, -, rfl, rfl, rfl⟩ := new_ok capacity
    exact hrun
  obtain ⟨s, hrun, h⟩ := Exec.run_total (Inv stream) (inv_step hmax) (inv_start stream capacity) ops
  refine ⟨_, s, hnew, hrun, h.results, h.agrees.assembled, ⟨⟨h.agrees.pushed_le_length, ?_⟩, ?_⟩, ?_⟩
  · exact fun k hk => (h.reached k).mp (Or.inl hk)
  · rintro p ⟨-, hp⟩
    by_contra hcon
    -- the position right behind the output would have been offered, hence held
    have hreached := (h.reached _).mpr (hp _ (Nat.not_le.mp hcon))
    rcases hreached with hlt | hcov
    · exact absurd hlt (lt_irrefl _)
    · exact absurd (h.agrees.ahead _ hcov) (lt_irrefl _)
  · rw [h.agrees.closed_iff]
    refine and_congr_left (fun _ => ⟨?_, ?_⟩)
    · intro hsome
      obtain ⟨eof, heof⟩ := Option.isSome_iff_exists.mp hsome
      exact (h.agrees.eof_eq eof heof).1
    · intro he
      rw [h.eof he]
      rfl

/-- Three bytes through a window of two, the last one offered twice. -/
theorem session_run_three :
    ∃ r s, Reassembler.new 2 = .ok r ∧
      Exec.run (step [97, 98, 99]) (start r)
        [.insert 1 3 true (by decide) (by decide) (by decide),
          .insert 0 2 false (by decide) (by decide) (by decide), .read 1,
          .insert 2 3 true (by decide) (by decide) (by decide)] = .ok s ∧
      (∀ result ∈ s.results, result = .ok ()) ∧
      s.read ++ s.reassembler.output.contents
        = [97, 98, 99].take s.reassembler.output.bytesPushed ∧
      IsGreatest {p | p ≤ 3 ∧ ∀ k, k < p → s.Offered k} s.reassembler.output.bytesPushed ∧
      (s.reassembler.output.closed = true ↔
        s.EndOffered ∧ s.reassembler.output.bytesPushed = 3) :=
  session_run [97, 98, 99] (by decide) 2 _

end Session

end Reassembler

end Minnow
