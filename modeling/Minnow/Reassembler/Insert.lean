import Minnow.Reassembler.Loops

set_option autoImplicit false

/-! # Inserting a fragment

The representation invariant of the reassembler and what `tryInsert` does to it.

* `RepInv`: the fragments of `pending` are non-empty and disjoint, lie strictly behind the
  output, inside the window and before the recorded end; the output is closed exactly when
  it has reached that end.
* `tryInsert_spec`: a fragment that is `Consistent` with what is recorded is taken; every
  position of it inside the window is held afterwards, and nothing else is.
* `tryInsert_inconsistent`: any other fragment is refused, and the state stays as it was.

The invariant and the specification hold for arbitrary fragments, also for contradictory
ones, and whether or not the output is in the error state.
-/

namespace Minnow

namespace Reassembler

open Fragments ByteStream

/-! ## The representation invariant -/

/-- The pending fragments are where the assertions want them, except that the first one may
be contiguous with the output. -/
structure Stored (r : Reassembler) : Prop where
  wellFormed : WellFormed r.pending
  window : ∀ k, Covers r.pending k → k < r.firstUnacceptable
  beforeEof : ∀ k, Covers r.pending k → ∀ eof ∈ r.eofIndex, k < eof
  pushed_le : ∀ eof ∈ r.eofIndex, r.output.bytesPushed ≤ eof
  eof_of_closed : r.output.closed = true → r.eofIndex = some r.output.bytesPushed
  blocked : ¬ r.output.Accepting → ∀ k, Covers r.pending k → r.output.bytesPushed < k

/-- No pending fragment is contiguous with the output. -/
structure Settled (r : Reassembler) : Prop extends Stored r where
  ahead : ∀ k, Covers r.pending k → r.output.bytesPushed < k

structure RepInv (r : Reassembler) : Prop extends Settled r where
  closed_of_eof : r.eofIndex = some r.output.bytesPushed → r.output.closed = true

/-- The positions the reassembler has a byte for, in the output or in `pending`. -/
def Reached (r : Reassembler) (k : Nat) : Prop :=
  k < r.output.bytesPushed ∨ Covers r.pending k

variable {r r1 : Reassembler} {first : Nat} {data : Bytes} {last : Bool}

theorem firstUnacceptable_le (r : Reassembler) :
    r.firstUnacceptable ≤ r.output.bytesPushed + r.output.availableCapacity := by
  have h1 := r.output.pushed_eq
  have h2 := r.output.buffered_le
  unfold firstUnacceptable saturatingAdd availableCapacity
  omega

theorem firstUnacceptable_le_max (r : Reassembler) : r.firstUnacceptable ≤ u64Max :=
  min_le_right _ _

theorem repInv_new (capacity : Nat) :
    RepInv { output := ByteStream.new capacity, pending := SortedMap.empty, eofIndex := none } where
  wellFormed := wellFormed_empty
  window := fun _ h => absurd h not_covers_empty
  beforeEof := fun _ h => absurd h not_covers_empty
  pushed_le := by simp
  eof_of_closed := by simp [ByteStream.new]
  blocked := fun _ _ h => absurd h not_covers_empty
  ahead := fun _ h => absurd h not_covers_empty
  closed_of_eof := by simp

/-! ## The assertions -/

theorem checkPending_ok {pushed limit : Nat} {eofIndex : Option Nat} :
    ∀ (l : List (Nat × Bytes)) (previousEnd : Option Nat),
      l.Pairwise (fun x y => x.1 + x.2.length ≤ y.1) →
      (∀ x ∈ l, x.2 ≠ [] ∧ pushed ≤ x.1 ∧ x.1 + x.2.length ≤ limit ∧
        x.1 + x.2.length ≤ u64Max ∧ ∀ eof ∈ eofIndex, x.1 + x.2.length ≤ eof) →
      (∀ x ∈ l, ∀ previous ∈ previousEnd, previous ≤ x.1) →
      checkPending pushed limit eofIndex previousEnd l = .ok () := by
  intro l
  induction l with
  | nil => intro _ _ _ _; rfl
  | cons x rest ih =>
      intro previousEnd hpair hall hprevious
      obtain ⟨start, frag⟩ := x
      obtain ⟨hne, hstart, hend, hmax, heof⟩ := hall (start, frag) (by simp)
      obtain ⟨hhead, hrest⟩ := List.pairwise_cons.mp hpair
      have hnext := ih (some (start + frag.length)) hrest
        (fun y hy => hall y (List.mem_cons_of_mem _ hy))
        (fun y hy previous hp => by
          obtain rfl := Option.mem_some_iff.mp hp
          exact hhead y hy)
      simp only at hne hstart hend hmax heof
      simp only [checkPending, saturatingAdd_of_le hmax, Exec.assert_pos hne,
        Exec.assert_pos hstart, Exec.assert_pos hend,
        Exec.assert_pos (hprevious (start, frag) (by simp)), Exec.assert_pos heof, Exec.ok_bind,
        hnext]

theorem RepInv.debugCheckInvariants_ok (h : RepInv r) : r.debugCheckInvariants = .ok () := by
  have hpair : r.pending.entries.Pairwise (fun x y => x.1 + x.2.length ≤ y.1) := by
    refine (List.Pairwise.and_mem.mp r.pending.sorted).imp ?_
    rintro x y ⟨hx, hy, hlt⟩
    exact h.wellFormed.disjoint x hx y hy hlt
  have hstart : ∀ x ∈ r.pending, r.output.bytesPushed ≤ x.1 :=
    fun x hx => le_of_lt (h.ahead _ (h.wellFormed.covers_start hx))
  have hend : ∀ x ∈ r.pending, x.1 + x.2.length ≤ r.firstUnacceptable :=
    fun x hx => h.wellFormed.end_le hx h.window
  have hcheck := checkPending_ok r.pending.entries none hpair
    (fun x hx => ⟨h.wellFormed.nonempty x hx, hstart x hx, hend x hx,
      le_trans (hend x hx) r.firstUnacceptable_le_max,
      fun eof heof => h.wellFormed.end_le hx (fun k hk => h.beforeEof k hk eof heof)⟩)
    (fun _ _ _ hp => absurd hp (by simp))
  have htotal : r.output.bytesPushed + totalLength r.pending
      ≤ r.output.bytesPushed + r.output.availableCapacity :=
    h.wellFormed.totalLength_le (Nat.le_add_right _ _)
      (fun x hx => ⟨hstart x hx, le_trans (hend x hx) r.firstUnacceptable_le⟩)
  have hroom : saturatingAdd r.output.bytesBuffered (bytesPending r.pending) ≤ r.output.capacity := by
    have := r.output.buffered_le
    unfold saturatingAdd bytesPending
    unfold availableCapacity at htotal
    omega
  rw [debugCheckInvariants, hcheck, Exec.assert_pos hroom, Exec.assert_pos h.pushed_le]
  rfl

theorem new_ok (capacity : Nat) : ∃ r, new capacity = .ok r ∧ RepInv r ∧
    r.output = ByteStream.new capacity ∧ r.pending = SortedMap.empty ∧ r.eofIndex = none := by
  refine ⟨_, ?_, repInv_new capacity, rfl, rfl, rfl⟩
  simp only [new, (repInv_new capacity).debugCheckInvariants_ok, Exec.ok_bind]

/-! ## Flushing -/

/-- `r1` is `r` after bytes have moved from `pending` to the output. -/
structure Moved (r r1 : Reassembler) : Prop where
  appended : ∃ tl, Appended r.output tl r1.output ∧
    ∀ i b, tl[i]? = some b → Holds r.pending (r.output.bytesPushed + i) b
  holds : ∀ k b, Holds r1.pending k b → Holds r.pending k b
  reached : ∀ k, r1.Reached k ↔ r.Reached k
  eofIndex : r1.eofIndex = r.eofIndex

section

variable {m m1 : Pending} {output output1 : ByteStream}

/-- The fragments that a flush leaves were pending, and are not behind the output. -/
theorem Flushed.covers (h : Flushed output m output1 m1) {k : Nat} (hk : Covers m1 k) :
    Covers m k ∧ output1.bytesPushed ≤ k := by
  obtain ⟨b, hb⟩ := covers_iff_holds.mp hk
  obtain ⟨hb, hle⟩ := (h.holds k b).mp hb
  exact ⟨covers_iff_holds.mpr ⟨b, hb⟩, hle⟩

/-- The bytes that a flush has moved to the output were pending. -/
theorem Flushed.covers_moved (h : Flushed output m output1 m1) {k : Nat}
    (hold : output.bytesPushed ≤ k) (hnew : k < output1.bytesPushed) : Covers m k := by
  obtain ⟨tl, happ, htl⟩ := h.appended
  have hpushed := happ.pushed
  have hb := htl (k - output.bytesPushed) _ (List.getElem?_eq_getElem (by omega))
  rw [Nat.add_sub_cancel' hold] at hb
  exact covers_iff_holds.mpr ⟨_, hb⟩

/-- An output that takes nothing has not moved. -/
theorem Flushed.pushed_eq (hflush : Flushed r.output r.pending output1 m1) (h : Stored r)
    (hacc : ¬ r.output.Accepting) : output1.bytesPushed = r.output.bytesPushed := by
  obtain ⟨tl, happ, -⟩ := hflush.appended
  have hpushed := happ.pushed
  by_contra hne
  have hcov := hflush.covers_moved (le_refl _) (by omega)
  have hblocked := h.blocked hacc _ hcov
  omega

/-- A flush stores nothing new, so it settles whatever is stored. -/
theorem Flushed.settled (hflush : Flushed r.output r.pending output1 m1) (h : Stored r) :
    Settled { r with output := output1, pending := m1 } := by
  obtain ⟨tl, happ, -⟩ := hflush.appended
  have hpushed := happ.pushed
  have hahead : ∀ k, Covers m1 k → output1.bytesPushed < k := by
    intro k hk
    by_cases hacc : r.output.Accepting
    · obtain ⟨x, hx, hxk, -⟩ := hk
      exact lt_of_lt_of_le (hflush.ahead hacc x hx) hxk
    · rw [hflush.pushed_eq h hacc]
      exact h.blocked hacc k (hflush.covers hk).1
  have hfu : ({ r with output := output1, pending := m1 } : Reassembler).firstUnacceptable
      = r.firstUnacceptable := by
    unfold firstUnacceptable
    rw [happ.popped, happ.capacity]
  constructor
  · constructor
    · exact hflush.wellFormed
    · intro k hk
      rw [hfu]
      exact h.window k (hflush.covers hk).1
    · exact fun k hk => h.beforeEof k (hflush.covers hk).1
    · -- the last byte moved was pending, so it lies before the end
      intro eof heof
      show output1.bytesPushed ≤ eof
      have hle := h.pushed_le eof heof
      by_contra hlt
      have hcov := hflush.covers_moved hle (Nat.not_le.mp hlt)
      exact absurd (h.beforeEof eof hcov eof heof) (Nat.lt_irrefl eof)
    · intro hclosed
      have hclosed1 : r.output.closed = true := happ.closed.symm.trans hclosed
      have hacc : ¬ r.output.Accepting := fun hacc => by simp [hacc.1] at hclosed1
      show r.eofIndex = some output1.bytesPushed
      rw [h.eof_of_closed hclosed1, hflush.pushed_eq h hacc]
    · exact fun _ => hahead
  · exact hahead

theorem Flushed.moved (hflush : Flushed r.output r.pending output1 m1) :
    Moved r { r with output := output1, pending := m1 } := by
  obtain ⟨tl, happ, htl⟩ := hflush.appended
  have hpushed := happ.pushed
  refine ⟨⟨tl, happ, htl⟩, fun k b hb => ((hflush.holds k b).mp hb).1, ?_, rfl⟩
  intro k
  show (k < output1.bytesPushed ∨ Covers m1 k) ↔ (k < r.output.bytesPushed ∨ Covers r.pending k)
  constructor
  · rintro (hk | hk)
    · by_cases hlt : k < r.output.bytesPushed
      · exact Or.inl hlt
      · exact Or.inr (hflush.covers_moved (Nat.not_lt.mp hlt) hk)
    · exact Or.inr (hflush.covers hk).1
  · rintro (hk | hk)
    · exact Or.inl (by omega)
    · by_cases hlt : k < output1.bytesPushed
      · exact Or.inl hlt
      · obtain ⟨b, hb⟩ := covers_iff_holds.mp hk
        exact Or.inr (covers_iff_holds.mpr ⟨b, (hflush.holds k b).mpr ⟨hb, Nat.not_lt.mp hlt⟩⟩)

end

theorem flushContiguous_spec (h : Stored r) :
    ∃ r1, flushContiguous r = .ok r1 ∧ Settled r1 ∧ Moved r r1 := by
  have hends : ∀ x ∈ r.pending, x.1 + x.2.length ≤ u64Max := fun x hx =>
    (h.wellFormed.end_le hx h.window).trans r.firstUnacceptable_le_max
  obtain ⟨output1, m1, hrun, hflush⟩ := flushLoop_spec ⟨h.wellFormed, hends⟩
    (fun _ k hk => lt_of_lt_of_le (h.window k hk) r.firstUnacceptable_le)
    (le_refl (2 * r.pending.length))
  refine ⟨{ r with output := output1, pending := m1 }, ?_, hflush.settled h, hflush.moved⟩
  rw [flushContiguous, hrun]
  rfl

/-! ## Storing the part inside the window -/

/-- `r1` is `r` after the fragment `data` at `first` was taken. -/
structure Inserted (r : Reassembler) (first : Nat) (data : Bytes) (r1 : Reassembler) : Prop where
  grown : ∃ tl, Grown r.output tl r1.output ∧ ∀ i b, tl[i]? = some b →
    Holds r.pending (r.output.bytesPushed + i) b ∨
      (first ≤ r.output.bytesPushed + i ∧ data[r.output.bytesPushed + i - first]? = some b)
  holds : ∀ k b, Holds r1.pending k b →
    Holds r.pending k b ∨ (first ≤ k ∧ data[k - first]? = some b)
  reached : r.output.error = false → ∀ k, r1.Reached k ↔
    r.Reached k ∨ (first ≤ k ∧ k < first + data.length ∧ k < r.firstUnacceptable)

/-- Taking a fragment and then flushing. -/
theorem Inserted.moved {r2 : Reassembler} (h : Inserted r first data r1) (hm : Moved r1 r2) :
    Inserted r first data r2 where
  grown := by
    obtain ⟨tl1, hgrown1, htl1⟩ := h.grown
    obtain ⟨tl2, happ2, htl2⟩ := hm.appended
    refine ⟨tl1 ++ tl2, hgrown1.trans happ2.toGrown, ?_⟩
    intro i b hb
    rw [List.getElem?_append] at hb
    split_ifs at hb with hi
    · exact htl1 i b hb
    · have hpos : r1.output.bytesPushed + (i - tl1.length) = r.output.bytesPushed + i := by
        rw [hgrown1.pushed]
        omega
      have hheld := h.holds _ b (htl2 (i - tl1.length) b hb)
      rwa [hpos] at hheld
  holds := fun k b hb => h.holds k b (hm.holds k b hb)
  reached := fun herr k => (hm.reached k).trans (h.reached herr k)

/-- The part of a fragment that lies in the window. -/
def clip (first : Nat) (data : Bytes) (lo hi : Nat) : Bytes :=
  (data.take (hi - first)).drop (lo - first)

section Clip

variable {lo hi : Nat}

theorem length_clip (hfirst : first ≤ lo) (hhi : hi ≤ first + data.length) :
    (clip first data lo hi).length = hi - lo := by
  rw [clip, List.length_drop, List.length_take]
  omega

theorem getElem?_clip (hfirst : first ≤ lo) {i : Nat} {b : UInt8}
    (hb : (clip first data lo hi)[i]? = some b) : data[lo + i - first]? = some b := by
  rw [clip, List.getElem?_drop, List.getElem?_take] at hb
  split_ifs at hb with hin
  have hidx : lo - first + i = lo + i - first := by omega
  rw [← hidx]
  exact hb

theorem getElem?_clip_iff (hfirst : first ≤ lo) {k : Nat} (hk : lo ≤ k) {b : UInt8} :
    (clip first data lo hi)[k - lo]? = some b ↔ k < hi ∧ data[k - first]? = some b := by
  rw [clip, List.getElem?_drop, List.getElem?_take,
    show lo - first + (k - lo) = k - first by omega]
  split_ifs with hin
  · exact (and_iff_right (by omega)).symm
  · refine iff_of_false (by simp) ?_
    rintro ⟨hlt, -⟩
    omega

/-- The clipped part of a fragment fills the gaps of `pending` in the window. -/
theorem insertMissingGaps_clip (h : Settled r) (hfirst : first ≤ lo) (hlt : lo < hi)
    (hend : hi ≤ first + data.length) (hwindow : hi ≤ r.firstUnacceptable) :
    ∃ m1, insertMissingGaps r.pending lo (clip first data lo hi) = .ok m1 ∧
      Filled r.pending lo (clip first data lo hi) lo hi m1 := by
  have hlen := length_clip hfirst hend
  have hmax := r.firstUnacceptable_le_max
  have hstop : lo + (clip first data lo hi).length = hi := by omega
  obtain ⟨m1, hm1, hfill⟩ := insertMissingGaps_spec h.wellFormed
    (fun k hk => lt_of_lt_of_le (h.window k hk) r.firstUnacceptable_le_max)
    (show lo + (clip first data lo hi).length ≤ u64Max by omega)
  rw [hstop] at hfill
  exact ⟨m1, hm1, hfill⟩

/-- A push stores nothing, so what is stored stays where it may be, up to the recorded end. -/
theorem Settled.push (h : Settled r) (hopen : r.output.closed = false) {bytes : Bytes}
    (heof : ∀ eof ∈ r.eofIndex, (r.output.push bytes).1.bytesPushed ≤ eof) :
    Stored { r with output := (r.output.push bytes).1 } := by
  have happ := r.output.push_appended bytes
  have hfu : ({ r with output := (r.output.push bytes).1 } : Reassembler).firstUnacceptable
      = r.firstUnacceptable := by
    unfold firstUnacceptable
    rw [happ.popped, happ.capacity]
  constructor
  · exact h.wellFormed
  · rw [hfu]
    exact h.window
  · exact h.beforeEof
  · exact heof
  · intro hclosed
    have hclosed1 : (r.output.push bytes).1.closed = true := hclosed
    rw [happ.closed, hopen] at hclosed1
    exact absurd hclosed1 (by simp)
  · intro hacc k hk
    have hstuck : ¬ r.output.Accepting := fun hcon => hacc (happ.accepting.mpr hcon)
    show (r.output.push bytes).1.bytesPushed < k
    rw [r.output.push_of_not_accepting bytes hstuck]
    exact h.ahead k hk

/-- Pushing the clipped part takes the fragment. -/
theorem inserted_push_clip (hopen : r.output.closed = false)
    (hfirst : first ≤ r.output.bytesPushed)
    (hhi : hi = min (first + data.length) r.firstUnacceptable)
    (hlt : r.output.bytesPushed < hi) :
    Inserted r first data
      { r with output := (r.output.push (clip first data r.output.bytesPushed hi)).1 } := by
  set clipped := clip first data r.output.bytesPushed hi with hclipped
  have hlen : clipped.length = hi - r.output.bytesPushed := length_clip hfirst (by omega)
  have hpushed := r.output.push_pushed clipped
  have hwindow := r.firstUnacceptable_le
  constructor
  · refine ⟨_, (r.output.push_appended clipped).toGrown, ?_⟩
    intro i b hb
    rw [List.getElem?_take] at hb
    split_ifs at hb
    exact Or.inr ⟨by omega, getElem?_clip hfirst hb⟩
  · exact fun _ _ hb => Or.inl hb
  · -- without an error the output takes all of the clipped part
    intro herr k
    have hall := r.output.push_snd_of_room clipped ⟨hopen, herr⟩ (by omega)
    show (k < (r.output.push clipped).1.bytesPushed ∨ Covers r.pending k) ↔
      (k < r.output.bytesPushed ∨ Covers r.pending k) ∨ _
    have hend : (r.output.push clipped).1.bytesPushed = hi := by omega
    rw [hend]
    constructor
    · rintro (hk | hk)
      · by_cases hlow : k < r.output.bytesPushed
        · exact Or.inl (Or.inl hlow)
        · exact Or.inr ⟨by omega, by omega, by omega⟩
      · exact Or.inl (Or.inr hk)
    · rintro ((hk | hk) | hk)
      · exact Or.inl (by omega)
      · exact Or.inr hk
      · exact Or.inl (by omega)

/-- A fragment that reaches back to the output goes there directly. -/
theorem push_clip_spec (h : Settled r) (hopen : r.output.closed = false)
    (hfirst : first ≤ r.output.bytesPushed)
    (hhi : hi = min (first + data.length) r.firstUnacceptable)
    (hlt : r.output.bytesPushed < hi) (heof : ∀ eof ∈ r.eofIndex, first + data.length ≤ eof) :
    Stored { r with output := (r.output.push (clip first data r.output.bytesPushed hi)).1 } ∧
    Inserted r first data
      { r with output := (r.output.push (clip first data r.output.bytesPushed hi)).1 } := by
  have hlen : (clip first data r.output.bytesPushed hi).length = hi - r.output.bytesPushed :=
    length_clip hfirst (by omega)
  have hpushed := r.output.push_pushed (clip first data r.output.bytesPushed hi)
  have hle := r.output.push_snd_le (clip first data r.output.bytesPushed hi)
  refine ⟨h.push hopen ?_, inserted_push_clip hopen hfirst hhi hlt⟩
  intro eof hmem
  have := heof eof hmem
  omega

/-- A fragment behind the output waits in `pending`. -/
theorem fill_clip_spec {m1 : Pending} (h : Settled r)
    (hfirst : r.output.bytesPushed < first)
    (hhi : hi = min (first + data.length) r.firstUnacceptable) (hlt : first < hi)
    (heof : ∀ eof ∈ r.eofIndex, first + data.length ≤ eof)
    (hfill : Filled r.pending first (clip first data first hi) first hi m1) :
    Stored { r with pending := m1 } ∧ Inserted r first data { r with pending := m1 } := by
  have hlen := length_clip (le_refl first) (show hi ≤ first + data.length by omega)
  have hcov := hfill.covers (le_refl first) (by omega)
  constructor
  · constructor
    · exact hfill.wellFormed
    · intro k hk
      rcases (hcov k).mp hk with hk | hk
      · exact h.window k hk
      · show k < r.firstUnacceptable
        omega
    · intro k hk eof hmem
      rcases (hcov k).mp hk with hk | hk
      · exact h.beforeEof k hk eof hmem
      · have := heof eof hmem
        omega
    · exact h.pushed_le
    · exact h.eof_of_closed
    · intro _ k hk
      rcases (hcov k).mp hk with hk | hk
      · exact h.ahead k hk
      · show r.output.bytesPushed < k
        omega
  · constructor
    · exact ⟨[], (Appended.refl r.output).toGrown, by simp⟩
    · -- a byte of a gap is a byte of the fragment
      intro k b hb
      rcases (hfill.holds k b).mp hb with hb | ⟨-, hle, -, hget⟩
      · exact Or.inl hb
      · have hdata := getElem?_clip (le_refl first) hget
        rw [Nat.add_sub_cancel' hle] at hdata
        exact Or.inr ⟨hle, hdata⟩
    · intro _ k
      show (k < r.output.bytesPushed ∨ Covers m1 k) ↔
        (k < r.output.bytesPushed ∨ Covers r.pending k) ∨ _
      rw [hcov]
      constructor
      · rintro (hk | hk | hk)
        · exact Or.inl (Or.inl hk)
        · exact Or.inl (Or.inr hk)
        · exact Or.inr (by omega)
      · rintro ((hk | hk) | hk)
        · exact Or.inl hk
        · exact Or.inr (Or.inl hk)
        · exact Or.inr (Or.inr (by omega))

end Clip

theorem insertClipped_spec (h : Settled r)
    (heof : ∀ eof ∈ r.eofIndex, first + data.length ≤ eof) :
    ∃ r1, insertClipped r first data (first + data.length) = .ok r1 ∧ Settled r1 ∧
      Inserted r first data r1 ∧ r1.eofIndex = r.eofIndex := by
  unfold insertClipped
  dsimp only
  by_cases hlt : max first r.output.bytesPushed < min (first + data.length) r.firstUnacceptable
  · have hclip : sliceRange data (max first r.output.bytesPushed - first)
        (min (first + data.length) r.firstUnacceptable - first)
        = .ok (clip first data (max first r.output.bytesPushed)
          (min (first + data.length) r.firstUnacceptable)) :=
      sliceRange_of_le (by omega) (by omega)
    rw [if_pos hlt, hclip]
    simp only [Exec.ok_bind]
    -- a closed output has reached the end, and then nothing of the fragment is left
    have hopen : r.output.closed = false := by
      by_contra hcon
      have hend := h.eof_of_closed (by simpa using hcon)
      have := heof _ (by rw [hend]; rfl)
      omega
    by_cases hnext : max first r.output.bytesPushed = r.output.bytesPushed
    · rw [if_pos hnext, hnext]
      obtain ⟨hstored, hins⟩ := push_clip_spec h hopen (by omega) rfl (by omega) heof
      obtain ⟨r1, hrun, hsettled, hmoved⟩ := flushContiguous_spec hstored
      exact ⟨r1, hrun, hsettled, hins.moved hmoved, hmoved.eofIndex⟩
    · rw [if_neg hnext]
      have hstart : max first r.output.bytesPushed = first := by omega
      rw [hstart]
      obtain ⟨m1, hm1, hfill⟩ := insertMissingGaps_clip h (le_refl first)
        (show first < min (first + data.length) r.firstUnacceptable by omega) (min_le_left _ _)
        (min_le_right _ _)
      obtain ⟨hstored, hins⟩ := fill_clip_spec h (by omega) rfl (by omega) heof hfill
      obtain ⟨r1, hrun, hsettled, hmoved⟩ := flushContiguous_spec hstored
      simp only [hm1, Exec.ok_bind]
      exact ⟨r1, hrun, hsettled, hins.moved hmoved, hmoved.eofIndex⟩
  · rw [if_neg hlt]
    refine ⟨r, rfl, h, ⟨⟨[], (Appended.refl r.output).toGrown, by simp⟩, fun _ _ hb => Or.inl hb,
      ?_⟩, rfl⟩
    intro _ k
    constructor
    · exact Or.inl
    · rintro (hk | ⟨h1, h2, h3⟩)
      · exact hk
      · exact Or.inl (by omega)

/-! ## The end of the stream -/

/-- The fragment does not contradict the recorded end, the bytes stored or the width of an
index. -/
structure Consistent (r : Reassembler) (first : Nat) (data : Bytes) (last : Bool) : Prop where
  fits : first + data.length ≤ u64Max
  beforeEof : ∀ eof ∈ r.eofIndex, first + data.length ≤ eof
  sameEof : last = true → ∀ eof ∈ r.eofIndex, eof = first + data.length
  pushed_le : last = true → r.output.bytesPushed ≤ first + data.length
  covers_lt : last = true → ∀ k, Covers r.pending k → k < first + data.length

/-- What is recorded about the end after a fragment was taken. -/
def recordedEof (r : Reassembler) (first : Nat) (data : Bytes) (last : Bool) : Option Nat :=
  if last then some (first + data.length) else r.eofIndex

theorem checkBufferedBeyond_eq_ok {receivedEof : Nat} {u : Unit} {l : List (Nat × Bytes)} :
    checkBufferedBeyond receivedEof l = .ok u ↔
      ∀ x ∈ l, x.1 + x.2.length ≤ u64Max ∧ x.1 + x.2.length ≤ receivedEof := by
  induction l with
  | nil => simp [checkBufferedBeyond]
  | cons x rest ih =>
      obtain ⟨start, frag⟩ := x
      rw [checkBufferedBeyond, List.forall_mem_cons]
      cases hend : checkedAdd start frag.length with
      | none =>
          have := checkedAdd_eq_none.mp hend
          simp only [reduceCtorEq, false_iff]
          omega
      | some fragmentEnd =>
          obtain ⟨hmax, rfl⟩ := checkedAdd_eq_some.mp hend
          simp only
          split_ifs with hlt
          · simp only [false_iff]
            omega
          · rw [ih]
            refine (and_iff_right ?_).symm
            exact ⟨hmax, Nat.not_lt.mp hlt⟩

theorem recordAndValidateEof_of_consistent (h : RepInv r) (hc : Consistent r first data last) :
    r.recordAndValidateEof (first + data.length) last
      = .ok { r with eofIndex := r.recordedEof first data last } := by
  unfold recordAndValidateEof recordedEof
  cases last with
  | false => rfl
  | true =>
      simp only [Bool.not_true, Bool.false_eq_true, if_false, if_true]
      cases heof : r.eofIndex with
      | some existing =>
          have hsame := hc.sameEof rfl existing heof
          simp only [hsame, ne_eq, not_true_eq_false, if_false]
          rw [← hsame, ← heof]
      | none =>
          have hcheck : checkBufferedBeyond (first + data.length) r.pending.entries = .ok () :=
            checkBufferedBeyond_eq_ok.mpr (fun x hx =>
              have hend := h.wellFormed.end_le hx (hc.covers_lt rfl)
              ⟨le_trans hend hc.fits, hend⟩)
          simp only [if_neg (Nat.not_lt.mpr (hc.pushed_le rfl)), hcheck]

/-- An end that was recorded was consistent with the bytes stored. -/
theorem recordAndValidateEof_eq_ok {receivedEof : Nat} {r2 : Reassembler} (h : RepInv r)
    (hrun : r.recordAndValidateEof receivedEof last = .ok r2) :
    r2 = { r with eofIndex := if last then some receivedEof else r.eofIndex } ∧
      (last = true → (∀ eof ∈ r.eofIndex, eof = receivedEof) ∧
        r.output.bytesPushed ≤ receivedEof ∧ ∀ k, Covers r.pending k → k < receivedEof) := by
  unfold recordAndValidateEof at hrun
  cases last with
  | false =>
      simp only [Bool.not_false, if_true, Except.ok.injEq] at hrun
      exact ⟨hrun ▸ rfl, by simp⟩
  | true =>
      simp only [Bool.not_true, Bool.false_eq_true, if_false] at hrun
      -- a recorded end is compared; a new one must not lie before anything held
      cases heof : r.eofIndex with
      | some existing =>
          rw [heof] at hrun
          simp only at hrun
          split_ifs at hrun with hne
          have hsame : existing = receivedEof := not_not.mp hne
          simp only [Except.ok.injEq] at hrun
          subst hsame hrun
          refine ⟨by simp only [if_true, ← heof], fun _ => ⟨?_, ?_, ?_⟩⟩
          · intro eof hmem
            exact (Option.mem_some_iff.mp hmem).symm
          · exact h.pushed_le existing heof
          · exact fun k hk => h.beforeEof k hk existing heof
      | none =>
          rw [heof] at hrun
          simp only at hrun
          split_ifs at hrun with hlt
          cases hcheck : checkBufferedBeyond receivedEof r.pending.entries with
          | error e => simp [hcheck] at hrun
          | ok u =>
              simp only [hcheck, Except.ok.injEq] at hrun
              refine ⟨hrun ▸ rfl, fun _ => ⟨by simp, Nat.not_lt.mp hlt, ?_⟩⟩
              rintro k ⟨x, hx, -, hkx⟩
              have := (checkBufferedBeyond_eq_ok.mp hcheck x hx).2
              omega

theorem closeIfComplete_eq (r : Reassembler) : r.closeIfComplete =
    if r.eofIndex = some r.output.bytesPushed then { r with output := r.output.close } else r := by
  unfold closeIfComplete
  cases heof : r.eofIndex with
  | none => rw [if_neg (by simp)]
  | some eof =>
      by_cases hdone : r.output.bytesPushed = eof
      · simp only [hdone, if_true]
      · simp only [hdone, if_false, if_neg (fun h => hdone (Option.some.inj h).symm)]

theorem Settled.closeIfComplete (h : Settled r) : RepInv r.closeIfComplete := by
  rw [closeIfComplete_eq]
  by_cases hdone : r.eofIndex = some r.output.bytesPushed
  · rw [if_pos hdone]
    exact
      { wellFormed := h.wellFormed
        window := h.window
        beforeEof := h.beforeEof
        pushed_le := h.pushed_le
        eof_of_closed := fun _ => hdone
        blocked := fun _ => h.ahead
        ahead := h.ahead
        closed_of_eof := fun _ => rfl }
  · rw [if_neg hdone]
    exact { h with closed_of_eof := fun hcon => absurd hcon hdone }

theorem closeIfComplete_eofIndex (r : Reassembler) : r.closeIfComplete.eofIndex = r.eofIndex := by
  rw [closeIfComplete_eq]
  split_ifs <;> rfl

theorem Inserted.closeIfComplete (h : Inserted r first data r1) :
    Inserted r first data r1.closeIfComplete := by
  rw [closeIfComplete_eq]
  split_ifs
  · obtain ⟨tl, hgrown, htl⟩ := h.grown
    exact ⟨⟨tl, hgrown.close, htl⟩, h.holds, h.reached⟩
  · exact h

/-! ## The whole operation -/

theorem Consistent.recordedEof_spec (hc : Consistent r first data last) (h : RepInv r) :
    ∀ eof ∈ r.recordedEof first data last, first + data.length ≤ eof ∧
      r.output.bytesPushed ≤ eof ∧ ∀ k, Covers r.pending k → k < eof := by
  intro eof hmem
  unfold recordedEof at hmem
  split_ifs at hmem with hlast
  · obtain rfl := Option.mem_some_iff.mp hmem
    exact ⟨le_refl _, hc.pushed_le hlast, hc.covers_lt hlast⟩
  · exact ⟨hc.beforeEof eof hmem, h.pushed_le eof hmem, fun k hk => h.beforeEof k hk eof hmem⟩

/-- The end that a consistent fragment declares fits what is stored. -/
theorem Consistent.settled (hc : Consistent r first data last) (h : RepInv r) :
    Settled { r with eofIndex := r.recordedEof first data last } where
  wellFormed := h.wellFormed
  window := h.window
  beforeEof := fun k hk eof hmem => (hc.recordedEof_spec h eof hmem).2.2 k hk
  pushed_le := fun eof hmem => (hc.recordedEof_spec h eof hmem).2.1
  eof_of_closed := by
    intro hclosed
    have hend := h.eof_of_closed hclosed
    show r.recordedEof first data last = some r.output.bytesPushed
    unfold recordedEof
    split_ifs with hlast
    · rw [hc.sameEof hlast _ hend]
    · exact hend
  blocked := fun _ => h.ahead
  ahead := h.ahead

/-- A consistent fragment passes the validation. -/
theorem tryInsert_eq (h : RepInv r) (hc : Consistent r first data last) :
    r.tryInsert first data last = (do
      let r1 ← insertClipped { r with eofIndex := r.recordedEof first data last } first data
        (first + data.length)
      r1.closeIfComplete.debugCheckInvariants
      .ok (r1.closeIfComplete, .ok ())) := by
  have hfilter : (r.recordedEof first data last).filter
      (fun eof => decide (eof < first + data.length)) = none := by
    rw [Option.filter_eq_none_iff]
    intro eof hmem
    have := (hc.recordedEof_spec h eof hmem).1
    simpa using this
  simp only [tryInsert, checkedAdd_of_le hc.fits, recordAndValidateEof_of_consistent h hc, hfilter]

/-- A consistent fragment is taken. -/
theorem tryInsert_spec (h : RepInv r) (hc : Consistent r first data last) :
    ∃ r1, r.tryInsert first data last = .ok (r1, .ok ()) ∧ RepInv r1 ∧
      Inserted r first data r1 ∧ r1.eofIndex = r.recordedEof first data last := by
  obtain ⟨r1, hrun, hsettled1, hins, heof1⟩ := insertClipped_spec (hc.settled h)
    (fun eof hmem => (hc.recordedEof_spec h eof hmem).1)
  have hinv := hsettled1.closeIfComplete
  refine ⟨r1.closeIfComplete, ?_, hinv, ?_, (closeIfComplete_eofIndex r1).trans heof1⟩
  · simp only [tryInsert_eq h hc, hrun, Exec.ok_bind, hinv.debugCheckInvariants_ok]
  · have hins1 : Inserted r first data r1 := ⟨hins.grown, hins.holds, hins.reached⟩
    exact hins1.closeIfComplete

/-- Any other fragment is refused, and nothing changes. -/
theorem tryInsert_inconsistent (h : RepInv r) (hc : ¬ Consistent r first data last) :
    ∃ e, r.tryInsert first data last = .ok (r, .error e) := by
  unfold tryInsert
  cases hend : checkedAdd first data.length with
  | none => exact ⟨_, rfl⟩
  | some originalEnd =>
      obtain ⟨hfits, rfl⟩ := checkedAdd_eq_some.mp hend
      simp only
      cases hrec : r.recordAndValidateEof (first + data.length) last with
      | error e => exact ⟨e, rfl⟩
      | ok r2 =>
          obtain ⟨rfl, hlast⟩ := recordAndValidateEof_eq_ok h hrec
          simp only
          cases hfilter : Option.filter (fun eof => decide (eof < first + data.length))
              (if last = true then some (first + data.length) else r.eofIndex) with
          | none =>
              refine absurd ⟨hfits, ?_, fun hl => (hlast hl).1, fun hl => (hlast hl).2.1,
                fun hl => (hlast hl).2.2⟩ hc
              intro eof hmem
              by_cases hl : last = true
              · exact le_of_eq ((hlast hl).1 eof hmem).symm
              · rw [if_neg hl, Option.filter_eq_none_iff] at hfilter
                simpa using hfilter eof hmem
          | some eof =>
              obtain ⟨hmem, hlt⟩ := Option.filter_eq_some_iff.mp hfilter
              by_cases hl : last = true
              · rw [if_pos hl, Option.some.injEq] at hmem
                simp [hmem] at hlt
              · simp only [if_neg hl]
                exact ⟨_, rfl⟩

/-- An insertion never stops abnormally, and it keeps the invariant. -/
theorem tryInsert_total (h : RepInv r) (first : Nat) (data : Bytes) (last : Bool) :
    ∃ r1 result, r.tryInsert first data last = .ok (r1, result) ∧ RepInv r1 := by
  by_cases hc : Consistent r first data last
  · obtain ⟨r1, hrun, hinv, -⟩ := tryInsert_spec h hc
    exact ⟨r1, _, hrun, hinv⟩
  · obtain ⟨e, hrun⟩ := tryInsert_inconsistent h hc
    exact ⟨r, _, hrun, h⟩

/-- An insertion changes neither the capacity nor what was read. -/
theorem tryInsert_frame {result : Except ReassemblerError Unit} (h : RepInv r)
    (hrun : r.tryInsert first data last = .ok (r1, result)) :
    r1.output.capacity = r.output.capacity ∧ r1.output.bytesPopped = r.output.bytesPopped := by
  by_cases hc : Consistent r first data last
  · obtain ⟨r2, hrun2, -, hins, -⟩ := tryInsert_spec h hc
    rw [hrun, Except.ok.injEq, Prod.mk.injEq] at hrun2
    obtain ⟨tl, hgrown, -⟩ := hins.grown
    rw [hrun2.1]
    exact ⟨hgrown.capacity, hgrown.popped⟩
  · obtain ⟨e, hrun2⟩ := tryInsert_inconsistent h hc
    rw [hrun, Except.ok.injEq, Prod.mk.injEq] at hrun2
    rw [hrun2.1]
    exact ⟨rfl, rfl⟩

/-! ## The reader's side -/

/-- The state after `output_mut().pop(len)`, and the bytes popped. -/
def read (r : Reassembler) (len : Nat) : Reassembler × Bytes :=
  ({ r with output := (r.output.pop len).1 }, (r.output.pop len).2)

/-- The state after `output_mut().set_error()`. -/
def setError (r : Reassembler) : Reassembler := { r with output := r.output.setError }

theorem RepInv.read (h : RepInv r) (len : Nat) : RepInv (r.read len).1 where
  wellFormed := h.wellFormed
  window := by
    intro k hk
    have hpopped := r.output.pop_popped len
    have := h.window k hk
    show k < saturatingAdd (r.output.pop len).1.bytesPopped (r.output.pop len).1.capacity
    rw [pop_capacity]
    unfold firstUnacceptable saturatingAdd at this
    unfold saturatingAdd
    omega
  beforeEof := h.beforeEof
  pushed_le := by
    intro eof hmem
    show (r.output.pop len).1.bytesPushed ≤ eof
    rw [pop_pushed]
    exact h.pushed_le eof hmem
  eof_of_closed := by
    show (r.output.pop len).1.closed = true → r.eofIndex = some (r.output.pop len).1.bytesPushed
    rw [pop_pushed, pop_closed]
    exact h.eof_of_closed
  blocked := by
    intro _ k hk
    show (r.output.pop len).1.bytesPushed < k
    rw [pop_pushed]
    exact h.ahead k hk
  ahead := by
    intro k hk
    show (r.output.pop len).1.bytesPushed < k
    rw [pop_pushed]
    exact h.ahead k hk
  closed_of_eof := by
    show r.eofIndex = some (r.output.pop len).1.bytesPushed → (r.output.pop len).1.closed = true
    rw [pop_pushed, pop_closed]
    exact h.closed_of_eof

theorem RepInv.setError (h : RepInv r) : RepInv r.setError where
  wellFormed := h.wellFormed
  window := h.window
  beforeEof := h.beforeEof
  pushed_le := h.pushed_le
  eof_of_closed := h.eof_of_closed
  blocked := fun _ => h.ahead
  ahead := h.ahead
  closed_of_eof := h.closed_of_eof

end Reassembler

end Minnow
