import Minnow.Reassembler.Hostile

set_option autoImplicit false

/-! # Fragments with conflicting bytes

A fragment that does not reach back to the output is stored in the gaps of what is pending, and
what is held stays. A fragment that does goes to the output as a whole, and pending bytes under it
are dropped as stale, whatever they are.

* `HeldAt`: which byte the reassembler has for a position, the one thing that a flush does not
  change (`Moved.heldAt`).
* `held_kept_iff`: exactly which fragments replace no byte, and that these are the ones for which
  both ways of storing agree.
-/

namespace Minnow

namespace ByteStream

variable {s s1 : ByteStream} {tl : Bytes} {k : Nat} {b : UInt8}

/-- The buffered byte at a position of the stream. -/
def BufferedAt (s : ByteStream) (k : Nat) (b : UInt8) : Prop :=
  s.bytesPopped ≤ k ∧ s.contents[k - s.bytesPopped]? = some b

instance (s : ByteStream) (k : Nat) (b : UInt8) : Decidable (s.BufferedAt k b) :=
  inferInstanceAs (Decidable (_ ∧ _))

theorem BufferedAt.lt (h : s.BufferedAt k b) : k < s.bytesPushed := by
  obtain ⟨hle, hget⟩ := h
  obtain ⟨hlt, -⟩ := List.getElem?_eq_some_iff.mp hget
  rw [length_contents] at hlt
  have := s.pushed_eq
  omega

theorem BufferedAt.unique {c : UInt8} (h : s.BufferedAt k b) (h1 : s.BufferedAt k c) : b = c :=
  Option.some.inj (h.2.symm.trans h1.2)

theorem Grown.bufferedAt (h : Grown s tl s1) : s1.BufferedAt k b ↔
    s.BufferedAt k b ∨ (s.bytesPushed ≤ k ∧ tl[k - s.bytesPushed]? = some b) := by
  have hpushed := s.pushed_eq
  have hlen := s.length_contents
  unfold BufferedAt
  rw [h.contents, h.popped, List.getElem?_append, hlen]
  by_cases hold : k - s.bytesPopped < s.bytesBuffered
  · rw [if_pos hold]
    refine (or_iff_left ?_).symm
    rintro ⟨hle, -⟩
    omega
  · rw [if_neg hold, List.getElem?_eq_none (l := s.contents) (by omega),
      show k - s.bytesPopped - s.bytesBuffered = k - s.bytesPushed by omega]
    constructor
    · rintro ⟨hle, hget⟩
      exact Or.inr ⟨by omega, hget⟩
    · rintro (⟨-, hnone⟩ | ⟨hle, hget⟩)
      · exact absurd hnone (by simp)
      · exact ⟨by omega, hget⟩

/-- A stream with the same bytes in the same places has the same contents. -/
theorem contents_eq_of_bufferedAt (hpopped : s1.bytesPopped = s.bytesPopped)
    (h : ∀ k b, s1.BufferedAt k b ↔ s.BufferedAt k b) : s1.contents = s.contents := by
  apply List.ext_getElem?
  intro i
  apply Option.ext
  intro b
  have hat := h (s.bytesPopped + i) b
  unfold BufferedAt at hat
  rw [hpopped, Nat.add_sub_cancel_left] at hat
  simpa using hat

end ByteStream

namespace Reassembler

open Fragments ByteStream

variable {r r1 r2 : Reassembler} {first lo hi k : Nat} {data : Bytes} {last : Bool} {b : UInt8}

/-! ## The byte held for a position -/

/-- The byte at a position, in the output or behind it in `pending`. -/
def HeldAt (r : Reassembler) (k : Nat) (b : UInt8) : Prop :=
  r.output.BufferedAt k b ∨ (r.output.bytesPushed ≤ k ∧ Holds r.pending k b)

instance (r : Reassembler) (k : Nat) (b : UInt8) : Decidable (r.HeldAt k b) :=
  inferInstanceAs (Decidable (_ ∨ _ ∧ _))

/-- A position has at most one byte, so that a byte which stays is not replaced. -/
theorem HeldAt.unique (hwf : WellFormed r.pending) {c : UInt8} (h : r.HeldAt k b)
    (h1 : r.HeldAt k c) : b = c := by
  rcases h with h | ⟨hle, h⟩
  · rcases h1 with h1 | ⟨hle, -⟩
    · exact h.unique h1
    · exact absurd h.lt (Nat.not_lt.mpr hle)
  · rcases h1 with h1 | ⟨-, h1⟩
    · exact absurd h1.lt (Nat.not_lt.mpr hle)
    · exact hwf.holds_unique h h1

theorem bufferedAt_iff : r.output.BufferedAt k b ↔ r.HeldAt k b ∧ k < r.output.bytesPushed := by
  constructor
  · exact fun h => ⟨Or.inl h, h.lt⟩
  · rintro ⟨h | ⟨hle, -⟩, hlt⟩
    · exact h
    · omega

/-- What is held before `hi` may also come from a fragment with the same bytes. -/
theorem HeldAt.under (h : r.HeldAt k b)
    (hsame : ∀ k b, Holds r.pending k b → k < hi → data[k - first]? = some b) :
    r.output.BufferedAt k b ∨
      (r.output.bytesPushed ≤ k ∧ k < hi ∧ data[k - first]? = some b) ∨
      (hi ≤ k ∧ Holds r.pending k b) := by
  rcases h with h | ⟨hle, hb⟩
  · exact Or.inl h
  · by_cases hk : k < hi
    · exact Or.inr (Or.inl ⟨hle, hk, hsame k b hb hk⟩)
    · exact Or.inr (Or.inr ⟨Nat.not_lt.mp hk, hb⟩)

/-- A flush moves bytes, and no position changes its byte. -/
theorem Moved.heldAt (hm : Moved r r1) (hwf : WellFormed r.pending) :
    r1.HeldAt k b ↔ r.HeldAt k b := by
  obtain ⟨tl, happ, htl⟩ := hm.appended
  have hpushed := happ.pushed
  unfold HeldAt
  rw [happ.toGrown.bufferedAt]
  constructor
  · rintro ((hb | ⟨hle, hget⟩) | ⟨hle, hb⟩)
    · exact Or.inl hb
    · have hheld := htl _ b hget
      rw [Nat.add_sub_cancel' hle] at hheld
      exact Or.inr ⟨hle, hheld⟩
    · exact Or.inr ⟨by omega, hm.holds k b hb⟩
  · rintro (hb | ⟨hle, hb⟩)
    · exact Or.inl (Or.inl hb)
    · by_cases hlt : k < r1.output.bytesPushed
      · -- it was moved
        have hget := List.getElem?_eq_getElem (l := tl) (i := k - r.output.bytesPushed) (by omega)
        have hheld := htl _ _ hget
        rw [Nat.add_sub_cancel' hle] at hheld
        rw [hwf.holds_unique hb hheld]
        exact Or.inl (Or.inr ⟨hle, hget⟩)
      · -- it is still pending
        have hreached := (hm.reached k).mpr (Or.inr (covers_iff_holds.mpr ⟨b, hb⟩))
        obtain ⟨c, hc⟩ := covers_iff_holds.mp (hreached.resolve_left hlt)
        rw [hwf.holds_unique hb (hm.holds k c hc)]
        exact Or.inr ⟨Nat.not_lt.mp hlt, hc⟩

theorem closeIfComplete_heldAt (r : Reassembler) : r.closeIfComplete.HeldAt k b ↔ r.HeldAt k b := by
  rw [closeIfComplete_eq]
  split_ifs <;> rfl

/-! ## Two ways of storing -/

/-- The part of `try_insert` behind the validation, if it stored every fragment in the gaps of
`pending`. -/
def insertByGaps (r : Reassembler) (firstIndex : Nat) (data : Bytes) (originalEnd : Nat) :
    Exec Reassembler :=
  let clippedStart := max firstIndex r.output.bytesPushed
  let clippedEnd := min originalEnd r.firstUnacceptable
  if clippedStart < clippedEnd then do
    let clippedData ← sliceRange data (clippedStart - firstIndex) (clippedEnd - firstIndex)
    let pending ← insertMissingGaps r.pending clippedStart clippedData
    flushContiguous { r with pending := pending }
  else .ok r

/-- The fragment does not reach back to the output, or agrees with the pending bytes that it
covers in the window. -/
def Compatible (r : Reassembler) (first : Nat) (data : Bytes) : Prop :=
  first ≤ r.output.bytesPushed → ∀ k b, Holds r.pending k b →
    k < min (first + data.length) r.firstUnacceptable → data[k - first]? = some b

/-- Stored in the gaps, a fragment replaces nothing. -/
theorem Filled.heldAt {m1 : Pending}
    (hfill : Filled r.pending lo (clip first data lo hi) lo hi m1) (hfirst : first ≤ lo)
    (hpushed : r.output.bytesPushed ≤ lo) :
    HeldAt { r with pending := m1 } k b ↔ r.HeldAt k b ∨
      (¬ Covers r.pending k ∧ lo ≤ k ∧ k < hi ∧ data[k - first]? = some b) := by
  unfold HeldAt
  dsimp only
  rw [hfill.holds, or_assoc]
  apply or_congr_right
  constructor
  · rintro ⟨hle, hb | ⟨hfree, hlo, -, hget⟩⟩
    · exact Or.inl ⟨hle, hb⟩
    · exact Or.inr ⟨hfree, hlo, (getElem?_clip_iff hfirst hlo).mp hget⟩
  · rintro (⟨hle, hb⟩ | ⟨hfree, hlo, hhi, hget⟩)
    · exact ⟨hle, Or.inl hb⟩
    · exact ⟨by omega, Or.inr ⟨hfree, hlo, hhi, (getElem?_clip_iff hfirst hlo).mpr ⟨hhi, hget⟩⟩⟩

/-- Behind the stored part no fragment is new. -/
theorem Filled.frame {m m1 : Pending} {start : Nat}
    (hfill : Filled m start data lo hi m1) {x : Nat × Bytes} (hx : hi ≤ x.1) : x ∈ m1 ↔ x ∈ m := by
  constructor
  · intro hmem
    have hpos := hfill.wellFormed.length_pos hmem
    obtain ⟨b, hb⟩ := covers_iff_holds.mp (hfill.wellFormed.covers_start hmem)
    rcases (hfill.holds x.1 b).mp hb with ⟨y, hy, hyx, hget⟩ | ⟨-, -, hlt, -⟩
    · -- an old fragment reaches to where `x` starts, and it is still there
      obtain ⟨hlt, -⟩ := List.getElem?_eq_some_iff.mp hget
      have hsame := hfill.wellFormed.eq_of_reaches (k := x.1) hmem (hfill.kept y hy)
        ⟨le_refl _, by omega⟩ ⟨hyx, by omega⟩
      exact hsame ▸ hy
    · omega
  · exact hfill.kept x

/-- Moved to the output, a fragment goes over what is pending. -/
theorem direct_heldAt {output1 : ByteStream}
    (happ : Appended r.output (clip first data r.output.bytesPushed hi) output1)
    (hfirst : first ≤ r.output.bytesPushed) (hhi : hi ≤ first + data.length)
    (hle : r.output.bytesPushed ≤ hi) :
    HeldAt { r with output := output1 } k b ↔ r.output.BufferedAt k b ∨
      (r.output.bytesPushed ≤ k ∧ k < hi ∧ data[k - first]? = some b) ∨
      (hi ≤ k ∧ Holds r.pending k b) := by
  have hpushed := happ.pushed
  rw [length_clip hfirst hhi, Nat.add_sub_cancel' hle] at hpushed
  unfold HeldAt
  dsimp only
  rw [happ.toGrown.bufferedAt, hpushed, or_assoc]
  apply or_congr_right
  apply or_congr_left
  apply and_congr_right
  intro hk
  exact getElem?_clip_iff hfirst hk

theorem flushContiguous_frame (hrun : flushContiguous r = .ok r1) :
    r.output.bytesPushed ≤ r1.output.bytesPushed ∧
      ∀ x, r1.output.bytesPushed < x.1 → (x ∈ r1.pending ↔ x ∈ r.pending) := by
  obtain ⟨⟨output1, m1⟩, hflush, hok⟩ := Exec.bind_eq_ok.mp hrun
  obtain rfl := Except.ok.inj hok
  exact flushLoop_frame hflush

/-- The output ends at the first position that is not reached. -/
theorem Settled.pushed_eq (h1 : Settled r1) (h2 : Settled r2)
    (hreached : ∀ k, r1.Reached k ↔ r2.Reached k) :
    r1.output.bytesPushed = r2.output.bytesPushed := by
  have hend : ∀ {r : Reassembler}, Settled r → ¬ r.Reached r.output.bytesPushed := by
    rintro r h (hlt | hcov)
    · exact lt_irrefl _ hlt
    · exact lt_irrefl _ (h.ahead _ hcov)
  rcases Nat.lt_trichotomy r1.output.bytesPushed r2.output.bytesPushed with hlt | heq | hgt
  · exact absurd ((hreached _).mpr (Or.inl hlt)) (hend h1)
  · exact heq
  · exact absurd ((hreached _).mp (Or.inl hgt)) (hend h2)

/-! ## Both ways compared -/

/-- An output that is closed has no room before the end. -/
theorem Settled.open_of_lt (h : Settled r) (heof : ∀ eof ∈ r.eofIndex, hi ≤ eof)
    (hlt : r.output.bytesPushed < hi) : r.output.closed = false := by
  by_contra hcon
  have hend := heof _ (h.eof_of_closed (by simpa using hcon))
  omega

theorem Filled.stored {m1 : Pending} (hfill : Filled r.pending lo data lo hi m1) (h : Settled r)
    (hacc : r.output.Accepting) (hend : hi ≤ lo + data.length) (hwindow : hi ≤ r.firstUnacceptable)
    (heof : ∀ eof ∈ r.eofIndex, hi ≤ eof) : Stored { r with pending := m1 } where
  wellFormed := hfill.wellFormed
  window := by
    intro k hk
    rcases (hfill.covers (le_refl lo) hend k).mp hk with hk | hk
    · exact h.window k hk
    · exact lt_of_lt_of_le hk.2 hwindow
  beforeEof := by
    intro k hk eof hmem
    rcases (hfill.covers (le_refl lo) hend k).mp hk with hk | hk
    · exact h.beforeEof k hk eof hmem
    · exact lt_of_lt_of_le hk.2 (heof eof hmem)
  pushed_le := h.pushed_le
  eof_of_closed := h.eof_of_closed
  blocked := fun hnot => absurd hacc hnot

/-- Both ways reach the same positions before the flush. -/
theorem Filled.reached_iff {output1 : ByteStream} {m1 : Pending} {tl : Bytes}
    (hfill : Filled r.pending r.output.bytesPushed tl r.output.bytesPushed hi m1)
    (happ : Appended r.output tl output1)
    (hend : r.output.bytesPushed + tl.length = hi) :
    Reached { r with output := output1 } k ↔ Reached { r with pending := m1 } k := by
  have hpushed := happ.pushed
  show (k < output1.bytesPushed ∨ Covers r.pending k) ↔
    (k < r.output.bytesPushed ∨ Covers m1 k)
  rw [hfill.covers (le_refl _) (le_of_eq hend.symm) k, hpushed, hend]
  constructor
  · rintro (hk | hk)
    · by_cases hold : k < r.output.bytesPushed
      · exact Or.inl hold
      · exact Or.inr (Or.inr ⟨Nat.not_lt.mp hold, hk⟩)
    · exact Or.inr (Or.inl hk)
  · rintro (hk | hk | hk)
    · exact Or.inl (by omega)
    · exact Or.inr hk
    · exact Or.inl hk.2

/-- Behind the new end of the output both are what they were. -/
theorem Filled.pending_eq {output1 : ByteStream} {m1 : Pending}
    (hfill : Filled r.pending lo data lo hi m1)
    (hflush1 : flushContiguous { r with output := output1 } = .ok r1)
    (hflush2 : flushContiguous { r with pending := m1 } = .ok r2) (h1 : Settled r1)
    (h2 : Settled r2) (hsame : r1.output.bytesPushed = r2.output.bytesPushed)
    (hend : hi ≤ r1.output.bytesPushed) : r1.pending = r2.pending := by
  have hbehind : ∀ x : Nat × Bytes, r1.output.bytesPushed < x.1 →
      (x ∈ r1.pending ↔ x ∈ r2.pending) := by
    intro x hx
    rw [(flushContiguous_frame hflush1).2 x hx, (flushContiguous_frame hflush2).2 x (by omega)]
    exact (hfill.frame (by omega)).symm
  apply SortedMap.ext_mem
  intro x
  constructor
  · intro hx
    exact (hbehind x (h1.ahead _ (h1.wellFormed.covers_start hx))).mp hx
  · intro hx
    have hahead := h2.ahead _ (h2.wellFormed.covers_start hx)
    exact (hbehind x (by omega)).mpr hx

/-- Where the fragment agrees with what is pending, it does not matter which of the two shows. -/
theorem under_iff (hpending : ∀ k b, Holds r.pending k b → r.HeldAt k b)
    (hsame : ∀ k b, Holds r.pending k b → k < hi → data[k - first]? = some b) :
    (r.output.BufferedAt k b ∨ (r.output.bytesPushed ≤ k ∧ k < hi ∧ data[k - first]? = some b) ∨
        (hi ≤ k ∧ Holds r.pending k b)) ↔
      r.HeldAt k b ∨
        (¬ Covers r.pending k ∧ r.output.bytesPushed ≤ k ∧ k < hi ∧ data[k - first]? = some b) := by
  constructor
  · rintro (hbuf | ⟨hle, hk, hget⟩ | ⟨-, hb⟩)
    · exact Or.inl (Or.inl hbuf)
    · by_cases hcov : Covers r.pending k
      · obtain ⟨c, hc⟩ := covers_iff_holds.mp hcov
        obtain rfl := Option.some.inj (hget.symm.trans (hsame k c hc hk))
        exact Or.inl (hpending k b hc)
      · exact Or.inr ⟨hcov, hle, hk, hget⟩
    · exact Or.inl (hpending k b hb)
  · rintro (hb | ⟨-, hle, hk, hget⟩)
    · exact hb.under hsame
    · exact Or.inr (Or.inl ⟨hle, hk, hget⟩)

/-- What `r1` keeps of `r`, and that it is what `r2` has, both come down to the same condition. -/
structure Compared (r : Reassembler) (first : Nat) (data : Bytes) (r1 r2 : Reassembler) :
    Prop where
  kept_iff : (∀ k b, r.HeldAt k b → r1.HeldAt k b) ↔ r.Compatible first data
  same_iff : (r1.output.contents = r2.output.contents ∧ r1.pending = r2.pending) ↔
    r.Compatible first data

theorem Compared.of_compatible (hc : r.Compatible first data)
    (hkept : ∀ k b, r.HeldAt k b → r1.HeldAt k b) : Compared r first data r1 r1 where
  kept_iff := iff_of_true hkept hc
  same_iff := iff_of_true ⟨rfl, rfl⟩ hc

section Stored

variable (h : Settled r) (herror : r.output.error = false)
  (heof : ∀ eof ∈ r.eofIndex, first + data.length ≤ eof)

include h herror heof

theorem insertByGaps_clip (hlo : lo = max first r.output.bytesPushed)
    (hhi : hi = min (first + data.length) r.firstUnacceptable) (hlt : lo < hi) :
    ∃ m1 r2, insertByGaps r first data (first + data.length) = .ok r2 ∧
      Filled r.pending lo (clip first data lo hi) lo hi m1 ∧
      flushContiguous { r with pending := m1 } = .ok r2 ∧ Settled r2 ∧
      Moved { r with pending := m1 } r2 := by
  have hbefore : ∀ eof ∈ r.eofIndex, hi ≤ eof := by
    intro eof hmem
    have := heof eof hmem
    omega
  have hopen := h.open_of_lt hbefore (by omega)
  have hslice : sliceRange data (lo - first) (hi - first) = .ok (clip first data lo hi) :=
    sliceRange_of_le (by omega) (by omega)
  obtain ⟨m1, hm1, hfill⟩ := insertMissingGaps_clip h (show first ≤ lo by omega) hlt
    (show hi ≤ first + data.length by omega) (by omega)
  have hlen : (clip first data lo hi).length = hi - lo := length_clip (by omega) (by omega)
  obtain ⟨r2, hrun, hsettled, hmoved⟩ := flushContiguous_spec (hfill.stored h ⟨hopen, herror⟩
    (by omega) (by omega) hbefore)
  refine ⟨m1, r2, ?_, hfill, hrun, hsettled, hmoved⟩
  unfold insertByGaps
  dsimp only
  rw [← hlo, ← hhi, if_pos hlt, hslice]
  simp only [Exec.ok_bind, hm1, hrun]

theorem insertClipped_direct (hfirst : first ≤ r.output.bytesPushed)
    (hhi : hi = min (first + data.length) r.firstUnacceptable)
    (hlt : r.output.bytesPushed < hi) :
    ∃ output1 r1, insertClipped r first data (first + data.length) = .ok r1 ∧
      Appended r.output (clip first data r.output.bytesPushed hi) output1 ∧
      flushContiguous { r with output := output1 } = .ok r1 ∧ Settled r1 ∧
      Moved { r with output := output1 } r1 := by
  have hbefore : ∀ eof ∈ r.eofIndex, hi ≤ eof := by
    intro eof hmem
    have := heof eof hmem
    omega
  have hopen := h.open_of_lt hbefore hlt
  have hslice : sliceRange data (r.output.bytesPushed - first) (hi - first)
      = .ok (clip first data r.output.bytesPushed hi) := sliceRange_of_le (by omega) (by omega)
  have hlen : (clip first data r.output.bytesPushed hi).length = hi - r.output.bytesPushed :=
    length_clip hfirst (by omega)
  have hroom := r.firstUnacceptable_le
  have happ := r.output.push_appended (clip first data r.output.bytesPushed hi)
  rw [r.output.push_snd_of_room _ ⟨hopen, herror⟩ (by omega), List.take_length] at happ
  obtain ⟨r1, hrun, hsettled, hmoved⟩ :=
    flushContiguous_spec (push_clip_spec h hopen hfirst hhi hlt heof).1
  refine ⟨_, r1, ?_, happ, hrun, hsettled, hmoved⟩
  unfold insertClipped
  dsimp only
  rw [max_eq_right hfirst, ← hhi, if_pos hlt, hslice]
  simp only [Exec.ok_bind, if_true, hrun]

/-- Both ways leave the same pending fragments, and differ in the bytes of the fragment that were
held before. -/
theorem direct_and_gaps (hfirst : first ≤ r.output.bytesPushed)
    (hhi : hi = min (first + data.length) r.firstUnacceptable)
    (hlt : r.output.bytesPushed < hi) :
    ∃ r1 r2, insertClipped r first data (first + data.length) = .ok r1 ∧
      insertByGaps r first data (first + data.length) = .ok r2 ∧
      r1.pending = r2.pending ∧ r1.output.bytesPushed = r2.output.bytesPushed ∧
      r1.output.bytesPopped = r2.output.bytesPopped ∧
      (∀ k b, r1.HeldAt k b ↔ r.output.BufferedAt k b ∨
        (r.output.bytesPushed ≤ k ∧ k < hi ∧ data[k - first]? = some b) ∨
        (hi ≤ k ∧ Holds r.pending k b)) ∧
      ∀ k b, r2.HeldAt k b ↔ r.HeldAt k b ∨
        (¬ Covers r.pending k ∧ r.output.bytesPushed ≤ k ∧ k < hi ∧ data[k - first]? = some b) := by
  obtain ⟨output1, r1, hrun1, happ, hflush1, hsettled1, hmoved1⟩ :=
    insertClipped_direct h herror heof hfirst hhi hlt
  obtain ⟨m1, r2, hrun2, hfill, hflush2, hsettled2, hmoved2⟩ :=
    insertByGaps_clip h herror heof (max_eq_right hfirst).symm hhi hlt
  have hlen : (clip first data r.output.bytesPushed hi).length = hi - r.output.bytesPushed :=
    length_clip hfirst (by omega)
  have hend : r.output.bytesPushed + (clip first data r.output.bytesPushed hi).length = hi := by
    rw [hlen, Nat.add_sub_cancel' (le_of_lt hlt)]
  -- both ways cover the same positions, so both flushes end at the same one
  have hsame : r1.output.bytesPushed = r2.output.bytesPushed := by
    apply hsettled1.pushed_eq hsettled2
    intro k
    rw [hmoved1.reached, hmoved2.reached]
    exact hfill.reached_iff happ hend
  refine ⟨r1, r2, hrun1, hrun2, ?_, hsame, ?_, ?_, ?_⟩
  · have hpushed := happ.pushed
    have hle : output1.bytesPushed ≤ r1.output.bytesPushed := (flushContiguous_frame hflush1).1
    exact hfill.pending_eq hflush1 hflush2 hsettled1 hsettled2 hsame (by omega)
  · obtain ⟨tl1, happ1, -⟩ := hmoved1.appended
    obtain ⟨tl2, happ2, -⟩ := hmoved2.appended
    rw [happ1.popped, happ2.popped]
    exact happ.popped
  · intro k b
    rw [hmoved1.heldAt h.wellFormed]
    exact direct_heldAt happ hfirst (by omega) (le_of_lt hlt)
  · intro k b
    rw [hmoved2.heldAt hfill.wellFormed]
    exact hfill.heldAt hfirst (le_refl _)

/-- What the fast path leaves, against what the gaps would have left, for a fragment that reaches
back to the output. -/
theorem direct_compared (hfirst : first ≤ r.output.bytesPushed)
    (hhi : hi = min (first + data.length) r.firstUnacceptable)
    (hlt : r.output.bytesPushed < hi) :
    ∃ r1 r2, insertClipped r first data (first + data.length) = .ok r1 ∧
      insertByGaps r first data (first + data.length) = .ok r2 ∧ Compared r first data r1 r2 := by
  obtain ⟨r1, r2, hrun1, hrun2, hpending, hpushed, hpopped, hheld1, hheld2⟩ :=
    direct_and_gaps h herror heof hfirst hhi hlt
  have hpendingHeld : ∀ k b, Holds r.pending k b → r.HeldAt k b := by
    intro k b hb
    exact Or.inr ⟨le_of_lt (h.ahead k (covers_iff_holds.mpr ⟨b, hb⟩)), hb⟩
  -- under the fragment, what was pending shows only if it has the same bytes
  have hcovered : ∀ k b, Holds r.pending k b → k < hi →
      r1.HeldAt k b → data[k - first]? = some b := by
    intro k b hb hk hheld
    have hahead := h.ahead k (covers_iff_holds.mpr ⟨b, hb⟩)
    rcases (hheld1 k b).mp hheld with hbuf | ⟨-, -, hget⟩ | ⟨hle, -⟩
    · exact absurd hbuf.lt (by omega)
    · exact hget
    · exact absurd hk (Nat.not_lt.mpr hle)
  refine ⟨r1, r2, hrun1, hrun2, ?_, ?_⟩
  · constructor
    · intro hall hle k b hb hk
      exact hcovered k b hb (hhi ▸ hk) (hall k b (hpendingHeld k b hb))
    · intro hc k b hb
      exact (hheld1 k b).mpr (hb.under (hhi ▸ hc hfirst))
  · constructor
    · rintro ⟨hcontents, -⟩ - k b hb hk
      apply hcovered k b hb (hhi ▸ hk)
      have hheld := (hheld2 k b).mpr (Or.inl (hpendingHeld k b hb))
      unfold HeldAt BufferedAt at hheld ⊢
      rwa [hcontents, hpending, hpopped, hpushed]
    · intro hc
      refine ⟨contents_eq_of_bufferedAt hpopped (fun k b => ?_), hpending⟩
      rw [bufferedAt_iff, bufferedAt_iff, hpushed, hheld1, hheld2]
      exact and_congr_left (fun _ => under_iff hpendingHeld (hhi ▸ hc hfirst))

/-- A fragment behind the output goes to the gaps in any case. -/
theorem gaps_compared (hfirst : r.output.bytesPushed < first)
    (hlt : first < min (first + data.length) r.firstUnacceptable) :
    ∃ r1, insertClipped r first data (first + data.length) = .ok r1 ∧
      insertByGaps r first data (first + data.length) = .ok r1 ∧ Compared r first data r1 r1 := by
  obtain ⟨m1, r1, hrun, hfill, -, -, hmoved⟩ :=
    insertByGaps_clip h herror heof (max_eq_left (le_of_lt hfirst)).symm rfl hlt
  refine ⟨r1, ?_, hrun, Compared.of_compatible (fun hle => absurd hfirst (Nat.not_lt.mpr hle)) ?_⟩
  · rw [← hrun]
    unfold insertClipped insertByGaps
    dsimp only
    rw [max_eq_left (le_of_lt hfirst)]
    simp only [if_neg (Nat.ne_of_gt hfirst)]
  · intro k b hb
    rw [hmoved.heldAt hfill.wellFormed, hfill.heldAt (le_refl _) (le_of_lt hfirst)]
    exact Or.inl hb

/-- A fragment replaces nothing that is held, and is stored as if in the gaps, exactly if it is
compatible with what is pending. -/
theorem insertClipped_compared : ∃ r1 r2,
    insertClipped r first data (first + data.length) = .ok r1 ∧
      insertByGaps r first data (first + data.length) = .ok r2 ∧ Compared r first data r1 r2 := by
  by_cases hlt : max first r.output.bytesPushed < min (first + data.length) r.firstUnacceptable
  · by_cases hfirst : first ≤ r.output.bytesPushed
    · rw [max_eq_right hfirst] at hlt
      exact direct_compared h herror heof hfirst rfl hlt
    · have hahead : r.output.bytesPushed < first := Nat.not_le.mp hfirst
      rw [max_eq_left (le_of_lt hahead)] at hlt
      obtain ⟨r1, hrun1, hrun2, hcompared⟩ := gaps_compared h herror heof hahead hlt
      exact ⟨r1, r1, hrun1, hrun2, hcompared⟩
  · -- nothing of the fragment is left
    have hcompatible : r.Compatible first data := by
      intro hfirst k b hb hk
      have hahead := h.ahead k (covers_iff_holds.mpr ⟨b, hb⟩)
      omega
    refine ⟨r, r, ?_, ?_, Compared.of_compatible hcompatible (fun _ _ hb => hb)⟩
    · unfold insertClipped
      dsimp only
      rw [if_neg hlt]
    · unfold insertByGaps
      dsimp only
      rw [if_neg hlt]

end Stored

/-! ## Runs -/

/-- A fragment that was taken replaces nothing, and leaves what storing it in the gaps would have
left, exactly if it is compatible. -/
theorem tryInsert_kept_iff (h : RepInv r) (herror : r.output.error = false)
    (hinsert : r.tryInsert first data last = .ok (r1, .ok ())) :
    ((∀ k b, r.HeldAt k b → r1.HeldAt k b) ↔ r.Compatible first data) ∧
    ∃ r2, insertByGaps { r with eofIndex := r.recordedEof first data last } first data
        (first + data.length) = .ok r2 ∧
      ((r1.output.contents = r2.output.contents ∧ r1.pending = r2.pending) ↔
        r.Compatible first data) := by
  have hc : Consistent r first data last := by
    by_contra hnot
    obtain ⟨e, hrefused⟩ := tryInsert_inconsistent h hnot
    rw [hinsert] at hrefused
    exact absurd hrefused (by simp)
  obtain ⟨r3, r2, hrun, hgaps, hkept, hsame⟩ := insertClipped_compared (hc.settled h) herror
    (fun eof hmem => (hc.recordedEof_spec h eof hmem).1)
  rw [tryInsert_eq h hc, hrun, Exec.ok_bind] at hinsert
  obtain ⟨u, -, hok⟩ := Exec.bind_eq_ok.mp hinsert
  obtain ⟨rfl, -⟩ := Prod.mk.inj (Except.ok.inj hok)
  refine ⟨?_, r2, hgaps, ?_⟩
  · simp only [closeIfComplete_heldAt]
    exact hkept
  · have hcontents : r3.closeIfComplete.output.contents = r3.output.contents := by
      rw [closeIfComplete_eq]
      split_ifs <;> rfl
    have hpending : r3.closeIfComplete.pending = r3.pending := by
      rw [closeIfComplete_eq]
      split_ifs <;> rfl
    rw [hcontents, hpending]
    exact hsame

/-- What is read is gone, and nothing else. -/
theorem read_heldAt (len : Nat) (hk : (r.read len).1.output.bytesPopped ≤ k) (hb : r.HeldAt k b) :
    (r.read len).1.HeldAt k b := by
  have hdrained := pop_drained r.output len
  have hpopped : (r.read len).1.output.bytesPopped
      = r.output.bytesPopped + (r.output.pop len).2.length := hdrained.popped
  rcases hb with ⟨hle, hget⟩ | ⟨hle, hb⟩
  · refine Or.inl ⟨hk, ?_⟩
    rw [← hdrained.contents, List.getElem?_append_right (by omega)] at hget
    rw [hpopped, ← Nat.sub_sub]
    exact hget
  · exact Or.inr ⟨le_of_eq_of_le hdrained.pushed hle, hb⟩

/-- A step that replaces no byte: a read, or a compatible fragment. -/
def Replaceless (r : Reassembler) : HostileOp → Prop
  | .tryInsert first data _ => r.Compatible first data
  | .pop _ => True
  | .setError => False

/-- `r1` comes after `r` and has every byte that `r` had and that was not read. -/
structure Keeps (r r1 : Reassembler) : Prop where
  repInv : RepInv r1
  noError : r1.output.error = false
  popped : r.output.bytesPopped ≤ r1.output.bytesPopped
  held : ∀ k b, r.HeldAt k b → r1.output.bytesPopped ≤ k → r1.HeldAt k b

theorem Keeps.step {op : HostileOp} (h : Keeps r r1) (hop : r1.Replaceless op)
    (hstep : r1.hostileStep op = .ok r2) : Keeps r r2 := by
  cases op with
  | setError => exact absurd hop id
  | pop len =>
      obtain rfl := Except.ok.inj hstep
      have hdrained := pop_drained r1.output len
      have hpopped : (r1.read len).1.output.bytesPopped
          = r1.output.bytesPopped + (r1.output.pop len).2.length := hdrained.popped
      have hpopped1 := h.popped
      refine ⟨h.repInv.read len, hdrained.error.trans h.noError, by omega, ?_⟩
      intro k b hb hk
      exact read_heldAt len hk (h.held k b hb (by omega))
  | tryInsert first data last =>
      obtain ⟨⟨r3, result⟩, hinsert, hok⟩ := Exec.bind_eq_ok.mp hstep
      obtain rfl := Except.ok.inj hok
      by_cases hc : Consistent r1 first data last
      · obtain ⟨r4, hinsert4, hinv, hins, -⟩ := tryInsert_spec h.repInv hc
        obtain ⟨rfl, rfl⟩ := Prod.mk.inj (Except.ok.inj (hinsert.symm.trans hinsert4))
        obtain ⟨tl, hgrown, -⟩ := hins.grown
        have hkept := (tryInsert_kept_iff h.repInv h.noError hinsert).1.mpr hop
        refine ⟨hinv, hgrown.error.trans h.noError, le_of_le_of_eq h.popped hgrown.popped.symm, ?_⟩
        intro k b hb hk
        exact hkept k b (h.held k b hb (le_of_eq_of_le hgrown.popped.symm hk))
      · obtain ⟨e, hrefused⟩ := tryInsert_inconsistent h.repInv hc
        obtain ⟨rfl, -⟩ := Prod.mk.inj (Except.ok.inj (hinsert.symm.trans hrefused))
        exact h

/-- In every reachable state without an error, a fragment that is taken replaces no byte, and is
stored as if in the gaps, exactly if it is compatible with what is pending; and as long as only
such fragments come, every byte that is held stays until it is read. -/
theorem held_kept_iff {capacity : Nat} {ops : List HostileOp} {r0 : Reassembler}
    (hnew : Reassembler.new capacity = .ok r0) (hrun : Exec.run hostileStep r0 ops = .ok r)
    (herror : r.output.error = false) :
    (∀ first data last r1, r.tryInsert first data last = .ok (r1, .ok ()) →
      ((∀ k b, r.HeldAt k b → r1.HeldAt k b) ↔ r.Compatible first data) ∧
      ∃ r2, insertByGaps { r with eofIndex := r.recordedEof first data last } first data
          (first + data.length) = .ok r2 ∧
        ((r1.output.contents = r2.output.contents ∧ r1.pending = r2.pending) ↔
          r.Compatible first data)) ∧
    ∀ more r3, Exec.RunWhile Replaceless hostileStep r more r3 →
      ∀ k b, r.HeldAt k b → r3.output.bytesPopped ≤ k → r3.HeldAt k b := by
  have h := repInv_run hnew hrun
  refine ⟨fun first data last r1 hinsert => tryInsert_kept_iff h herror hinsert, ?_⟩
  intro more r3 hwhile
  have hstart : Keeps r r := ⟨h, herror, le_refl _, fun _ _ hb _ => hb⟩
  exact (hwhile.invariant (Keeps r) (fun r1 op r2 hkeeps hop hstep => hkeeps.step hop hstep)
    hstart).held

/-- The fragment agrees with the byte that is pending under it. -/
theorem held_kept_agreeing : ∃ r0 r r1, Reassembler.new 10 = .ok r0 ∧
    Exec.run hostileStep r0 [.tryInsert 2 [88] false] = .ok r ∧
    r.tryInsert 0 [97, 98, 88, 100] false = .ok (r1, .ok ()) ∧
    ∀ k b, r.HeldAt k b → r1.HeldAt k b := by
  obtain ⟨r0, hnew, r, hrun, herror, hpending, ⟨r1, result⟩, hinsert, hok⟩ : ∃ r0,
      Reassembler.new 10 = .ok r0 ∧
        ∃ r, Exec.run hostileStep r0 [.tryInsert 2 [88] false] = .ok r ∧
          r.output.error = false ∧ r.pending.entries = [(2, [88])] ∧
          ∃ taken, r.tryInsert 0 [97, 98, 88, 100] false = .ok taken ∧ taken.2 = .ok () := by
    decide +kernel
  obtain rfl : result = .ok () := hok
  have hcompatible : r.Compatible 0 [97, 98, 88, 100] := by
    rintro - k b ⟨x, hx, hle, hget⟩ -
    have hmem : x ∈ r.pending.entries := hx
    rw [hpending, List.mem_singleton] at hmem
    subst hmem
    obtain ⟨hlt, -⟩ := List.getElem?_eq_some_iff.mp hget
    rw [List.length_singleton] at hlt
    obtain rfl : k = 2 := by omega
    exact hget
  exact ⟨r0, r, r1, hnew, hrun, hinsert,
    ((held_kept_iff hnew hrun herror).1 _ _ _ _ hinsert).1.mpr hcompatible⟩

/-- An `X` is pending as the third byte, and `abcd` replaces it. In the gaps it would have gone
around it. -/
theorem pending_byte_replaced : ∃ r0, Reassembler.new 10 = .ok r0 ∧
    ∃ r, Exec.run hostileStep r0 [.tryInsert 2 [88] false] = .ok r ∧
      r.output.error = false ∧ r.HeldAt 2 88 ∧
      (∃ taken, r.tryInsert 0 [97, 98, 99, 100] false = .ok taken ∧ taken.2 = .ok () ∧
        ¬ taken.1.HeldAt 2 88 ∧ taken.1.HeldAt 2 99) ∧
      ∃ r2, insertByGaps r 0 [97, 98, 99, 100] 4 = .ok r2 ∧ r2.HeldAt 2 88 := by
  decide +kernel

end Reassembler

end Minnow
