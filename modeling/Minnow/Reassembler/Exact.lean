import Minnow.Reassembler.Loops
import Mathlib.Logic.Relation

set_option autoImplicit false

/-! # The two loops on any pending map

The reassembler keeps its window ahead of the output, so its own runs never flush a stale fragment
or into an output without room. The loops do not rely on that. Of the pending map they need that
its fragments are non-empty and disjoint and end within 64 bits, and of the output nothing.

* `insertMissingGaps_exact`: a fragment is stored where nothing was held, and nowhere else.
* `flushContiguous_exact`: a flush moves all the output takes, and loses nothing.
-/

namespace Minnow

namespace Reassembler

open Fragments

variable {m m1 : Pending} {output output1 : ByteStream} {start : Nat} {frag : Bytes}

theorem covers_lt_max (hends : ∀ x ∈ m, x.1 + x.2.length ≤ u64Max) :
    ∀ k, Covers m k → k < u64Max := by
  rintro k ⟨x, hx, -, hk⟩
  exact lt_of_lt_of_le hk (hends x hx)

/-! ## Storing a fragment -/

/-- A fragment that ends within 64 bits is stored. No insertion meets a key that is there, for the
assertion of `insert_gap` holds each time, and every entry of the map stays. The new map covers
what the old one covered and the interval of the fragment, and where nothing was held it holds the
byte of the fragment. A fragment that ends behind is stopped by the checked addition. -/
theorem insertMissingGaps_exact (hwf : WellFormed m)
    (hends : ∀ x ∈ m, x.1 + x.2.length ≤ u64Max) (start : Nat) {data : Bytes}
    (hdata : 0 < data.length) :
    (start + data.length ≤ u64Max → ∃ m1, insertMissingGaps m start data = .ok m1 ∧
      WellFormed m1 ∧ (∀ x ∈ m, x ∈ m1) ∧
      (∀ k, Covers m1 k ↔ Covers m k ∨ (start ≤ k ∧ k < start + data.length)) ∧
      (∀ k b, Holds m k b → Holds m1 k b) ∧
      ∀ k b, start ≤ k → data[k - start]? = some b → ¬ Covers m k → Holds m1 k b) ∧
    (u64Max < start + data.length → insertMissingGaps m start data = .error .expectation) := by
  constructor
  · intro hmax
    obtain ⟨m1, hrun, hfill⟩ := insertMissingGaps_spec hwf (covers_lt_max hends) hmax
    refine ⟨m1, hrun, hfill.wellFormed, hfill.kept, hfill.covers (le_refl _) (le_refl _), ?_, ?_⟩
    · intro k b hb
      exact (hfill.holds k b).mpr (Or.inl hb)
    · intro k b hk hget hfree
      obtain ⟨hlt, -⟩ := List.getElem?_eq_some_iff.mp hget
      exact (hfill.holds k b).mpr (Or.inr ⟨hfree, hk, by omega, hget⟩)
  · intro hover
    have hne : data ≠ [] := List.length_pos_iff.mp hdata
    rw [insertMissingGaps, if_neg hne, checkedAdd_eq_none.mpr hover]
    rfl

/-- Two fragments with a gap between them. -/
def apart : Pending := (SortedMap.empty.insert 2 [12, 13]).insert 6 [16]

/-- A fragment from 1 to 8 fills the gaps before, between and behind the two. -/
theorem insertMissingGaps_exact_apart : ∃ m1,
    insertMissingGaps apart 1 [21, 22, 23, 24, 25, 26, 27] = .ok m1 ∧ (2, [12, 13]) ∈ m1 ∧
    Holds m1 1 21 ∧ Holds m1 2 12 ∧ Holds m1 4 24 ∧ Covers m1 7 ∧ ¬ Covers m1 8 := by
  have hwf : WellFormed apart := by
    constructor
    · show ∀ x ∈ apart.entries, x.2 ≠ []
      decide
    · show ∀ x ∈ apart.entries, ∀ y ∈ apart.entries, x.1 < y.1 → x.1 + x.2.length ≤ y.1
      decide
  have hends : ∀ x ∈ apart.entries, x.1 + x.2.length ≤ u64Max := by decide
  have hdata : 0 < ([21, 22, 23, 24, 25, 26, 27] : Bytes).length := by decide
  have hmem : (2, [12, 13]) ∈ apart.entries := by decide
  have hfree : ∀ x ∈ apart.entries, ¬ (x.1 ≤ 1 ∧ 1 < x.1 + x.2.length) ∧
      ¬ (x.1 ≤ 4 ∧ 4 < x.1 + x.2.length) ∧ ¬ (x.1 ≤ 8 ∧ 8 < x.1 + x.2.length) := by
    decide
  obtain ⟨m1, hrun, -, hkept, hcovers, hholds, hfilled⟩ :=
    (insertMissingGaps_exact hwf hends 1 hdata).1 (by decide)
  refine ⟨m1, hrun, hkept _ hmem, ?_, ?_, ?_, ?_, ?_⟩
  · exact hfilled 1 21 (by decide) rfl (fun ⟨x, hx, hk⟩ => (hfree x hx).1 hk)
  · exact hholds 2 12 (by decide)
  · exact hfilled 4 24 (by decide) rfl (fun ⟨x, hx, hk⟩ => (hfree x hx).2.1 hk)
  · exact (hcovers 7).mpr (Or.inr (by decide))
  · rw [hcovers]
    rintro (⟨x, hx, hk⟩ | h)
    · exact (hfree x hx).2.2 hk
    · exact absurd h (by decide)

/-! ## Flushing -/

theorem tidy_of_rounds {s s1 : ByteStream × Pending} (h : Relation.ReflTransGen Round s s1)
    (hs : Tidy s.2) : Tidy s1.2 := by
  induction h with
  | refl => exact hs
  | tail _ hround ih => exact hround.tidy ih

/-- If the byte that comes next is pending, the output has refused it. -/
theorem Exhausted.refuses (h : Exhausted output m output1 m1)
    (hcov : Covers m output1.bytesPushed) : output1.Refuses := by
  obtain ⟨b, hb⟩ := covers_iff_holds.mp hcov
  obtain ⟨x, hx, hxk, -⟩ := (h.holds _ b).mpr ⟨hb, le_refl _⟩
  rcases h.rest x hx with ⟨-, hahead⟩ | ⟨-, hrefuses, -⟩
  · exact absurd hxk (Nat.not_le.mpr hahead)
  · exact hrefuses

/-- Whatever the output is like, a flush ends and exhausts what is pending: the bytes it moved are
the pending ones from the end of the output on, the next one is not pending or refused, and what
is left lies behind, is part of what was pending, and starts at the end of the output only if the
output refuses it. In no round does a trim overwrite another fragment. -/
theorem flushContiguous_exact {r : Reassembler} (hwf : WellFormed r.pending)
    (hends : ∀ x ∈ r.pending, x.1 + x.2.length ≤ u64Max) :
    (∃ r1, flushContiguous r = .ok r1 ∧ r1.eofIndex = r.eofIndex ∧
      Exhausted r.output r.pending r1.output r1.pending ∧
      (Covers r.pending r1.output.bytesPushed → r1.output.Refuses)) ∧
    ∀ output1 m1 start frag, Relation.ReflTransGen Round (r.output, r.pending) (output1, m1) →
      m1.first? = some (start, frag) → start < output1.bytesPushed →
        ∃ m2, trimStalePrefix m1 start output1.bytesPushed = .ok m2 ∧
          ∀ x ∈ m1, x ≠ (start, frag) → x ∈ m2 := by
  have htidy : Tidy r.pending := ⟨hwf, hends⟩
  constructor
  · obtain ⟨output1, m1, hrun, hflush⟩ : ∃ output1 m1, flushLoop (2 * r.pending.length) r.output
        r.pending = .ok (output1, m1) ∧ Exhausted r.output r.pending output1 m1 :=
      flushLoop_exhausts htidy ⟨Nat.le_succ _, fun _ => le_refl _⟩
    refine ⟨{ r with output := output1, pending := m1 }, ?_, rfl, hflush, hflush.refuses⟩
    rw [flushContiguous, hrun]
    rfl
  · intro output1 m1 start frag hrounds hfirst hlt
    have htidy1 : Tidy m1 := tidy_of_rounds hrounds htidy
    have hmem := (SortedMap.first?_spec hfirst).1
    obtain ⟨m2, hm2, hcut⟩ :=
      trimStalePrefix_spec htidy1.wellFormed hmem hlt (htidy1.ends _ hmem)
    refine ⟨m2, hm2, ?_⟩
    intro x hx hne
    -- the key of the trimmed fragment is its own
    have hkey : x.1 ≠ start := fun hkey => hne (SortedMap.eq_of_key_eq hx hmem hkey)
    exact (hcut.mem_iff x).mpr (Or.inl ⟨hx, hkey⟩)

/-- The output ends at 3 and has room for one more byte; a fragment reaches back behind its end. -/
def reachingBack : Reassembler where
  output := ((ByteStream.new 4).push [1, 2, 3]).1
  pending := (SortedMap.empty.insert 1 [2, 3, 4, 5]).insert 6 [7]
  eofIndex := none

theorem flushContiguous_exact_reachingBack : ∃ r1, flushContiguous reachingBack = .ok r1 ∧
    r1.output.bytesPushed = 4 ∧ r1.output.Refuses ∧ Holds r1.pending 4 5 ∧
    ∃ m2, trimStalePrefix reachingBack.pending 1 3 = .ok m2 ∧ (6, [7]) ∈ m2 := by
  have hwf : WellFormed reachingBack.pending := by
    constructor
    · show ∀ x ∈ reachingBack.pending.entries, x.2 ≠ []
      decide
    · show ∀ x ∈ reachingBack.pending.entries, ∀ y ∈ reachingBack.pending.entries,
        x.1 < y.1 → x.1 + x.2.length ≤ y.1
      decide
  have hends : ∀ x ∈ reachingBack.pending.entries, x.1 + x.2.length ≤ u64Max := by decide
  obtain ⟨⟨r1, hrun, -, hflush, hrefuses⟩, htrims⟩ := flushContiguous_exact hwf hends
  have hpushed : ∃ r1, flushContiguous reachingBack = .ok r1 ∧ r1.output.bytesPushed = 4 := by
    decide +kernel
  obtain ⟨r2, hrun2, hend⟩ := hpushed
  obtain rfl := Except.ok.inj (hrun.symm.trans hrun2)
  have hheld : Holds reachingBack.pending 4 5 := by decide
  refine ⟨r1, hrun, hend, ?_, (hflush.holds 4 5).mpr ⟨hheld, le_of_eq hend⟩, ?_⟩
  · apply hrefuses
    rw [hend]
    exact covers_iff_holds.mpr ⟨5, hheld⟩
  · obtain ⟨m2, hm2, hkept⟩ := htrims _ _ 1 [2, 3, 4, 5] .refl (by decide) (by decide)
    have hmem : (6, [7]) ∈ reachingBack.pending.entries := by decide
    exact ⟨m2, hm2, hkept _ hmem (by decide)⟩

end Reassembler

end Minnow
