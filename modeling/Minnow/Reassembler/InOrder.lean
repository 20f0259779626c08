import Minnow.Reassembler.Insert

set_option autoImplicit false

/-! # Data in order

As long as every fragment begins where the output ends and fits into it, nothing is ever
held back: the output grows by the fragment, and by nothing else.
-/

namespace Minnow

namespace Reassembler

open Fragments ByteStream

/-- Nothing is held behind the output. -/
def NoGap (r : Reassembler) : Prop := ∀ k, ¬ Covers r.pending k

variable {r r1 : Reassembler} {first : Nat} {data : Bytes} {last : Bool}

theorem NoGap.not_holds (h : r.NoGap) {k : Nat} {b : UInt8} : ¬ Holds r.pending k b :=
  fun hb => h k (covers_iff_holds.mpr ⟨b, hb⟩)

/-- The fragment lies in the output, except for what the window cuts off. -/
theorem Inserted.due (h : Inserted r r.output.bytesPushed data r1) (hnew : RepInv r1)
    (herror : r.output.error = false) (hgap : r.NoGap)
    (hroom : r.output.bytesPushed + data.length ≤ r.firstUnacceptable) :
    r1.NoGap ∧ Grown r.output data r1.output := by
  obtain ⟨tl, hgrown, htl⟩ := h.grown
  have hpushed := hgrown.pushed
  have hbyte : ∀ (i : Nat) b, tl[i]? = some b → data[i]? = some b := by
    intro i b hb
    rcases htl i b hb with hheld | ⟨-, hget⟩
    · exact absurd hheld hgap.not_holds
    · rwa [Nat.add_sub_cancel_left] at hget
  -- the first position the output lacks would be held, but what is held lies behind it
  have hall : data.length ≤ tl.length := by
    by_contra hshort
    have hreached : r1.Reached r1.output.bytesPushed := by
      apply (h.reached herror _).mpr
      exact Or.inr ⟨by omega, by omega, by omega⟩
    rcases hreached with hlt | hcov
    · exact absurd hlt (lt_irrefl _)
    · exact absurd (hnew.ahead _ hcov) (lt_irrefl _)
  have hsame : tl = data := by
    apply List.ext_getElem?
    intro i
    by_cases hi : i < tl.length
    · rw [hbyte i tl[i] (List.getElem?_eq_getElem hi), List.getElem?_eq_getElem hi]
    · rw [List.getElem?_eq_none (by omega), List.getElem?_eq_none (by omega)]
  subst hsame
  refine ⟨?_, hgrown⟩
  intro k hcov
  obtain ⟨b, hb⟩ := covers_iff_holds.mp hcov
  have hahead := hnew.ahead k hcov
  rcases h.holds k b hb with hheld | ⟨hle, hget⟩
  · exact hgap.not_holds hheld
  · obtain ⟨hlt, -⟩ := List.getElem?_eq_some_iff.mp hget
    omega

/-- A fragment that comes next, fits and does not contradict a recorded end is taken whole. -/
theorem tryInsert_due (h : RepInv r) (hgap : r.NoGap) (herror : r.output.error = false)
    (hmax : r.output.bytesPushed + data.length ≤ u64Max)
    (hroom : data.length ≤ r.output.availableCapacity)
    (hend : ∀ eof ∈ r.eofIndex, r.output.bytesPushed + data.length ≤ eof ∧
      (last = true → eof = r.output.bytesPushed + data.length)) :
    ∃ r1, r.tryInsert r.output.bytesPushed data last = .ok (r1, .ok ()) ∧ RepInv r1 ∧
      r1.NoGap ∧ Grown r.output data r1.output := by
  have hconsistent : Consistent r r.output.bytesPushed data last :=
    { fits := hmax
      beforeEof := fun eof heof => (hend eof heof).1
      sameEof := fun hlast eof heof => (hend eof heof).2 hlast
      pushed_le := fun _ => Nat.le_add_right _ _
      covers_lt := fun _ k hk => absurd hk (hgap k) }
  obtain ⟨r1, hinsert, hrep, hins, -⟩ := tryInsert_spec h hconsistent
  have hinside : r.output.bytesPushed + data.length ≤ r.firstUnacceptable := by
    have hpushed := r.output.pushed_eq
    have hbuffered := r.output.buffered_le
    unfold firstUnacceptable saturatingAdd
    unfold availableCapacity at hroom
    omega
  obtain ⟨hgap1, hgrown⟩ := hins.due hrep herror hgap hinside
  exact ⟨r1, hinsert, hrep, hgap1, hgrown⟩

/-- With nothing held, an output that grows by the length of a fragment was given the fragment: it
begins where the output ended, and fits. -/
theorem Inserted.next_of_grown (h : Inserted r first data r1) (hgap : r.NoGap)
    (herror : r.output.error = false) (hpos : 0 < data.length)
    (hgrow : r.output.bytesPushed + data.length ≤ r1.output.bytesPushed) :
    first = r.output.bytesPushed ∧ data.length ≤ r.output.availableCapacity := by
  -- every new position of the output comes from the fragment
  have hnew : ∀ k, r.output.bytesPushed ≤ k → k < r.output.bytesPushed + data.length →
      first ≤ k ∧ k < first + data.length ∧ k < r.firstUnacceptable := by
    intro k hlower hupper
    have hreached : r1.Reached k := Or.inl (lt_of_lt_of_le hupper hgrow)
    rcases (h.reached herror k).mp hreached with (hlt | hcov) | hinside
    · exact absurd hlt (Nat.not_lt.mpr hlower)
    · exact absurd hcov (hgap k)
    · exact hinside
  obtain ⟨hfirst, -, -⟩ := hnew _ (le_refl _) (by omega)
  obtain ⟨-, hlast, hroom⟩ := hnew (r.output.bytesPushed + data.length - 1) (by omega) (by omega)
  have hwindow := r.firstUnacceptable_le
  exact ⟨by omega, by omega⟩

/-- A fragment without bytes changes neither the output nor what is held. -/
theorem Inserted.empty (h : Inserted r first [] r1) (hgap : r.NoGap) :
    r1.NoGap ∧ Grown r.output [] r1.output := by
  obtain ⟨tl, hgrown, htl⟩ := h.grown
  have hnil : tl = [] := by
    apply List.eq_nil_iff_forall_not_mem.mpr
    intro b hb
    obtain ⟨i, hi⟩ := List.mem_iff_getElem?.mp hb
    rcases htl i b hi with hheld | ⟨-, hget⟩
    · exact hgap.not_holds hheld
    · simp at hget
  subst hnil
  refine ⟨?_, hgrown⟩
  intro k hcov
  obtain ⟨b, hb⟩ := covers_iff_holds.mp hcov
  rcases h.holds k b hb with hheld | ⟨-, hget⟩
  · exact hgap.not_holds hheld
  · simp at hget

/-- That holds for every fragment without bytes, also for one that is refused. -/
theorem tryInsert_nil {result : Except ReassemblerError Unit} (h : RepInv r) (hgap : r.NoGap)
    (hrun : r.tryInsert first [] last = .ok (r1, result)) :
    RepInv r1 ∧ r1.NoGap ∧ Grown r.output [] r1.output := by
  by_cases hc : Consistent r first [] last
  · obtain ⟨r2, hrun2, hinv, hins, -⟩ := tryInsert_spec h hc
    rw [hrun, Except.ok.injEq, Prod.mk.injEq] at hrun2
    obtain ⟨rfl, -⟩ := hrun2
    exact ⟨hinv, hins.empty hgap⟩
  · obtain ⟨e, hrun2⟩ := tryInsert_inconsistent h hc
    rw [hrun, Except.ok.injEq, Prod.mk.injEq] at hrun2
    obtain ⟨rfl, -⟩ := hrun2
    exact ⟨h, hgap, (Appended.refl r1.output).toGrown⟩

end Reassembler

end Minnow
