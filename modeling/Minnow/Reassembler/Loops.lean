import Minnow.Reassembler.Basic

set_option autoImplicit false

/-! # The loops of the reassembler

What the two loops do to the pending map, described by the positions the fragments hold.

* `fillGaps_spec`: the gaps of an interval are filled with the new fragment's bytes, and
  whatever was held before stays.
* `Round`, `round_or_stop`: a round of the flush trims the first fragment or moves it whole, or it
  is the last.
* `flushLoop_exhausts`: the bytes that are contiguous with the output move there as far as it
  takes them; the positions from the new end of the output on are held as before.
* `flushLoop_spec`: the same for an output that has room for all that is pending.
-/

namespace Minnow

namespace Reassembler

open Fragments

/-! ## Filling gaps -/

/-- `m1` is `m` with the positions of `[lo, hi)` that were free filled from `data`, which
starts at `start`. -/
structure Filled (m : Pending) (start : Nat) (data : Bytes) (lo hi : Nat) (m1 : Pending) :
    Prop where
  wellFormed : WellFormed m1
  kept : ∀ x ∈ m, x ∈ m1
  holds : ∀ k b, Holds m1 k b ↔
    Holds m k b ∨ (¬ Covers m k ∧ lo ≤ k ∧ k < hi ∧ data[k - start]? = some b)

variable {m m1 m2 : Pending} {start lo mid mid1 hi : Nat} {data : Bytes}

theorem Filled.refl (hwf : WellFormed m) (start : Nat) (data : Bytes) (lo : Nat) :
    Filled m start data lo lo m where
  wellFormed := hwf
  kept := fun _ hx => hx
  holds := by
    intro k b
    constructor
    · exact Or.inl
    · rintro (h | ⟨-, hlo, hhi, -⟩)
      · exact h
      · omega

/-- The filled positions are covered, and no others are added. -/
theorem Filled.covers (h : Filled m start data lo hi m1) (hlo : start ≤ lo)
    (hhi : hi ≤ start + data.length) (k : Nat) :
    Covers m1 k ↔ Covers m k ∨ (lo ≤ k ∧ k < hi) := by
  rw [covers_iff_holds, covers_iff_holds]
  constructor
  · rintro ⟨b, hb⟩
    rcases (h.holds k b).mp hb with hb | ⟨-, h1, h2, -⟩
    · exact Or.inl ⟨b, hb⟩
    · exact Or.inr ⟨h1, h2⟩
  · rintro (⟨b, hb⟩ | ⟨h1, h2⟩)
    · exact ⟨b, (h.holds k b).mpr (Or.inl hb)⟩
    · by_cases hcov : Covers m k
      · obtain ⟨b, hb⟩ := covers_iff_holds.mp hcov
        exact ⟨b, (h.holds k b).mpr (Or.inl hb)⟩
      · have hin : k - start < data.length := by omega
        exact ⟨data[k - start],
          (h.holds k _).mpr (Or.inr ⟨hcov, h1, h2, List.getElem?_eq_getElem hin⟩)⟩

/-- Two stretches with a covered one in between. -/
theorem Filled.trans (h1 : Filled m start data lo mid m1) (h2 : Filled m1 start data mid1 hi m2)
    (hstart : start ≤ lo) (hmid : mid ≤ start + data.length) (hlo : lo ≤ mid) (hmm : mid ≤ mid1)
    (hhi : mid1 ≤ hi) (hcov : ∀ k, mid ≤ k → k < mid1 → Covers m k) :
    Filled m start data lo hi m2 where
  wellFormed := h2.wellFormed
  kept := fun x hx => h2.kept x (h1.kept x hx)
  holds := by
    intro k b
    rw [h2.holds, h1.holds, h1.covers hstart hmid]
    constructor
    · rintro ((hb | ⟨hfree, hle, hlt, hget⟩) | ⟨hfree, hle, hlt, hget⟩)
      · exact Or.inl hb
      · exact Or.inr ⟨hfree, hle, by omega, hget⟩
      · exact Or.inr ⟨fun hc => hfree (Or.inl hc), by omega, hlt, hget⟩
    · rintro (hb | ⟨hfree, hle, hlt, hget⟩)
      · exact Or.inl (Or.inl hb)
      · -- a free position lies in the first stretch or in the second, not in between
        by_cases hk : k < mid
        · exact Or.inl (Or.inr ⟨hfree, hle, hk, hget⟩)
        · have hk1 : mid1 ≤ k := by
            by_contra hcon
            exact hfree (hcov k (by omega) (by omega))
          refine Or.inr ⟨?_, hk1, hlt, hget⟩
          rintro (hc | hc)
          · exact hfree hc
          · omega

theorem insertGap_spec (hwf : WellFormed m) (hlt : lo < hi) (hstart : start ≤ lo)
    (hend : hi ≤ start + data.length) (hfree : ∀ k, lo ≤ k → k < hi → ¬ Covers m k) :
    ∃ m1, insertGap m start data lo hi = .ok m1 ∧ Filled m start data lo hi m1 := by
  have hgap : sliceRange data (lo - start) (hi - start)
      = .ok ((data.take (hi - start)).drop (lo - start)) := sliceRange_of_le (by omega) (by omega)
  set gap := (data.take (hi - start)).drop (lo - start) with hgapdef
  have hlen : gap.length = hi - lo := by
    rw [hgapdef, List.length_drop, List.length_take]
    omega
  have hne : gap ≠ [] := by
    rw [← List.length_pos_iff]
    omega
  have hkey : ∀ x ∈ m, x.1 ≠ lo := hwf.key_ne (hfree lo (le_refl _) hlt)
  refine ⟨m.insert lo gap, ?_, ?_, fun x hx => SortedMap.mem_insert.mpr (Or.inr ⟨hx, hkey x hx⟩), ?_⟩
  · rw [insertGap, if_neg (by omega), checkedSub_of_le hstart, checkedSub_of_le (by omega)]
    simp only [Exec.expect_some, Exec.ok_bind, hgap,
      Exec.assert_pos (SortedMap.get?_eq_none.mpr hkey)]
  · refine hwf.insert hne (fun k h1 h2 => hfree k h1 ?_)
    omega
  · intro k b
    rw [holds_insert hkey]
    -- the gap holds the bytes of `data` at the same positions
    have hget : lo ≤ k → (gap[k - lo]? = some b ↔ k < hi ∧ data[k - start]? = some b) := by
      intro hle
      rw [hgapdef, List.getElem?_drop, List.getElem?_take]
      have hidx : lo - start + (k - lo) = k - start := by omega
      rw [hidx]
      split_ifs with hin
      · simp only [iff_and_self]
        intro _
        omega
      · simp only [false_iff, not_and]
        omega
    constructor
    · rintro (hb | ⟨hle, hb⟩)
      · exact Or.inl hb
      · obtain ⟨hk, hb⟩ := (hget hle).mp hb
        exact Or.inr ⟨hfree k hle hk, hle, hk, hb⟩
    · rintro (hb | ⟨-, hle, hk, hb⟩)
      · exact Or.inl hb
      · exact Or.inr ⟨hle, (hget hle).mpr ⟨hk, hb⟩⟩

/-- A round fills the gap before the next fragment, if there is one. -/
theorem insertGap_before (hwf : WellFormed m) (hle : lo ≤ hi) (hstart : start ≤ lo)
    (hend : hi ≤ start + data.length) (hfree : ∀ k, lo ≤ k → k < hi → ¬ Covers m k) :
    ∃ m1, (if lo < hi then insertGap m start data lo hi else .ok m) = .ok m1 ∧
      Filled m start data lo hi m1 := by
  by_cases hlt : lo < hi
  · rw [if_pos hlt]
    exact insertGap_spec hwf hlt hstart hend hfree
  · obtain rfl : lo = hi := by omega
    rw [if_neg hlt]
    exact ⟨m, rfl, Filled.refl hwf start data lo⟩

/-- The cursor loop fills everything from the cursor to the end of the fragment. It ends
because a round moves the cursor behind a non-empty fragment. -/
theorem fillGaps_spec :
    ∀ (budget cursor : Nat) (m : Pending), WellFormed m →
      (∀ k, Covers m k → k < u64Max) → start ≤ cursor → cursor ≤ start + data.length →
      (cursor < start + data.length → ∀ x ∈ m, x.1 < cursor → x.1 + x.2.length ≤ cursor) →
      start + data.length ≤ cursor + budget →
      ∃ m1, fillGaps start data (start + data.length) budget cursor m = .ok m1 ∧
        Filled m start data cursor (start + data.length) m1 := by
  intro budget
  induction budget with
  | zero =>
      -- the budget bounds what is left, so the cursor is at the end
      intro cursor m hwf _ _ hle _ hbudget
      have hcursor : cursor = start + data.length := by omega
      refine ⟨m, ?_, hcursor ▸ Filled.refl hwf start data cursor⟩
      unfold fillGaps
      rw [if_neg (by omega)]
  | succ budget ih =>
      intro cursor m hwf hcovmax hstart hle hbehind hbudget
      unfold fillGaps
      by_cases hcursor : cursor < start + data.length
      swap
      · have heq : cursor = start + data.length := by omega
        rw [if_neg hcursor]
        exact ⟨m, rfl, heq ▸ Filled.refl hwf start data cursor⟩
      rw [if_pos hcursor]
      cases hnext : m.firstIn? cursor (start + data.length) with
      | none =>
          -- nothing starts in the rest of the interval, so the rest is one gap
          have hfree := SortedMap.firstIn?_eq_none.mp hnext
          exact insertGap_spec hwf hcursor hstart (le_refl _)
            (fun k => not_covers_of_gap (hbehind hcursor) hfree)
      | some next =>
          obtain ⟨nextStart, nextData⟩ := next
          obtain ⟨hmem, hn1, hn2, hfirst⟩ := SortedMap.firstIn?_spec hnext
          have hpos := hwf.length_pos hmem
          simp only at hn1 hn2 hfirst hpos
          have hnextmax : nextStart + nextData.length ≤ u64Max := hwf.end_le hmem hcovmax
          obtain ⟨m1, hm1, hfill⟩ := insertGap_before hwf hn1 hstart (le_of_lt hn2)
            (fun k => not_covers_of_gap (hbehind hcursor) hfirst)
          simp only [hm1, Exec.ok_bind]
          rw [saturatingAdd_of_le hnextmax, max_eq_right (by omega)]
          have hcovmax1 : ∀ k, Covers m1 k → k < u64Max := by
            intro k hk
            rcases (hfill.covers hstart (le_of_lt hn2) k).mp hk with hk | hk
            · exact hcovmax k hk
            · omega
          set cursor1 := min (nextStart + nextData.length) (start + data.length) with hcursor1
          -- the cursor stands behind the fragment at `nextStart`, which no other one crosses
          have hbehind1 : cursor1 < start + data.length →
              ∀ x ∈ m1, x.1 < cursor1 → x.1 + x.2.length ≤ cursor1 := by
            intro hlt x hx hxlt
            have hend : cursor1 = nextStart + nextData.length := by omega
            rw [hend] at hxlt ⊢
            exact hfill.wellFormed.ends_by (hfill.kept _ hmem) hx hxlt
          obtain ⟨m2, hm2, hrest⟩ := ih cursor1 m1 hfill.wellFormed hcovmax1 (by omega) (by omega)
            hbehind1 (by omega)
          refine ⟨m2, hm2, hfill.trans hrest hstart (le_of_lt hn2) hn1 (by omega) (by omega) ?_⟩
          intro k hk1 hk2
          have hk3 : k < nextStart + nextData.length := by omega
          exact ⟨_, hmem, hk1, hk3⟩

/-- The whole fragment is stored, except where something is held already. -/
theorem insertMissingGaps_spec (hwf : WellFormed m) (hcovmax : ∀ k, Covers m k → k < u64Max)
    (hmax : start + data.length ≤ u64Max) :
    ∃ m1, insertMissingGaps m start data = .ok m1 ∧
      Filled m start data start (start + data.length) m1 := by
  unfold insertMissingGaps
  by_cases hnil : data = []
  · rw [if_pos hnil, hnil, List.length_nil, Nat.add_zero]
    exact ⟨m, rfl, Filled.refl hwf start [] start⟩
  · rw [if_neg hnil, checkedAdd_of_le hmax]
    simp only [Exec.expect_some, Exec.ok_bind]
    cases hlast : m.lastUpTo? start with
    | none =>
        -- no fragment starts at or before the new one
        have hbehind := SortedMap.lastUpTo?_eq_none.mp hlast
        refine fillGaps_spec _ start m hwf hcovmax (le_refl _) (by omega) ?_ (by omega)
        intro _ x hx hxlt
        have := hbehind x hx
        omega
    | some previous =>
        obtain ⟨previousStart, previousData⟩ := previous
        obtain ⟨hmem, hle, hmaxkey⟩ := SortedMap.lastUpTo?_spec hlast
        have hpos := hwf.length_pos hmem
        simp only at hle hmaxkey hpos ⊢
        have hprevmax : previousStart + previousData.length ≤ u64Max := hwf.end_le hmem hcovmax
        rw [saturatingAdd_of_le hprevmax]
        by_cases hover : start < previousStart + previousData.length
        · -- the cursor skips what the previous fragment covers
          rw [if_pos hover]
          set cursor := min (previousStart + previousData.length) (start + data.length)
          have hbehind1 : cursor < start + data.length →
              ∀ x ∈ m, x.1 < cursor → x.1 + x.2.length ≤ cursor := by
            intro hlt x hx hxlt
            have hcursor : cursor = previousStart + previousData.length := by omega
            rw [hcursor] at hxlt ⊢
            exact hwf.ends_by hmem hx hxlt
          obtain ⟨m1, hm1, hfill⟩ := fillGaps_spec data.length cursor m hwf hcovmax (by omega)
            (by omega) hbehind1 (by omega)
          have hcov : ∀ k, start ≤ k → k < cursor → Covers m k := by
            intro k hk1 hk2
            have hk3 : k < previousStart + previousData.length := by omega
            exact ⟨_, hmem, le_trans hle hk1, hk3⟩
          exact ⟨m1, hm1, (Filled.refl hwf start data start).trans hfill (le_refl _)
            (Nat.le_add_right _ _) (le_refl _) (by omega) (by omega) hcov⟩
        · rw [if_neg hover]
          refine fillGaps_spec _ start m hwf hcovmax (le_refl _) (by omega) ?_ (by omega)
          -- what starts below the cursor starts at the previous fragment or before it
          intro _ x hx hxlt
          have hkey := hmaxkey x hx (le_of_lt hxlt)
          calc x.1 + x.2.length
              ≤ previousStart + previousData.length := hwf.ends_by hmem hx (by simp only; omega)
            _ ≤ start := Nat.not_lt.mp hover

/-! ## Flushing -/

/-- `output1` and `m1` are what is left when the bytes contiguous with `output` have moved
there from `m`. -/
structure Flushed (output : ByteStream) (m : Pending) (output1 : ByteStream) (m1 : Pending) :
    Prop where
  wellFormed : WellFormed m1
  appended : ∃ tl, ByteStream.Appended output tl output1 ∧
    ∀ i b, tl[i]? = some b → Holds m (output.bytesPushed + i) b
  holds : ∀ k b, Holds m1 k b ↔ Holds m k b ∧ output1.bytesPushed ≤ k
  ahead : output.Accepting → ∀ x ∈ m1, output1.bytesPushed < x.1

variable {output output1 output2 : ByteStream}

/-- The first fragment loses what is stale; nothing is overwritten. -/
theorem trimStalePrefix_spec {start next : Nat} {frag : Bytes} (hwf : WellFormed m)
    (hmem : (start, frag) ∈ m) (hlt : start < next) (hmax : start + frag.length ≤ u64Max) :
    ∃ m1, trimStalePrefix m start next = .ok m1 ∧ Cut m start frag next m1 := by
  unfold trimStalePrefix
  rw [SortedMap.get?_eq_some.mpr hmem, Exec.expect_some, Exec.ok_bind]
  dsimp only
  rw [saturatingAdd_of_le hmax]
  by_cases hend : start + frag.length ≤ next
  · -- stale as a whole: it is dropped
    rw [if_pos hend]
    exact ⟨_, rfl, hwf.cut_remove hmem hend⟩
  · -- its rest goes back under the key `next`
    rw [if_neg hend, checkedSub_of_le (le_of_lt hlt), Exec.expect_some, Exec.ok_bind,
      sliceFrom_of_le (by omega)]
    exact ⟨_, rfl, hwf.cut_insert hmem (le_of_lt hlt) (Nat.not_le.mp hend)⟩

/-- What a flush leaves, whatever the output accepts: a fragment that starts where the output now
ends is there because the output refused it. -/
structure Exhausted (output : ByteStream) (m : Pending) (output1 : ByteStream) (m1 : Pending) :
    Prop where
  wellFormed : WellFormed m1
  appended : ∃ tl, ByteStream.Appended output tl output1 ∧
    ∀ i b, tl[i]? = some b → Holds m (output.bytesPushed + i) b
  untouched : ¬ output.Accepting → output1 = output
  holds : ∀ k b, Holds m1 k b ↔ Holds m k b ∧ output1.bytesPushed ≤ k
  rest : ∀ x ∈ m1, (x ∈ m ∧ output1.bytesPushed < x.1) ∨
    (x.1 = output1.bytesPushed ∧ output1.Refuses ∧ TailOf m x)

theorem Exhausted.refl (hwf : WellFormed m) (hahead : ∀ x ∈ m, output.bytesPushed < x.1) :
    Exhausted output m output m where
  wellFormed := hwf
  appended := ⟨[], ByteStream.Appended.refl output, by simp⟩
  untouched := fun _ => rfl
  holds := by
    intro k b
    refine (and_iff_left_of_imp ?_).symm
    rintro ⟨x, hx, hxk, -⟩
    exact le_trans (le_of_lt (hahead x hx)) hxk
  rest := fun x hx => Or.inl ⟨hx, hahead x hx⟩

/-- A flush may be preceded by cutting off what is stale. -/
theorem Exhausted.of_trim {start : Nat} {frag : Bytes} (hmem : (start, frag) ∈ m)
    (hlt : start < output.bytesPushed) (hcut : Cut m start frag output.bytesPushed m1)
    (h : Exhausted output m1 output1 m2) : Exhausted output m output1 m2 where
  wellFormed := h.wellFormed
  appended := by
    obtain ⟨tl, happ, htl⟩ := h.appended
    refine ⟨tl, happ, fun i b hb => ?_⟩
    exact (hcut.holds_iff hmem (le_of_lt hlt) (Nat.le_add_right _ _)).mp (htl i b hb)
  untouched := h.untouched
  holds := by
    intro k b
    obtain ⟨tl, happ, -⟩ := h.appended
    have hpushed := happ.pushed
    rw [h.holds]
    apply and_congr_left
    intro hk
    exact hcut.holds_iff hmem (le_of_lt hlt) (by omega)
  rest := by
    intro x hx
    obtain ⟨tl, happ, -⟩ := h.appended
    have hpushed := happ.pushed
    rcases h.rest x hx with ⟨hx1, hahead⟩ | ⟨hkey, hrefuses, htail⟩
    · exact Or.inl ⟨(hcut.frame (le_of_lt hlt) (by omega)).mp hx1, hahead⟩
    · exact Or.inr ⟨hkey, hrefuses, htail.trans (hcut.tails hmem (le_of_lt hlt))⟩

/-- A flush may be preceded by moving the first fragment to an output that takes all of it. -/
theorem Exhausted.of_push {frag : Bytes} (hwf : WellFormed m)
    (hmem : (output.bytesPushed, frag) ∈ m) (hacc : output.Accepting)
    (happ : ByteStream.Appended output frag output1)
    (h : Exhausted output1 (m.remove output.bytesPushed) output2 m2) :
    Exhausted output m output2 m2 where
  wellFormed := h.wellFormed
  appended := by
    obtain ⟨tl, happ1, htl⟩ := h.appended
    refine ⟨frag ++ tl, happ.trans happ1, ?_⟩
    intro i b hb
    rw [List.getElem?_append] at hb
    split_ifs at hb with hi
    · exact ⟨_, hmem, Nat.le_add_right _ _, by simpa using hb⟩
    · -- behind the fragment: what the rest of the flush appends
      have hpos : output1.bytesPushed + (i - frag.length) = output.bytesPushed + i := by
        rw [happ.pushed]
        omega
      have hrest := htl (i - frag.length) b hb
      rw [hpos] at hrest
      exact ((hwf.holds_remove hmem).mp hrest).1
  untouched := fun hno => absurd hacc hno
  holds := by
    intro k b
    obtain ⟨tl, happ1, -⟩ := h.appended
    have h1 := happ.pushed
    have h2 := happ1.pushed
    have hrem := hwf.holds_remove (k := k) (b := b) hmem
    rw [h.holds, hrem]
    constructor
    · rintro ⟨⟨hb, -⟩, hk⟩
      exact ⟨hb, hk⟩
    · rintro ⟨hb, hk⟩
      exact ⟨⟨hb, by simp only; omega⟩, hk⟩
  rest := by
    intro x hx
    rcases h.rest x hx with ⟨hx1, hahead⟩ | ⟨hkey, hrefuses, htail⟩
    · exact Or.inl ⟨(SortedMap.mem_remove.mp hx1).1, hahead⟩
    · refine Or.inr ⟨hkey, hrefuses, htail.trans fun y hy => ?_⟩
      exact .of_mem (SortedMap.mem_remove.mp hy).1

/-- A flush ends when the output does not take all of the first fragment. -/
theorem Exhausted.of_partial {frag : Bytes} (hwf : WellFormed m)
    (hmem : (output.bytesPushed, frag) ∈ m) (hleast : ∀ x ∈ m, output.bytesPushed ≤ x.1)
    (hpart : (output.push frag).2 < frag.length) :
    Exhausted output m (output.push frag).1
      ((m.remove output.bytesPushed).insert (output.bytesPushed + (output.push frag).2)
        (frag.drop (output.push frag).2)) := by
  have happ := output.push_appended frag
  have hpushed := output.push_pushed frag
  have hcut := hwf.cut_insert hmem (Nat.le_add_right _ (output.push frag).2)
    (Nat.add_lt_add_left hpart _)
  -- the fragment is cut where the output now ends, and what is left of it comes first
  have hnext := hcut.next_le hwf hmem hleast (Nat.add_lt_add_left hpart _)
  rw [Nat.add_sub_cancel_left, ← hpushed] at hcut hnext
  rw [← hpushed]
  have hle : output.bytesPushed ≤ (output.push frag).1.bytesPushed := by omega
  constructor
  · exact hcut.wellFormed
  · refine ⟨_, happ, fun i b hb => ⟨_, hmem, Nat.le_add_right _ _, ?_⟩⟩
    rw [List.getElem?_take] at hb
    split_ifs at hb
    rwa [Nat.add_sub_cancel_left]
  · intro hacc
    rw [output.push_of_not_accepting frag hacc]
  · intro k b
    constructor
    · intro hb
      obtain ⟨x, hx, hxk, -⟩ := id hb
      have hk := le_trans (hnext x hx) hxk
      exact ⟨(hcut.holds_iff hmem hle hk).mp hb, hk⟩
    · rintro ⟨hb, hk⟩
      exact (hcut.holds_iff hmem hle hk).mpr hb
  · intro x hx
    rcases Nat.eq_or_lt_of_le (hnext x hx) with heq | hgt
    · exact Or.inr ⟨heq.symm, output.refuses_of_partial frag hpart, hcut.tails hmem hle x hx⟩
    · exact Or.inl ⟨(hcut.frame hle hgt).mp hx, hgt⟩

/-- Trimming touches nothing behind `next`. -/
theorem trimStalePrefix_frame {start next : Nat} (hlt : start < next)
    (hrun : trimStalePrefix m start next = .ok m1) {x : Nat × Bytes} (hx : next < x.1) :
    x ∈ m1 ↔ x ∈ m := by
  obtain ⟨frag, -, hrun⟩ := Exec.bind_eq_ok.mp hrun
  have hremoved : x ∈ m.remove start ↔ x ∈ m := by
    rw [SortedMap.mem_remove]
    exact and_iff_left (by omega)
  dsimp only at hrun
  split_ifs at hrun
  · obtain rfl := Except.ok.inj hrun
    exact hremoved
  · obtain ⟨suffixStart, -, hrun⟩ := Exec.bind_eq_ok.mp hrun
    obtain ⟨suffix, -, hok⟩ := Exec.bind_eq_ok.mp hrun
    obtain rfl := Except.ok.inj hok
    rw [SortedMap.mem_insert, hremoved]
    constructor
    · rintro (rfl | ⟨hmem, -⟩)
      · exact absurd hx (lt_irrefl _)
      · exact hmem
    · exact fun hmem => Or.inr ⟨hmem, by omega⟩

theorem flushLoop_none (budget : Nat) (hfirst : m.first? = none) :
    flushLoop budget output m = .ok (output, m) := by
  unfold flushLoop
  rw [hfirst]

/-- A round looks at the first fragment. -/
theorem flushLoop_some {start : Nat} {frag : Bytes} (hfirst : m.first? = some (start, frag))
    (budget : Nat) :
    flushLoop (budget + 1) output m =
      if start < output.bytesPushed then (do
        let m1 ← trimStalePrefix m start output.bytesPushed
        flushLoop budget output m1)
      else if start ≠ output.bytesPushed then .ok (output, m)
      else if (output.push frag).2 < frag.length then
        .ok ((output.push frag).1, (m.remove start).insert (start + (output.push frag).2)
          (frag.drop (output.push frag).2))
      else flushLoop budget (output.push frag).1 (m.remove start) := by
  have hget := SortedMap.get?_eq_some.mpr (SortedMap.first?_spec hfirst).1
  have hle := output.push_snd_le frag
  rw [flushLoop, hfirst]
  simp only [hget, Exec.expect_some, Exec.ok_bind, Exec.assert_pos hle, sliceFrom_of_le hle]

/-- Behind the new end of the output the map is as it was. -/
theorem flushLoop_frame {budget : Nat} (hrun : flushLoop budget output m = .ok (output1, m1)) :
    output.bytesPushed ≤ output1.bytesPushed ∧
      ∀ x, output1.bytesPushed < x.1 → (x ∈ m1 ↔ x ∈ m) := by
  induction budget generalizing output m with
  | zero =>
      cases hfirst : m.first? with
      | none =>
          rw [flushLoop_none 0 hfirst] at hrun
          obtain ⟨rfl, rfl⟩ := Prod.mk.inj (Except.ok.inj hrun)
          exact ⟨le_refl _, fun _ _ => Iff.rfl⟩
      | some first => simp [flushLoop, hfirst] at hrun
  | succ budget ih =>
      cases hfirst : m.first? with
      | none =>
          rw [flushLoop_none (budget + 1) hfirst] at hrun
          obtain ⟨rfl, rfl⟩ := Prod.mk.inj (Except.ok.inj hrun)
          exact ⟨le_refl _, fun _ _ => Iff.rfl⟩
      | some first =>
          obtain ⟨start, frag⟩ := first
          have hpushed := output.push_pushed frag
          have hremoved : ∀ x : Nat × Bytes, start < x.1 → (x ∈ m.remove start ↔ x ∈ m) := by
            intro x hx
            rw [SortedMap.mem_remove]
            exact and_iff_left (Nat.ne_of_gt hx)
          rw [flushLoop_some hfirst] at hrun
          split_ifs at hrun with hlt hne
          · obtain ⟨m2, htrim, hrun⟩ := Exec.bind_eq_ok.mp hrun
            obtain ⟨hle, hframe⟩ := ih hrun
            exact ⟨hle, fun x hx =>
              (hframe x hx).trans (trimStalePrefix_frame hlt htrim (lt_of_le_of_lt hle hx))⟩
          · obtain ⟨rfl, rfl⟩ := Prod.mk.inj (Except.ok.inj hrun)
            exact ⟨le_refl _, fun _ _ => Iff.rfl⟩
          · -- what was not accepted goes back to where the output ends now
            obtain ⟨rfl, rfl⟩ := Prod.mk.inj (Except.ok.inj hrun)
            refine ⟨by omega, fun x hx => ?_⟩
            rw [SortedMap.mem_insert, hremoved x (by omega)]
            constructor
            · rintro (rfl | ⟨hmem, -⟩)
              · exact absurd hx (by simp only; omega)
              · exact hmem
            · exact fun hmem => Or.inr ⟨hmem, by omega⟩
          · obtain ⟨hle, hframe⟩ := ih hrun
            exact ⟨by omega, fun x hx => (hframe x hx).trans (hremoved x (by omega))⟩

/-! ## The rounds of a flush -/

/-- What the loops need of a pending map. -/
structure Tidy (m : Pending) : Prop where
  wellFormed : WellFormed m
  ends : ∀ x ∈ m, x.1 + x.2.length ≤ u64Max

/-- A round of the loop of `flush_contiguous` that another one follows. -/
inductive Round : ByteStream × Pending → ByteStream × Pending → Prop where
  | trim {output : ByteStream} {m m1 : Pending} {start : Nat} {frag : Bytes}
      (hfirst : m.first? = some (start, frag)) (hlt : start < output.bytesPushed)
      (htrim : trimStalePrefix m start output.bytesPushed = .ok m1) : Round (output, m) (output, m1)
  | push {output : ByteStream} {m : Pending} {frag : Bytes}
      (hfirst : m.first? = some (output.bytesPushed, frag))
      (hall : (output.push frag).2 = frag.length) :
      Round (output, m) ((output.push frag).1, m.remove output.bytesPushed)

variable {s s1 : ByteStream × Pending} {budget : Nat}

/-- The loop goes on where the round has led. -/
theorem flushLoop_round (h : Round s s1) (budget : Nat) :
    flushLoop (budget + 1) s.1 s.2 = flushLoop budget s1.1 s1.2 := by
  cases h with
  | trim hfirst hlt htrim =>
      rw [flushLoop_some hfirst, if_pos hlt, htrim]
      rfl
  | push hfirst hall =>
      rw [flushLoop_some hfirst, if_neg (lt_irrefl _), if_neg (not_not.mpr rfl), hall,
        if_neg (lt_irrefl _)]

theorem Tidy.cut {start next : Nat} {frag : Bytes} (h : Tidy m) (hmem : (start, frag) ∈ m)
    (hle : start ≤ next) (hcut : Cut m start frag next m1) : Tidy m1 where
  wellFormed := hcut.wellFormed
  ends := by
    intro x hx
    obtain ⟨y, hy, hyx, heq⟩ := hcut.tails hmem hle x hx
    have hend := h.ends y hy
    have hpos := hcut.wellFormed.length_pos hx
    rw [heq, List.length_drop] at hpos ⊢
    omega

/-- A round that trims cuts off what is stale. -/
theorem Tidy.trim {start next : Nat} {frag : Bytes} (h : Tidy m) (hmem : (start, frag) ∈ m)
    (hlt : start < next) (htrim : trimStalePrefix m start next = .ok m1) :
    Cut m start frag next m1 := by
  obtain ⟨m2, hm2, hcut⟩ := trimStalePrefix_spec h.wellFormed hmem hlt (h.ends _ hmem)
  obtain rfl := Except.ok.inj (htrim.symm.trans hm2)
  exact hcut

theorem Round.tidy (h : Round s s1) (hs : Tidy s.2) : Tidy s1.2 := by
  cases h with
  | trim hfirst hlt htrim =>
      have hmem := (SortedMap.first?_spec hfirst).1
      exact hs.cut hmem (le_of_lt hlt) (hs.trim hmem hlt htrim)
  | push hfirst hall =>
      exact ⟨hs.wellFormed.remove _, fun x hx => hs.ends x (SortedMap.mem_remove.mp hx).1⟩

/-- What the rest of the flush exhausts, the round and the rest exhaust. -/
theorem Round.exhausted (h : Round s s1) (hs : Tidy s.2)
    (hrest : Exhausted s1.1 s1.2 output1 m1) : Exhausted s.1 s.2 output1 m1 := by
  cases h with
  | trim hfirst hlt htrim =>
      have hmem := (SortedMap.first?_spec hfirst).1
      exact hrest.of_trim hmem hlt (hs.trim hmem hlt htrim)
  | @push output m frag hfirst hall =>
      have hmem := (SortedMap.first?_spec hfirst).1
      have happ := output.push_appended frag
      rw [hall, List.take_length] at happ
      have hacc : output.Accepting := by
        by_contra hno
        have hpos := hs.wellFormed.length_pos hmem
        rw [output.push_of_not_accepting frag hno] at hall
        simp only at hall hpos
        omega
      exact hrest.of_push hs.wellFormed hmem hacc happ

/-- The budget is enough: two rounds for every fragment, or one less if none is stale. -/
def Enough (budget : Nat) (s : ByteStream × Pending) : Prop :=
  2 * s.2.length ≤ budget + 1 ∧
    ((∃ x ∈ s.2, x.1 < s.1.bytesPushed) → 2 * s.2.length ≤ budget)

/-- A round either drops a fragment or trims the only stale one. -/
theorem Round.enough (h : Round s s1) (hs : Tidy s.2) (hbudget : Enough (budget + 1) s) :
    Enough budget s1 := by
  unfold Enough at hbudget ⊢
  cases h with
  | @trim output m m1 start frag hfirst hlt htrim =>
      dsimp only at hbudget hs ⊢
      obtain ⟨hmem, hleast⟩ := SortedMap.first?_spec hfirst
      have hcut := hs.trim hmem hlt htrim
      have hbudget1 := hbudget.2 ⟨_, hmem, hlt⟩
      have hle := hcut.length_le
      refine ⟨by omega, ?_⟩
      rintro ⟨x, hx, hxlt⟩
      by_cases hend : start + frag.length ≤ output.bytesPushed
      · have hshort := hcut.length_lt hmem hend
        omega
      · have hnext := hcut.next_le hs.wellFormed hmem hleast (Nat.not_le.mp hend) x hx
        exact absurd hxlt (Nat.not_lt.mpr hnext)
  | @push output m frag hfirst hall =>
      dsimp only at hbudget hs ⊢
      obtain ⟨hmem, hleast⟩ := SortedMap.first?_spec hfirst
      have hlen := SortedMap.length_remove_lt hmem
      have hpushed := (output.push_appended frag).pushed
      rw [hall, List.take_length] at hpushed
      have hbound := hbudget.1
      simp only at hlen hleast
      refine ⟨by omega, ?_⟩
      -- what is left starts behind the fragment that was moved
      rintro ⟨x, hx, hxlt⟩
      have hbehind := hs.wellFormed.behind_first hmem hleast x hx
      simp only at hbehind
      omega

/-- A round is followed by another one, or it is the last. -/
theorem round_or_stop (output : ByteStream) (h : Tidy m) :
    (∃ s1, Round (output, m) s1) ∨
      ∃ output1 m1, (∀ budget, flushLoop (budget + 1) output m = .ok (output1, m1)) ∧
        Exhausted output m output1 m1 := by
  cases hfirst : m.first? with
  | none =>
      have hempty := SortedMap.first?_eq_none.mp hfirst
      exact Or.inr ⟨output, m, fun budget => flushLoop_none (budget + 1) hfirst,
        Exhausted.refl h.wellFormed (fun x hx => absurd hx (hempty x))⟩
  | some first =>
      obtain ⟨start, frag⟩ := first
      obtain ⟨hmem, hleast⟩ := SortedMap.first?_spec hfirst
      simp only at hleast
      rcases Nat.lt_trichotomy start output.bytesPushed with hlt | heq | hgt
      · obtain ⟨m1, htrim, -⟩ := trimStalePrefix_spec h.wellFormed hmem hlt (h.ends _ hmem)
        exact Or.inl ⟨_, .trim hfirst hlt htrim⟩
      · subst heq
        by_cases hpart : (output.push frag).2 < frag.length
        · refine Or.inr ⟨_, _, ?_, Exhausted.of_partial h.wellFormed hmem hleast hpart⟩
          intro budget
          rw [flushLoop_some hfirst, if_neg (lt_irrefl _), if_neg (not_not.mpr rfl), if_pos hpart]
        · have hall : (output.push frag).2 = frag.length :=
            le_antisymm (output.push_snd_le frag) (Nat.not_lt.mp hpart)
          exact Or.inl ⟨_, .push hfirst hall⟩
      · -- a gap before the first fragment ends the loop
        have hahead : ∀ x ∈ m, output.bytesPushed < x.1 :=
          fun x hx => lt_of_lt_of_le hgt (hleast x hx)
        refine Or.inr ⟨output, m, ?_, Exhausted.refl h.wellFormed hahead⟩
        intro budget
        rw [flushLoop_some hfirst, if_neg (Nat.not_lt.mpr (le_of_lt hgt)),
          if_pos (Nat.ne_of_gt hgt)]

theorem flushLoop_exhausts (h : Tidy m) (hbudget : Enough budget (output, m)) :
    ∃ output1 m1, flushLoop budget output m = .ok (output1, m1) ∧
      Exhausted output m output1 m1 := by
  induction budget generalizing output m with
  | zero =>
      have hempty : ∀ x, ¬ x ∈ m := by
        intro x hx
        have hpos := SortedMap.length_pos_of_mem hx
        have hbound := hbudget.1
        simp only at hbound
        omega
      exact ⟨output, m, flushLoop_none 0 (SortedMap.first?_eq_none.mpr hempty),
        Exhausted.refl h.wellFormed (fun x hx => absurd hx (hempty x))⟩
  | succ budget ih =>
      rcases round_or_stop output h with ⟨⟨output2, m2⟩, hround⟩ | ⟨output1, m1, hstop, hflush⟩
      · obtain ⟨output1, m1, hrun, hflush⟩ := ih (hround.tidy h) (hround.enough h hbudget)
        exact ⟨output1, m1, (flushLoop_round hround budget).trans hrun, hround.exhausted h hflush⟩
      · exact ⟨output1, m1, hstop budget, hflush⟩

/-- Where the output has room for all that is pending, it refuses nothing. -/
theorem Exhausted.flushed (h : Exhausted output m output1 m1)
    (hroom : output.Accepting → ∀ k, Covers m k →
      k < output.bytesPushed + output.availableCapacity) : Flushed output m output1 m1 where
  wellFormed := h.wellFormed
  appended := h.appended
  holds := h.holds
  ahead := by
    intro hacc x hx
    obtain ⟨tl, happ, -⟩ := h.appended
    rcases h.rest x hx with ⟨-, hahead⟩ | ⟨hkey, hrefuses, -⟩
    · exact hahead
    · -- a refusing output is full, so the fragment would lie behind the room
      have hfull := hrefuses.full (happ.accepting.mpr hacc)
      have havail := happ.available
      have hpushed := happ.pushed
      obtain ⟨b, hb⟩ := covers_iff_holds.mp (h.wellFormed.covers_start hx)
      have hlt := hroom hacc x.1 (covers_iff_holds.mpr ⟨b, ((h.holds x.1 b).mp hb).1⟩)
      omega

theorem flushLoop_spec (h : Tidy m)
    (hroom : output.Accepting → ∀ k, Covers m k →
      k < output.bytesPushed + output.availableCapacity)
    (hbudget : 2 * m.length ≤ budget) :
    ∃ output1 m1, flushLoop budget output m = .ok (output1, m1) ∧ Flushed output m output1 m1 := by
  obtain ⟨output1, m1, hrun, hflush⟩ :=
    flushLoop_exhausts h ⟨Nat.le_succ_of_le hbudget, fun _ => hbudget⟩
  exact ⟨output1, m1, hrun, hflush.flushed hroom⟩

end Reassembler

end Minnow
