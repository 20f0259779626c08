import Mathlib.Algebra.GroupWithZero.Nat
import Minnow.Library.SortedMap

set_option autoImplicit false

/-! # Fragments of a sequence

A map from positions to lists holds fragments of one long sequence: the list under the key
`a` stands at the positions `a, a + 1, …`. The map is well formed when the fragments are
non-empty and do not overlap. `Holds m k b` says that a fragment has the element `b` at
position `k`, and `Covers m k` that some fragment reaches position `k`.
-/

namespace Fragments

variable {β : Type}

/-- A fragment of `m` has `b` at position `k`. -/
def Holds (m : SortedMap Nat (List β)) (k : Nat) (b : β) : Prop :=
  ∃ x ∈ m, x.1 ≤ k ∧ x.2[k - x.1]? = some b

instance [DecidableEq β] (m : SortedMap Nat (List β)) (k : Nat) (b : β) :
    Decidable (Holds m k b) :=
  inferInstanceAs (Decidable (∃ x ∈ m.entries, x.1 ≤ k ∧ x.2[k - x.1]? = some b))

/-- A fragment of `m` reaches position `k`. -/
def Covers (m : SortedMap Nat (List β)) (k : Nat) : Prop :=
  ∃ x ∈ m, x.1 ≤ k ∧ k < x.1 + x.2.length

/-- Non-empty fragments without overlap. -/
structure WellFormed (m : SortedMap Nat (List β)) : Prop where
  nonempty : ∀ x ∈ m, x.2 ≠ []
  disjoint : ∀ x ∈ m, ∀ y ∈ m, x.1 < y.1 → x.1 + x.2.length ≤ y.1

variable {m : SortedMap Nat (List β)} {k s : Nat} {b : β} {d : List β} {x : Nat × List β}

theorem covers_iff_holds : Covers m k ↔ ∃ b, Holds m k b := by
  constructor
  · rintro ⟨x, hx, hle, hlt⟩
    have hin : k - x.1 < x.2.length := by omega
    exact ⟨x.2[k - x.1], x, hx, hle, List.getElem?_eq_getElem hin⟩
  · rintro ⟨b, x, hx, hle, hget⟩
    obtain ⟨hlt, -⟩ := List.getElem?_eq_some_iff.mp hget
    exact ⟨x, hx, hle, by omega⟩

theorem not_covers_empty : ¬ Covers (SortedMap.empty : SortedMap Nat (List β)) k := by
  rintro ⟨x, hx, -⟩
  exact SortedMap.not_mem_empty hx

theorem wellFormed_empty : WellFormed (SortedMap.empty : SortedMap Nat (List β)) where
  nonempty := fun _ hx => absurd hx SortedMap.not_mem_empty
  disjoint := fun _ hx => absurd hx SortedMap.not_mem_empty

theorem WellFormed.length_pos (h : WellFormed m) (hx : x ∈ m) : 0 < x.2.length :=
  List.length_pos_iff.mpr (h.nonempty x hx)

/-- The start of a fragment is covered. -/
theorem WellFormed.covers_start (h : WellFormed m) (hx : x ∈ m) : Covers m x.1 :=
  ⟨x, hx, le_refl _, by have := h.length_pos hx; omega⟩

/-- A fragment whose positions all lie before `n` ends there at the latest. -/
theorem WellFormed.end_le (h : WellFormed m) (hx : x ∈ m) {n : Nat}
    (hcov : ∀ k, Covers m k → k < n) : x.1 + x.2.length ≤ n := by
  have hpos := h.length_pos hx
  have hlast := hcov (x.1 + x.2.length - 1) ⟨x, hx, by omega, by omega⟩
  omega

/-- No key of a well-formed map lies inside an uncovered interval. -/
theorem WellFormed.key_ne (h : WellFormed m) (hfree : ¬ Covers m s) : ∀ x ∈ m, x.1 ≠ s := by
  rintro x hx rfl
  exact hfree (h.covers_start hx)

/-- No fragment crosses the end of another one. -/
theorem WellFormed.ends_by (h : WellFormed m) (hx : x ∈ m) {y : Nat × List β} (hy : y ∈ m)
    (hlt : y.1 < x.1 + x.2.length) : y.1 + y.2.length ≤ x.1 + x.2.length := by
  rcases Nat.lt_trichotomy y.1 x.1 with hyx | heq | hxy
  · exact le_trans (h.disjoint y hy x hx hyx) (Nat.le_add_right _ _)
  · rw [SortedMap.eq_of_key_eq hy hx heq]
  · exact absurd (h.disjoint x hx y hy hxy) (Nat.not_le.mpr hlt)

/-- A position belongs to one fragment only. -/
theorem WellFormed.eq_of_reaches (h : WellFormed m) (hx : x ∈ m) {y : Nat × List β} (hy : y ∈ m)
    (hxk : x.1 ≤ k ∧ k < x.1 + x.2.length) (hyk : y.1 ≤ k ∧ k < y.1 + y.2.length) : x = y := by
  rcases Nat.lt_trichotomy x.1 y.1 with hlt | heq | hgt
  · have := h.disjoint x hx y hy hlt
    omega
  · exact SortedMap.eq_of_key_eq hx hy heq
  · have := h.disjoint y hy x hx hgt
    omega

/-- A position has one element only. -/
theorem WellFormed.holds_unique (h : WellFormed m) {c : β} (hb : Holds m k b) (hc : Holds m k c) :
    b = c := by
  obtain ⟨x, hx, hxk, hget⟩ := hb
  obtain ⟨y, hy, hyk, hget1⟩ := hc
  obtain ⟨hlt, -⟩ := List.getElem?_eq_some_iff.mp hget
  obtain ⟨hlt1, -⟩ := List.getElem?_eq_some_iff.mp hget1
  obtain rfl := h.eq_of_reaches (k := k) hx hy ⟨hxk, by omega⟩ ⟨hyk, by omega⟩
  exact Option.some.inj (hget.symm.trans hget1)

/-- Where no fragment starts, and none reaches in from before, nothing is covered. -/
theorem not_covers_of_gap {lo hi : Nat} (hbefore : ∀ x ∈ m, x.1 < lo → x.1 + x.2.length ≤ lo)
    (hstart : ∀ x ∈ m, lo ≤ x.1 → hi ≤ x.1) (hlow : lo ≤ k) (hhigh : k < hi) :
    ¬ Covers m k := by
  rintro ⟨x, hx, hxk, hkx⟩
  rcases Nat.lt_or_ge x.1 lo with hlt | hge
  · have hend := hbefore x hx hlt
    omega
  · have hbehind := hstart x hx hge
    omega

/-! ## Insertion and removal -/

/-- A fragment may be added where nothing is covered. -/
theorem WellFormed.insert (h : WellFormed m) (hd : d ≠ [])
    (hfree : ∀ k, s ≤ k → k < s + d.length → ¬ Covers m k) : WellFormed (m.insert s d) where
  nonempty := by
    intro x hx
    rcases SortedMap.mem_insert.mp hx with rfl | ⟨hx, -⟩
    · exact hd
    · exact h.nonempty x hx
  disjoint := by
    have hpos : 0 < d.length := List.length_pos_iff.mpr hd
    intro x hx y hy hlt
    rcases SortedMap.mem_insert.mp hx with rfl | ⟨hx, -⟩
    · rcases SortedMap.mem_insert.mp hy with rfl | ⟨hy, -⟩
      · exact absurd hlt (lt_irrefl _)
      · -- `y` starts behind the new fragment, hence not inside it
        by_contra hover
        exact hfree y.1 (le_of_lt hlt) (Nat.not_le.mp hover) (h.covers_start hy)
    · rcases SortedMap.mem_insert.mp hy with rfl | ⟨hy, -⟩
      · by_contra hover
        exact hfree s (le_refl _) (by omega) ⟨x, hx, le_of_lt hlt, Nat.not_le.mp hover⟩
      · exact h.disjoint x hx y hy hlt

theorem holds_insert (hkey : ∀ x ∈ m, x.1 ≠ s) :
    Holds (m.insert s d) k b ↔ Holds m k b ∨ (s ≤ k ∧ d[k - s]? = some b) := by
  constructor
  · rintro ⟨x, hx, hle, hget⟩
    rcases SortedMap.mem_insert.mp hx with rfl | ⟨hx, -⟩
    · exact Or.inr ⟨hle, hget⟩
    · exact Or.inl ⟨x, hx, hle, hget⟩
  · rintro (⟨x, hx, hle, hget⟩ | ⟨hle, hget⟩)
    · exact ⟨x, SortedMap.mem_insert.mpr (Or.inr ⟨hx, hkey x hx⟩), hle, hget⟩
    · exact ⟨(s, d), SortedMap.mem_insert.mpr (Or.inl rfl), hle, hget⟩

theorem WellFormed.remove (h : WellFormed m) (s : Nat) : WellFormed (m.remove s) where
  nonempty := fun x hx => h.nonempty x (SortedMap.mem_remove.mp hx).1
  disjoint := fun x hx y hy =>
    h.disjoint x (SortedMap.mem_remove.mp hx).1 y (SortedMap.mem_remove.mp hy).1

/-- What is left without the first fragment starts behind it. -/
theorem WellFormed.behind_first (h : WellFormed m) (hx : x ∈ m) (hfirst : ∀ y ∈ m, x.1 ≤ y.1) :
    ∀ y ∈ m.remove x.1, x.1 + x.2.length ≤ y.1 := by
  intro y hy
  obtain ⟨hy, hne⟩ := SortedMap.mem_remove.mp hy
  exact h.disjoint x hx y hy (lt_of_le_of_ne (hfirst y hy) (fun heq => hne heq.symm))

/-- Removing a fragment uncovers exactly its own positions. -/
theorem WellFormed.holds_remove (h : WellFormed m) (hx : x ∈ m) :
    Holds (m.remove x.1) k b ↔ Holds m k b ∧ ¬ (x.1 ≤ k ∧ k < x.1 + x.2.length) := by
  constructor
  · rintro ⟨y, hy, hle, hget⟩
    obtain ⟨hy, hne⟩ := SortedMap.mem_remove.mp hy
    obtain ⟨hlt, -⟩ := List.getElem?_eq_some_iff.mp hget
    refine ⟨⟨y, hy, hle, hget⟩, ?_⟩
    rintro ⟨hxk, hkx⟩
    rcases Nat.lt_or_gt_of_ne hne with hyx | hxy
    · have := h.disjoint y hy x hx hyx
      omega
    · have := h.disjoint x hx y hy hxy
      omega
  · rintro ⟨⟨y, hy, hle, hget⟩, hout⟩
    refine ⟨y, SortedMap.mem_remove.mpr ⟨hy, ?_⟩, hle, hget⟩
    intro hkey
    obtain rfl : y = x := SortedMap.eq_of_key_eq hy hx hkey
    obtain ⟨hlt, -⟩ := List.getElem?_eq_some_iff.mp hget
    exact hout ⟨hle, by omega⟩

/-! ## Cutting off the front of a fragment -/

section

variable {m1 : SortedMap Nat (List β)} {next : Nat}

/-- A fragment of `m`, or what is left of one without its front. -/
def TailOf (m : SortedMap Nat (List β)) (x : Nat × List β) : Prop :=
  ∃ y ∈ m, y.1 ≤ x.1 ∧ x.2 = y.2.drop (x.1 - y.1)

theorem TailOf.of_mem (hx : x ∈ m) : TailOf m x :=
  ⟨x, hx, le_refl _, by rw [Nat.sub_self, List.drop_zero]⟩

theorem TailOf.trans (h : TailOf m1 x) (hm : ∀ y ∈ m1, TailOf m y) : TailOf m x := by
  obtain ⟨y, hy, hle, heq⟩ := h
  obtain ⟨z, hz, hle1, heq1⟩ := hm y hy
  refine ⟨z, hz, le_trans hle1 hle, ?_⟩
  rw [heq, heq1, List.drop_drop]
  congr 1
  omega

/-- What tails hold, the fragments hold. -/
theorem Holds.of_tails (h : Holds m1 k b) (hm : ∀ y ∈ m1, TailOf m y) : Holds m k b := by
  obtain ⟨x, hx, hle, hget⟩ := h
  obtain ⟨y, hy, hle1, heq⟩ := hm x hx
  rw [heq, List.getElem?_drop] at hget
  refine ⟨y, hy, le_trans hle1 hle, ?_⟩
  rw [← hget]
  congr 1
  omega

/-- `m1` is `m` where the fragment `d` at `s` has lost its positions before `next`. -/
structure Cut (m : SortedMap Nat (List β)) (s : Nat) (d : List β) (next : Nat)
    (m1 : SortedMap Nat (List β)) : Prop where
  wellFormed : WellFormed m1
  mem_iff : ∀ x, x ∈ m1 ↔
    (x ∈ m ∧ x.1 ≠ s) ∨ (next < s + d.length ∧ x = (next, d.drop (next - s)))
  length_le : m1.length ≤ m.length

theorem WellFormed.cut_remove (h : WellFormed m) (hx : (s, d) ∈ m) (hend : s + d.length ≤ next) :
    Cut m s d next (m.remove s) where
  wellFormed := h.remove s
  mem_iff := by
    intro x
    rw [SortedMap.mem_remove]
    refine (or_iff_left ?_).symm
    omega
  length_le := le_of_lt (SortedMap.length_remove_lt hx)

/-- The rest of the fragment takes the place of the fragment. -/
theorem WellFormed.cut_insert (h : WellFormed m) (hx : (s, d) ∈ m) (hle : s ≤ next)
    (hend : next < s + d.length) : Cut m s d next ((m.remove s).insert next (d.drop (next - s))) := by
  have hlength : (d.drop (next - s)).length = s + d.length - next := by
    rw [List.length_drop]
    omega
  have hne : d.drop (next - s) ≠ [] := by
    rw [← List.length_pos_iff]
    omega
  -- no other fragment reaches the positions of this one
  have hfree : ∀ k, s ≤ k → k < s + d.length → ¬ Covers (m.remove s) k := by
    rintro k hk1 hk2 ⟨y, hy, hyk⟩
    obtain ⟨hy, hys⟩ := SortedMap.mem_remove.mp hy
    exact hys (congrArg Prod.fst (h.eq_of_reaches hy hx hyk ⟨hk1, hk2⟩))
  have hkey := (h.remove s).key_ne (hfree next hle hend)
  refine ⟨(h.remove s).insert hne (fun k hk1 hk2 => hfree k (by omega) (by omega)), ?_, ?_⟩
  · intro x
    rw [SortedMap.mem_insert, or_comm, and_iff_right hend]
    apply or_congr_left
    rw [and_iff_left_of_imp (hkey x), SortedMap.mem_remove]
  · have hremoved := SortedMap.length_remove_lt hx
    have hinserted := SortedMap.length_insert_le (m := m.remove s) (k := next)
      (v := d.drop (next - s))
    simp only at hremoved
    omega

/-- A fragment that lies before the cut is gone. -/
theorem Cut.length_lt (h : Cut m s d next m1) (hx : (s, d) ∈ m) (hend : s + d.length ≤ next) :
    m1.length < m.length := by
  have hremoved : m1 = m.remove s := by
    apply SortedMap.ext_mem
    intro x
    rw [h.mem_iff, SortedMap.mem_remove]
    refine or_iff_left ?_
    omega
  rw [hremoved]
  exact SortedMap.length_remove_lt hx

/-- Behind the cut nothing changes. -/
theorem Cut.frame (h : Cut m s d next m1) (hle : s ≤ next) (hx : next < x.1) :
    x ∈ m1 ↔ x ∈ m := by
  rw [h.mem_iff]
  constructor
  · rintro (⟨hmem, -⟩ | ⟨-, rfl⟩)
    · exact hmem
    · exact absurd hx (lt_irrefl _)
  · intro hmem
    exact Or.inl ⟨hmem, by omega⟩

theorem Cut.tails (h : Cut m s d next m1) (hx : (s, d) ∈ m) (hle : s ≤ next) :
    ∀ y ∈ m1, TailOf m y := by
  intro y hy
  rcases (h.mem_iff y).mp hy with ⟨hmem, -⟩ | ⟨-, rfl⟩
  · exact .of_mem hmem
  · exact ⟨(s, d), hx, hle, rfl⟩

theorem Cut.holds_iff (h : Cut m s d next m1) (hx : (s, d) ∈ m) (hle : s ≤ next) (hk : next ≤ k) :
    Holds m1 k b ↔ Holds m k b := by
  constructor
  · intro hb
    exact hb.of_tails (h.tails hx hle)
  · rintro ⟨y, hy, hyk, hget⟩
    by_cases hkey : y.1 = s
    · -- position `k` is behind the cut, so the rest of the fragment has it
      obtain rfl : y = (s, d) := SortedMap.eq_of_key_eq hy hx hkey
      obtain ⟨hlt, -⟩ := List.getElem?_eq_some_iff.mp hget
      simp only at hyk hlt hget
      refine ⟨_, (h.mem_iff _).mpr (Or.inr ⟨by omega, rfl⟩), hk, ?_⟩
      rw [List.getElem?_drop, ← hget]
      congr 1
      omega
    · exact ⟨y, (h.mem_iff y).mpr (Or.inl ⟨hy, hkey⟩), hyk, hget⟩

/-- If the first fragment reaches behind the cut, none is left that starts before it. -/
theorem Cut.next_le (h : Cut m s d next m1) (hwf : WellFormed m) (hx : (s, d) ∈ m)
    (hfirst : ∀ y ∈ m, s ≤ y.1) (hend : next < s + d.length) : ∀ y ∈ m1, next ≤ y.1 := by
  intro y hy
  rcases (h.mem_iff y).mp hy with ⟨hmem, hkey⟩ | ⟨-, rfl⟩
  · have hbehind := hwf.behind_first hx hfirst y (SortedMap.mem_remove.mpr ⟨hmem, hkey⟩)
    simp only at hbehind
    omega
  · exact le_refl _

end

/-! ## The total length -/

/-- The number of elements in all fragments. -/
def totalLength (m : SortedMap Nat (List β)) : Nat := (m.entries.map (fun x => x.2.length)).sum

/-- Fragments that lie inside `[lo, hi)` have at most `hi - lo` elements. -/
theorem WellFormed.totalLength_le (h : WellFormed m) {lo hi : Nat} (hlohi : lo ≤ hi)
    (hin : ∀ x ∈ m, lo ≤ x.1 ∧ x.1 + x.2.length ≤ hi) : lo + totalLength m ≤ hi := by
  have key : ∀ (l : List (Nat × List β)) (lo : Nat), lo ≤ hi →
      l.Pairwise (fun x y => x.1 + x.2.length ≤ y.1) →
      (∀ x ∈ l, lo ≤ x.1 ∧ x.1 + x.2.length ≤ hi) →
      lo + (l.map (fun x => x.2.length)).sum ≤ hi := by
    intro l
    induction l with
    | nil => intro lo hlo _ _; simpa using hlo
    | cons x rest ih =>
        intro lo _ hpair hin
        obtain ⟨hx, hrest⟩ := List.pairwise_cons.mp hpair
        have hxin := hin x (by simp)
        have htail := ih (x.1 + x.2.length) hxin.2 hrest
          (fun y hy => ⟨hx y hy, (hin y (by simp [hy])).2⟩)
        simp only [List.map_cons, List.sum_cons]
        omega
  refine key m.entries lo hlohi ?_ hin
  refine (List.Pairwise.and_mem.mp m.sorted).imp ?_
  rintro x y ⟨hx, hy, hlt⟩
  exact h.disjoint x hx y hy hlt

end Fragments
