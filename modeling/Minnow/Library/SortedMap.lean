import Mathlib.Order.Basic
import Mathlib.Data.List.Sort
import Mathlib.Tactic.Common

set_option autoImplicit false

/-! # Ordered maps

`SortedMap κ α` is a finite map whose entries are listed by strictly increasing key; the
order is part of the type. Insertion replaces the value under an existing key. The queries
are the ones an ordered map answers: the first entry, the first entry with a key in a
half-open range, the last entry with a key up to a bound.

The lemmas describe every operation by membership of entries, so that a user never looks
at the list.
-/

/-- A finite map, listed by strictly increasing key. -/
structure SortedMap (κ α : Type) [LinearOrder κ] where
  entries : List (κ × α)
  sorted : entries.Pairwise (fun x y => x.1 < y.1)

namespace SortedMap

variable {κ α : Type} [LinearOrder κ]

/-- Insertion into a sorted list of entries, replacing the entry with the same key. -/
def insertEntry (k : κ) (v : α) : List (κ × α) → List (κ × α)
  | [] => [(k, v)]
  | x :: rest =>
      if k < x.1 then (k, v) :: x :: rest
      else if k = x.1 then (k, v) :: rest
      else x :: insertEntry k v rest

theorem mem_insertEntry {k : κ} {v : α} {l : List (κ × α)}
    (hl : l.Pairwise (fun x y => x.1 < y.1)) {x : κ × α} :
    x ∈ insertEntry k v l ↔ x = (k, v) ∨ (x ∈ l ∧ x.1 ≠ k) := by
  induction l with
  | nil => simp [insertEntry]
  | cons y rest ih =>
      obtain ⟨hy, hrest⟩ := List.pairwise_cons.mp hl
      rw [insertEntry]
      split_ifs with hlt heq
      · -- in front of `y`: all keys are larger
        have hne : ∀ z ∈ y :: rest, z.1 ≠ k := by
          intro z hz
          rcases List.mem_cons.mp hz with rfl | hz
          · exact ne_of_gt hlt
          · exact ne_of_gt (lt_trans hlt (hy z hz))
        rw [List.mem_cons]
        constructor
        · rintro (rfl | hx)
          · exact Or.inl rfl
          · exact Or.inr ⟨hx, hne x hx⟩
        · rintro (rfl | ⟨hx, -⟩)
          · exact Or.inl rfl
          · exact Or.inr hx
      · -- in the place of `y`: the keys behind it are larger
        have hne : ∀ z ∈ rest, z.1 ≠ k := fun z hz => heq ▸ ne_of_gt (hy z hz)
        rw [List.mem_cons, List.mem_cons]
        constructor
        · rintro (rfl | hx)
          · exact Or.inl rfl
          · exact Or.inr ⟨Or.inr hx, hne x hx⟩
        · rintro (rfl | ⟨rfl | hx, hk⟩)
          · exact Or.inl rfl
          · exact absurd heq.symm hk
          · exact Or.inr hx
      · -- behind `y`, by the induction
        rw [List.mem_cons, List.mem_cons, ih hrest]
        constructor
        · rintro (rfl | rfl | ⟨hx, hk⟩)
          · exact Or.inr ⟨Or.inl rfl, fun h => heq h.symm⟩
          · exact Or.inl rfl
          · exact Or.inr ⟨Or.inr hx, hk⟩
        · rintro (rfl | ⟨rfl | hx, hk⟩)
          · exact Or.inr (Or.inl rfl)
          · exact Or.inl rfl
          · exact Or.inr (Or.inr ⟨hx, hk⟩)

theorem pairwise_insertEntry (k : κ) (v : α) {l : List (κ × α)}
    (hl : l.Pairwise (fun x y => x.1 < y.1)) :
    (insertEntry k v l).Pairwise (fun x y => x.1 < y.1) := by
  induction l with
  | nil => simp [insertEntry]
  | cons y rest ih =>
      obtain ⟨hy, hrest⟩ := List.pairwise_cons.mp hl
      rw [insertEntry]
      split_ifs with hlt heq
      · refine List.pairwise_cons.mpr ⟨?_, hl⟩
        intro z hz
        rcases List.mem_cons.mp hz with rfl | hz
        · exact hlt
        · exact lt_trans hlt (hy z hz)
      · exact List.pairwise_cons.mpr ⟨fun z hz => heq ▸ hy z hz, hrest⟩
      · refine List.pairwise_cons.mpr ⟨?_, ih hrest⟩
        intro z hz
        rcases (mem_insertEntry hrest).mp hz with rfl | ⟨hz, -⟩
        · exact lt_of_le_of_ne (le_of_not_gt hlt) (fun h => heq h.symm)
        · exact hy z hz

/-! ## Operations -/

def empty : SortedMap κ α := ⟨[], List.Pairwise.nil⟩

/-- `BTreeMap::insert`; the value it returns is `m.get? k`. -/
def insert (m : SortedMap κ α) (k : κ) (v : α) : SortedMap κ α :=
  ⟨insertEntry k v m.entries, pairwise_insertEntry k v m.sorted⟩

/-- The map after `BTreeMap::remove`; the value it returns is `m.get? k`. -/
def remove (m : SortedMap κ α) (k : κ) : SortedMap κ α :=
  ⟨m.entries.filter (fun x => decide (x.1 ≠ k)), m.sorted.filter _⟩

def get? (m : SortedMap κ α) (k : κ) : Option α :=
  (m.entries.find? (fun x => decide (x.1 = k))).map Prod.snd

/-- `BTreeMap::first_key_value`. -/
def first? (m : SortedMap κ α) : Option (κ × α) := m.entries.head?

/-- `range(a..b).next()`: the first entry with a key in `[a, b)`. -/
def firstIn? (m : SortedMap κ α) (a b : κ) : Option (κ × α) :=
  m.entries.find? (fun x => decide (a ≤ x.1 ∧ x.1 < b))

/-- `range(..=k).next_back()`: the last entry with a key of at most `k`. -/
def lastUpTo? (m : SortedMap κ α) (k : κ) : Option (κ × α) :=
  (m.entries.filter (fun x => decide (x.1 ≤ k))).getLast?

instance : Membership (κ × α) (SortedMap κ α) := ⟨fun m x => x ∈ m.entries⟩

variable {m : SortedMap κ α} {k : κ} {v : α} {x y : κ × α}

theorem mem_def : x ∈ m ↔ x ∈ m.entries := Iff.rfl

@[simp] theorem not_mem_empty : ¬ x ∈ (empty : SortedMap κ α) := List.not_mem_nil

theorem mem_insert : x ∈ m.insert k v ↔ x = (k, v) ∨ (x ∈ m ∧ x.1 ≠ k) :=
  mem_insertEntry m.sorted

theorem mem_remove : x ∈ m.remove k ↔ x ∈ m ∧ x.1 ≠ k := by
  simp [mem_def, remove]

/-- A key has one value. -/
theorem eq_of_key_eq (hx : x ∈ m) (hy : y ∈ m) (h : x.1 = y.1) : x = y := by
  exact List.Pairwise.forall_of_forall_of_flip (R := fun x y => x.1 = y.1 → x = y)
    (fun _ _ _ => rfl)
    (m.sorted.imp (fun hlt heq => absurd heq (ne_of_lt hlt)))
    (m.sorted.imp (fun hlt heq => absurd heq.symm (ne_of_lt hlt))) hx hy h

theorem get?_eq_some : m.get? k = some v ↔ (k, v) ∈ m := by
  rw [get?, Option.map_eq_some_iff]
  constructor
  · rintro ⟨⟨k', v'⟩, hfind, rfl⟩
    have hk : k' = k := by simpa using List.find?_some hfind
    exact hk ▸ List.mem_of_find?_eq_some hfind
  · intro hmem
    cases hfind : m.entries.find? (fun x => decide (x.1 = k)) with
    | none =>
        have hno := List.find?_eq_none.mp hfind (k, v) hmem
        simp at hno
    | some y =>
        have hk : y.1 = k := by simpa using List.find?_some hfind
        have hy : y = (k, v) := eq_of_key_eq (List.mem_of_find?_eq_some hfind) hmem hk
        exact ⟨y, rfl, by rw [hy]⟩

theorem get?_eq_none : m.get? k = none ↔ ∀ x ∈ m, x.1 ≠ k := by
  rw [get?, Option.map_eq_none_iff, List.find?_eq_none]
  simp [mem_def]

theorem first?_eq_none : m.first? = none ↔ ∀ x, ¬ x ∈ m := by
  rw [first?, List.head?_eq_none_iff]
  constructor
  · intro h x hx
    rw [mem_def, h] at hx
    exact List.not_mem_nil hx
  · intro h
    exact List.eq_nil_iff_forall_not_mem.mpr h

/-- The first entry is a member, and no key is smaller. -/
theorem first?_spec (h : m.first? = some x) : x ∈ m ∧ ∀ y ∈ m, x.1 ≤ y.1 := by
  obtain ⟨rest, hrest⟩ := List.head?_eq_some_iff.mp h
  refine ⟨by simp [mem_def, hrest], ?_⟩
  intro y hy
  have hsorted := m.sorted
  rw [hrest] at hsorted
  rw [mem_def, hrest] at hy
  rcases List.mem_cons.mp hy with rfl | hy
  · exact le_refl _
  · exact le_of_lt ((List.pairwise_cons.mp hsorted).1 y hy)

theorem firstIn?_eq_none {a b : κ} :
    m.firstIn? a b = none ↔ ∀ x ∈ m, a ≤ x.1 → b ≤ x.1 := by
  rw [firstIn?, List.find?_eq_none]
  simp [mem_def]

/-- The first entry in a range is a member in the range, and no other key in the range is
smaller. -/
theorem firstIn?_spec {a b : κ} (h : m.firstIn? a b = some x) :
    x ∈ m ∧ a ≤ x.1 ∧ x.1 < b ∧ ∀ y ∈ m, a ≤ y.1 → x.1 ≤ y.1 := by
  have hrange : a ≤ x.1 ∧ x.1 < b := by simpa using List.find?_some h
  refine ⟨List.mem_of_find?_eq_some h, hrange.1, hrange.2, ?_⟩
  intro y hy hay
  obtain ⟨-, before, after, hsplit, hbefore⟩ := List.find?_eq_some_iff_append.mp h
  have hsorted := m.sorted
  rw [hsplit] at hsorted
  rw [mem_def, hsplit] at hy
  rcases List.mem_append.mp hy with hy | hy
  · have hnot := hbefore y hy
    simp only [hay, true_and, Bool.not_eq_eq_eq_not, Bool.not_true, decide_eq_false_iff_not,
      not_lt] at hnot
    exact le_trans (le_of_lt hrange.2) hnot
  · rcases List.mem_cons.mp hy with rfl | hy
    · exact le_refl _
    · have hcons := (List.pairwise_append.mp hsorted).2.1
      exact le_of_lt ((List.pairwise_cons.mp hcons).1 y hy)

theorem lastUpTo?_eq_none : m.lastUpTo? k = none ↔ ∀ x ∈ m, k < x.1 := by
  rw [lastUpTo?, List.getLast?_eq_none_iff, List.filter_eq_nil_iff]
  simp [mem_def]

/-- The last entry up to a bound is a member below the bound, and no key in between is
larger. -/
theorem lastUpTo?_spec (h : m.lastUpTo? k = some x) :
    x ∈ m ∧ x.1 ≤ k ∧ ∀ y ∈ m, y.1 ≤ k → y.1 ≤ x.1 := by
  obtain ⟨init, hinit⟩ := List.getLast?_eq_some_iff.mp h
  have hx : x ∈ m.entries.filter (fun x => decide (x.1 ≤ k)) := by simp [hinit]
  rw [List.mem_filter] at hx
  refine ⟨hx.1, by simpa using hx.2, ?_⟩
  intro y hy hyk
  have hsorted := m.sorted.filter (fun x => decide (x.1 ≤ k))
  rw [hinit] at hsorted
  have hy' : y ∈ init ++ [x] := by
    rw [← hinit, List.mem_filter]
    exact ⟨hy, by simpa using hyk⟩
  rcases List.mem_append.mp hy' with hy' | hy'
  · exact le_of_lt ((List.pairwise_append.mp hsorted).2.2 y hy' x (by simp))
  · exact le_of_eq (congrArg Prod.fst (List.mem_singleton.mp hy'))

/-- Two maps with the same entries are the same map. -/
theorem ext_mem {m1 m2 : SortedMap κ α} (h : ∀ x, x ∈ m1 ↔ x ∈ m2) : m1 = m2 := by
  obtain ⟨l1, h1⟩ := m1
  obtain ⟨l2, h2⟩ := m2
  have : Std.Irrefl (fun x y : κ × α => x.1 < y.1) := ⟨fun x => lt_irrefl x.1⟩
  have : Std.Antisymm (fun x y : κ × α => x.1 < y.1) :=
    ⟨fun x y hxy hyx => absurd hxy (lt_asymm hyx)⟩
  obtain rfl : l1 = l2 := h1.eq_of_mem_iff h2 (fun {x} => h x)
  rfl

/-! ## The number of entries -/

def length (m : SortedMap κ α) : Nat := m.entries.length

theorem length_insertEntry_le (l : List (κ × α)) : (insertEntry k v l).length ≤ l.length + 1 := by
  induction l with
  | nil => simp [insertEntry]
  | cons y rest ih =>
      rw [insertEntry]
      split_ifs
      · simp
      · simp
      · simpa using ih

theorem length_insert_le : (m.insert k v).length ≤ m.length + 1 :=
  length_insertEntry_le m.entries

theorem length_remove_lt (hx : x ∈ m) : (m.remove x.1).length < m.length := by
  unfold length remove
  exact List.length_filter_lt_length_iff_exists.mpr ⟨x, hx, by simp⟩

theorem length_pos_of_mem (hx : x ∈ m) : 0 < m.length := List.length_pos_of_mem hx

end SortedMap
