import Minnow.Library.Slice

set_option autoImplicit false

/-! # Tilings

Items with a start and a length tile an interval when they are non-empty and stand end to
end. `Tiles start length a l b` is that for the items of `l`, in order, and the interval
`[a, b)`.

Cutting a tiling at a position drops what lies before it, and trims the item it falls into.
Cuts are cumulative (`Trims.cutAt_cutAt`): the last one is all that counts.
-/

variable {α β : Type}

/-- The items of the list stand end to end from `a` to `b`, none of them empty. -/
def Tiles (start length : α → Nat) : Nat → List α → Nat → Prop
  | a, [], b => a = b
  | a, x :: rest, b => start x = a ∧ 0 < length x ∧ Tiles start length (a + length x) rest b

section Tiles

variable {start length : α → Nat} {a b c : Nat} {l l1 l2 : List α} {x : α}

@[simp] theorem tiles_nil : Tiles start length a [] b ↔ a = b := Iff.rfl

@[simp] theorem tiles_cons : Tiles start length a (x :: l) b ↔
    start x = a ∧ 0 < length x ∧ Tiles start length (a + length x) l b := Iff.rfl

theorem Tiles.le (h : Tiles start length a l b) : a ≤ b := by
  induction l generalizing a with
  | nil => exact Nat.le_of_eq h
  | cons x rest ih => exact Nat.le_trans (Nat.le_add_right _ _) (ih h.2.2)

/-- The items determine where the interval ends. -/
theorem Tiles.unique (h1 : Tiles start length a l b) (h2 : Tiles start length a l c) : b = c := by
  induction l generalizing a with
  | nil => exact h1.symm.trans h2
  | cons x rest ih => exact ih h1.2.2 h2.2.2

/-- A tiling may be cut between any two items. -/
theorem tiles_append : Tiles start length a (l1 ++ l2) c ↔
    ∃ b, Tiles start length a l1 b ∧ Tiles start length b l2 c := by
  induction l1 generalizing a with
  | nil =>
      constructor
      · intro h
        exact ⟨a, rfl, h⟩
      · rintro ⟨b, rfl, h⟩
        exact h
  | cons x rest ih =>
      constructor
      · rintro ⟨hx, hpos, h⟩
        obtain ⟨b, h1, h2⟩ := ih.mp h
        exact ⟨b, ⟨hx, hpos, h1⟩, h2⟩
      · rintro ⟨b, ⟨hx, hpos, h1⟩, h2⟩
        exact ⟨hx, hpos, ih.mpr ⟨b, h1, h2⟩⟩

theorem Tiles.append (h1 : Tiles start length a l1 b) (h2 : Tiles start length b l2 c) :
    Tiles start length a (l1 ++ l2) c :=
  tiles_append.mpr ⟨b, h1, h2⟩

/-- Only the empty interval is tiled by no items. -/
theorem Tiles.eq_nil_iff (h : Tiles start length a l b) : l = [] ↔ a = b := by
  cases l with
  | nil => exact iff_of_true rfl h
  | cons x rest =>
      have hle := h.2.2.le
      have hpos := h.2.1
      refine iff_of_false (List.cons_ne_nil _ _) ?_
      omega

/-- Every item lies inside the interval. -/
theorem Tiles.mem (h : Tiles start length a l b) (hx : x ∈ l) :
    a ≤ start x ∧ 0 < length x ∧ start x + length x ≤ b := by
  induction l generalizing a with
  | nil => exact absurd hx List.not_mem_nil
  | cons y rest ih =>
      obtain ⟨hy, hpos, hrest⟩ := h
      have hle := hrest.le
      rcases List.mem_cons.mp hx with rfl | hx
      · exact ⟨by omega, hpos, by omega⟩
      · obtain ⟨h1, h2, h3⟩ := ih hrest hx
        exact ⟨by omega, h2, h3⟩

/-- Some item reaches the end of a non-empty interval. -/
theorem Tiles.exists_last (h : Tiles start length a l b) (hlt : a < b) :
    ∃ x ∈ l, start x + length x = b := by
  induction l generalizing a with
  | nil =>
      obtain rfl := tiles_nil.mp h
      exact absurd hlt (Nat.lt_irrefl a)
  | cons x rest ih =>
      obtain ⟨hx, -, hrest⟩ := h
      rcases Nat.lt_or_ge (a + length x) b with hmore | hend
      · obtain ⟨y, hy, hlast⟩ := ih hrest hmore
        exact ⟨y, List.mem_cons_of_mem _ hy, hlast⟩
      · have hle := hrest.le
        exact ⟨x, List.mem_cons_self, by omega⟩

/-- Items that hold their part of a list together hold the part they tile. -/
theorem Tiles.flatMap_eq_slice {space : List β} {content : α → List β}
    (h : Tiles start length a l b)
    (hcontent : ∀ x ∈ l, content x = space.slice (start x) (start x + length x)) :
    l.flatMap content = space.slice a b := by
  induction l generalizing a with
  | nil =>
      obtain rfl := tiles_nil.mp h
      rw [List.flatMap_nil, List.slice_self]
  | cons x rest ih =>
      obtain ⟨hx, hpos, hrest⟩ := h
      rw [List.flatMap_cons, ih hrest (fun y hy => hcontent y (List.mem_cons_of_mem _ hy)),
        hcontent x List.mem_cons_self, hx]
      exact List.slice_append_slice space (Nat.le_add_right _ _) hrest.le

end Tiles

/-! ## Cutting -/

/-- Drop the items that end up to `u`, and trim the next one if it starts before `u`. -/
def cutAt (start length : α → Nat) (trim : α → Nat → α) (u : Nat) : List α → List α
  | [] => []
  | x :: rest =>
      if start x + length x ≤ u then cutAt start length trim u rest
      else if start x < u then trim x (u - start x) :: rest
      else x :: rest

/-- Trimming takes a number of positions off the front of an item. -/
structure Trims (start length : α → Nat) (trim : α → Nat → α) : Prop where
  start_eq : ∀ x n, 0 < n → n < length x → start (trim x n) = start x + n
  length_eq : ∀ x n, 0 < n → n < length x → length (trim x n) = length x - n
  trim_trim : ∀ x m n, 0 < m → m < length x → 0 < n →
    trim (trim x m) n = trim x (m + n)

section Cutting

variable {start length : α → Nat} {trim : α → Nat → α} {a b u v : Nat} {l : List α}

/-- Where the interval begins there is nothing to cut. -/
theorem Tiles.cutAt_self (h : Tiles start length a l b) : cutAt start length trim a l = l := by
  cases l with
  | nil => rfl
  | cons x rest =>
      obtain ⟨hx, hpos, -⟩ := h
      rw [cutAt, if_neg (by omega), if_neg (by omega)]

/-- A cut further on makes up for the ones before it. -/
theorem Trims.cutAt_cutAt (h : Trims start length trim) (huv : u ≤ v) (l : List α) :
    cutAt start length trim v (cutAt start length trim u l) = cutAt start length trim v l := by
  induction l with
  | nil => rfl
  | cons x rest ih =>
      by_cases hend : start x + length x ≤ u
      · rw [cutAt, if_pos hend, ih, cutAt, if_pos (le_trans hend huv)]
      by_cases hbefore : start x < u
      · -- the first cut falls into `x`, and the second finds it trimmed
        have hstart := h.start_eq x (u - start x) (by omega) (by omega)
        have hlength := h.length_eq x (u - start x) (by omega) (by omega)
        rw [cutAt, if_neg hend, if_pos hbefore, cutAt, cutAt]
        by_cases hend2 : start x + length x ≤ v
        · rw [if_pos (by omega), if_pos hend2]
        rw [if_neg (by omega), if_neg hend2, if_pos (show start x < v by omega)]
        by_cases hmore : u < v
        · have htwice : u - start x + (v - u) = v - start x := by omega
          rw [if_pos (by omega), hstart, show v - (start x + (u - start x)) = v - u by omega,
            h.trim_trim x _ _ (by omega) (by omega) (by omega), htwice]
        · obtain rfl : u = v := by omega
          rw [if_neg (by omega)]
      · rw [cutAt, if_neg hend, if_neg hbefore]

end Cutting
