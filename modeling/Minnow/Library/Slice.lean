import Mathlib.Data.List.Basic
import Mathlib.Data.List.Infix
import Mathlib.Tactic.Common

set_option autoImplicit false

/-! # Slices of a list

`slice l a b` is the part of `l` at the positions `a, …, b - 1`. Adjacent slices
concatenate, and a slice does not change when the list is extended behind it.
-/

namespace List

variable {α : Type}

/-- The elements of `l` at the positions of `[a, b)`. -/
def slice (l : List α) (a b : Nat) : List α := (l.drop a).take (b - a)

theorem length_slice (l : List α) (a b : Nat) :
    (l.slice a b).length = min (b - a) (l.length - a) := by
  simp [slice]

theorem length_slice_of_le {l : List α} {a b : Nat} (hb : b ≤ l.length) :
    (l.slice a b).length = b - a := by
  rw [length_slice]
  omega

@[simp] theorem slice_self (l : List α) (a : Nat) : l.slice a a = [] := by
  simp [slice]

theorem getElem?_slice (l : List α) (a b i : Nat) :
    (l.slice a b)[i]? = if a + i < b then l[a + i]? else none := by
  rw [slice, List.getElem?_take, List.getElem?_drop]
  have hiff : i < b - a ↔ a + i < b := by omega
  simp only [hiff]

/-- Adjacent slices concatenate. -/
theorem slice_append_slice (l : List α) {a b c : Nat} (hab : a ≤ b) (hbc : b ≤ c) :
    l.slice a b ++ l.slice b c = l.slice a c := by
  have hb : a + (b - a) = b := by omega
  have hc : c - a = (b - a) + (c - b) := by omega
  calc (l.drop a).take (b - a) ++ (l.drop b).take (c - b)
      = (l.drop a).take (b - a) ++ ((l.drop a).drop (b - a)).take (c - b) := by
        rw [List.drop_drop, hb]
    _ = (l.drop a).take (b - a + (c - b)) := List.take_add.symm
    _ = (l.drop a).take (c - a) := by rw [hc]

theorem take_append_slice (l : List α) {a b : Nat} (hab : a ≤ b) :
    l.take a ++ l.slice a b = l.take b := by
  have h := slice_append_slice l (Nat.zero_le a) hab
  simpa [slice] using h

theorem drop_slice (l : List α) (a b k : Nat) : (l.slice a b).drop k = l.slice (a + k) b := by
  rw [slice, slice, List.drop_take, List.drop_drop]
  congr 1
  omega

/-- A slice does not see what is appended behind it. -/
theorem slice_of_isPrefix {l l' : List α} (h : l <+: l') {a b : Nat} (hb : b ≤ l.length) :
    l'.slice a b = l.slice a b := by
  obtain ⟨t, rfl⟩ := h
  apply List.ext_getElem?
  intro i
  rw [getElem?_slice, getElem?_slice]
  split_ifs with hi
  · rw [List.getElem?_append_left (by omega)]
  · rfl

/-- An initial part of `l` extended by the slice behind it. -/
theorem take_append_of_getElem? {l tl : List α} {n : Nat}
    (h : ∀ i b, tl[i]? = some b → l[n + i]? = some b) :
    l.take n ++ tl = l.take (n + tl.length) := by
  have htl : tl = l.slice n (n + tl.length) := by
    apply List.ext_getElem?
    intro i
    rw [getElem?_slice]
    split_ifs with hi
    · have hlt : i < tl.length := by omega
      rw [h i tl[i] (List.getElem?_eq_getElem hlt), List.getElem?_eq_getElem hlt]
    · exact List.getElem?_eq_none (by omega)
  conv_lhs => rw [htl]
  exact take_append_slice l (Nat.le_add_right _ _)

/-- An initial part of `l`, read element by element. -/
theorem take_eq_map_getD {l : List α} {n : Nat} (h : n ≤ l.length) (d : α) :
    l.take n = (List.range n).map (fun i => l.getD i d) := by
  apply List.ext_getElem?
  intro i
  rw [List.getElem?_take, List.getElem?_map]
  by_cases hi : i < n
  · have hlt : i < l.length := by omega
    rw [if_pos hi, List.getElem?_range hi, Option.map_some, List.getD_eq_getElem?_getD,
      List.getElem?_eq_getElem hlt, Option.getD_some]
  · have hout : (List.range n)[i]? = none := by
      rw [List.getElem?_eq_none_iff, List.length_range]
      omega
    rw [if_neg hi, hout]
    rfl

end List
