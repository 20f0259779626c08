import Mathlib.Data.List.Basic
import Mathlib.Order.Bounds.Defs
import Mathlib.Tactic.Common

set_option autoImplicit false

/-! # Files of records

A file that is written record by record, and read until no whole record is left. However much of
its end was cut off, what is read are the records that are still whole (`readAll_take`).
-/

/-- What was written is read, whatever comes after it; what was cut off is not. -/
structure RecordFormat (α β : Type) where
  write : α → List β
  read : List β → Option (α × List β)
  write_pos : ∀ a, 0 < (write a).length
  read_write : ∀ a rest, read (write a ++ rest) = some (a, rest)
  read_cut : ∀ a k, k < (write a).length → read ((write a).take k) = none
  read_nil : read [] = none

namespace RecordFormat

variable {α β : Type} (f : RecordFormat α β)

def writeAll (l : List α) : List β := l.flatMap f.write

/-- The records up to the first one that cannot be read, on an iteration budget. -/
def readAll : Nat → List β → List α
  | 0, _ => []
  | budget + 1, bytes =>
      match f.read bytes with
      | none => []
      | some (a, rest) => a :: readAll budget rest

/-- How many of the records end within the first `k` elements. -/
def whole : List α → Nat → Nat
  | [], _ => 0
  | a :: l, k =>
      if (f.write a).length ≤ k then whole l (k - (f.write a).length) + 1 else 0

@[simp] theorem writeAll_nil : f.writeAll [] = [] := rfl

@[simp] theorem writeAll_cons (a : α) (l : List α) :
    f.writeAll (a :: l) = f.write a ++ f.writeAll l := rfl

theorem readAll_take (l : List α) (k : Nat) {budget : Nat}
    (hbudget : ((f.writeAll l).take k).length ≤ budget) :
    f.readAll budget ((f.writeAll l).take k) = l.take (f.whole l k) := by
  induction l generalizing k budget with
  | nil =>
      rw [writeAll_nil, List.take_nil, List.take_nil]
      cases budget with
      | zero => rfl
      | succ budget => rw [readAll, f.read_nil]
  | cons a l ih =>
      have hpos := f.write_pos a
      rw [writeAll_cons, List.take_append, List.length_append, List.length_take] at hbudget
      rw [writeAll_cons, List.take_append]
      by_cases hk : (f.write a).length ≤ k
      · -- the first record is whole
        rw [whole, if_pos hk, List.take_of_length_le hk, List.take_succ_cons]
        cases budget with
        | zero => omega
        | succ budget =>
            rw [readAll, f.read_write]
            dsimp only
            rw [ih _ (by omega)]
      · -- it was cut off, and nothing comes after it
        have hcut : k < (f.write a).length := Nat.lt_of_not_le hk
        rw [whole, if_neg hk, Nat.sub_eq_zero_of_le (Nat.le_of_lt hcut), List.take_zero,
          List.append_nil, List.take_zero]
        cases budget with
        | zero => rfl
        | succ budget => rw [readAll, f.read_cut a k hcut]

/-- As many records as end within the first `k` elements, and no more. -/
theorem whole_isGreatest (l : List α) (k : Nat) :
    IsGreatest { m | m ≤ l.length ∧ (f.writeAll (l.take m)).length ≤ k } (f.whole l k) := by
  induction l generalizing k with
  | nil =>
      refine ⟨⟨Nat.le_refl _, Nat.zero_le _⟩, ?_⟩
      rintro m ⟨hm, -⟩
      exact hm
  | cons a l ih =>
      by_cases hk : (f.write a).length ≤ k
      · obtain ⟨⟨hle, hfits⟩, hmax⟩ := ih (k - (f.write a).length)
        rw [whole, if_pos hk]
        refine ⟨⟨Nat.succ_le_succ hle, ?_⟩, ?_⟩
        · rw [List.take_succ_cons, writeAll_cons, List.length_append]
          omega
        · rintro m ⟨hm, hfit⟩
          cases m with
          | zero => exact Nat.zero_le _
          | succ m =>
              rw [List.take_succ_cons, writeAll_cons, List.length_append] at hfit
              exact Nat.succ_le_succ (hmax ⟨Nat.le_of_succ_le_succ hm, by omega⟩)
      · rw [whole, if_neg hk]
        refine ⟨⟨Nat.zero_le _, Nat.zero_le _⟩, ?_⟩
        rintro m ⟨hm, hfit⟩
        cases m with
        | zero => exact Nat.le_refl _
        | succ m =>
            rw [List.take_succ_cons, writeAll_cons, List.length_append] at hfit
            exact absurd (Nat.le_trans (Nat.le_add_right _ _) hfit) hk

end RecordFormat
