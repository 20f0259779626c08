import Mathlib.Algebra.GroupWithZero.Nat
import Mathlib.Data.Nat.Basic

set_option autoImplicit false

/-! # Computations that may stop abnormally

A program with assertions, slices and checked conversions either returns a value or stops
with a fault. `Exec α` is that: `Except` over the kinds of fault. A loop is a structural
recursion on an iteration budget; a loop that outlives its budget is the fault `divergence`,
so "the loop ends" is the statement that it returns a value.

Machine words are natural numbers here. The operations below are the ones whose result
depends on the width of the word.
-/

/-- Why a computation stops without a value. -/
inductive Fault where
  | assertion
  | expectation
  | slice
  | overflow
  | divergence
  deriving DecidableEq, Repr

/-- A computation that returns a value or stops with a fault. -/
abbrev Exec (α : Type) : Type := Except Fault α

namespace Exec

variable {α β : Type}

/-- `assert!` and `debug_assert!`. -/
def assert (p : Prop) [Decidable p] : Exec Unit :=
  if p then .ok () else .error .assertion

/-- `Option::expect` and `Result::expect`. -/
def expect : Option α → Exec α
  | some a => .ok a
  | none => .error .expectation

@[simp] theorem ok_bind (a : α) (f : α → Exec β) : ((.ok a : Exec α) >>= f) = f a := rfl

@[simp] theorem error_bind (e : Fault) (f : α → Exec β) :
    ((.error e : Exec α) >>= f) = .error e := rfl

@[simp] theorem pure_eq (a : α) : (pure a : Exec α) = .ok a := rfl

@[simp] theorem expect_some (a : α) : expect (some a) = .ok a := rfl

theorem assert_pos {p : Prop} [Decidable p] (h : p) : assert p = .ok () := if_pos h

theorem assert_eq_ok {p : Prop} [Decidable p] {u : Unit} : assert p = .ok u ↔ p := by
  unfold assert
  split <;> simp_all

/-- A sequence returns a value exactly when its first half does and the rest does. -/
theorem bind_eq_ok {x : Exec α} {f : α → Exec β} {b : β} :
    (x >>= f) = .ok b ↔ ∃ a, x = .ok a ∧ f a = .ok b := by
  cases x with
  | error e => simp
  | ok a => simp

/-- Evaluating a computation decides whether it returns a value with a property. -/
instance decidableExistsOk {x : Exec α} {p : α → Prop} [∀ a, Decidable (p a)] :
    Decidable (∃ a, x = .ok a ∧ p a) :=
  match x with
  | .ok a => decidable_of_iff (p a) (by simp)
  | .error fault => isFalse (by simp)

end Exec

/-! ## 64-bit words -/

/-- `u64::MAX`. -/
def u64Max : Nat := 2 ^ 64 - 1

/-- `u64::checked_add`. -/
def checkedAdd (a b : Nat) : Option Nat :=
  if a + b ≤ u64Max then some (a + b) else none

/-- `u64::checked_sub`. -/
def checkedSub (a b : Nat) : Option Nat :=
  if b ≤ a then some (a - b) else none

/-- `u64::saturating_add`. -/
def saturatingAdd (a b : Nat) : Nat := min (a + b) u64Max

/-- `u64::saturating_mul`. -/
def saturatingMul (a b : Nat) : Nat := min (a * b) u64Max

/-- The sum of two `u32`, which faults when it is not one. -/
def addU32 (a b : Nat) : Exec Nat := if a + b < 2 ^ 32 then .ok (a + b) else .error .overflow

/-- The sum of two `u64`, which faults when it is not one. -/
def addU64 (a b : Nat) : Exec Nat := if a + b ≤ u64Max then .ok (a + b) else .error .overflow

/-- The product of two `u64`, which faults when it is not one. -/
def mulU64 (a b : Nat) : Exec Nat := if a * b ≤ u64Max then .ok (a * b) else .error .overflow

/-- `u64::abs_diff`. -/
def absDiff (a b : Nat) : Nat := if a < b then b - a else a - b

theorem checkedAdd_of_le {a b : Nat} (h : a + b ≤ u64Max) : checkedAdd a b = some (a + b) :=
  if_pos h

theorem checkedAdd_eq_some {a b c : Nat} : checkedAdd a b = some c ↔ a + b ≤ u64Max ∧ c = a + b := by
  unfold checkedAdd
  split
  · simp only [Option.some.injEq]
    omega
  · simp only [reduceCtorEq, false_iff]
    omega

theorem checkedAdd_eq_none {a b : Nat} : checkedAdd a b = none ↔ u64Max < a + b := by
  unfold checkedAdd
  split <;> simp_all

theorem checkedSub_of_le {a b : Nat} (h : b ≤ a) : checkedSub a b = some (a - b) := if_pos h

theorem checkedSub_eq_some {a b c : Nat} : checkedSub a b = some c ↔ b ≤ a ∧ c = a - b := by
  unfold checkedSub
  split
  · simp only [Option.some.injEq]
    omega
  · simp only [reduceCtorEq, false_iff]
    omega

theorem saturatingAdd_of_le {a b : Nat} (h : a + b ≤ u64Max) : saturatingAdd a b = a + b :=
  min_eq_left h

/-! ## Byte slices -/

/-- `data.slice(a..b)`, which faults when the range does not lie inside `data`. -/
def sliceRange {α : Type} (data : List α) (a b : Nat) : Exec (List α) :=
  if a ≤ b ∧ b ≤ data.length then .ok ((data.take b).drop a) else .error .slice

/-- `data.slice(a..)`. -/
def sliceFrom {α : Type} (data : List α) (a : Nat) : Exec (List α) :=
  if a ≤ data.length then .ok (data.drop a) else .error .slice

theorem sliceRange_of_le {α : Type} {data : List α} {a b : Nat} (hab : a ≤ b)
    (hb : b ≤ data.length) : sliceRange data a b = .ok ((data.take b).drop a) :=
  if_pos ⟨hab, hb⟩

theorem sliceFrom_of_le {α : Type} {data : List α} {a : Nat} (ha : a ≤ data.length) :
    sliceFrom data a = .ok (data.drop a) :=
  if_pos ha

/-- `data[i]`, which faults behind the end of `data`. -/
def byteAt (data : List UInt8) (i : Nat) : Exec UInt8 :=
  match data[i]? with
  | some b => .ok b
  | none => .error .slice

theorem byteAt_of_lt {data : List UInt8} {i : Nat} (h : i < data.length) :
    byteAt data i = .ok (data.getD i 0) := by
  rw [byteAt, List.getD_eq_getElem?_getD, List.getElem?_eq_getElem h, Option.getD_some]
