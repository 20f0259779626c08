import Minnow.Library.Run
import Mathlib.Algebra.BigOperators.Group.Finset.Piecewise
import Mathlib.Algebra.BigOperators.Group.List.Basic

set_option autoImplicit false

/-! # Amounts that runs can only be given

An amount is spread over the entries of a table or a list, and an operation changes one entry:
`sum_update` and `sum_set` say what the whole gains and loses then. If no step adds to an amount
more than its operation brings, a run adds no more than all of them bring (`measure_le_sum`).
-/

section Sums

variable {α κ : Type}

theorem sum_update [Fintype κ] [DecidableEq κ] (f : α → Nat) (t : κ → α) (k : κ) (a : α) :
    ∑ j, f (Function.update t k a j) + f (t k) = ∑ j, f (t j) + f a := by
  have hcomp : (fun j => f (Function.update t k a j)) = Function.update (fun j => f (t j)) k (f a) :=
    funext fun j => Function.apply_update (fun _ => f) t k a j
  have hrest : ∑ j, f (t j) = ∑ j ∈ Finset.univ.erase k, f (t j) + f (t k) :=
    (Finset.sum_erase_add _ _ (Finset.mem_univ k)).symm
  rw [hcomp, Finset.sum_update_of_mem (Finset.mem_univ k), Finset.sdiff_singleton_eq_erase, hrest]
  omega

theorem sum_set (f : α → Nat) {l : List α} {i : Nat} {a : α} (b : α) (h : l[i]? = some a) :
    ((l.set i b).map f).sum + f a = (l.map f).sum + f b := by
  induction l generalizing i with
  | nil => exact nomatch h
  | cons first rest ih =>
      cases i with
      | zero =>
          obtain rfl := Option.some.inj h
          rw [List.set_cons_zero, List.map_cons, List.map_cons, List.sum_cons, List.sum_cons]
          omega
      | succ i =>
          have hrest := ih h
          rw [List.set_cons_succ, List.map_cons, List.map_cons, List.sum_cons, List.sum_cons]
          omega

end Sums

namespace Exec

variable {σ ι : Type} {P : σ → ι → Prop} {step : σ → ι → Exec σ} {s s1 : σ} {ops : List ι}

/-- No run adds to an amount more than its operations bring. -/
theorem RunWhile.measure_le_sum (Inv : σ → Prop) (measure : σ → Nat) (income : ι → Nat)
    (hstep : ∀ s op s1, Inv s → P s op → step s op = .ok s1 →
      Inv s1 ∧ measure s1 ≤ measure s + income op)
    (h : RunWhile P step s ops s1) (hinv : Inv s) :
    measure s1 ≤ measure s + (ops.map income).sum := by
  induction h with
  | nil s => exact Nat.le_add_right _ _
  | @cons s s2 s1 op ops hop hone _ ih =>
      obtain ⟨hinv2, hle⟩ := hstep _ _ _ hinv hop hone
      have hrest := ih hinv2
      rw [List.map_cons, List.sum_cons]
      omega

end Exec
