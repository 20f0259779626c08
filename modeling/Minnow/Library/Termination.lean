import Mathlib.Data.Prod.Lex
import Mathlib.Order.WellFounded
import Mathlib.Tactic.Common

set_option autoImplicit false

/-! # Termination

A system whose steps decrease a measure with values in a well-founded order, in every state an
invariant admits, has no infinite run from such a state.
-/

/-- An infinite run of `Step` from `s`. -/
def InfiniteRun {σ : Type} (Step : σ → σ → Prop) (s : σ) : Prop :=
  ∃ run : Nat → σ, run 0 = s ∧ ∀ n, Step (run n) (run (n + 1))

section

variable {σ β : Type} [Preorder β] [WellFoundedLT β] {Step : σ → σ → Prop} {s : σ}

theorem not_infiniteRun (Inv : σ → Prop) (measure : σ → β)
    (hstep : ∀ s s1, Inv s → Step s s1 → Inv s1 ∧ measure s1 < measure s) (h : Inv s) :
    ¬ InfiniteRun Step s := by
  rintro ⟨run, hstart, hrun⟩
  have hinv : ∀ n, Inv (run n) := by
    intro n
    induction n with
    | zero =>
        rw [hstart]
        exact h
    | succ n ih => exact (hstep _ _ ih (hrun n)).1
  obtain ⟨n, hn⟩ :=
    WellFounded.not_rel_apply_succ (r := fun a b : β => a < b) (fun n => measure (run n))
  exact hn (hstep _ _ (hinv n) (hrun n)).2

end

/-- The first component decreases, or it stays and the second decreases. -/
theorem toLex_lt_toLex_of_le {α β : Type} [PartialOrder α] [Preorder β] {a1 a2 : α} {b1 b2 : β}
    (ha : a1 ≤ a2) (hb : a1 = a2 → b1 < b2) : toLex (a1, b1) < toLex (a2, b2) := by
  rcases lt_or_eq_of_le ha with hlt | heq
  · exact Prod.Lex.toLex_lt_toLex.mpr (Or.inl hlt)
  · exact Prod.Lex.toLex_lt_toLex.mpr (Or.inr ⟨heq, hb heq⟩)
