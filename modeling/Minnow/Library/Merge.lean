import Mathlib.Data.List.Basic

set_option autoImplicit false

/-! # Merges of two lists

A list is a merge of two others if it can be split into them, each in its order. This says that
the first is what is left of the list when the second is taken out of it.
-/

namespace List

variable {α β : Type}

/-- Of two lists that belong together, each element of the first has its match in the second. -/
theorem Forall₂.exists_mem {R : α → β → Prop} {xs : List α} {ys : List β} {a : α}
    (h : Forall₂ R xs ys) (ha : a ∈ xs) : ∃ b ∈ ys, R a b := by
  induction h with
  | nil => exact absurd ha not_mem_nil
  | cons hfirst _ ih =>
      rcases mem_cons.mp ha with rfl | ha
      · exact ⟨_, mem_cons_self, hfirst⟩
      · obtain ⟨b, hb, hab⟩ := ih ha
        exact ⟨b, mem_cons_of_mem _ hb, hab⟩

/-- `zs` consists of `xs` and `ys`, each in its order. -/
inductive IsMerge : List α → List α → List α → Prop where
  | nil : IsMerge [] [] []
  | left {a : α} {xs ys zs : List α} (h : IsMerge xs ys zs) : IsMerge (a :: xs) ys (a :: zs)
  | right {a : α} {xs ys zs : List α} (h : IsMerge xs ys zs) : IsMerge xs (a :: ys) (a :: zs)

namespace IsMerge

theorem left_self (l : List α) : IsMerge l [] l := by
  induction l with
  | nil => exact .nil
  | cons a l ih => exact .left ih

theorem right_self (l : List α) : IsMerge [] l l := by
  induction l with
  | nil => exact .nil
  | cons a l ih => exact .right ih

theorem append {xs ys zs xs1 ys1 zs1 : List α} (h : IsMerge xs ys zs)
    (h1 : IsMerge xs1 ys1 zs1) : IsMerge (xs ++ xs1) (ys ++ ys1) (zs ++ zs1) := by
  induction h with
  | nil => exact h1
  | left _ ih => exact .left ih
  | right _ ih => exact .right ih

theorem append_left {xs ys zs : List α} (h : IsMerge xs ys zs) (l : List α) :
    IsMerge (xs ++ l) ys (zs ++ l) := by
  have happend := h.append (left_self l)
  rwa [List.append_nil] at happend

theorem append_right {xs ys zs : List α} (h : IsMerge xs ys zs) (l : List α) :
    IsMerge xs (ys ++ l) (zs ++ l) := by
  have happend := h.append (right_self l)
  rwa [List.append_nil] at happend

end IsMerge

end List
