import Mathlib.Data.List.MinMax
import Mathlib.Tactic.Common

set_option autoImplicit false

/-! # The first of the largest elements

A scan that keeps a candidate and replaces it by strictly larger elements only ends with the
first of the largest. Mathlib's `List.argmax` is that scan; here it runs over the elements with
a property, and what it finds is told by where it stands in the whole list.

* `argmax_filter_concat_of_lt`, `argmax_filter_concat_of_le`: one more element at the end.
* `argmax_filter_eq_some`: the scan finds exactly the elements that are a `FirstMax`.
-/

variable {α β : Type} [LinearOrder β] {p : α → Prop} {f : α → β} {l : List α} {a b : α}

/-- Of the elements of `l` with the property `p`, the first on which `f` is largest. -/
def FirstMax (p : α → Prop) (f : α → β) (l : List α) (a : α) : Prop :=
  p a ∧ ∃ before after, l = before ++ a :: after ∧
    (∀ b ∈ before, p b → f b < f a) ∧ ∀ b ∈ after, p b → f b ≤ f a

namespace FirstMax

theorem le (h : FirstMax p f l a) (hb : b ∈ l) (hpb : p b) : f b ≤ f a := by
  obtain ⟨-, before, after, rfl, hbefore, hafter⟩ := h
  rcases List.mem_append.mp hb with hb | hb
  · exact (hbefore b hb hpb).le
  · rcases List.mem_cons.mp hb with rfl | hb
    · exact le_rfl
    · exact hafter b hb hpb

/-- What comes later must be strictly larger to take over. -/
theorem concat_left (h : FirstMax p f l a) (hb : p b → f b ≤ f a) :
    FirstMax p f (l ++ [b]) a := by
  obtain ⟨ha, before, after, rfl, hbefore, hafter⟩ := h
  refine ⟨ha, before, after ++ [b], by simp, hbefore, ?_⟩
  intro c hc hpc
  rcases List.mem_append.mp hc with hc | hc
  · exact hafter c hc hpc
  · obtain rfl := List.mem_singleton.mp hc
    exact hb hpc

theorem concat_right (ha : p a) (h : ∀ b ∈ l, p b → f b < f a) : FirstMax p f (l ++ [a]) a :=
  ⟨ha, l, [], rfl, h, fun _ hb => absurd hb List.not_mem_nil⟩

/-- Of two elements in different places the later one would have to be strictly larger, and the
earlier one at least as large. -/
theorem unique (ha : FirstMax p f l a) (hb : FirstMax p f l b) : a = b := by
  have hfb : ∀ c ∈ l, p c → f c ≤ f b := fun c hc => hb.le hc
  have hfa : ∀ c ∈ l, p c → f c ≤ f a := fun c hc => ha.le hc
  obtain ⟨hpa, before1, after1, rfl, hbefore1, -⟩ := ha
  obtain ⟨hpb, before2, after2, hsplit, hbefore2, -⟩ := hb
  rcases List.append_eq_append_iff.mp hsplit with ⟨middle, hbefore, hrest⟩ | ⟨middle, hbefore, hrest⟩
  · cases middle with
    | nil => exact (List.cons.inj hrest).1
    | cons c middle =>
        obtain ⟨rfl, -⟩ := List.cons.inj hrest
        -- the first stands before the second
        have hlt := hbefore2 a (by rw [hbefore]; simp) hpa
        exact absurd (hfa b (by rw [hsplit]; simp) hpb) (not_le.mpr hlt)
  · cases middle with
    | nil => exact (List.cons.inj hrest).1.symm
    | cons c middle =>
        obtain ⟨rfl, -⟩ := List.cons.inj hrest
        have hlt := hbefore1 b (by rw [hbefore]; simp) hpb
        exact absurd (hfb a (by simp) hpa) (not_le.mpr hlt)

end FirstMax

variable [DecidablePred p]

/-- The last element takes over when it is larger than what was found before it. -/
theorem argmax_filter_concat_of_lt (ha : p a) (h : ∀ b ∈ (l.filter p).argmax f, f b < f a) :
    ((l ++ [a]).filter p).argmax f = some a := by
  rw [List.filter_append, List.filter_singleton, decide_eq_true ha, cond_true, List.argmax_concat]
  cases hbest : (l.filter p).argmax f with
  | none => rfl
  | some b => exact if_pos (h b hbest)

/-- Otherwise nothing changes. -/
theorem argmax_filter_concat_of_le (h : p a → ∃ b ∈ (l.filter p).argmax f, f a ≤ f b) :
    ((l ++ [a]).filter p).argmax f = (l.filter p).argmax f := by
  rw [List.filter_append, List.filter_singleton]
  by_cases ha : p a
  · obtain ⟨b, hbest, hle⟩ := h ha
    rw [decide_eq_true ha, cond_true, List.argmax_concat, hbest]
    exact if_neg (not_lt.mpr hle)
  · rw [decide_eq_false ha, cond_false, List.append_nil]

theorem argmax_filter_eq_none :
    (l.filter p).argmax f = none ↔ ∀ a ∈ l, ¬ p a := by
  rw [List.argmax_eq_none, List.filter_eq_nil_iff]
  simp

theorem firstMax_of_argmax (h : (l.filter p).argmax f = some a) : FirstMax p f l a := by
  induction l using List.reverseRecOn generalizing a with
  | nil => exact nomatch h
  | append_singleton l b ih =>
      by_cases hover : p b ∧ ∀ c ∈ (l.filter p).argmax f, f c < f b
      · -- the last element is larger than all before it
        rw [argmax_filter_concat_of_lt hover.1 hover.2] at h
        obtain rfl := Option.some.inj h
        apply FirstMax.concat_right hover.1
        intro c hc hpc
        cases hbest : (l.filter p).argmax f with
        | none => exact absurd hpc (argmax_filter_eq_none.mp hbest c hc)
        | some d => exact ((ih hbest).le hc hpc).trans_lt (hover.2 d hbest)
      · have hkeep : p b → ∃ c ∈ (l.filter p).argmax f, f b ≤ f c := by
          intro hpb
          by_contra hnone
          exact hover ⟨hpb, fun c hc => not_le.mp fun hle => hnone ⟨c, hc, hle⟩⟩
        rw [argmax_filter_concat_of_le hkeep] at h
        apply (ih h).concat_left
        intro hpb
        obtain ⟨c, hc, hle⟩ := hkeep hpb
        obtain rfl := Option.some.inj (h.symm.trans hc)
        exact hle

theorem argmax_filter_eq_some :
    (l.filter p).argmax f = some a ↔ FirstMax p f l a := by
  constructor
  · exact firstMax_of_argmax
  · intro h
    have hmem : a ∈ l := by
      obtain ⟨-, before, after, rfl, -, -⟩ := h
      simp
    cases hbest : (l.filter p).argmax f with
    | none => exact absurd h.1 (argmax_filter_eq_none.mp hbest a hmem)
    | some b => exact congrArg some ((firstMax_of_argmax hbest).unique h)
