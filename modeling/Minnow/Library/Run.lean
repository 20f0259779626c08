import Minnow.Library.Exec

set_option autoImplicit false

/-! # Runs

A machine is a step function that may stop abnormally. `Exec.run` performs a list of
operations one after the other. The first rules carry an invariant through a run, forwards and
backwards: for runs that are known to return a state, and to prove that they do. `Padded.run`
compares a run with one that has more operations in it.
-/

namespace Exec

variable {σ ι : Type}

/-- Perform the operations from left to right. -/
def run (step : σ → ι → Exec σ) : σ → List ι → Exec σ
  | s, [] => .ok s
  | s, op :: ops => do
      let s ← step s op
      run step s ops

variable {step : σ → ι → Exec σ} {s s1 : σ} {ops : List ι}

@[simp] theorem run_nil : run step s [] = .ok s := rfl

theorem run_cons_eq_ok {op : ι} :
    run step s (op :: ops) = .ok s1 ↔ ∃ s2, step s op = .ok s2 ∧ run step s2 ops = .ok s1 :=
  bind_eq_ok

theorem run_singleton (s : σ) (op : ι) : run step s [op] = step s op := by
  rw [run]
  cases step s op with
  | error fault => rfl
  | ok s1 => rfl

theorem run_map {κ : Type} (f : κ → ι) (s : σ) (ops : List κ) :
    run step s (ops.map f) = run (fun s op => step s (f op)) s ops := by
  induction ops generalizing s with
  | nil => rfl
  | cons op ops ih =>
      rw [List.map_cons, run, run]
      cases step s (f op) with
      | error fault => rfl
      | ok s1 => exact ih s1

theorem run_append (s : σ) (ops more : List ι) :
    run step s (ops ++ more) = (run step s ops >>= fun s => run step s more) := by
  induction ops generalizing s with
  | nil => rfl
  | cons op ops ih =>
      rw [List.cons_append, run, run]
      cases step s op with
      | error fault => rfl
      | ok s1 => exact ih s1

theorem run_append_eq_ok {more : List ι} : run step s (ops ++ more) = .ok s1 ↔
    ∃ s2, run step s ops = .ok s2 ∧ run step s2 more = .ok s1 := by
  rw [run_append, bind_eq_ok]

/-- What every step keeps, a run keeps. -/
theorem run_invariant (Inv : σ → Prop)
    (hstep : ∀ s op s1, Inv s → step s op = .ok s1 → Inv s1) (h : Inv s)
    (hrun : run step s ops = .ok s1) : Inv s1 := by
  induction ops generalizing s with
  | nil =>
      obtain rfl : s = s1 := Except.ok.inj hrun
      exact h
  | cons op ops ih =>
      obtain ⟨s2, hop, hrest⟩ := run_cons_eq_ok.mp hrun
      exact ih (hstep s op s2 h hop) hrest

/-- What is known at the end of a run is known at its start, if every step takes it back. -/
theorem run_back (P : σ → Prop) (hback : ∀ s op s1, step s op = .ok s1 → P s1 → P s)
    (hrun : run step s ops = .ok s1) (h : P s1) : P s := by
  by_contra hnot
  exact run_invariant (fun s => ¬ P s)
    (fun s op s1 hs hstep h1 => hs (hback s op s1 hstep h1)) hnot hrun h

/-- If no step stops abnormally where the invariant holds, no run does. -/
theorem run_total (Inv : σ → Prop)
    (hstep : ∀ s op, Inv s → ∃ s1, step s op = .ok s1 ∧ Inv s1) (h : Inv s) (ops : List ι) :
    ∃ s1, run step s ops = .ok s1 ∧ Inv s1 := by
  induction ops generalizing s with
  | nil => exact ⟨s, rfl, h⟩
  | cons op ops ih =>
      obtain ⟨s2, hop, hinv⟩ := hstep s op h
      obtain ⟨s1, hrest, hfinal⟩ := ih hinv
      exact ⟨s1, run_cons_eq_ok.mpr ⟨s2, hop, hrest⟩, hfinal⟩

/-- A run all of whose steps meet a condition on the state before and the operation. -/
inductive RunWhile (P : σ → ι → Prop) (step : σ → ι → Exec σ) : σ → List ι → σ → Prop where
  | nil (s : σ) : RunWhile P step s [] s
  | cons {s s1 s2 : σ} {op : ι} {ops : List ι} (hop : P s op) (hstep : step s op = .ok s1)
      (hrest : RunWhile P step s1 ops s2) : RunWhile P step s (op :: ops) s2

variable {P : σ → ι → Prop}

theorem RunWhile.run (h : RunWhile P step s ops s1) : Exec.run step s ops = .ok s1 := by
  induction h with
  | nil s => rfl
  | cons _ hstep _ ih => exact run_cons_eq_ok.mpr ⟨_, hstep, ih⟩

theorem RunWhile.mono {Q : σ → ι → Prop} (hmono : ∀ s op, P s op → Q s op)
    (h : RunWhile P step s ops s1) : RunWhile Q step s ops s1 := by
  induction h with
  | nil s => exact .nil s
  | cons hop hone _ ih => exact .cons (hmono _ _ hop) hone ih

theorem RunWhile.singleton {op : ι} (h : RunWhile P step s [op] s1) :
    P s op ∧ step s op = .ok s1 := by
  cases h with
  | cons hop hstep hrest =>
      cases hrest with
      | nil => exact ⟨hop, hstep⟩

theorem RunWhile.append {s2 : σ} {more : List ι} (h : RunWhile P step s ops s1)
    (hmore : RunWhile P step s1 more s2) : RunWhile P step s (ops ++ more) s2 := by
  induction h with
  | nil s => exact hmore
  | cons hop hone _ ih => exact .cons hop hone (ih hmore)

theorem RunWhile.split {s2 : σ} {more : List ι} (h : RunWhile P step s (ops ++ more) s2) :
    ∃ s1, RunWhile P step s ops s1 ∧ RunWhile P step s1 more s2 := by
  induction ops generalizing s with
  | nil => exact ⟨s, .nil s, h⟩
  | cons op ops ih =>
      cases h with
      | cons hop hone hrest =>
          obtain ⟨s1, hfirst, hmore⟩ := ih hrest
          exact ⟨s1, .cons hop hone hfirst, hmore⟩

/-- What every step that meets the condition keeps, such a run keeps. -/
theorem RunWhile.invariant (Inv : σ → Prop)
    (hstep : ∀ s op s1, Inv s → P s op → step s op = .ok s1 → Inv s1)
    (h : RunWhile P step s ops s1) (hinv : Inv s) : Inv s1 := by
  induction h with
  | nil s => exact hinv
  | cons hop hone _ ih => exact ih (hstep _ _ _ hinv hop hone)

/-- If between related states every step of one machine is a run of another, then so is every
run of the first. -/
theorem RunWhile.simulate {τ κ : Type} {Q : τ → κ → Prop} {step1 : τ → κ → Exec τ}
    (Rel : σ → τ → Prop)
    (hstep : ∀ s op s1 t, Rel s t → P s op → step s op = .ok s1 →
      ∃ ops t1, RunWhile Q step1 t ops t1 ∧ Rel s1 t1)
    (h : RunWhile P step s ops s1) {t : τ} (hrel : Rel s t) :
    ∃ ops1 t1, RunWhile Q step1 t ops1 t1 ∧ Rel s1 t1 := by
  induction h generalizing t with
  | nil s => exact ⟨[], t, .nil t, hrel⟩
  | cons hop hone _ ih =>
      obtain ⟨ops1, t1, hfirst, hrel1⟩ := hstep _ _ _ _ hrel hop hone
      obtain ⟨ops2, t2, hrest, hrel2⟩ := ih hrel1
      exact ⟨ops1 ++ ops2, t2, hfirst.append hrest, hrel2⟩

/-- Where no operation lets a measure decrease, and the counted ones let it increase up to a
bound, a run reaches the bound or as much as it has counted operations. -/
theorem RunWhile.measure_le (Inv : σ → Prop) (measure : σ → Nat) (bound : Nat)
    (counted : ι → Bool)
    (hstep : ∀ s op s1, Inv s → P s op → step s op = .ok s1 → Inv s1 ∧ measure s ≤ measure s1 ∧
      (counted op = true → measure s < bound → measure s < measure s1))
    (h : RunWhile P step s ops s1) (hinv : Inv s) :
    min bound (measure s + ops.countP counted) ≤ measure s1 := by
  induction h with
  | nil s => exact min_le_right _ _
  | @cons s s2 s1 op ops hop hone _ ih =>
      obtain ⟨hinv2, hle, hlt⟩ := hstep _ _ _ hinv hop hone
      have hrest := ih hinv2
      by_cases hcounted : counted op = true
      · rw [List.countP_cons_of_pos hcounted]
        by_cases hbound : measure s < bound
        · have hmore := hlt hcounted hbound
          omega
        · omega
      · rw [List.countP_cons_of_neg hcounted]
        omega

/-- Where every state below the bound leads to one with a larger measure, some run reaches the
bound. -/
theorem exists_run_of_climb (Inv : σ → Prop) (measure : σ → Nat) (bound : Nat)
    (hmore : ∀ s, Inv s → measure s < bound →
      ∃ ops s1, RunWhile P step s ops s1 ∧ Inv s1 ∧ measure s < measure s1) (hinv : Inv s) :
    ∃ ops s1, RunWhile P step s ops s1 ∧ Inv s1 ∧ bound ≤ measure s1 := by
  obtain ⟨missing, hmissing⟩ : ∃ missing, bound ≤ measure s + missing :=
    ⟨bound, Nat.le_add_left _ _⟩
  induction missing generalizing s with
  | zero => exact ⟨[], s, .nil s, hinv, hmissing⟩
  | succ missing ih =>
      by_cases hbound : measure s < bound
      · obtain ⟨ops, s2, hrun, hinv2, hlt⟩ := hmore s hinv hbound
        obtain ⟨rest, s1, hrest, hfinal⟩ := ih hinv2 (by omega)
        exact ⟨ops ++ rest, s1, hrun.append hrest, hfinal⟩
      · exact ⟨[], s, .nil s, hinv, Nat.le_of_not_lt hbound⟩

/-- Every state of a run has the property. -/
def RunAlways (Good : σ → Prop) (step : σ → ι → Exec σ) (s : σ) (ops : List ι) : Prop :=
  ∀ before after s1, ops = before ++ after → run step s before = .ok s1 → Good s1

/-- If a step keeps a property exactly when it meets a condition, then a run has the property
throughout exactly when all its steps meet the condition. -/
theorem runAlways_iff (Inv Good : σ → Prop)
    (hstep : ∀ s op s1, Inv s → Good s → step s op = .ok s1 → Inv s1 ∧ (Good s1 ↔ P s op))
    (h : Inv s) (hgood : Good s) (hrun : run step s ops = .ok s1) :
    RunAlways Good step s ops ↔ RunWhile P step s ops s1 := by
  induction ops generalizing s with
  | nil =>
      obtain rfl : s = s1 := Except.ok.inj hrun
      refine iff_of_true ?_ (.nil s)
      intro before after s2 hsplit hbefore
      obtain ⟨rfl, -⟩ := List.append_eq_nil_iff.mp hsplit.symm
      obtain rfl : s = s2 := Except.ok.inj hbefore
      exact hgood
  | cons op ops ih =>
      obtain ⟨s2, hop, hrest⟩ := run_cons_eq_ok.mp hrun
      obtain ⟨hinv2, hiff⟩ := hstep s op s2 h hgood hop
      constructor
      · intro halways
        have hgood2 : Good s2 := halways [op] ops s2 rfl (run_cons_eq_ok.mpr ⟨s2, hop, rfl⟩)
        apply RunWhile.cons (hiff.mp hgood2) hop
        -- a state of the shorter run is a state of the whole run
        apply (ih hinv2 hgood2 hrest).mp
        intro before after s3 hsplit hbefore
        exact halways (op :: before) after s3 (by rw [hsplit, List.cons_append])
          (run_cons_eq_ok.mpr ⟨s2, hop, hbefore⟩)
      · intro hwhile
        cases hwhile with
        | cons hP hop1 hrest1 =>
            rw [hop, Except.ok.injEq] at hop1
            subst hop1
            have halways := (ih hinv2 (hiff.mpr hP) hrest).mpr hrest1
            intro before after s3 hsplit hbefore
            -- the state reached is the first one, or one of the shorter run
            cases before with
            | nil =>
                obtain rfl : s = s3 := Except.ok.inj hbefore
                exact hgood
            | cons op1 before =>
                obtain ⟨rfl, htail⟩ := List.cons.inj hsplit
                obtain ⟨s4, hop4, hbefore⟩ := run_cons_eq_ok.mp hbefore
                rw [hop, Except.ok.injEq] at hop4
                subst hop4
                exact halways before after s3 htail hbefore

/-- The step that stops where the condition does not hold. -/
def guarded (P : σ → ι → Prop) [∀ s op, Decidable (P s op)] (step : σ → ι → Exec σ) (s : σ)
    (op : ι) : Exec σ := do
  assert (P s op)
  step s op

/-- A run that checks the condition at every step shows that it holds at every step. -/
theorem RunWhile.of_guarded [∀ s op, Decidable (P s op)]
    (h : Exec.run (guarded P step) s ops = .ok s1) : RunWhile P step s ops s1 := by
  induction ops generalizing s with
  | nil =>
      obtain rfl : s = s1 := Except.ok.inj h
      exact .nil s
  | cons op ops ih =>
      obtain ⟨s2, hguarded, hrest⟩ := run_cons_eq_ok.mp h
      obtain ⟨u, hassert, hstep⟩ := bind_eq_ok.mp hguarded
      exact .cons (assert_eq_ok.mp hassert) hstep (ih hrest)

/-! ## Runs with operations put in -/

/-- The second list is the first with operations that meet `Pad` put in anywhere. -/
inductive Padded (Pad : ι → Prop) : List ι → List ι → Prop where
  | nil : Padded Pad [] []
  | keep {op : ι} {ops more : List ι} (hrest : Padded Pad ops more) :
      Padded Pad (op :: ops) (op :: more)
  | insert {op : ι} {ops more : List ι} (hop : Pad op) (hrest : Padded Pad ops more) :
      Padded Pad ops (op :: more)

variable {Pad : ι → Prop} {more : List ι} {t : σ}

/-- If like states stay alike when both perform an operation, and when the second performs one
that was put in, then the two runs end in like states. -/
theorem Padded.run (Like : σ → σ → Prop)
    (hkeep : ∀ s t op s1, Like s t → step s op = .ok s1 →
      ∃ t1, step t op = .ok t1 ∧ Like s1 t1)
    (hinsert : ∀ s t op, Like s t → Pad op → ∃ t1, step t op = .ok t1 ∧ Like s t1)
    (h : Padded Pad ops more) (hlike : Like s t) (hrun : Exec.run step s ops = .ok s1) :
    ∃ t1, Exec.run step t more = .ok t1 ∧ Like s1 t1 := by
  induction h generalizing s t with
  | nil =>
      obtain rfl : s = s1 := Except.ok.inj hrun
      exact ⟨t, rfl, hlike⟩
  | keep _ ih =>
      obtain ⟨s2, hop, hrest⟩ := run_cons_eq_ok.mp hrun
      obtain ⟨t2, hop2, hlike2⟩ := hkeep s t _ s2 hlike hop
      obtain ⟨t1, hmore, hfinal⟩ := ih hlike2 hrest
      exact ⟨t1, run_cons_eq_ok.mpr ⟨t2, hop2, hmore⟩, hfinal⟩
  | insert hpad _ ih =>
      obtain ⟨t2, hop2, hlike2⟩ := hinsert s t _ hlike hpad
      obtain ⟨t1, hmore, hfinal⟩ := ih hlike2 hrun
      exact ⟨t1, run_cons_eq_ok.mpr ⟨t2, hop2, hmore⟩, hfinal⟩

end Exec
