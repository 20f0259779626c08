import Minnow.Library.Run

set_option autoImplicit false

/-! # Computations with input and output

A computation that changes a state, and that may end with an error of its own before it returns a
value. The error is not a fault: it is passed on as `?` does, and the state stays what it was when
it came up. `Ensures` says of a computation that it stops with no fault, what holds if it returns,
and what holds if it ends with an error; a sequence is put together by `Ensures.bind`.
-/

/-- A value or an error, with the state in either case. -/
def Io (σ ε α : Type) : Type := σ → Exec (Except ε α × σ)

namespace Io

variable {σ ε α β ι : Type}

/-- Go on with a value; pass an error on. -/
def andThen (x : Io σ ε α) (f : α → Io σ ε β) : Io σ ε β := fun s => do
  let (result, s) ← x s
  match result with
  | .ok a => f a s
  | .error e => .ok (.error e, s)

instance : Monad (Io σ ε) where
  pure a := fun s => .ok (.ok a, s)
  bind := andThen

def throw (e : ε) : Io σ ε α := fun s => .ok (.error e, s)

/-- A part without input and output. -/
def exec (x : Exec α) : Io σ ε α := fun s => do
  let a ← x
  .ok (.ok a, s)

def modify (f : σ → σ) : Io σ ε Unit := fun s => .ok (.ok (), f s)

/-- Perform the operations from left to right. -/
def run (step : α → ι → Io σ ε α) : α → List ι → Io σ ε α
  | a, [] => pure a
  | a, op :: ops => do
      let a ← step a op
      run step a ops

/-- The error of a result, if it has one. -/
def failure : Except ε α → Option ε
  | .ok _ => none
  | .error e => some e

theorem failure_eq_none {result : Except ε α} : failure result = none ↔ ∃ a, result = .ok a := by
  cases result <;> simp [failure]

theorem failure_eq_some {result : Except ε α} {e : ε} :
    failure result = some e ↔ result = .error e := by
  cases result <;> simp [failure]

theorem bind_of_ok {x : Io σ ε α} {s s1 : σ} {a : α} (h : x s = .ok (.ok a, s1))
    (f : α → Io σ ε β) : (x >>= f) s = f a s1 := by
  show andThen x f s = _
  rw [andThen, h]
  rfl

theorem bind_of_error {x : Io σ ε α} {s s1 : σ} {e : ε} (h : x s = .ok (.error e, s1))
    (f : α → Io σ ε β) : (x >>= f) s = .ok (.error e, s1) := by
  show andThen x f s = _
  rw [andThen, h]
  rfl

/-! ## What a computation ensures -/

/-- Started in `s`, the computation returns with `Q`, or ends with an error and with `E`. -/
def Ensures (x : Io σ ε α) (s : σ) (Q : α → σ → Prop) (E : ε → σ → Prop) : Prop :=
  ∃ result s1, x s = .ok (result, s1) ∧
    match result with
    | .ok a => Q a s1
    | .error e => E e s1

namespace Ensures

variable {x : Io σ ε α} {f : α → Io σ ε β} {s : σ} {a : α} {Q R : α → σ → Prop}
  {E F : ε → σ → Prop}

theorem pure (h : Q a s) : Ensures (Pure.pure a : Io σ ε α) s Q E := ⟨.ok a, s, rfl, h⟩

theorem throw {e : ε} (h : E e s) : Ensures (Io.throw e : Io σ ε α) s Q E := ⟨.error e, s, rfl, h⟩

theorem modify {g : σ → σ} {Q : Unit → σ → Prop} (h : Q () (g s)) :
    Ensures (Io.modify g) s Q E :=
  ⟨.ok (), g s, rfl, h⟩

/-- What the first half ensures is where the second one starts. -/
theorem bind {Q : β → σ → Prop} (hx : Ensures x s R E)
    (hf : ∀ a s1, R a s1 → Ensures (f a) s1 Q E) : Ensures (x >>= f) s Q E := by
  obtain ⟨result, s1, hrun, hresult⟩ := hx
  cases result with
  | ok a =>
      obtain ⟨result2, s2, hrest, hresult2⟩ := hf a s1 hresult
      exact ⟨result2, s2, (bind_of_ok hrun f).trans hrest, hresult2⟩
  | error e => exact ⟨.error e, s1, bind_of_error hrun f, hresult⟩

/-- A part without input and output returns its value, and the rest goes on from the same state. -/
theorem exec_bind {y : Exec α} {f : α → Io σ ε β} {Q : β → σ → Prop} (hy : y = .ok a)
    (hf : Ensures (f a) s Q E) : Ensures (Io.exec y >>= f) s Q E := by
  obtain ⟨result, s1, hrun, hresult⟩ := hf
  have hreturn : (Io.exec y : Io σ ε α) s = .ok (.ok a, s) := by
    rw [Io.exec, hy]
    rfl
  exact ⟨result, s1, (bind_of_ok hreturn f).trans hrun, hresult⟩

/-- A change of the state is made, and the rest goes on from there. -/
theorem modify_bind {g : σ → σ} {f : Unit → Io σ ε β} {Q : β → σ → Prop}
    (hf : Ensures (f ()) (g s) Q E) : Ensures (Io.modify g >>= f) s Q E := by
  obtain ⟨result, s1, hrun, hresult⟩ := hf
  exact ⟨result, s1, (bind_of_ok rfl f).trans hrun, hresult⟩

theorem mono (h : Ensures x s Q E) (hQ : ∀ a s1, Q a s1 → R a s1)
    (hE : ∀ e s1, E e s1 → F e s1) : Ensures x s R F := by
  obtain ⟨result, s1, hrun, hresult⟩ := h
  refine ⟨result, s1, hrun, ?_⟩
  cases result with
  | ok a => exact hQ a s1 hresult
  | error e => exact hE e s1 hresult

/-- A run follows a run without input and output, if each operation does. Of where an operation
starts, `P` may be known only from where the run ends. -/
theorem run {ρ : Type} {step : ρ → ι → Exec ρ} {prog : α → ι → Io σ ε α} {ops : List ι} {r r1 : ρ}
    (P : ρ → Prop) (Q : ρ → α → σ → Prop) (hback : ∀ r op r1, step r op = .ok r1 → P r1 → P r)
    (hstep : ∀ op ∈ ops, ∀ r r1 a s, step r op = .ok r1 → P r1 → Q r a s →
      Ensures (prog a op) s (Q r1) E)
    (hrun : Exec.run step r ops = .ok r1) (hP : P r1) (hQ : Q r a s) :
    Ensures (Io.run prog a ops) s (Q r1) E := by
  induction ops generalizing r a s with
  | nil =>
      obtain rfl := Except.ok.inj hrun
      exact .pure hQ
  | cons op rest ih =>
      obtain ⟨r2, hfirst, hrest⟩ := Exec.run_cons_eq_ok.mp hrun
      have hbefore := Exec.run_back P hback hrest hP
      refine (hstep op List.mem_cons_self r r2 a s hfirst hbefore hQ).bind fun a2 s2 h2 => ?_
      exact ih (fun op1 hop => hstep op1 (List.mem_cons_of_mem _ hop)) hrest h2

end Ensures

end Io
