import Minnow.Library.Exec
import Mathlib.Tactic.Common

set_option autoImplicit false

/-! # Wrapping sequence numbers

`Wrap32` (`wrapping_integers.rs`): a 32-bit sequence number stands for the absolute 64-bit
numbers that are congruent to it relative to a zero point. `unwrap` picks the one closest to
a checkpoint.

* `unwrap_wrap`: this inverts `wrap` for every absolute number less than half a cycle away from
  the checkpoint.
* `unwrap_exact`: over all of `u64` nothing overflows, and no number that wraps to the same
  sequence number is closer to the checkpoint.
-/

namespace Minnow

/-- `MODULUS`: the length of a cycle of sequence numbers. -/
def modulus : Nat := 2 ^ 32

structure Wrap32 where
  rawValue : UInt32
  deriving DecidableEq, Repr

namespace Wrap32

def wrap (absoluteSeqno : Nat) (zeroPoint : Wrap32) : Wrap32 :=
  ⟨zeroPoint.rawValue + UInt32.ofNat absoluteSeqno⟩

/-- Take the candidate, if there is one, when it is closer to the checkpoint than `best`. -/
def closer (checkpoint best : Nat) : Option Nat → Nat
  | some candidate =>
      if absDiff candidate checkpoint < absDiff best checkpoint then candidate else best
  | none => best

def unwrap (self zeroPoint : Wrap32) (checkpoint : Nat) : Nat :=
  let offset := (self.rawValue - zeroPoint.rawValue).toNat
  let eraStart := checkpoint / modulus * modulus
  let current := eraStart + offset
  let best := closer checkpoint current (checkedSub current modulus)
  closer checkpoint best (checkedAdd current modulus)

/-- `unwrap` with the two operations that are not checked, which fault when they overflow. -/
def unwrapFaulting (self zeroPoint : Wrap32) (checkpoint : Nat) : Exec Nat := do
  let offset := (self.rawValue - zeroPoint.rawValue).toNat
  let eraStart ← mulU64 (checkpoint / modulus) modulus
  let current ← addU64 eraStart offset
  let best := closer checkpoint current (checkedSub current modulus)
  .ok (closer checkpoint best (checkedAdd current modulus))

theorem wrap_offset (a : Nat) (z : Wrap32) :
    ((wrap a z).rawValue - z.rawValue).toNat = a % modulus := by
  rw [wrap, UInt32.add_comm, UInt32.add_sub_cancel, UInt32.toNat_ofNat']
  rfl

@[simp] theorem wrap_zero (z : Wrap32) : wrap 0 z = z := by
  simp [wrap]

/-- The candidate of the checkpoint's own era is a `u64`. -/
theorem current_le {checkpoint : Nat} (h : checkpoint ≤ u64Max) (number zeroPoint : Wrap32) :
    checkpoint / modulus * modulus + (number.rawValue - zeroPoint.rawValue).toNat ≤ u64Max := by
  have hoffset := (number.rawValue - zeroPoint.rawValue).toNat_lt
  unfold modulus u64Max at *
  omega

theorem absDiff_lt_iff {a c n : Nat} : absDiff a c < n ↔ a < c + n ∧ c < a + n := by
  unfold absDiff
  split <;> omega

theorem closer_of_lt {c best candidate : Nat} (h : absDiff candidate c < absDiff best c) :
    closer c best (some candidate) = candidate := if_pos h

theorem closer_of_not_lt {c best : Nat} {o : Option Nat}
    (h : ∀ candidate, o = some candidate → absDiff best c ≤ absDiff candidate c) :
    closer c best o = best := by
  cases o with
  | none => rfl
  | some candidate => exact if_neg (Nat.not_lt.mpr (h candidate rfl))

section Cycle

/-! ### The choice of the era, for a cycle of any length -/

variable {a c x current cycle half : Nat} (hcycle : cycle = half + half)
  (hnear : absDiff a c < half)

include hcycle hnear

/-- A number less than half a cycle away is closer than one that is a cycle away from it. -/
theorem absDiff_lt_of_near (hx : x = a + cycle ∨ a = x + cycle ∨ x = a + (cycle + cycle) ∨
    a = x + (cycle + cycle)) : absDiff a c < absDiff x c := by
  rw [absDiff_lt_iff] at hnear
  unfold absDiff
  split_ifs <;> omega

theorem closer_of_near (ha : a ≤ u64Max)
    (hera : a = current ∨ a = current + cycle ∨ a + cycle = current) :
    closer c (closer c current (checkedSub current cycle)) (checkedAdd current cycle) = a := by
  have hlt : ∀ x, (x = a + cycle ∨ a = x + cycle ∨ x = a + (cycle + cycle) ∨
      a = x + (cycle + cycle)) → absDiff a c < absDiff x c :=
    fun x => absDiff_lt_of_near hcycle hnear
  rcases hera with rfl | rfl | hprev
  · -- the era of the checkpoint: neither neighbour is closer
    have hstay : closer c a (checkedSub a cycle) = a := by
      refine closer_of_not_lt (fun x hx => ?_)
      obtain ⟨hle, rfl⟩ := checkedSub_eq_some.mp hx
      exact le_of_lt (hlt _ (Or.inr (Or.inl (by omega))))
    rw [hstay]
    refine closer_of_not_lt (fun x hx => ?_)
    obtain ⟨-, rfl⟩ := checkedAdd_eq_some.mp hx
    exact le_of_lt (hlt _ (Or.inl rfl))
  · -- the era after: closer than whatever the first comparison has left
    rw [checkedAdd_of_le ha]
    refine closer_of_lt ?_
    cases hsub : checkedSub current cycle with
    | none => exact hlt _ (Or.inr (Or.inl rfl))
    | some x =>
        obtain ⟨hle, rfl⟩ := checkedSub_eq_some.mp hsub
        rw [closer]
        split_ifs
        · exact hlt _ (Or.inr (Or.inr (Or.inr (by omega))))
        · exact hlt _ (Or.inr (Or.inl rfl))
  · -- the era before: the first comparison finds it, and the second keeps it
    have hback : closer c current (checkedSub current cycle) = a := by
      have hsub : checkedSub current cycle = some a :=
        checkedSub_eq_some.mpr ⟨by omega, by omega⟩
      rw [hsub]
      exact closer_of_lt (hlt _ (Or.inl hprev.symm))
    rw [hback]
    refine closer_of_not_lt (fun x hx => ?_)
    obtain ⟨-, rfl⟩ := checkedAdd_eq_some.mp hx
    exact le_of_lt (hlt _ (Or.inr (Or.inr (Or.inl (by omega)))))

end Cycle

/-- A wrapped number is recovered near its checkpoint. -/
theorem unwrap_wrap {a c : Nat} (z : Wrap32) (ha : a ≤ u64Max) (hnear : absDiff a c < 2 ^ 31) :
    unwrap (wrap a z) z c = a := by
  unfold unwrap
  rw [wrap_offset]
  refine closer_of_near (show modulus = 2 ^ 31 + 2 ^ 31 from rfl) hnear ha ?_
  -- `a` lies in the era of the checkpoint or in one of its two neighbours
  rw [absDiff_lt_iff] at hnear
  have hmod : modulus = 4294967296 := rfl
  rw [hmod]
  omega

/-! ### No number is closer -/

section Nearest

variable {c best candidate : Nat} {o : Option Nat}

theorem closer_eq_or (c best : Nat) (o : Option Nat) :
    closer c best o = best ∨ o = some (closer c best o) := by
  cases o with
  | none => exact Or.inl rfl
  | some candidate =>
      rw [closer]
      split_ifs
      · exact Or.inr rfl
      · exact Or.inl rfl

theorem absDiff_closer_le (c best : Nat) (o : Option Nat) :
    absDiff (closer c best o) c ≤ absDiff best c := by
  cases o with
  | none => exact le_refl _
  | some candidate =>
      rw [closer]
      split_ifs with hlt
      · exact le_of_lt hlt
      · exact le_refl _

theorem absDiff_closer_le_candidate (ho : o = some candidate) :
    absDiff (closer c best o) c ≤ absDiff candidate c := by
  rw [ho, closer]
  split_ifs with hlt
  · exact le_refl _
  · exact Nat.not_lt.mp hlt

/-- A number of another era is no closer than the candidate on its side of the checkpoint, which
exists then. -/
theorem closer_nearest {a current cycle : Nat} (hbelow : current < c + cycle)
    (habove : c < current + cycle) (ha : a ≤ u64Max)
    (hera : a = current ∨ current + cycle ≤ a ∨ a + cycle ≤ current) :
    absDiff (closer c (closer c current (checkedSub current cycle)) (checkedAdd current cycle)) c
      ≤ absDiff a c := by
  have hfirst := absDiff_closer_le c (closer c current (checkedSub current cycle))
    (checkedAdd current cycle)
  rcases hera with rfl | hnext | hprevious
  · exact le_trans hfirst (absDiff_closer_le c a _)
  · have hcandidate : checkedAdd current cycle = some (current + cycle) :=
      checkedAdd_of_le (le_trans hnext ha)
    refine le_trans (absDiff_closer_le_candidate hcandidate) ?_
    unfold absDiff
    split_ifs <;> omega
  · have hcandidate : checkedSub current cycle = some (current - cycle) :=
      checkedSub_of_le (by omega)
    refine le_trans hfirst (le_trans (absDiff_closer_le_candidate hcandidate) ?_)
    unfold absDiff
    split_ifs <;> omega

end Nearest

/-- The absolute numbers of a sequence number are the ones with its offset in their era. -/
theorem wrap_eq_iff {a : Nat} {number zeroPoint : Wrap32} :
    wrap a zeroPoint = number ↔
      a % modulus = (number.rawValue - zeroPoint.rawValue).toNat := by
  constructor
  · rintro rfl
    exact (wrap_offset a zeroPoint).symm
  · intro hoffset
    have hraw : UInt32.ofNat a = number.rawValue - zeroPoint.rawValue := by
      apply UInt32.toNat_inj.mp
      rw [UInt32.toNat_ofNat', ← hoffset]
      rfl
    rw [wrap, hraw, UInt32.add_comm, UInt32.sub_add_cancel]

/-- The result is one of the three candidates, and a `u64`. -/
theorem unwrap_candidate {checkpoint : Nat} (h : checkpoint ≤ u64Max) (number zeroPoint : Wrap32) :
    unwrap number zeroPoint checkpoint ≤ u64Max ∧
      unwrap number zeroPoint checkpoint % modulus
        = (number.rawValue - zeroPoint.rawValue).toNat := by
  have hoffset := (number.rawValue - zeroPoint.rawValue).toNat_lt
  have hcurrent := current_le h number zeroPoint
  unfold unwrap
  set offset := (number.rawValue - zeroPoint.rawValue).toNat
  dsimp only
  set current := checkpoint / modulus * modulus + offset with hdef
  have hera : current % modulus = offset := by
    rw [hdef, Nat.add_comm, Nat.add_mul_mod_self_right]
    exact Nat.mod_eq_of_lt hoffset
  have hmod : modulus = 4294967296 := rfl
  rcases closer_eq_or checkpoint (closer checkpoint current (checkedSub current modulus))
    (checkedAdd current modulus) with hbest | hnext
  · rw [hbest]
    rcases closer_eq_or checkpoint current (checkedSub current modulus) with hbest | hprevious
    · rw [hbest]
      exact ⟨hcurrent, hera⟩
    · obtain ⟨hle, heq⟩ := checkedSub_eq_some.mp hprevious
      rw [heq, ← hera, hmod]
      rw [hmod] at hle
      omega
  · obtain ⟨hle, heq⟩ := checkedAdd_eq_some.mp hnext
    rw [heq, ← hera, hmod]
    rw [hmod] at hle
    omega

theorem unwrapFaulting_eq {checkpoint : Nat} (h : checkpoint ≤ u64Max) (number zeroPoint : Wrap32) :
    unwrapFaulting number zeroPoint checkpoint = .ok (unwrap number zeroPoint checkpoint) := by
  have hera : checkpoint / modulus * modulus ≤ u64Max := le_trans (Nat.div_mul_le_self _ _) h
  unfold unwrapFaulting mulU64 addU64 unwrap
  rw [if_pos hera, Exec.ok_bind, if_pos (current_le h number zeroPoint)]
  rfl

/-- Unwrapping overflows for no checkpoint, it inverts wrapping, and what it returns is as close
to the checkpoint as any `u64` with the same sequence number; so a number within half a cycle is
recovered. -/
theorem unwrap_exact (zeroPoint : Wrap32) {checkpoint : Nat} (h : checkpoint ≤ u64Max) :
    (∀ number, unwrapFaulting number zeroPoint checkpoint
        = .ok (unwrap number zeroPoint checkpoint) ∧
      unwrap number zeroPoint checkpoint ≤ u64Max ∧
      wrap (unwrap number zeroPoint checkpoint) zeroPoint = number ∧
      ∀ a ≤ u64Max, wrap a zeroPoint = number →
        absDiff (unwrap number zeroPoint checkpoint) checkpoint ≤ absDiff a checkpoint) ∧
    ∀ a ≤ u64Max, absDiff a checkpoint < 2 ^ 31 →
      unwrap (wrap a zeroPoint) zeroPoint checkpoint = a := by
  refine ⟨fun number => ?_, fun a ha hnear => unwrap_wrap zeroPoint ha hnear⟩
  obtain ⟨hle, hera⟩ := unwrap_candidate h number zeroPoint
  refine ⟨unwrapFaulting_eq h number zeroPoint, hle, wrap_eq_iff.mpr hera, ?_⟩
  intro a ha hwrap
  have hoffset := wrap_eq_iff.mp hwrap
  have hlt := (number.rawValue - zeroPoint.rawValue).toNat_lt
  have hmod : modulus = 4294967296 := rfl
  have hmul := Nat.div_mul_le_self checkpoint modulus
  have hbelow : checkpoint / modulus * modulus + (number.rawValue - zeroPoint.rawValue).toNat
      < checkpoint + modulus := by omega
  have habove : checkpoint < checkpoint / modulus * modulus +
      (number.rawValue - zeroPoint.rawValue).toNat + modulus := by
    rw [hmod]
    omega
  unfold unwrap
  refine closer_nearest hbelow habove ha ?_
  -- the offset is that of `a`, so the two differ by whole cycles
  rw [hmod] at hoffset ⊢
  omega

theorem unwrap_exact_last_era : unwrap ⟨0⟩ ⟨1⟩ u64Max = u64Max ∧
    unwrapFaulting ⟨0⟩ ⟨1⟩ u64Max = .ok (unwrap ⟨0⟩ ⟨1⟩ u64Max) ∧
    wrap (unwrap ⟨0⟩ ⟨1⟩ u64Max) ⟨1⟩ = ⟨0⟩ := by
  obtain ⟨hrun, -, hwrap, -⟩ := (unwrap_exact ⟨1⟩ (le_refl u64Max)).1 ⟨0⟩
  exact ⟨by decide +kernel, hrun, hwrap⟩

end Wrap32

end Minnow
