import Mathlib.Data.Nat.ModEq
import Mathlib.Tactic.Ring

set_option autoImplicit false

/-! # One's complement sums

A sum in one's complement is a sum of naturals whose carries out of the word are added back
in. For words up to `m`, that is arithmetic modulo `m` with two zeros: `endAround m n` is `0`
for `n = 0` and the residue of `n` in `1..m` otherwise. Adding the complement of a sum to it
gives `m`, the other zero.
-/

/-- The sum `n` with the carries added back in. -/
def endAround (m n : Nat) : Nat := if n = 0 then 0 else (n - 1) % m + 1

section EndAround

variable {m n a b : Nat}

theorem endAround_le (hm : 0 < m) (n : Nat) : endAround m n ≤ m := by
  unfold endAround
  split_ifs
  · exact Nat.zero_le m
  · exact Nat.mod_lt _ hm

theorem endAround_eq_zero : endAround m n = 0 ↔ n = 0 := by
  unfold endAround
  by_cases hn : n = 0
  · rw [if_pos hn]
    exact iff_of_true rfl hn
  · rw [if_neg hn]
    exact iff_of_false (Nat.succ_ne_zero _) hn

theorem endAround_of_le (hle : n ≤ m) : endAround m n = n := by
  unfold endAround
  split_ifs with hn
  · exact hn.symm
  · rw [Nat.mod_eq_of_lt (by omega)]
    omega

theorem endAround_modEq (m n : Nat) : endAround m n ≡ n [MOD m] := by
  unfold endAround
  split_ifs with hn
  · rw [hn]
  · calc (n - 1) % m + 1 ≡ n - 1 + 1 [MOD m] := (Nat.mod_modEq _ _).add_right 1
      _ = n := by omega

/-- A sum with carries is determined by its residue and by whether it is zero. -/
theorem endAround_congr (hzero : a = 0 ↔ b = 0) (h : a ≡ b [MOD m]) :
    endAround m a = endAround m b := by
  unfold endAround
  by_cases ha : a = 0
  · rw [if_pos ha, if_pos (hzero.mp ha)]
  · have hb : b ≠ 0 := fun hb => ha (hzero.mpr hb)
    have hpred : a - 1 ≡ b - 1 [MOD m] := by
      apply Nat.ModEq.add_right_cancel' 1
      rwa [Nat.sub_add_cancel (Nat.pos_of_ne_zero ha), Nat.sub_add_cancel (Nat.pos_of_ne_zero hb)]
    rw [if_neg ha, if_neg hb, hpred]

/-- Adding back the carry out of the low word does not change the sum. -/
theorem endAround_carry (m n : Nat) :
    endAround m (n % (m + 1) + n / (m + 1)) = endAround m n := by
  have hsplit := Nat.div_add_mod n (m + 1)
  apply endAround_congr
  · constructor
    · intro h
      obtain ⟨hmod, hdiv⟩ := Nat.add_eq_zero_iff.mp h
      rw [← hsplit, hmod, hdiv, Nat.mul_zero]
    · rintro rfl
      rw [Nat.zero_mod, Nat.zero_div]
  · calc n % (m + 1) + n / (m + 1)
        ≡ n % (m + 1) + n / (m + 1) + m * (n / (m + 1)) [MOD m] :=
          (Nat.add_modulus_mul_modEq_iff.mpr rfl).symm
      _ = (m + 1) * (n / (m + 1)) + n % (m + 1) := by ring
      _ = n := hsplit

/-- A sum and its complement add up to all ones. -/
theorem endAround_add_complement (hm : 0 < m) (n : Nat) :
    endAround m (n + (m - endAround m n)) = m := by
  have hle := endAround_le hm n
  calc endAround m (n + (m - endAround m n))
      = endAround m m := by
        apply endAround_congr
        · have hzero := endAround_eq_zero (m := m) (n := n)
          constructor
          · intro h
            have hn : n = 0 := by omega
            have hsum := hzero.mpr hn
            omega
          · intro h
            omega
        · calc n + (m - endAround m n)
              ≡ endAround m n + (m - endAround m n) [MOD m] :=
                (endAround_modEq m n).symm.add_right _
            _ = m := by omega
    _ = m := endAround_of_le (le_refl m)

/-- What completes a sum to all ones is its complement, in either form of zero. -/
theorem complement_eq_of_endAround (hn : 0 < n) (hb : b ≤ m) (h : endAround m (n + b) = m) :
    m - endAround m n = if b = m then 0 else b := by
  have hm : 0 < m := by
    by_contra hzero
    have hz := endAround_eq_zero.mp (h.trans (Nat.eq_zero_of_not_pos hzero))
    omega
  have hle := endAround_le hm n
  have hpos : endAround m n ≠ 0 := fun hzero => absurd (endAround_eq_zero.mp hzero) (by omega)
  have hlt : m - endAround m n < m := by omega
  -- both complete the sum to a multiple of `m`
  have hmod : m - endAround m n ≡ b [MOD m] := by
    apply Nat.ModEq.add_left_cancel' (endAround m n)
    calc endAround m n + (m - endAround m n)
        = m := by omega
      _ ≡ n + b [MOD m] := by
          have hsum := endAround_modEq m (n + b)
          rwa [h] at hsum
      _ ≡ endAround m n + b [MOD m] := (endAround_modEq m n).symm.add_right b
  split_ifs with hall
  · have hzero : m - endAround m n ≡ 0 [MOD m] := by
      rw [hall] at hmod
      exact hmod.trans (Nat.modEq_zero_iff_dvd.mpr (dvd_refl m))
    exact hzero.eq_of_lt_of_lt hlt hm
  · exact hmod.eq_of_lt_of_lt hlt (lt_of_le_of_ne hb hall)

theorem modEq_of_endAround_eq (h : endAround m a = endAround m b) : a ≡ b [MOD m] := by
  calc a ≡ endAround m a [MOD m] := (endAround_modEq m a).symm
    _ = endAround m b := h
    _ ≡ b [MOD m] := endAround_modEq m b

/-- The sum of two words, with the carry added back in. -/
def onesAdd (m a b : Nat) : Nat := if a + b ≤ m then a + b else a + b - m

theorem onesAdd_endAround (hm : 0 < m) (hb : b ≤ m) :
    onesAdd m (endAround m a) b = endAround m (a + b) := by
  have hle := endAround_le hm a
  have hpos := endAround_eq_zero (m := m) (n := a)
  have hmod : endAround m a + b ≡ a + b [MOD m] := (endAround_modEq m a).add_right b
  unfold onesAdd
  split_ifs with hfits
  · rw [← endAround_of_le hfits]
    exact endAround_congr (by omega) hmod
  · rw [← endAround_of_le (show endAround m a + b - m ≤ m by omega)]
    apply endAround_congr (by omega)
    calc endAround m a + b - m
        ≡ endAround m a + b - m + m [MOD m] := (Nat.add_modulus_modEq_iff.mpr rfl).symm
      _ = endAround m a + b := by omega
      _ ≡ a + b [MOD m] := hmod

/-- Words added one after the other. -/
theorem foldl_onesAdd (hm : 0 < m) {words : List Nat} (h : ∀ word ∈ words, word ≤ m) (n : Nat) :
    words.foldl (onesAdd m) (endAround m n) = endAround m (n + words.sum) := by
  induction words generalizing n with
  | nil => rfl
  | cons word words ih =>
      rw [List.foldl_cons, onesAdd_endAround hm (h word List.mem_cons_self),
        ih (fun w hw => h w (List.mem_cons_of_mem _ hw)), List.sum_cons, Nat.add_assoc]

end EndAround

/-! ## Sums of 16-bit words -/

/-- The sum of the big-endian words of a list of bytes; an odd byte at the end is the high
half of a word. -/
def wordSum : List UInt8 → Nat
  | high :: low :: rest => high.toNat * 256 + low.toNat + wordSum rest
  | [high] => high.toNat * 256
  | [] => 0

section WordSum

variable {l l1 l2 : List UInt8}

/-- Words do not straddle a boundary at an even position. -/
theorem wordSum_append (heven : l1.length % 2 = 0) :
    wordSum (l1 ++ l2) = wordSum l1 + wordSum l2 := by
  induction l1 using wordSum.induct with
  | case1 high low rest ih =>
      have hrest : rest.length % 2 = 0 := by
        rw [List.length_cons, List.length_cons] at heven
        omega
      calc wordSum (high :: low :: (rest ++ l2))
          = high.toNat * 256 + low.toNat + wordSum (rest ++ l2) := rfl
        _ = high.toNat * 256 + low.toNat + (wordSum rest + wordSum l2) := by rw [ih hrest]
        _ = wordSum (high :: low :: rest) + wordSum l2 := (Nat.add_assoc ..).symm
  | case2 high =>
      rw [List.length_singleton] at heven
      omega
  | case3 => rw [List.nil_append, wordSum, Nat.zero_add]

/-- Only zeros sum up to zero. -/
theorem wordSum_pos {b : UInt8} (hmem : b ∈ l) (hb : b ≠ 0) : 0 < wordSum l := by
  have hbyte : 0 < b.toNat := by
    by_contra hzero
    exact hb (UInt8.toNat_inj.mp (Nat.eq_zero_of_not_pos hzero))
  induction l using wordSum.induct with
  | case1 high low rest ih =>
      rw [wordSum]
      rcases List.mem_cons.mp hmem with rfl | hmem
      · omega
      · rcases List.mem_cons.mp hmem with rfl | hmem
        · omega
        · have hrest := ih hmem
          omega
  | case2 high =>
      obtain rfl := List.mem_singleton.mp hmem
      rw [wordSum]
      omega
  | case3 => exact absurd hmem List.not_mem_nil

theorem wordSum_le_append (l1 l2 : List UInt8) : wordSum l1 ≤ wordSum (l1 ++ l2) := by
  induction l1 using wordSum.induct with
  | case1 high low rest ih =>
      show _ ≤ high.toNat * 256 + low.toNat + wordSum (rest ++ l2)
      rw [wordSum]
      omega
  | case2 high =>
      cases l2 with
      | nil => exact le_refl _
      | cons low rest =>
          show _ ≤ high.toNat * 256 + low.toNat + wordSum rest
          rw [wordSum]
          omega
  | case3 => exact Nat.zero_le _

theorem wordSum_le (l : List UInt8) : wordSum l ≤ 65535 * ((l.length + 1) / 2) := by
  induction l using wordSum.induct with
  | case1 high low rest ih =>
      have hhigh := high.toNat_lt
      have hlow := low.toNat_lt
      rw [wordSum, List.length_cons, List.length_cons]
      omega
  | case2 high =>
      have hhigh := high.toNat_lt
      rw [wordSum, List.length_singleton]
      omega
  | case3 => exact Nat.zero_le _

/-- The bytes with a zero behind them if they are odd in number. -/
def zeroPadded (l : List UInt8) : List UInt8 := if l.length % 2 = 0 then l else l ++ [0]

/-- The big-endian words of an even number of bytes. -/
def bigEndianWords : List UInt8 → List Nat
  | high :: low :: rest => (high.toNat * 256 + low.toNat) :: bigEndianWords rest
  | _ => []

theorem zeroPadded_cons_cons (high low : UInt8) (rest : List UInt8) :
    zeroPadded (high :: low :: rest) = high :: low :: zeroPadded rest := by
  have hparity : (high :: low :: rest).length % 2 = rest.length % 2 := by
    rw [List.length_cons, List.length_cons, Nat.add_assoc, Nat.add_mod_right]
  unfold zeroPadded
  rw [hparity]
  split_ifs <;> rfl

theorem sum_bigEndianWords (l : List UInt8) : (bigEndianWords (zeroPadded l)).sum = wordSum l := by
  induction l using wordSum.induct with
  | case1 high low rest ih =>
      rw [zeroPadded_cons_cons, bigEndianWords, List.sum_cons, ih, wordSum]
  | case2 high => simp [zeroPadded, bigEndianWords, wordSum]
  | case3 => rfl

theorem bigEndianWords_le (l : List UInt8) : ∀ word ∈ bigEndianWords l, word ≤ 65535 := by
  induction l using bigEndianWords.induct with
  | case1 high low rest ih =>
      have hhigh := high.toNat_lt
      have hlow := low.toNat_lt
      rw [bigEndianWords, List.forall_mem_cons]
      exact ⟨by omega, ih⟩
  | case2 l hshort =>
      intro word hword
      rw [bigEndianWords.eq_2 l hshort] at hword
      exact absurd hword List.not_mem_nil

end WordSum
