import Minnow.Checksum
import Minnow.Library.Run

set_option autoImplicit false

/-! # The checksum as a function of the bytes

RFC 1071 defines the checksum by words: pad the bytes to an even number, add the big-endian
words in one's complement, and complement the sum. The accumulator sums in a `u32`, carries an
odd byte from one call to the next, and folds at the end.

* `rfc1071_run`: the two agree however the bytes are cut into calls, as long as the sum is a
  `u32`. 65537 words of all ones are the most that is.
* `internetChecksum_rfc1071`: with the check of a checksum that was filled in.
-/

namespace Minnow

/-- The one's complement of the one's complement sum of the words of the padded bytes. -/
def rfc1071 (data : Bytes) : UInt16 :=
  ~~~(UInt16.ofNat ((bigEndianWords (zeroPadded data)).foldl (onesAdd 65535) 0))

theorem complementSum_eq_rfc1071 (data : Bytes) : complementSum data = rfc1071 data := by
  have hsum : (bigEndianWords (zeroPadded data)).foldl (onesAdd 65535) 0
      = endAround 65535 (wordSum data) := by
    calc (bigEndianWords (zeroPadded data)).foldl (onesAdd 65535) 0
        = endAround 65535 (0 + (bigEndianWords (zeroPadded data)).sum) :=
          foldl_onesAdd (by decide) (bigEndianWords_le _) 0
      _ = endAround 65535 (wordSum data) := by rw [Nat.zero_add, sum_bigEndianWords]
  rw [rfc1071, hsum, InternetChecksum.not_ofNat (endAround_le (by decide) _)]
  rfl

namespace InternetChecksum

variable {self : InternetChecksum} {data : Bytes}

/-- Feeding piece after piece is feeding all of it; what is fed first never sums up to more. -/
theorem Fed.run (hfed : Fed self data) (pieces : List Bytes)
    (h : wordSum (data ++ pieces.flatten) < 2 ^ 32) :
    ∃ self1, Exec.run InternetChecksum.addBytes self pieces = .ok self1 ∧
      Fed self1 (data ++ pieces.flatten) := by
  induction pieces generalizing self data with
  | nil => exact ⟨self, rfl, by rwa [List.flatten_nil, List.append_nil]⟩
  | cons piece pieces ih =>
      rw [List.flatten_cons, ← List.append_assoc] at h ⊢
      obtain ⟨self1, hadd, hfed1⟩ := hfed.addBytes (lt_of_le_of_lt (wordSum_le_append _ _) h)
      obtain ⟨self2, hrun, hfed2⟩ := ih hfed1 h
      exact ⟨self2, Exec.run_cons_eq_ok.mpr ⟨self1, hadd, hrun⟩, hfed2⟩

theorem rfc1071_run (pieces : List Bytes) (h : pieces.flatten.length ≤ 131074) :
    ∃ self, Exec.run addBytes new pieces = .ok self ∧
      self.checksum = .ok (rfc1071 pieces.flatten) := by
  have hsum := wordSum_lt_of_length h
  obtain ⟨self, hrun, hfed⟩ := fed_new.run pieces hsum
  exact ⟨self, hrun, (hfed.checksum hsum).trans
    (congrArg Except.ok (complementSum_eq_rfc1071 pieces.flatten))⟩

/-- A checksum was only returned if the sum did not overflow. -/
theorem add_wordSum_lt {sum : Nat} (hsum : sum < 2 ^ 32) {more : Bytes} {checksum : UInt16}
    {self1 : InternetChecksum} (hrun : addWords sum more = .ok self1)
    (hchecksum : self1.checksum = .ok checksum) : sum + wordSum more < 2 ^ 32 := by
  induction more using wordSum.induct generalizing sum with
  | case1 high low rest ih =>
      obtain ⟨sum1, hadd, hrest⟩ := Exec.bind_eq_ok.mp hrun
      unfold addU32 at hadd
      split_ifs at hadd with hlt
      obtain rfl := Except.ok.inj hadd
      have hlast := ih hlt hrest
      rw [toNat_u16OfBytes] at hlast
      rw [wordSum]
      omega
  | case2 high =>
      obtain rfl := Except.ok.inj hrun
      obtain ⟨sum1, hadd, -⟩ := Exec.bind_eq_ok.mp hchecksum
      simp only [addU32] at hadd
      split_ifs at hadd with hlt
      rw [toNat_u16OfBytes, show UInt8.toNat 0 = 0 from rfl, Nat.add_zero] at hlt
      rwa [wordSum]
  | case3 => exact hsum

end InternetChecksum

theorem wordSum_lt_of_ok {data : Bytes} {checksum : UInt16}
    (h : internetChecksum data = .ok checksum) : wordSum data < 2 ^ 32 := by
  obtain ⟨self, hrun, hchecksum⟩ := Exec.bind_eq_ok.mp h
  have hlt := InternetChecksum.add_wordSum_lt (show 0 < 2 ^ 32 by decide) hrun hchecksum
  rwa [Nat.zero_add] at hlt

/-- The sum of words and of what completes them to all ones is a `u32`, for `2 ^ 32 - 1` is a
multiple of `65535`. -/
theorem add_complement_lt {n : Nat} (h : n < 2 ^ 32) : n + (65535 - endAround 65535 n) < 2 ^ 32 := by
  unfold endAround
  split_ifs <;> omega

/-- A checksum filled in over a zero word is accepted. -/
theorem verifyInternetChecksum_inserted {before after : Bytes} {checksum : UInt16}
    (heven : before.length % 2 = 0)
    (h : internetChecksum (before ++ u16Bytes 0 ++ after) = .ok checksum) :
    verifyInternetChecksum (before ++ u16Bytes checksum ++ after) = .ok true := by
  have hlt := wordSum_lt_of_ok h
  rw [internetChecksum_eq hlt, Except.ok.injEq] at h
  have hsum : wordSum (before ++ u16Bytes checksum ++ after)
      = wordSum (before ++ u16Bytes 0 ++ after)
        + (65535 - endAround 65535 (wordSum (before ++ u16Bytes 0 ++ after))) := by
    rw [← toNat_complementSum, h, wordSum_inserted heven, wordSum_inserted heven]
    show _ = wordSum before + 0 + wordSum after + checksum.toNat
    omega
  have hfits : wordSum (before ++ u16Bytes checksum ++ after) < 2 ^ 32 := by
    rw [hsum]
    exact add_complement_lt hlt
  have hzero : complementSum
      (before ++ u16Bytes (complementSum (before ++ u16Bytes 0 ++ after)) ++ after) = 0 :=
    complementSum_inserted heven
  rw [h] at hzero
  rw [verifyInternetChecksum_eq hfits, hzero]
  rfl

/-- However at most 131074 bytes are cut into calls, the sum does not overflow and the checksum
is that of RFC 1071. Written over a zero word at an even offset, a checksum is accepted. -/
theorem internetChecksum_rfc1071 :
    (∀ pieces : List Bytes, pieces.flatten.length ≤ 131074 →
      ∃ self, Exec.run InternetChecksum.addBytes .new pieces = .ok self ∧
        self.checksum = .ok (rfc1071 pieces.flatten)) ∧
    (∀ data : Bytes, data.length ≤ 131074 → internetChecksum data = .ok (rfc1071 data)) ∧
    ∀ (before after : Bytes) (checksum : UInt16), before.length % 2 = 0 →
      internetChecksum (before ++ u16Bytes 0 ++ after) = .ok checksum →
        overwrite (before ++ u16Bytes 0 ++ after) before.length (u16Bytes checksum)
          = .ok (before ++ u16Bytes checksum ++ after) ∧
        verifyInternetChecksum (before ++ u16Bytes checksum ++ after) = .ok true := by
  refine ⟨InternetChecksum.rfc1071_run, ?_, ?_⟩
  · intro data h
    rw [internetChecksum_eq (wordSum_lt_of_length h), complementSum_eq_rfc1071]
  · intro before after checksum heven h
    exact ⟨overwrite_middle rfl, verifyInternetChecksum_inserted heven h⟩

theorem internetChecksum_rfc1071_pieces :
    rfc1071 ([[0x00], [], [0x01, 0xf2], [0x03, 0xf4]] : List Bytes).flatten = 0x19fa ∧
    (∃ self, Exec.run InternetChecksum.addBytes .new [[0x00], [], [0x01, 0xf2], [0x03, 0xf4]]
        = .ok self ∧
      self.checksum = .ok (rfc1071 ([[0x00], [], [0x01, 0xf2], [0x03, 0xf4]] : List Bytes).flatten)) ∧
    internetChecksum [0xff, 0xfe, 0x00] = .ok (rfc1071 [0xff, 0xfe, 0x00]) ∧
    verifyInternetChecksum ([0xff, 0xfe] ++ u16Bytes 0x0001 ++ [0x00]) = .ok true := by
  obtain ⟨hrun, hone, hslot⟩ := internetChecksum_rfc1071
  exact ⟨by decide +kernel, hrun _ (by decide), hone _ (by decide),
    (hslot [0xff, 0xfe] [0x00] 0x0001 rfl (by decide +kernel)).2⟩

end Minnow
