import Minnow.Codec.Tcp
import Minnow.IcmpMessage

set_option autoImplicit false

/-! # One corrupted word

A sum in one's complement is a residue modulo 65535, so it moves with every change of one word
but one: the two zeros, `0x0000` and `0xffff`, are the same word. Both parsers check the sum over
all bytes before they look at anything but the length.

* `complementSum_changed`: a valid sum does not survive the change.
* `corruption_detected`: TCP segments with their addresses, and ICMP messages.
-/

namespace Minnow

/-- One aligned word of the bytes was replaced; an odd byte at the end is the high half of a
word. -/
inductive WordReplaced : Bytes → Bytes → UInt16 → UInt16 → Prop where
  | word (before after : Bytes) (old new : UInt16) (heven : before.length % 2 = 0) :
      WordReplaced (before ++ u16Bytes old ++ after) (before ++ u16Bytes new ++ after) old new
  | odd (before : Bytes) (old new : UInt8) (heven : before.length % 2 = 0) :
      WordReplaced (before ++ [old]) (before ++ [new]) (u16OfBytes old 0) (u16OfBytes new 0)

/-- The words are different, and not the two forms of zero. -/
def Distinct (old new : UInt16) : Prop :=
  old ≠ new ∧ ¬ (old = 0x0000 ∧ new = 0xffff) ∧ ¬ (old = 0xffff ∧ new = 0x0000)

/-- One aligned word was replaced by a distinct one. -/
def Corrupted (l l1 : Bytes) : Prop := ∃ old new, WordReplaced l l1 old new ∧ Distinct old new

/-- One bit was flipped. -/
def BitFlipped (l l1 : Bytes) : Prop :=
  ∃ before b after, ∃ k : Fin 8, l = before ++ b :: after ∧
    l1 = before ++ (b ^^^ (1 <<< UInt8.ofNat k)) :: after

variable {l l1 before after : Bytes} {old new : UInt16} {b b1 : UInt8}

/-! ## Words and bits -/

theorem distinct_of_low {high high1 low : UInt8} (hne : high ≠ high1) :
    Distinct (u16OfBytes high low) (u16OfBytes high1 low) := by
  have h1 := toNat_u16OfBytes high low
  have h2 := toNat_u16OfBytes high1 low
  have hlow := low.toNat_lt
  have hbyte : high.toNat ≠ high1.toNat := fun heq => hne (UInt8.toNat_inj.mp heq)
  have hzero : (0x0000 : UInt16).toNat = 0 := rfl
  have hones : (0xffff : UInt16).toNat = 65535 := rfl
  -- the low bytes are the same, so not all bits are different
  refine ⟨fun heq => ?_, fun ⟨ha, hb⟩ => ?_, fun ⟨ha, hb⟩ => ?_⟩
  · rw [heq] at h1
    omega
  · rw [ha, hzero] at h1
    rw [hb, hones] at h2
    omega
  · rw [ha, hones] at h1
    rw [hb, hzero] at h2
    omega

theorem distinct_of_high {high low low1 : UInt8} (hne : low ≠ low1) :
    Distinct (u16OfBytes high low) (u16OfBytes high low1) := by
  have h1 := toNat_u16OfBytes high low
  have h2 := toNat_u16OfBytes high low1
  have hlow := low.toNat_lt
  have hlow1 := low1.toNat_lt
  have hbyte : low.toNat ≠ low1.toNat := fun heq => hne (UInt8.toNat_inj.mp heq)
  have hzero : (0x0000 : UInt16).toNat = 0 := rfl
  have hones : (0xffff : UInt16).toNat = 65535 := rfl
  refine ⟨fun heq => ?_, fun ⟨ha, hb⟩ => ?_, fun ⟨ha, hb⟩ => ?_⟩
  · rw [heq] at h1
    omega
  · rw [ha, hzero] at h1
    rw [hb, hones] at h2
    omega
  · rw [ha, hones] at h1
    rw [hb, hzero] at h2
    omega

/-- A byte that was changed is one half of a word that was replaced by a distinct one. -/
theorem corrupted_of_byte (hne : b ≠ b1) :
    Corrupted (before ++ b :: after) (before ++ b1 :: after) := by
  by_cases heven : before.length % 2 = 0
  · cases after with
    | nil => exact ⟨_, _, .odd before b b1 heven, distinct_of_low hne⟩
    | cons low after =>
        have hword := WordReplaced.word before after (u16OfBytes b low) (u16OfBytes b1 low) heven
        simp only [u16Bytes_u16OfBytes, List.append_assoc, List.cons_append, List.nil_append]
          at hword
        exact ⟨_, _, hword, distinct_of_low hne⟩
  · -- the byte before it is the high half of its word
    obtain ⟨front, high, rfl⟩ := List.eq_nil_or_concat before |>.resolve_left (by
      rintro rfl
      exact heven rfl)
    rw [List.concat_eq_append, List.length_append, List.length_singleton] at heven
    have hword := WordReplaced.word front after (u16OfBytes high b) (u16OfBytes high b1) (by omega)
    simp only [u16Bytes_u16OfBytes, List.append_assoc, List.cons_append, List.nil_append] at hword
    simp only [List.concat_eq_append, List.append_assoc, List.cons_append, List.nil_append]
    exact ⟨_, _, hword, distinct_of_high hne⟩

theorem bit_ne_zero : ∀ k : Fin 8, (1 : UInt8) <<< UInt8.ofNat k ≠ 0 := by decide

theorem flip_ne (b : UInt8) (k : Fin 8) : b ≠ b ^^^ (1 <<< UInt8.ofNat k) := by
  intro heq
  have hzero : (1 : UInt8) <<< UInt8.ofNat k = 0 := by
    calc (1 : UInt8) <<< UInt8.ofNat k
        = b ^^^ (b ^^^ (1 <<< UInt8.ofNat k)) := by rw [← UInt8.xor_assoc, UInt8.xor_self,
            UInt8.zero_xor]
      _ = b ^^^ b := by rw [← heq]
      _ = 0 := UInt8.xor_self
  exact bit_ne_zero k hzero

theorem BitFlipped.corrupted (h : BitFlipped l l1) : Corrupted l l1 := by
  obtain ⟨before, b, after, k, rfl, rfl⟩ := h
  exact corrupted_of_byte (flip_ne b k)

/-! ## The sum -/

theorem WordReplaced.length_eq (h : WordReplaced l l1 old new) : l1.length = l.length := by
  cases h with
  | word before after old new heven => simp only [List.length_append, u16Bytes, List.length_cons]
  | odd before old new heven => simp only [List.length_append, List.length_singleton]

/-- The sum moves with the word. -/
theorem WordReplaced.wordSum_eq (h : WordReplaced l l1 old new) :
    wordSum l1 + old.toNat = wordSum l + new.toNat := by
  cases h with
  | word before after old new heven =>
      rw [wordSum_inserted heven, wordSum_inserted heven]
      omega
  | odd before old new heven =>
      have hhalf : ∀ half : UInt8, wordSum [half] = (u16OfBytes half 0).toNat := by
        intro half
        rw [toNat_u16OfBytes, wordSum]
        exact (Nat.add_zero _).symm
      rw [wordSum_append heven, wordSum_append heven, hhalf, hhalf]
      omega

/-- A sum of all ones is no longer one when a word is replaced by a distinct one. -/
theorem complementSum_changed (hsum : wordSum l1 + old.toNat = wordSum l + new.toNat)
    (hdistinct : Distinct old new) (h : complementSum l = 0) : complementSum l1 ≠ 0 := by
  intro h1
  obtain ⟨hne, hup, hdown⟩ := hdistinct
  rw [complementSum_eq_zero] at h h1
  have hold := old.toNat_lt
  have hnew := new.toNat_lt
  have hmod : wordSum l ≡ wordSum l1 [MOD 65535] := modEq_of_endAround_eq (h.trans h1.symm)
  -- so the words are congruent, which among words only the two zeros are
  have hwords : old.toNat ≡ new.toNat [MOD 65535] := by
    apply Nat.ModEq.add_left_cancel' (wordSum l)
    calc wordSum l + old.toNat ≡ wordSum l1 + old.toNat [MOD 65535] := hmod.add_right _
      _ = wordSum l + new.toNat := hsum
  have hsame : old.toNat = new.toNat ∨ (old.toNat = 0 ∧ new.toNat = 65535) ∨
      (old.toNat = 65535 ∧ new.toNat = 0) := by
    unfold Nat.ModEq at hwords
    omega
  rcases hsame with heq | ⟨ha, hb⟩ | ⟨ha, hb⟩
  · exact hne (UInt16.toNat_inj.mp heq)
  · exact hup ⟨UInt16.toNat_inj.mp ha, UInt16.toNat_inj.mp hb⟩
  · exact hdown ⟨UInt16.toNat_inj.mp ha, UInt16.toNat_inj.mp hb⟩

theorem Corrupted.complementSum_ne (h : Corrupted l l1) (hvalid : complementSum l = 0) :
    complementSum l1 ≠ 0 := by
  obtain ⟨old, new, hreplaced, hdistinct⟩ := h
  exact complementSum_changed hreplaced.wordSum_eq hdistinct hvalid

/-- A corrupted part is a corrupted whole, if the parts are made of whole words. -/
theorem WordReplaced.append_left (h : WordReplaced l l1 old new) (before : Bytes)
    (heven : before.length % 2 = 0) : WordReplaced (before ++ l) (before ++ l1) old new := by
  cases h with
  | word front after old new hfront =>
      have hall : (before ++ front).length % 2 = 0 := by
        rw [List.length_append]
        omega
      simpa only [List.append_assoc] using WordReplaced.word (before ++ front) after old new hall
  | odd front old new hfront =>
      have hall : (before ++ front).length % 2 = 0 := by
        rw [List.length_append]
        omega
      simpa only [List.append_assoc] using WordReplaced.odd (before ++ front) old new hall

theorem WordReplaced.append_right (h : WordReplaced l l1 old new) (heven : l.length % 2 = 0)
    (after : Bytes) : WordReplaced (l ++ after) (l1 ++ after) old new := by
  cases h with
  | word front rest old new hfront =>
      simpa only [List.append_assoc] using WordReplaced.word front (rest ++ after) old new hfront
  | odd front old new hfront =>
      rw [List.length_append, List.length_singleton] at heven
      omega

/-! ## The parsers -/

namespace TcpSegment

variable {srcIp dstIp srcIp1 dstIp1 : Ipv4AddrBytes} {bytes bytes1 : Bytes} {segment : TcpSegment}

theorem parseIpv4Bytes_rejects (hlen : 20 ≤ bytes.length) (hmax : bytes.length ≤ 65535)
    (hsum : segmentSum srcIp dstIp bytes ≠ 0) :
    parseIpv4Bytes srcIp dstIp bytes = .ok (.error .invalidChecksum) := by
  unfold parseIpv4Bytes TCP_HEADER_MIN_LEN
  rw [if_neg (Nat.not_lt.mpr hlen), tcpChecksumIpv4_eq srcIp dstIp hmax, Exec.ok_bind]
  exact if_pos hsum

/-- The segment or one of the addresses was altered. -/
inductive Altered (R : Bytes → Bytes → Prop) (srcIp dstIp : Ipv4AddrBytes) (bytes : Bytes) :
    Ipv4AddrBytes → Ipv4AddrBytes → Bytes → Prop where
  | segment (bytes1 : Bytes) (h : R bytes bytes1) : Altered R srcIp dstIp bytes srcIp dstIp bytes1
  | src (srcIp1 : Ipv4AddrBytes) (h : R srcIp.octets srcIp1.octets) :
      Altered R srcIp dstIp bytes srcIp1 dstIp bytes
  | dst (dstIp1 : Ipv4AddrBytes) (h : R dstIp.octets dstIp1.octets) :
      Altered R srcIp dstIp bytes srcIp dstIp1 bytes

theorem Altered.mono {R S : Bytes → Bytes → Prop} (himp : ∀ l l1, R l l1 → S l l1)
    (h : Altered R srcIp dstIp bytes srcIp1 dstIp1 bytes1) :
    Altered S srcIp dstIp bytes srcIp1 dstIp1 bytes1 := by
  cases h with
  | segment bytes1 h => exact .segment bytes1 (himp _ _ h)
  | src srcIp1 h => exact .src srcIp1 (himp _ _ h)
  | dst dstIp1 h => exact .dst dstIp1 (himp _ _ h)

theorem Altered.length_eq (h : Altered Corrupted srcIp dstIp bytes srcIp1 dstIp1 bytes1) :
    bytes1.length = bytes.length := by
  cases h with
  | segment bytes1 h =>
      obtain ⟨old, new, hreplaced, -⟩ := h
      exact hreplaced.length_eq
  | src srcIp1 h => rfl
  | dst dstIp1 h => rfl

theorem even_octets (ip : Ipv4AddrBytes) : ip.octets.length % 2 = 0 := by
  rw [show ip.octets.length = 4 from rfl]

/-- The bytes under the checksum are corrupted, too: the addresses are whole words in front of
the segment. -/
theorem Altered.corrupted (h : Altered Corrupted srcIp dstIp bytes srcIp1 dstIp1 bytes1) :
    Corrupted (pseudoHeader srcIp dstIp bytes.length ++ bytes)
      (pseudoHeader srcIp1 dstIp1 bytes1.length ++ bytes1) := by
  have hlen := h.length_eq
  rw [hlen]
  cases h with
  | segment bytes1 h =>
      obtain ⟨old, new, hreplaced, hdistinct⟩ := h
      have heven : (pseudoHeader srcIp dstIp bytes.length).length % 2 = 0 := by
        rw [length_pseudoHeader]
      exact ⟨old, new, hreplaced.append_left _ heven, hdistinct⟩
  | src srcIp1 h =>
      obtain ⟨old, new, hreplaced, hdistinct⟩ := h
      refine ⟨old, new, ?_, hdistinct⟩
      have hword := hreplaced.append_right (even_octets srcIp)
        (dstIp.octets ++ [0] ++ [6] ++ u16Bytes (UInt16.ofNat bytes.length) ++ bytes)
      simpa only [pseudoHeader, List.append_assoc] using hword
  | dst dstIp1 h =>
      obtain ⟨old, new, hreplaced, hdistinct⟩ := h
      refine ⟨old, new, ?_, hdistinct⟩
      have htail := hreplaced.append_right (even_octets dstIp)
        ([0] ++ [6] ++ u16Bytes (UInt16.ofNat bytes.length) ++ bytes)
      have hword := htail.append_left srcIp.octets (even_octets srcIp)
      simpa only [pseudoHeader, List.append_assoc] using hword

theorem Altered.rejected (h : Altered Corrupted srcIp dstIp bytes srcIp1 dstIp1 bytes1)
    (hmax : bytes.length ≤ 65535) (haccepted : parseIpv4Bytes srcIp dstIp bytes = .ok (.ok segment)) :
    parseIpv4Bytes srcIp1 dstIp1 bytes1 = .ok (.error .invalidChecksum) := by
  obtain ⟨hlen, hsum⟩ := accepted_of_parse hmax haccepted
  have hsame := h.length_eq
  exact parseIpv4Bytes_rejects (by omega) (by omega) (h.corrupted.complementSum_ne hsum)

end TcpSegment

namespace IcmpMessage

variable {bytes bytes1 : Bytes} {message : IcmpMessage}

theorem Corrupted.rejected (h : Corrupted bytes bytes1) (hmax : bytes.length ≤ 131070)
    (haccepted : parseBytes bytes = .ok (.ok message)) :
    parseBytes bytes1 = .ok (.error .invalidChecksum) := by
  have hsame : bytes1.length = bytes.length := by
    obtain ⟨old, new, hreplaced, -⟩ := h
    exact hreplaced.length_eq
  unfold parseBytes at haccepted ⊢
  rw [hsame]
  by_cases hshort : bytes.length < ICMP_ECHO_HEADER_LEN
  · rw [if_pos hshort] at haccepted
    cases haccepted
  rw [if_neg hshort, verifyInternetChecksum_eq (wordSum_lt_of_length (by omega)), Exec.ok_bind]
    at haccepted
  rw [if_neg hshort, verifyInternetChecksum_eq (wordSum_lt_of_length (by omega)), Exec.ok_bind]
  by_cases hvalid : complementSum bytes = 0
  · have hinvalid := h.complementSum_ne hvalid
    exact if_pos (by simpa using hinvalid)
  · rw [if_pos (by simpa using hvalid)] at haccepted
    cases haccepted

end IcmpMessage

/-- A TCP segment that was accepted for two addresses is rejected when one aligned word of it, or
of an address, is replaced by one that is not the same up to the two forms of zero; so is an ICMP
message. In particular a single flipped bit never goes unnoticed. -/
theorem corruption_detected :
    (∀ (srcIp dstIp : Ipv4AddrBytes) (bytes : Bytes) (segment : TcpSegment),
      bytes.length ≤ 65535 → TcpSegment.parseIpv4Bytes srcIp dstIp bytes = .ok (.ok segment) →
      ∀ srcIp1 dstIp1 bytes1,
        TcpSegment.Altered Corrupted srcIp dstIp bytes srcIp1 dstIp1 bytes1 ∨
          TcpSegment.Altered BitFlipped srcIp dstIp bytes srcIp1 dstIp1 bytes1 →
        TcpSegment.parseIpv4Bytes srcIp1 dstIp1 bytes1 = .ok (.error .invalidChecksum)) ∧
    ∀ (bytes : Bytes) (message : IcmpMessage),
      bytes.length ≤ 65535 → IcmpMessage.parseBytes bytes = .ok (.ok message) →
      ∀ bytes1, Corrupted bytes bytes1 ∨ BitFlipped bytes bytes1 →
        IcmpMessage.parseBytes bytes1 = .ok (.error .invalidChecksum) := by
  constructor
  · intro srcIp dstIp bytes segment hmax haccepted srcIp1 dstIp1 bytes1 h
    rcases h with hcorrupted | hflipped
    · exact hcorrupted.rejected hmax haccepted
    · exact (hflipped.mono fun _ _ => BitFlipped.corrupted).rejected hmax haccepted
  · intro bytes message hmax haccepted bytes1 h
    rcases h with hcorrupted | hflipped
    · exact IcmpMessage.Corrupted.rejected hcorrupted (by omega) haccepted
    · exact IcmpMessage.Corrupted.rejected hflipped.corrupted (by omega) haccepted

/-- A header alone. -/
def bareHeader : Bytes := [0, 0, 0, 0, 0, 0, 0, 0, 0, 0, 0, 0, 0x50, 0, 0, 0, 0xaf, 0xe5, 0, 0]

theorem corruption_detected_bare :
    TcpSegment.parseIpv4Bytes ⟨0, 0, 0, 0⟩ ⟨0, 0, 0, 0⟩ (0x80 :: bareHeader.drop 1)
      = .ok (.error .invalidChecksum) ∧
    TcpSegment.parseIpv4Bytes ⟨10, 1, 0, 0⟩ ⟨0, 0, 0, 0⟩ bareHeader
      = .ok (.error .invalidChecksum) ∧
    IcmpMessage.parseBytes [8, 0, 0xf7, 0xfe, 0, 0, 0, 0] = .ok (.error .invalidChecksum) := by
  obtain ⟨htcp, hicmp⟩ := corruption_detected
  have hsegment : TcpSegment.parseIpv4Bytes ⟨0, 0, 0, 0⟩ ⟨0, 0, 0, 0⟩ bareHeader
      = .ok (.ok ⟨⟨0, 0, ⟨0⟩, none, 0, false, false, false⟩, []⟩) := by decide +kernel
  have hmessage : IcmpMessage.parseBytes [8, 0, 0xf7, 0xff, 0, 0, 0, 0]
      = .ok (.ok ⟨8, 0, 0, 0, []⟩) := by decide +kernel
  have hflipped : BitFlipped bareHeader (0x80 :: bareHeader.drop 1) :=
    ⟨[], 0, bareHeader.drop 1, 7, rfl, by decide +kernel⟩
  have hcorrupted : Corrupted (Ipv4AddrBytes.mk 0 0 0 0).octets (Ipv4AddrBytes.mk 10 1 0 0).octets :=
    ⟨0, 0x0a01, .word [] [0, 0] 0 0x0a01 rfl, by decide, by decide, by decide⟩
  have hbit : BitFlipped [8, 0, 0xf7, 0xff, 0, 0, 0, 0] [8, 0, 0xf7, 0xfe, 0, 0, 0, 0] :=
    ⟨[8, 0, 0xf7], 0xff, [0, 0, 0, 0], 0, rfl, by decide +kernel⟩
  exact ⟨htcp _ _ _ _ (by decide) hsegment _ _ _ (Or.inr (.segment _ hflipped)),
    htcp _ _ _ _ (by decide) hsegment _ _ _ (Or.inl (.src _ hcorrupted)),
    hicmp _ _ (by decide) hmessage _ (Or.inr hbit)⟩

end Minnow
