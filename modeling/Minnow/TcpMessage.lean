import Minnow.ByteStream
import Minnow.WrappingIntegers
import Minnow.Library.Slice

set_option autoImplicit false

/-! # Messages and the sequence space they occupy

`tcp_message.rs`: what a sender says to the peer's receiver and what a receiver says to the
peer's sender.

A byte stream `D` is transmitted as the sequence SYN, the bytes of `D`, FIN. `seqSpace D
closed` is that list of symbols, as far as it is determined: FIN is in it once the stream is
closed. A message is a list of symbols too, and `Occupies` says that the message is the part
of the sequence space that begins at a given absolute sequence number. Everything the two
ends of a connection have to agree on is stated with it.
-/

namespace Minnow

structure TcpSenderMessage where
  seqno : Wrap32
  syn : Bool
  payload : Bytes
  fin : Bool
  rst : Bool
  deriving DecidableEq, Repr

namespace TcpSenderMessage

/-- SYN, each payload byte and FIN occupy one sequence number each. -/
def sequenceLength (message : TcpSenderMessage) : Nat :=
  message.syn.toNat + message.payload.length + message.fin.toNat

def isEmptyInSequenceSpace (message : TcpSenderMessage) : Bool :=
  message.sequenceLength == 0

end TcpSenderMessage

structure TcpReceiverMessage where
  ackno : Option Wrap32
  windowSize : UInt16
  rst : Bool
  deriving DecidableEq, Repr

theorem TcpReceiverMessage.windowSize_le (message : TcpReceiverMessage) :
    message.windowSize.toNat ≤ 65535 :=
  Nat.le_of_lt_succ message.windowSize.toNat_lt

/-! ## Symbols -/

/-- What one sequence number can stand for. -/
inductive SeqSymbol where
  | syn
  | byte (b : UInt8)
  | fin
  deriving DecidableEq, Repr

/-- SYN if `syn`, the bytes, FIN if `fin`. -/
def symbolsOf (syn : Bool) (bytes : Bytes) (fin : Bool) : List SeqSymbol :=
  (if syn then [.syn] else []) ++ (bytes.map .byte ++ if fin then [.fin] else [])

section SymbolsOf

variable {syn fin : Bool} {bytes : Bytes} {i : Nat}

@[simp] theorem length_symbolsOf :
    (symbolsOf syn bytes fin).length = syn.toNat + bytes.length + fin.toNat := by
  cases syn <;> cases fin <;> simp [symbolsOf] <;> omega

/-- The symbol at a position. -/
theorem getElem?_symbolsOf : (symbolsOf syn bytes fin)[i]? =
    if i < syn.toNat then some .syn
    else if i < syn.toNat + bytes.length then bytes[i - syn.toNat]?.map .byte
    else if i < syn.toNat + bytes.length + fin.toNat then some .fin
    else none := by
  have htail : ∀ i, (bytes.map SeqSymbol.byte ++ if fin then [SeqSymbol.fin] else [])[i]? =
      if i < bytes.length then bytes[i]?.map .byte
      else if i < bytes.length + fin.toNat then some .fin
      else none := by
    intro i
    rw [List.getElem?_append, List.length_map, List.getElem?_map]
    split_ifs with hi hfin hlt hlt
    · rfl
    · rw [Nat.le_antisymm (by simp [hfin] at hlt; omega) (Nat.not_lt.mp hi), Nat.sub_self]
      rfl
    · simp only [hfin, Bool.toNat_true] at hlt
      exact List.getElem?_eq_none (by simp; omega)
    · simp only [Bool.not_eq_true] at hfin
      simp only [hfin, Bool.toNat_false] at hlt
      omega
    · rfl
  -- a SYN shifts the bytes and the FIN by one
  cases syn with
  | true =>
      cases i with
      | zero => simp [symbolsOf]
      | succ i =>
          have hlt : ¬ i + 1 < 1 := by omega
          have h1 : (i + 1 < 1 + bytes.length) ↔ i < bytes.length := by omega
          have h2 : (i + 1 < 1 + bytes.length + fin.toNat) ↔ i < bytes.length + fin.toNat := by omega
          simp only [symbolsOf, if_true, List.singleton_append, List.getElem?_cons_succ, htail i,
            Bool.toNat_true, hlt, if_false, h1, h2, Nat.add_sub_cancel]
  | false =>
      simp only [symbolsOf, Bool.false_eq_true, if_false, List.nil_append, htail i,
        Bool.toNat_false, Nat.not_lt_zero, Nat.zero_add, Nat.sub_zero]

theorem getElem?_symbolsOf_syn :
    (symbolsOf syn bytes fin)[i]? = some .syn ↔ syn = true ∧ i = 0 := by
  rw [getElem?_symbolsOf]
  split_ifs with h1 h2 h3
  · cases syn
    · simp at h1
    · simpa using h1
  all_goals
    cases syn
    · simp
    · simp at h1 ⊢
      omega

theorem getElem?_symbolsOf_byte {b : UInt8} :
    (symbolsOf syn bytes fin)[i]? = some (.byte b)
      ↔ syn.toNat ≤ i ∧ bytes[i - syn.toNat]? = some b := by
  rw [getElem?_symbolsOf]
  split_ifs with h1 h2 h3
  · simp only [Option.some.injEq, reduceCtorEq, false_iff, not_and]
    omega
  · simp only [Option.map_eq_some_iff, SeqSymbol.byte.injEq, exists_eq_right, iff_and_self]
    omega
  all_goals
    have hnone : bytes[i - syn.toNat]? = none := List.getElem?_eq_none (by omega)
    simp [hnone]

theorem getElem?_symbolsOf_fin :
    (symbolsOf syn bytes fin)[i]? = some .fin ↔ fin = true ∧ i = syn.toNat + bytes.length := by
  rw [getElem?_symbolsOf]
  split_ifs with h1 h2 h3
  · simp only [Option.some.injEq, reduceCtorEq, false_iff, not_and]
    omega
  · simp only [Option.map_eq_some_iff, reduceCtorEq, and_false, exists_false, false_iff, not_and]
    omega
  · cases fin
    · simp only [Bool.toNat_false] at h3
      omega
    · simp only [Bool.toNat_true] at h3
      simp only [true_and, true_iff]
      omega
  · cases fin
    · simp
    · simp only [Bool.toNat_true] at h3
      simp only [true_and, false_iff]
      omega

/-- Dropping a prefix that reaches behind SYN, but not behind the bytes. -/
theorem drop_symbolsOf (hpos : 0 < i) (hle : i ≤ syn.toNat + bytes.length) :
    (symbolsOf syn bytes fin).drop i = symbolsOf false (bytes.drop (i - syn.toNat)) fin := by
  have htail : ∀ k, k ≤ bytes.length →
      (bytes.map SeqSymbol.byte ++ if fin then [SeqSymbol.fin] else []).drop k
        = (bytes.drop k).map SeqSymbol.byte ++ if fin then [SeqSymbol.fin] else [] := by
    intro k hk
    rw [List.drop_append_of_le_length (by rw [List.length_map]; exact hk), List.map_drop]
  cases syn with
  | true =>
      obtain ⟨k, rfl⟩ : ∃ k, i = k + 1 := ⟨i - 1, by omega⟩
      rw [Bool.toNat_true] at hle
      simp only [symbolsOf, if_true, List.singleton_append, List.drop_succ_cons, Bool.toNat_true,
        Nat.add_sub_cancel, Bool.false_eq_true, if_false, List.nil_append]
      exact htail k (by omega)
  | false =>
      rw [Bool.toNat_false, Nat.zero_add] at hle
      simp only [symbolsOf, Bool.false_eq_true, if_false, List.nil_append, Bool.toNat_false,
        Nat.sub_zero]
      exact htail i hle

end SymbolsOf

/-- The sequence space of a stream: SYN, the bytes accepted so far, and FIN once the stream
is closed. -/
def seqSpace (data : Bytes) (closed : Bool) : List SeqSymbol := symbolsOf true data closed

theorem length_seqSpace (data : Bytes) (closed : Bool) :
    (seqSpace data closed).length = data.length + 1 + closed.toNat := by
  rw [seqSpace, length_symbolsOf, Bool.toNat_true]
  omega

/-- The sequence space grows at its end as long as the stream is open. -/
theorem prefix_seqSpace (data more : Bytes) (closed : Bool) :
    seqSpace data false <+: seqSpace (data ++ more) closed := by
  refine ⟨more.map .byte ++ if closed then [.fin] else [], ?_⟩
  simp [seqSpace, symbolsOf]

/-- The byte a symbol stands for. -/
def SeqSymbol.byte? : SeqSymbol → Option UInt8
  | .byte b => some b
  | _ => none

theorem filterMap_symbolsOf (syn fin : Bool) (bytes : Bytes) :
    (symbolsOf syn bytes fin).filterMap SeqSymbol.byte? = bytes := by
  have hbytes : (bytes.map SeqSymbol.byte).filterMap SeqSymbol.byte? = bytes := by
    rw [List.filterMap_map]
    exact List.filterMap_some
  unfold symbolsOf
  rw [List.filterMap_append, List.filterMap_append, hbytes]
  cases syn <;> cases fin <;> simp [List.filterMap_cons, SeqSymbol.byte?]

/-- The bytes among the first symbols. -/
theorem filterMap_take_seqSpace (data : Bytes) (closed : Bool) (n : Nat) :
    ((seqSpace data closed).take n).filterMap SeqSymbol.byte? = data.take (n - 1) := by
  cases n with
  | zero => rfl
  | succ n =>
      have hfin : ((if closed then [SeqSymbol.fin] else []).take (n - data.length)).filterMap
          SeqSymbol.byte? = [] := by
        cases closed <;> cases n - data.length <;> simp [List.filterMap_cons, SeqSymbol.byte?]
      simp only [seqSpace, symbolsOf, if_true, List.singleton_append, List.take_succ_cons,
        List.take_append, List.length_map, Nat.add_sub_cancel, ← List.map_take,
        List.filterMap_cons_none (show SeqSymbol.byte? .syn = none from rfl),
        List.filterMap_append, hfin, List.append_nil]
      rw [List.filterMap_map]
      exact List.filterMap_some

/-! ## The part of the sequence space a message occupies -/

namespace TcpSenderMessage

def symbols (message : TcpSenderMessage) : List SeqSymbol :=
  symbolsOf message.syn message.payload message.fin

@[simp] theorem length_symbols (message : TcpSenderMessage) :
    message.symbols.length = message.sequenceLength := length_symbolsOf

/-- The message is the part of the sequence space of `data` from position `start` on. -/
def Occupies (data : Bytes) (closed : Bool) (isn : Wrap32) (start : Nat)
    (message : TcpSenderMessage) : Prop :=
  message.seqno = Wrap32.wrap start isn ∧
    message.symbols = (seqSpace data closed).slice start (start + message.sequenceLength)

/-- The same, field by field. -/
structure Carries (data : Bytes) (closed : Bool) (isn : Wrap32) (start : Nat)
    (message : TcpSenderMessage) : Prop where
  seqno : message.seqno = Wrap32.wrap start isn
  bound : start + message.sequenceLength ≤ data.length + 1 + closed.toNat
  syn : message.syn = true ↔ start = 0
  payload : message.payload = data.slice (start - 1) (start - 1 + message.payload.length)
  fin : message.fin = true ↔ closed = true ∧ start + message.sequenceLength = data.length + 2

variable {data : Bytes} {closed : Bool} {isn : Wrap32} {start : Nat} {message : TcpSenderMessage}

theorem Occupies.getElem? (h : message.Occupies data closed isn start) (i : Nat)
    (hi : i < message.sequenceLength) :
    message.symbols[i]? = (seqSpace data closed)[start + i]? := by
  rw [h.2, List.getElem?_slice, if_pos (by omega)]

theorem Occupies.carries (h : message.Occupies data closed isn start)
    (hpos : 0 < message.sequenceLength) : message.Carries data closed isn start := by
  have hlen : message.sequenceLength ≤ data.length + 1 + closed.toNat - start := by
    have := congrArg List.length h.2
    rw [length_symbols, List.length_slice, length_seqSpace] at this
    omega
  have hsyn : message.syn = true ↔ start = 0 := by
    have h0 := h.getElem? 0 hpos
    have hm : message.symbols[0]? = some .syn ↔ message.syn = true := by
      rw [symbols, getElem?_symbolsOf_syn]
      simp
    rw [← hm, h0, seqSpace, getElem?_symbolsOf_syn]
    simp
  refine ⟨h.1, by omega, hsyn, ?_, ?_⟩
  · -- byte `i` of the payload stands behind SYN, if SYN is there
    apply List.ext_getElem?
    intro i
    rw [List.getElem?_slice]
    split_ifs with hi
    · have hpay : i < message.payload.length := by omega
      have hbyte := h.getElem? (message.syn.toNat + i) (by unfold sequenceLength; omega)
      have hm : message.symbols[message.syn.toNat + i]? = some (.byte message.payload[i]) := by
        rw [symbols, getElem?_symbolsOf_byte]
        refine ⟨by omega, ?_⟩
        rw [Nat.add_sub_cancel_left, List.getElem?_eq_getElem hpay]
      rw [hm] at hbyte
      obtain ⟨-, hget⟩ := getElem?_symbolsOf_byte.mp hbyte.symm
      rw [List.getElem?_eq_getElem hpay, ← hget]
      congr 1
      have hs : message.syn.toNat = 1 ∧ start = 0 ∨ message.syn.toNat = 0 ∧ start ≠ 0 := by
        cases hb : message.syn
        · exact Or.inr ⟨rfl, fun h0 => by simp [hsyn.mpr h0] at hb⟩
        · exact Or.inl ⟨rfl, hsyn.mp hb⟩
      simp only [Bool.toNat_true]
      omega
    · exact List.getElem?_eq_none (by omega)
  · have hlast := h.getElem? (message.sequenceLength - 1) (by omega)
    constructor
    · intro hfin
      have hm : message.symbols[message.sequenceLength - 1]? = some .fin := by
        rw [symbols, getElem?_symbolsOf_fin]
        refine ⟨hfin, ?_⟩
        simp [sequenceLength, hfin]
      rw [hm] at hlast
      obtain ⟨hc, hpos'⟩ := getElem?_symbolsOf_fin.mp hlast.symm
      refine ⟨hc, ?_⟩
      simp only [Bool.toNat_true] at hpos'
      omega
    · rintro ⟨hc, hend⟩
      have hs : (seqSpace data closed)[start + (message.sequenceLength - 1)]? = some .fin := by
        rw [seqSpace, getElem?_symbolsOf_fin]
        refine ⟨hc, ?_⟩
        simp only [Bool.toNat_true]
        omega
      rw [hs] at hlast
      exact (getElem?_symbolsOf_fin.mp hlast).1

/-- A message stays part of the sequence space when this grows. -/
theorem Occupies.mono {data1 : Bytes} {closed1 : Bool} (h : message.Occupies data closed isn start)
    (hpre : seqSpace data closed <+: seqSpace data1 closed1) :
    message.Occupies data1 closed1 isn start := by
  refine ⟨h.1, ?_⟩
  by_cases hpos : 0 < message.sequenceLength
  · have hbound := (h.carries hpos).bound
    rw [h.2, List.slice_of_isPrefix hpre]
    rw [length_seqSpace]
    exact hbound
  · have hzero : message.sequenceLength = 0 := by omega
    have hnil : message.symbols = [] :=
      List.length_eq_zero_iff.mp (by rw [length_symbols, hzero])
    rw [hnil, hzero, Nat.add_zero, List.slice_self]

theorem Carries.occupies (h : message.Carries data closed isn start) :
    message.Occupies data closed isn start := by
  refine ⟨h.seqno, ?_⟩
  have hs : message.syn.toNat = 1 ∧ start = 0 ∨ message.syn.toNat = 0 ∧ start ≠ 0 := by
    cases hb : message.syn
    · exact Or.inr ⟨rfl, fun h0 => by simp [h.syn.mpr h0] at hb⟩
    · exact Or.inl ⟨rfl, h.syn.mp hb⟩
  have hbound := h.bound
  have hfin := h.fin
  apply List.ext_getElem?
  intro i
  rw [List.getElem?_slice]
  split_ifs with hi
  · have hidx : i < start + message.sequenceLength := by omega
    rw [symbols, seqSpace, getElem?_symbolsOf, getElem?_symbolsOf, Bool.toNat_true]
    unfold sequenceLength at *
    -- both lists show the same symbol: SYN, then a byte, then FIN
    by_cases h1 : i < message.syn.toNat
    · have hzero : start + i < 1 := by omega
      rw [if_pos h1, if_pos hzero]
    · have hzero : ¬ start + i < 1 := by omega
      rw [if_neg h1, if_neg hzero]
      by_cases h2 : i < message.syn.toNat + message.payload.length
      · have hd : start + i < 1 + data.length := by
          cases hc : closed with
          | false =>
              simp only [hc, Bool.toNat_false] at hbound
              omega
          | true =>
              cases hf : message.fin with
              | true =>
                  simp only [hf, hc, Bool.toNat_true] at hbound
                  omega
              | false =>
                  have hne : ¬ (closed = true ∧ start + (message.syn.toNat +
                      message.payload.length + message.fin.toNat) = data.length + 2) :=
                    fun hcon => by simp [hfin.mpr hcon] at hf
                  simp only [hc, hf, Bool.toNat_true, Bool.toNat_false, true_and] at hbound hne
                  omega
        have hin : start - 1 + (i - message.syn.toNat) < start - 1 + message.payload.length := by
          omega
        have hpos : start - 1 + (i - message.syn.toNat) = start + i - 1 := by omega
        rw [if_pos h2, if_pos hd, h.payload, List.getElem?_slice, if_pos hin, hpos]
      · have hf : message.fin = true := by
          cases hb : message.fin with
          | true => rfl
          | false =>
              simp only [hb, Bool.toNat_false] at hi
              omega
        obtain ⟨hc, hend⟩ := hfin.mp hf
        simp only [hf, Bool.toNat_true] at hi hend
        have h3 : i < message.syn.toNat + message.payload.length + message.fin.toNat := by
          rw [hf, Bool.toNat_true]
          omega
        have hdata : ¬ start + i < 1 + data.length := by omega
        have hlast : start + i < 1 + data.length + closed.toNat := by
          rw [hc, Bool.toNat_true]
          omega
        rw [if_neg h2, if_pos h3, if_neg hdata, if_pos hlast]
  · exact List.getElem?_eq_none (by rw [length_symbols]; omega)

/-- A message that occupies no sequence space has only its number to agree on. -/
theorem occupies_of_empty (hseq : message.seqno = Wrap32.wrap start isn)
    (hzero : message.sequenceLength = 0) : message.Occupies data closed isn start := by
  refine ⟨hseq, ?_⟩
  have hnil : message.symbols = [] := List.length_eq_zero_iff.mp (by rw [length_symbols, hzero])
  rw [hnil, hzero, Nat.add_zero, List.slice_self]

end TcpSenderMessage

end Minnow
