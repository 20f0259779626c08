import Minnow.TcpMessage
import Minnow.Reassembler.Stream
import Mathlib.Logic.Relation

set_option autoImplicit false

/-! # The receiving half of a connection

`tcp_receiver.rs`: a reassembler behind sequence numbers. The first SYN fixes the initial
sequence number; from then on a message at the absolute sequence number `a` goes to the
stream index `a - 1`, and the acknowledgment is the absolute number of the first symbol
that has not been assembled.

* `receive_taken`, `receive_ignored`: what a message of the peer's stream does.
* `transfer_correct`: the receiver over any run of such messages, cut and repeated in any
  way, and reads.
-/

namespace Minnow

structure TcpReceiver where
  reassembler : Reassembler
  isn : Option Wrap32

namespace TcpReceiver

open Reassembler ByteStream TcpSenderMessage

def new (capacity : Nat) : Exec TcpReceiver := do
  let reassembler ← Reassembler.new capacity
  .ok { reassembler := reassembler, isn := none }

def output (receiver : TcpReceiver) : ByteStream := receiver.reassembler.output

/-- The part of `receive` behind the choice of the initial sequence number. -/
def receiveAt (receiver : TcpReceiver) (isn : Wrap32) (message : TcpSenderMessage) :
    Exec (TcpReceiver × Except ReassemblerError Unit) :=
  let checkpoint := saturatingAdd receiver.output.bytesPushed 1
  let absoluteSeqno := message.seqno.unwrap isn checkpoint
  let streamIndex := if message.syn then some absoluteSeqno else checkedSub absoluteSeqno 1
  match streamIndex with
  | none => .ok (receiver, .ok ())
  | some index => do
      let (reassembler, result) ← receiver.reassembler.tryInsert index message.payload message.fin
      .ok ({ receiver with reassembler := reassembler }, result)

def receive (receiver : TcpReceiver) (message : TcpSenderMessage) :
    Exec (TcpReceiver × Except ReassemblerError Unit) :=
  if message.rst then
    .ok ({ receiver with reassembler := receiver.reassembler.setError }, .ok ())
  else
    match receiver.isn with
    | some isn =>
        if message.syn && message.seqno ≠ isn then .ok (receiver, .ok ())
        else receiver.receiveAt isn message
    | none =>
        if !message.syn then .ok (receiver, .ok ())
        else receiveAt { receiver with isn := some message.seqno } message.seqno message

/-- The absolute acknowledgment number: SYN and, once the output is closed, FIN count. -/
def absoluteAckno (receiver : TcpReceiver) : Nat :=
  let absoluteAckno := saturatingAdd receiver.output.bytesPushed 1
  if receiver.output.closed then saturatingAdd absoluteAckno 1 else absoluteAckno

def send (receiver : TcpReceiver) : TcpReceiverMessage where
  ackno := receiver.isn.map (fun isn => Wrap32.wrap receiver.absoluteAckno isn)
  windowSize := UInt16.ofNat (min receiver.output.availableCapacity 65535)
  rst := receiver.output.error

/-- The receiver after `output_mut().pop(len)`, and the bytes popped. -/
def read (receiver : TcpReceiver) (len : Nat) : TcpReceiver × Bytes :=
  ({ receiver with reassembler := (receiver.reassembler.read len).1 },
    (receiver.reassembler.read len).2)

/-- The receiver after `output_mut().set_error()`. -/
def setError (receiver : TcpReceiver) : TcpReceiver :=
  { receiver with reassembler := receiver.reassembler.setError }

variable {receiver : TcpReceiver} {message : TcpSenderMessage}

theorem new_ok (capacity : Nat) : new capacity = .ok
    { reassembler :=
        { output := ByteStream.new capacity, pending := SortedMap.empty, eofIndex := none }
      isn := none } := by
  obtain ⟨⟨output, pending, eofIndex⟩, hrun, -, rfl, rfl, rfl⟩ := Reassembler.new_ok capacity
  rw [new, hrun]
  rfl

theorem absoluteAckno_eq (h : receiver.output.bytesPushed + 2 ≤ u64Max) :
    receiver.absoluteAckno = receiver.output.bytesPushed + 1 + receiver.output.closed.toNat := by
  unfold absoluteAckno
  dsimp only
  have h1 : receiver.output.bytesPushed + 1 ≤ u64Max := by omega
  have h2 : receiver.output.bytesPushed + 1 + 1 ≤ u64Max := h
  rw [saturatingAdd_of_le h1, saturatingAdd_of_le h2]
  cases receiver.output.closed <;> rfl

theorem send_windowSize (receiver : TcpReceiver) :
    receiver.send.windowSize.toNat = min receiver.output.availableCapacity 65535 := by
  show (UInt16.ofNat (min receiver.output.availableCapacity 65535)).toNat = _
  rw [UInt16.toNat_ofNat']
  exact Nat.mod_eq_of_lt (by omega)

/-- Whatever arrives, nothing stops abnormally and the reassembler stays well formed. -/
theorem receive_total (h : receiver.reassembler.RepInv) (message : TcpSenderMessage) :
    ∃ receiver1 result, receiver.receive message = .ok (receiver1, result) ∧
      receiver1.reassembler.RepInv := by
  have hat : ∀ receiver0 : TcpReceiver, receiver0.reassembler.RepInv → ∀ isn,
      ∃ receiver1 result, receiver0.receiveAt isn message = .ok (receiver1, result) ∧
        receiver1.reassembler.RepInv := by
    intro receiver0 h0 isn
    unfold receiveAt
    dsimp only
    split
    · exact ⟨_, _, rfl, h0⟩
    · rename_i index _
      obtain ⟨r1, result, hrun, hinv⟩ := tryInsert_total h0 index message.payload message.fin
      rw [hrun]
      exact ⟨_, _, rfl, hinv⟩
  unfold receive
  by_cases hrst : message.rst = true
  · rw [if_pos hrst]
    exact ⟨_, _, rfl, h.setError⟩
  · rw [if_neg hrst]
    cases receiver.isn with
    | some isn =>
        dsimp only
        split_ifs
        · exact ⟨_, _, rfl, h⟩
        · exact hat receiver h isn
    | none =>
        dsimp only
        split_ifs
        · exact ⟨_, _, rfl, h⟩
        · exact hat { receiver with isn := some message.seqno } h message.seqno

section Cases

variable {receiver1 : TcpReceiver} {result : Except ReassemblerError Unit}

theorem receiveAt_cases {isn : Wrap32}
    (hrun : receiver.receiveAt isn message = .ok (receiver1, result)) :
    receiver1.isn = receiver.isn ∧ (receiver1.reassembler = receiver.reassembler ∨
      ∃ index, receiver.reassembler.tryInsert index message.payload message.fin
        = .ok (receiver1.reassembler, result)) := by
  unfold receiveAt at hrun
  dsimp only at hrun
  split at hrun
  · obtain ⟨rfl, -⟩ := Prod.mk.inj (Except.ok.inj hrun)
    exact ⟨rfl, Or.inl rfl⟩
  · rename_i index _
    obtain ⟨⟨r1, result1⟩, hinsert, hok⟩ := Exec.bind_eq_ok.mp hrun
    obtain ⟨rfl, rfl⟩ := Prod.mk.inj (Except.ok.inj hok)
    exact ⟨rfl, Or.inr ⟨index, hinsert⟩⟩

/-- What a message can do: nothing, set the error, or offer its payload to the reassembler. The
initial sequence number is fixed once. -/
theorem receive_cases (hrun : receiver.receive message = .ok (receiver1, result)) :
    (receiver1.reassembler = receiver.reassembler ∨
      receiver1.reassembler = receiver.reassembler.setError ∨
      ∃ index, receiver.reassembler.tryInsert index message.payload message.fin
        = .ok (receiver1.reassembler, result)) ∧
    ∀ isn, receiver.isn = some isn → receiver1.isn = some isn := by
  have hkept : (Except.ok (receiver, .ok ()) : Exec _) = .ok (receiver1, result) →
      receiver1 = receiver := fun hok => (Prod.mk.inj (Except.ok.inj hok)).1.symm
  unfold receive at hrun
  by_cases hrst : message.rst = true
  · rw [if_pos hrst] at hrun
    obtain ⟨rfl, -⟩ := Prod.mk.inj (Except.ok.inj hrun)
    exact ⟨Or.inr (Or.inl rfl), fun isn hisn => hisn⟩
  · rw [if_neg hrst] at hrun
    -- with the SYN heard before, or with the SYN of this message, the payload is placed
    cases hisn : receiver.isn with
    | some isn =>
        simp only [hisn] at hrun
        split_ifs at hrun
        · obtain rfl := hkept hrun
          exact ⟨Or.inl rfl, fun z hz => hisn.trans hz⟩
        · obtain ⟨hsame, hreassembler⟩ := receiveAt_cases hrun
          refine ⟨?_, fun z hz => (hsame.trans hisn).trans hz⟩
          rcases hreassembler with hkeep | hinsert
          · exact Or.inl hkeep
          · exact Or.inr (Or.inr hinsert)
    | none =>
        have hnone : ∀ z, (none : Option Wrap32) = some z → receiver1.isn = some z :=
          fun z hz => absurd hz (by simp)
        simp only [hisn] at hrun
        split_ifs at hrun
        · obtain rfl := hkept hrun
          exact ⟨Or.inl rfl, hnone⟩
        · obtain ⟨-, hreassembler⟩ := receiveAt_cases hrun
          refine ⟨?_, hnone⟩
          rcases hreassembler with hkeep | hinsert
          · exact Or.inl hkeep
          · exact Or.inr (Or.inr hinsert)

/-- No message changes the capacity of the output or what was read of it. -/
theorem receive_frame (h : receiver.reassembler.RepInv)
    (hrun : receiver.receive message = .ok (receiver1, result)) :
    receiver1.output.capacity = receiver.output.capacity ∧
      receiver1.output.bytesPopped = receiver.output.bytesPopped := by
  unfold output
  rcases (receive_cases hrun).1 with hkeep | herror | ⟨index, hinsert⟩
  · rw [hkeep]
    exact ⟨rfl, rfl⟩
  · rw [herror]
    exact ⟨rfl, rfl⟩
  · exact tryInsert_frame h hinsert

end Cases

/-! ## Messages of one stream -/

/-- The stream index of a message that occupies sequence space. -/
theorem partOf_carries {stream : Bytes} {closed : Bool} {isn : Wrap32} {start : Nat}
    (h : message.Carries stream closed isn start) (hpos : 0 < message.sequenceLength) :
    PartOf stream (closed = true) (start - 1) message.payload message.fin := by
  have hbound := h.bound
  have hfin := h.fin
  have hclosed : closed.toNat ≤ 1 := Bool.toNat_le closed
  have hlen := congrArg List.length h.payload
  rw [List.length_slice] at hlen
  have hsyn : message.syn.toNat = 1 ∧ start = 0 ∨ message.syn.toNat = 0 ∧ start ≠ 0 := by
    cases hb : message.syn
    · exact Or.inr ⟨rfl, fun h0 => by simp [h.syn.mpr h0] at hb⟩
    · exact Or.inl ⟨rfl, h.syn.mp hb⟩
  unfold sequenceLength at hbound hfin hpos
  refine ⟨by omega, ?_, ?_⟩
  · intro i b hb
    rw [h.payload, List.getElem?_slice] at hb
    split_ifs at hb
    exact hb
  · intro hf
    obtain ⟨hc, hend⟩ := hfin.mp hf
    rw [hf, Bool.toNat_true] at hend
    exact ⟨hc, by omega⟩

section Stream

variable {stream : Bytes} {closed : Bool} {isn : Wrap32} {read : Bytes} {start : Nat}

/-- Before the first SYN nothing happens. -/
theorem receive_ignored (hisn : receiver.isn = none) (hsyn : message.syn = false)
    (hrst : message.rst = false) : receiver.receive message = .ok (receiver, .ok ()) := by
  unfold receive
  rw [hrst, hisn, hsyn]
  rfl

/-- The sequence number of a message near the window is decoded to its absolute number. -/
theorem unwrap_carries (h : message.Carries stream closed isn start)
    (hmax : stream.length + 2 ≤ u64Max) (hle : receiver.output.bytesPushed ≤ stream.length)
    (hnear : absDiff start (receiver.output.bytesPushed + 1) < 2 ^ 31) :
    message.seqno.unwrap isn (saturatingAdd receiver.output.bytesPushed 1) = start := by
  have hbound := h.bound
  have hclosed : closed.toNat ≤ 1 := Bool.toNat_le closed
  rw [saturatingAdd_of_le (by omega), h.seqno]
  exact Wrap32.unwrap_wrap isn (by omega) hnear

/-- With or after the first SYN a message goes to the reassembler. -/
theorem receive_carries (hisn : ∀ z ∈ receiver.isn, z = isn) (hmax : stream.length + 2 ≤ u64Max)
    (hle : receiver.output.bytesPushed ≤ stream.length)
    (hcar : message.Carries stream closed isn start) (hrst : message.rst = false)
    (hsyn : receiver.isn = none → message.syn = true)
    (hnear : absDiff start (receiver.output.bytesPushed + 1) < 2 ^ 31)
    {r1 : Reassembler} {result : Except ReassemblerError Unit}
    (hrun : receiver.reassembler.tryInsert (start - 1) message.payload message.fin
      = .ok (r1, result)) :
    receiver.receive message = .ok ({ reassembler := r1, isn := some isn }, result) := by
  have hdecode := unwrap_carries hcar hmax hle hnear
  -- SYN is the symbol at the absolute number 0, which every other message is behind
  have hindex : (if message.syn = true then some start else checkedSub start 1)
      = some (start - 1) := by
    by_cases hs : message.syn = true
    · rw [if_pos hs, hcar.syn.mp hs]
    · have hne : start ≠ 0 := fun h0 => hs (hcar.syn.mpr h0)
      rw [if_neg hs, checkedSub_of_le (by omega)]
  have hat : ∀ z, receiveAt { reassembler := receiver.reassembler, isn := z } isn message
      = .ok ({ reassembler := r1, isn := z }, result) := by
    intro z
    have hcheck : ({ reassembler := receiver.reassembler, isn := z } : TcpReceiver).output
        = receiver.output := rfl
    unfold receiveAt
    dsimp only
    rw [hcheck, hdecode, hindex]
    simp only [hrun, Exec.ok_bind]
  have hsynSeqno : message.syn = true → message.seqno = isn := by
    intro hs
    rw [hcar.seqno, hcar.syn.mp hs, Wrap32.wrap_zero]
  unfold receive
  rw [hrst, if_neg (by simp)]
  cases hz : receiver.isn with
  | none =>
      have hs := hsyn hz
      simp only [hs, Bool.not_true, Bool.false_eq_true, if_false, hsynSeqno hs]
      exact hat (some isn)
  | some z =>
      obtain rfl := hisn z hz
      have hkeep : ¬ (message.syn && decide (message.seqno ≠ z)) = true := by
        simp only [ne_eq, Bool.and_eq_true, decide_eq_true_eq, not_and, not_not]
        exact hsynSeqno
      simp only [if_neg hkeep]
      have hreceiver : receiver = { reassembler := receiver.reassembler, isn := some z } := by
        rw [← hz]
      rw [hreceiver]
      exact hat (some z)

/-- A part of the stream that the receiver assembles is taken. -/
theorem receive_taken (h : Agrees stream (closed = true) read receiver.reassembler)
    (hisn : ∀ z ∈ receiver.isn, z = isn) (hmax : stream.length + 2 ≤ u64Max)
    (hcar : message.Carries stream closed isn start) (hpos : 0 < message.sequenceLength)
    (hrst : message.rst = false) (hsyn : receiver.isn = none → message.syn = true)
    (hnear : absDiff start (receiver.output.bytesPushed + 1) < 2 ^ 31) :
    ∃ r1, receiver.receive message = .ok ({ reassembler := r1, isn := some isn }, .ok ()) ∧
      Agrees stream (closed = true) read r1 ∧
      Inserted receiver.reassembler (start - 1) message.payload r1 ∧
      r1.eofIndex = receiver.reassembler.recordedEof (start - 1) message.payload message.fin := by
  obtain ⟨r1, hrun, hagrees, hins, heof⟩ :=
    h.tryInsert (by omega) (partOf_carries hcar hpos)
  exact ⟨r1, receive_carries hisn hmax h.pushed_le_length hcar hrst hsyn hnear hrun, hagrees, hins,
    heof⟩

end Stream

/-! ## Transfers -/

/-- The message that carries the symbols `[a, b)` of the sequence SYN, `stream`, FIN. -/
def sliceMessage (stream : Bytes) (isn : Wrap32) (a b : Nat) : TcpSenderMessage where
  seqno := Wrap32.wrap a isn
  syn := decide (a = 0)
  payload := stream.slice (a - 1) (b - 1)
  fin := decide (b = stream.length + 2)
  rst := false

section SliceMessage

variable {stream : Bytes} (isn : Wrap32) {a b : Nat}

theorem sequenceLength_sliceMessage (hab : a < b) (hb : b ≤ stream.length + 2) :
    (sliceMessage stream isn a b).sequenceLength = b - a := by
  unfold sequenceLength sliceMessage
  dsimp only
  rw [List.length_slice]
  by_cases ha : a = 0 <;> by_cases hfin : b = stream.length + 2 <;>
    simp only [ha, hfin, decide_true, decide_false, Bool.toNat_true, Bool.toNat_false] <;> omega

theorem carries_sliceMessage (hab : a < b) (hb : b ≤ stream.length + 2) :
    (sliceMessage stream isn a b).Carries stream true isn a := by
  have hlen := sequenceLength_sliceMessage isn hab hb
  refine ⟨rfl, ?_, ?_, ?_, ?_⟩
  · rw [hlen, Bool.toNat_true]
    omega
  · simp [sliceMessage]
  · show stream.slice (a - 1) (b - 1) = _
    apply List.ext_getElem?
    intro i
    show _ = (stream.slice (a - 1) (a - 1 + (stream.slice (a - 1) (b - 1)).length))[i]?
    rw [List.getElem?_slice, List.getElem?_slice, List.length_slice]
    split_ifs with h1 h2 h2
    · rfl
    · exact List.getElem?_eq_none (by omega)
    · exact absurd h2 (by omega)
    · rfl
  · rw [hlen]
    simp only [sliceMessage, decide_eq_true_eq, true_and]
    omega

end SliceMessage

/-- A receiver with the history of its use: the bytes read, and which symbols each message
delivered so far carried. -/
structure Transfer where
  receiver : TcpReceiver
  read : Bytes
  history : List (Nat × Nat)

namespace Transfer

variable {stream : Bytes} {isn : Wrap32} {capacity : Nat} {t t1 : Transfer}

/-- A message of `stream` is delivered near the window, or the reader takes bytes. -/
inductive Step (stream : Bytes) (isn : Wrap32) : Transfer → Transfer → Prop where
  | deliver {t : Transfer} {receiver : TcpReceiver} {result : Except ReassemblerError Unit}
      (a b : Nat) (hab : a < b) (hb : b ≤ stream.length + 2)
      (hnear : absDiff a (t.receiver.output.bytesPushed + 1) < 2 ^ 31)
      (hrun : t.receiver.receive (sliceMessage stream isn a b) = .ok (receiver, result)) :
      Step stream isn t { t with receiver := receiver, history := t.history ++ [(a, b)] }
  | read {t : Transfer} (len : Nat) :
      Step stream isn t
        { t with receiver := (t.receiver.read len).1, read := t.read ++ (t.receiver.read len).2 }

/-- The states of a receiver of the given capacity to which `stream` is being transferred. -/
def Reachable (stream : Bytes) (isn : Wrap32) (capacity : Nat) (t : Transfer) : Prop :=
  ∃ receiver, TcpReceiver.new capacity = .ok receiver ∧
    Relation.ReflTransGen (Step stream isn) { receiver := receiver, read := [], history := [] } t

/-- A message with SYN was delivered. -/
def SynHeard (t : Transfer) : Prop := ∃ i : Nat, ∃ b, t.history[i]? = some (0, b)

/-- A message that covers FIN was delivered together with or after the first SYN. -/
def FinHeard (stream : Bytes) (t : Transfer) : Prop :=
  ∃ i j : Nat, i ≤ j ∧ (∃ b, t.history[i]? = some (0, b)) ∧
    ∃ a, t.history[j]? = some (a, stream.length + 2)

/-- The history of a transfer after one more message. -/
theorem synHeard_append {history : List (Nat × Nat)} {a b : Nat} :
    (∃ i : Nat, ∃ b1, (history ++ [(a, b)])[i]? = some (0, b1)) ↔
      (∃ i : Nat, ∃ b1, history[i]? = some (0, b1)) ∨ a = 0 := by
  constructor
  · rintro ⟨i, b1, hi⟩
    have hmem := List.mem_of_getElem? hi
    rcases List.mem_append.mp hmem with hmem | hmem
    · obtain ⟨i1, hi1⟩ := List.mem_iff_getElem?.mp hmem
      exact Or.inl ⟨i1, b1, hi1⟩
    · simp only [List.mem_singleton, Prod.mk.injEq] at hmem
      exact Or.inr hmem.1.symm
  · rintro (⟨i, b1, hi⟩ | rfl)
    · obtain ⟨hlt, -⟩ := List.getElem?_eq_some_iff.mp hi
      exact ⟨i, b1, by rw [List.getElem?_append_left hlt, hi]⟩
    · exact ⟨history.length, b, by simp⟩

theorem finHeard_append {history : List (Nat × Nat)} {a b n : Nat} :
    (∃ i j : Nat, i ≤ j ∧ (∃ b1, (history ++ [(a, b)])[i]? = some (0, b1)) ∧
        ∃ a1, (history ++ [(a, b)])[j]? = some (a1, n)) ↔
      (∃ i j : Nat, i ≤ j ∧ (∃ b1, history[i]? = some (0, b1)) ∧ ∃ a1, history[j]? = some (a1, n)) ∨
      (((∃ i : Nat, ∃ b1, history[i]? = some (0, b1)) ∨ a = 0) ∧ b = n) := by
  constructor
  · rintro ⟨i, j, hij, ⟨b1, hi⟩, a1, hj⟩
    obtain ⟨hjlt, -⟩ := List.getElem?_eq_some_iff.mp hj
    rw [List.length_append, List.length_singleton] at hjlt
    by_cases hold : j < history.length
    · rw [List.getElem?_append_left hold] at hj
      rw [List.getElem?_append_left (by omega)] at hi
      exact Or.inl ⟨i, j, hij, ⟨b1, hi⟩, a1, hj⟩
    · -- the last message is the one with FIN
      have hlast : j = history.length := by omega
      rw [hlast, List.getElem?_concat_length, Option.some.injEq, Prod.mk.injEq] at hj
      exact Or.inr ⟨synHeard_append.mp ⟨i, b1, hi⟩, hj.2⟩
  · rintro (⟨i, j, hij, ⟨b1, hi⟩, a1, hj⟩ | ⟨hsyn, rfl⟩)
    · obtain ⟨hilt, -⟩ := List.getElem?_eq_some_iff.mp hi
      obtain ⟨hjlt, -⟩ := List.getElem?_eq_some_iff.mp hj
      exact ⟨i, j, hij, ⟨b1, by rw [List.getElem?_append_left hilt, hi]⟩, a1,
        by rw [List.getElem?_append_left hjlt, hj]⟩
    · obtain ⟨i, b1, hi⟩ := synHeard_append.mpr hsyn
      obtain ⟨hilt, -⟩ := List.getElem?_eq_some_iff.mp hi
      rw [List.length_append, List.length_singleton] at hilt
      exact ⟨i, history.length, by omega, ⟨b1, hi⟩, a, by simp⟩

structure Inv (stream : Bytes) (isn : Wrap32) (t : Transfer) : Prop where
  agrees : Agrees stream True t.read t.receiver.reassembler
  noError : t.receiver.output.error = false
  isn_eq : ∀ z ∈ t.receiver.isn, z = isn
  isn_iff : t.receiver.isn.isSome ↔ t.SynHeard
  eof_iff : t.receiver.reassembler.eofIndex.isSome ↔ t.FinHeard stream

theorem inv_start (stream : Bytes) (isn : Wrap32) (capacity : Nat) :
    Inv stream isn
      { receiver :=
          { reassembler :=
              { output := ByteStream.new capacity, pending := SortedMap.empty, eofIndex := none }
            isn := none }
        read := []
        history := [] } where
  agrees := Agrees.new stream True capacity
  noError := rfl
  isn_eq := by simp
  isn_iff := by simp [SynHeard]
  eof_iff := by simp [FinHeard]

/-- Delivering a message of the stream: the step is defined, its result is `Ok`, and it
keeps the invariant. -/
theorem inv_deliver (hmax : stream.length + 2 ≤ u64Max) (h : Inv stream isn t) {a b : Nat}
    (hab : a < b) (hb : b ≤ stream.length + 2)
    (hnear : absDiff a (t.receiver.output.bytesPushed + 1) < 2 ^ 31) :
    ∃ receiver, t.receiver.receive (sliceMessage stream isn a b) = .ok (receiver, .ok ()) ∧
      (t.receiver.isn = none → a ≠ 0 → receiver = t.receiver) ∧
      Inv stream isn { t with receiver := receiver, history := t.history ++ [(a, b)] } := by
  have hsyn : (sliceMessage stream isn a b).syn = true ↔ a = 0 := by simp [sliceMessage]
  -- before the SYN, a segment without one is dropped
  by_cases hignored : t.receiver.isn = none ∧ a ≠ 0
  · obtain ⟨hnone, hne⟩ := hignored
    have hnotSyn : ¬ t.SynHeard := fun hs => by simpa [hnone] using h.isn_iff.mpr hs
    refine ⟨t.receiver, receive_ignored hnone (by simpa using mt hsyn.mp hne) rfl,
      fun _ _ => rfl, h.agrees, h.noError, h.isn_eq, ?_, ?_⟩
    · refine h.isn_iff.trans (Iff.symm ?_)
      refine synHeard_append.trans (or_iff_left hne)
    · refine h.eof_iff.trans (Iff.symm ?_)
      refine finHeard_append.trans (or_iff_left ?_)
      rintro ⟨hs | h0, -⟩
      · exact hnotSyn hs
      · exact hne h0
  · have hstart : t.receiver.isn = none → a = 0 := by
      intro hnone
      by_contra hne
      exact hignored ⟨hnone, hne⟩
    have hlen := sequenceLength_sliceMessage isn hab hb
    have hcar := carries_sliceMessage isn hab hb
    obtain ⟨r1, hrun, hagrees, hins, heof⟩ := receive_taken
      (h.agrees.mono (List.prefix_refl _) (fun _ => ⟨rfl, rfl⟩)) h.isn_eq hmax
      hcar (by omega) rfl (fun hnone => hsyn.mpr (hstart hnone)) hnear
    -- from here on the SYN has been heard, now or before
    have hheard : t.SynHeard ∨ a = 0 := by
      by_cases hnone : t.receiver.isn = none
      · exact Or.inr (hstart hnone)
      · exact Or.inl (h.isn_iff.mp (Option.isSome_iff_ne_none.mpr hnone))
    refine ⟨_, hrun, fun hnone hne => absurd (hstart hnone) hne,
      hagrees.mono (List.prefix_refl _) (fun _ => ⟨trivial, rfl⟩), ?_, ?_, ?_, ?_⟩
    · obtain ⟨tl, hgrown, -⟩ := hins.grown
      exact hgrown.error.trans h.noError
    · intro z hz
      exact (Option.mem_some_iff.mp hz).symm
    · exact iff_of_true rfl (synHeard_append.mpr hheard)
    · refine Iff.trans ?_ finHeard_append.symm
      -- the end is recorded when the segment reaches past the last byte
      show r1.eofIndex.isSome = true ↔ _
      rw [heof, recordedEof]
      by_cases hfin : b = stream.length + 2
      · rw [if_pos (by simpa [sliceMessage] using hfin)]
        exact iff_of_true rfl (Or.inr ⟨hheard, hfin⟩)
      · rw [if_neg (by simpa [sliceMessage] using hfin)]
        exact h.eof_iff.trans (or_iff_left (fun hr => hfin hr.2)).symm

theorem inv_step (hmax : stream.length + 2 ≤ u64Max) (h : Inv stream isn t)
    (hstep : Step stream isn t t1) : Inv stream isn t1 := by
  cases hstep with
  | deliver a b hab hb hnear hrun =>
      obtain ⟨receiver, hrun1, -, hinv⟩ := inv_deliver hmax h hab hb hnear
      rw [hrun, Except.ok.injEq, Prod.mk.injEq] at hrun1
      rw [hrun1.1]
      exact hinv
  | read len =>
      refine ⟨h.agrees.read_step len, ?_, h.isn_eq, h.isn_iff, h.eof_iff⟩
      show (t.receiver.output.pop len).1.error = false
      rw [pop_error]
      exact h.noError

theorem inv_of_reachable (hmax : stream.length + 2 ≤ u64Max)
    (h : Reachable stream isn capacity t) : Inv stream isn t := by
  obtain ⟨receiver, hnew, hsteps⟩ := h
  rw [TcpReceiver.new_ok, Except.ok.injEq] at hnew
  induction hsteps with
  | refl => exact hnew ▸ inv_start stream isn capacity
  | tail _ hstep ih => exact inv_step hmax ih hstep

/-- In every reachable state of a transfer: the next message near the window is received
without an error, and changes nothing if it comes before the first SYN; what was assembled
is a prefix of the stream; the output is closed exactly when all of it was assembled and FIN
was heard; and the acknowledgment names the first symbol that was not assembled. -/
theorem transfer_correct (hmax : stream.length + 2 ≤ u64Max)
    (h : Reachable stream isn capacity t) :
    (∀ a b, a < b → b ≤ stream.length + 2 →
      absDiff a (t.receiver.output.bytesPushed + 1) < 2 ^ 31 →
      ∃ receiver, t.receiver.receive (sliceMessage stream isn a b) = .ok (receiver, .ok ()) ∧
        (¬ t.SynHeard → a ≠ 0 → receiver = t.receiver)) ∧
    t.read ++ t.receiver.output.contents <+: stream ∧
    (t.receiver.output.closed = true ↔
      t.read ++ t.receiver.output.contents = stream ∧ t.FinHeard stream) ∧
    (¬ t.SynHeard → t.receiver.send.ackno = none) ∧
    (t.SynHeard → t.receiver.send.ackno = some (Wrap32.wrap
      (1 + t.receiver.output.bytesPushed + t.receiver.output.closed.toNat) isn)) := by
  have hinv := inv_of_reachable hmax h
  have hassembled : t.read ++ t.receiver.output.contents
      = stream.take t.receiver.output.bytesPushed := hinv.agrees.assembled
  have hle : t.receiver.output.bytesPushed ≤ stream.length := hinv.agrees.pushed_le_length
  have hnone : ¬ t.SynHeard → t.receiver.isn = none := by
    intro hs
    simpa using mt hinv.isn_iff.mp hs
  refine ⟨?_, ?_, ?_, ?_, ?_⟩
  · intro a b hab hb hnear
    obtain ⟨receiver, hrun, hsame, -⟩ := inv_deliver hmax hinv hab hb hnear
    exact ⟨receiver, hrun, fun hs => hsame (hnone hs)⟩
  · rw [hassembled]
    exact List.take_prefix _ _
  · -- the output closes when it has all of the stream and the end is recorded
    have hall : t.read ++ t.receiver.output.contents = stream ↔
        t.receiver.output.bytesPushed = stream.length := by
      rw [hassembled, List.take_eq_self_iff]
      omega
    rw [hall, ← hinv.eof_iff, and_comm]
    exact hinv.agrees.closed_iff
  · intro hs
    show t.receiver.isn.map _ = none
    rw [hnone hs]
    rfl
  · intro hs
    obtain ⟨z, hz⟩ := Option.isSome_iff_exists.mp (hinv.isn_iff.mpr hs)
    show t.receiver.isn.map _ = _
    rw [hz, Option.map_some, absoluteAckno_eq (by omega), hinv.isn_eq z hz]
    congr 2
    omega

/-- One byte with SYN and FIN around it, in two messages. -/
theorem transfer_correct_one_byte :
    ∃ t, Reachable [97] ⟨4294967295⟩ 4 t ∧ t.history = [(0, 1), (1, 3)] ∧
      (∀ a b, a < b → b ≤ 3 → absDiff a (t.receiver.output.bytesPushed + 1) < 2 ^ 31 →
        ∃ receiver, t.receiver.receive (sliceMessage [97] ⟨4294967295⟩ a b)
            = .ok (receiver, .ok ()) ∧
          (¬ t.SynHeard → a ≠ 0 → receiver = t.receiver)) ∧
      t.read ++ t.receiver.output.contents <+: [97] ∧
      (t.receiver.output.closed = true ↔
        t.read ++ t.receiver.output.contents = [97] ∧ t.FinHeard [97]) ∧
      (¬ t.SynHeard → t.receiver.send.ackno = none) ∧
      (t.SynHeard → t.receiver.send.ackno = some (Wrap32.wrap
        (1 + t.receiver.output.bytesPushed + t.receiver.output.closed.toNat) ⟨4294967295⟩)) := by
  have hmax : ([97] : Bytes).length + 2 ≤ u64Max := by decide
  have h0 := inv_start [97] ⟨4294967295⟩ 4
  obtain ⟨receiver1, hrun1, -, h1⟩ := inv_deliver (a := 0) (b := 1) hmax h0 (by decide) (by decide)
    (by decide)
  have hnear : absDiff 1 (receiver1.output.bytesPushed + 1) < 2 ^ 31 := by
    have hle : receiver1.output.bytesPushed ≤ 1 := h1.agrees.pushed_le_length
    rw [Wrap32.absDiff_lt_iff]
    omega
  obtain ⟨receiver2, hrun2, -, -⟩ := inv_deliver (a := 1) (b := 3) hmax h1 (by decide) (by decide)
    hnear
  have hreach : Reachable [97] ⟨4294967295⟩ 4
      { receiver := receiver2, read := [], history := [(0, 1), (1, 3)] } :=
    ⟨_, TcpReceiver.new_ok 4,
      (Relation.ReflTransGen.refl.tail
        (Step.deliver 0 1 (by decide) (by decide) (by decide) hrun1)).tail
        (Step.deliver 1 3 (by decide) (by decide) hnear hrun2)⟩
  exact ⟨_, hreach, rfl, transfer_correct hmax hreach⟩

end Transfer

end TcpReceiver

end Minnow
