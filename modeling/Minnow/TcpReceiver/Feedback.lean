import Minnow.TcpReceiver
import Minnow.Library.Run

set_option autoImplicit false

/-! # What the receiver tells the peer

The peer is free to send anything. What it is told all the same never goes back: the
acknowledgment number counts the bytes that were assembled, and the right edge of the window is
where the buffer ends, or as far as a 16-bit window reaches (`rightEdge_eq`). Both only move with
bytes pushed, bytes read and the close.

* `feedback_monotone`: over every run of messages, reads and errors.
-/

namespace Minnow

/-! ## The output -/

namespace ByteStream

/-- `s1` is `s` after bytes were pushed or popped, or the stream was closed or failed. -/
structure Later (s s1 : ByteStream) : Prop where
  capacity : s1.capacity = s.capacity
  pushed : s.bytesPushed ≤ s1.bytesPushed
  popped : s.bytesPopped ≤ s1.bytesPopped
  closed : s.closed = true → s1.closed = true

theorem Later.refl (s : ByteStream) : Later s s where
  capacity := rfl
  pushed := le_refl _
  popped := le_refl _
  closed := id

theorem Later.trans {s s1 s2 : ByteStream} (h1 : Later s s1) (h2 : Later s1 s2) : Later s s2 where
  capacity := h2.capacity.trans h1.capacity
  pushed := le_trans h1.pushed h2.pushed
  popped := le_trans h1.popped h2.popped
  closed := fun hclosed => h2.closed (h1.closed hclosed)

theorem later_pop (s : ByteStream) (len : Nat) : Later s (s.pop len).1 where
  capacity := s.pop_capacity len
  pushed := le_of_eq (s.pop_pushed len).symm
  popped := by
    rw [s.pop_popped len]
    exact Nat.le_add_right _ _
  closed := by
    rw [s.pop_closed len]
    exact id

end ByteStream

namespace Reassembler

open ByteStream

variable {r r1 : Reassembler} {first : Nat} {data : Bytes} {last : Bool}

/-- Whatever is inserted, a closed output has all its bytes and stays closed. -/
theorem tryInsert_later {result : Except ReassemblerError Unit} (h : RepInv r)
    (hrun : r.tryInsert first data last = .ok (r1, result)) : Later r.output r1.output := by
  by_cases hc : Consistent r first data last
  · obtain ⟨r2, hrun2, hinv, hinserted, heof⟩ := tryInsert_spec h hc
    rw [hrun, Except.ok.injEq, Prod.mk.injEq] at hrun2
    obtain ⟨rfl, -⟩ := hrun2
    obtain ⟨tl, hgrown, -⟩ := hinserted.grown
    refine
      { capacity := hgrown.capacity
        pushed := hinserted.pushed_le
        popped := le_of_eq hgrown.popped.symm
        closed := ?_ }
    intro hclosed
    have hend := h.eof_of_closed hclosed
    have hsame : r1.eofIndex = some r.output.bytesPushed := by
      rw [heof, recordedEof]
      split_ifs with hlast
      · rw [hc.sameEof hlast _ hend]
      · exact hend
    have hle : r1.output.bytesPushed ≤ r.output.bytesPushed := hinv.pushed_le _ hsame
    apply hinv.closed_of_eof
    rw [hsame, Nat.le_antisymm hinserted.pushed_le hle]
  · obtain ⟨e, hrun2⟩ := tryInsert_inconsistent h hc
    rw [hrun, Except.ok.injEq, Prod.mk.injEq] at hrun2
    rw [hrun2.1]
    exact Later.refl _

end Reassembler

namespace TcpReceiver

open ByteStream

/-! ## The feedback -/

/-- The absolute number of the next symbol that is expected. -/
def assembled (receiver : TcpReceiver) : Nat :=
  1 + receiver.output.bytesPushed + receiver.output.closed.toNat

/-- The first absolute number behind the advertised window. -/
def rightEdge (receiver : TcpReceiver) : Nat :=
  receiver.assembled + receiver.send.windowSize.toNat

/-- `later` takes nothing back of what `receiver` has told its peer. -/
structure Keeps (receiver later : TcpReceiver) : Prop where
  isn : ∀ isn, receiver.isn = some isn → later.isn = some isn
  ackno : receiver.assembled ≤ later.assembled
  edge : receiver.rightEdge ≤ later.rightEdge

variable {receiver receiver1 receiver2 : TcpReceiver}

/-- The code computes the absolute number in 64 bits. -/
theorem absoluteAckno_eq_min (receiver : TcpReceiver) :
    receiver.absoluteAckno = min receiver.assembled u64Max := by
  unfold absoluteAckno assembled saturatingAdd
  cases receiver.output.closed with
  | true =>
      show min (min (receiver.output.bytesPushed + 1) u64Max + 1) u64Max
        = min (1 + receiver.output.bytesPushed + 1) u64Max
      omega
  | false =>
      show min (receiver.output.bytesPushed + 1) u64Max
        = min (1 + receiver.output.bytesPushed + 0) u64Max
      omega

/-- What was read makes room, and what was pushed moves the window along. -/
theorem rightEdge_eq (receiver : TcpReceiver) : receiver.rightEdge
    = 1 + min (receiver.output.bytesPopped + receiver.output.capacity)
        (receiver.output.bytesPushed + 65535) + receiver.output.closed.toNat := by
  have hpushed := receiver.output.pushed_eq
  have hbuffered := receiver.output.buffered_le
  rw [rightEdge, assembled, send_windowSize, availableCapacity]
  omega

/-- A later output takes nothing back. -/
theorem keeps_of_later (h : Later receiver.output receiver1.output)
    (hisn : ∀ isn, receiver.isn = some isn → receiver1.isn = some isn) :
    Keeps receiver receiver1 := by
  have hclosed : receiver.output.closed.toNat ≤ receiver1.output.closed.toNat := by
    cases hb : receiver.output.closed with
    | false => exact Nat.zero_le _
    | true => rw [h.closed hb]
  have hpushed := h.pushed
  have hpopped := h.popped
  refine ⟨hisn, ?_, ?_⟩
  · unfold assembled
    omega
  · rw [rightEdge_eq, rightEdge_eq, h.capacity]
    omega

/-! ## Runs -/

inductive ReceiverOp where
  | receive (message : TcpSenderMessage)
  | read (len : Nat)
  | setError

/-- A message counts as a step whether it is taken or refused. -/
def step (receiver : TcpReceiver) : ReceiverOp → Exec TcpReceiver
  | .receive message => do
      let (receiver, _) ← receiver.receive message
      .ok receiver
  | .read len => .ok (receiver.read len).1
  | .setError => .ok receiver.setError

/-- One operation: it returns, and only adds to the output. -/
theorem step_later (h : receiver.reassembler.RepInv) (op : ReceiverOp) :
    ∃ receiver1, receiver.step op = .ok receiver1 ∧ receiver1.reassembler.RepInv ∧
      Later receiver.output receiver1.output ∧
      ∀ isn, receiver.isn = some isn → receiver1.isn = some isn := by
  cases op with
  | receive message =>
      obtain ⟨receiver1, result, hrun, hinv⟩ := receive_total h message
      obtain ⟨hcases, hisn⟩ := receive_cases hrun
      have hlater : Later receiver.output receiver1.output := by
        unfold output
        rcases hcases with hkeep | herror | ⟨index, hinsert⟩
        · rw [hkeep]
          exact Later.refl _
        · rw [herror]
          exact ⟨rfl, le_refl _, le_refl _, id⟩
        · exact Reassembler.tryInsert_later h hinsert
      refine ⟨receiver1, ?_, hinv, hlater, hisn⟩
      rw [step, hrun]
      rfl
  | read len => exact ⟨_, rfl, h.read len, later_pop _ len, fun isn hisn => hisn⟩
  | setError =>
      exact ⟨_, rfl, h.setError, ⟨rfl, le_refl _, le_refl _, id⟩, fun isn hisn => hisn⟩

/-- A run returns, and only adds to the output. -/
theorem run_later (h : receiver.reassembler.RepInv) (ops : List ReceiverOp) :
    ∃ receiver1, Exec.run step receiver ops = .ok receiver1 ∧ receiver1.reassembler.RepInv ∧
      Later receiver.output receiver1.output ∧
      ∀ isn, receiver.isn = some isn → receiver1.isn = some isn := by
  refine Exec.run_total (fun receiver1 : TcpReceiver => receiver1.reassembler.RepInv ∧
    Later receiver.output receiver1.output ∧
    ∀ isn, receiver.isn = some isn → receiver1.isn = some isn) ?_
    ⟨h, Later.refl _, fun isn hisn => hisn⟩ ops
  rintro receiver1 op ⟨hinv1, hlater1, hisn1⟩
  obtain ⟨receiver2, hstep, hinv2, hlater2, hisn2⟩ := step_later hinv1 op
  exact ⟨receiver2, hstep, hinv2, hlater1.trans hlater2, fun isn hisn => hisn2 isn (hisn1 isn hisn)⟩

/-- From any state of any run, whatever comes next: the initial sequence number stays, and
neither the acknowledgment number nor the right edge of the window goes back. The message that
is sent has the former modulo `2 ^ 32`, and the room in the buffer as far as 16 bits go. -/
theorem feedback_monotone (capacity : Nat) (ops more : List ReceiverOp) :
    ∃ receiver receiver1 receiver2, TcpReceiver.new capacity = .ok receiver ∧
      Exec.run step receiver ops = .ok receiver1 ∧ Exec.run step receiver1 more = .ok receiver2 ∧
      Keeps receiver1 receiver2 ∧
      receiver1.send.ackno
        = receiver1.isn.map (fun isn => Wrap32.wrap (min receiver1.assembled u64Max) isn) ∧
      receiver1.send.windowSize.toNat = min receiver1.output.availableCapacity 65535 := by
  obtain ⟨r, hnewReassembler, hinv, -⟩ := Reassembler.new_ok capacity
  have hnew : TcpReceiver.new capacity = .ok { reassembler := r, isn := none } := by
    rw [TcpReceiver.new, hnewReassembler]
    rfl
  obtain ⟨receiver1, hrun1, hinv1, -⟩ :=
    run_later (show (TcpReceiver.mk r none).reassembler.RepInv from hinv) ops
  obtain ⟨receiver2, hrun2, -, hlater, hisn⟩ := run_later hinv1 more
  refine ⟨_, receiver1, receiver2, hnew, hrun1, hrun2, keeps_of_later hlater hisn, ?_,
    send_windowSize receiver1⟩
  rw [← absoluteAckno_eq_min]
  rfl

end TcpReceiver

end Minnow
