import Minnow.Reassembler.Refusal
import Minnow.TcpReceiver.Feedback

set_option autoImplicit false

/-! # What is refused leaves no trace

`try_insert` records the end of the stream before its last check, and `receive` stores the initial
sequence number before it offers the payload. Neither shows: an end that was just recorded passes
the last check, and in front of the first SYN the reassembler is empty and takes everything.

* `refused_iff`: the fragments that are refused.
* `refusal_atomic`: in every reachable state a refusal leaves everything as it was.
-/

namespace Minnow

namespace TcpReceiver

open Reassembler Fragments

variable {receiver receiver1 : TcpReceiver} {message : TcpSenderMessage}
  {result : Except ReassemblerError Unit}

/-- Nothing was assembled or stored, and no end is known. -/
structure Blank (r : Reassembler) : Prop where
  pushed : r.output.bytesPushed = 0
  pending : ∀ k, ¬ Covers r.pending k
  eofIndex : r.eofIndex = none

/-- Such a reassembler takes whatever starts at its beginning. -/
theorem Blank.consistent {r : Reassembler} (h : Blank r) {data : Bytes}
    (hlen : data.length ≤ u64Max) (last : Bool) : Consistent r 0 data last where
  fits := by omega
  beforeEof := by simp [h.eofIndex]
  sameEof := by simp [h.eofIndex]
  pushed_le := by simp [h.pushed]
  covers_lt := fun _ k hk => absurd hk (h.pending k)

/-- The reassembler is blank until SYN has come. -/
structure Listening (receiver : TcpReceiver) : Prop where
  repInv : receiver.reassembler.RepInv
  blank : receiver.isn = none → Blank receiver.reassembler

/-- A message that fixes the initial sequence number is not refused. -/
theorem receiveAt_syn (h : Blank receiver.reassembler) (hinv : receiver.reassembler.RepInv)
    (hsyn : message.syn = true) (hlen : message.payload.length ≤ u64Max)
    (hrun : receiver.receiveAt message.seqno message = .ok (receiver1, result)) :
    result = .ok () := by
  have hpushed : receiver.output.bytesPushed = 0 := h.pushed
  have hzero : message.seqno.unwrap message.seqno 1 = 0 := by
    have hunwrap := Wrap32.unwrap_wrap message.seqno (show 0 ≤ u64Max by decide)
      (show absDiff 0 1 < 2 ^ 31 by decide)
    rwa [Wrap32.wrap_zero] at hunwrap
  obtain ⟨r1, hinsert, -⟩ := tryInsert_spec hinv (h.consistent hlen message.fin)
  unfold receiveAt at hrun
  dsimp only at hrun
  rw [hpushed, show saturatingAdd 0 1 = 1 from rfl, hzero, if_pos hsyn] at hrun
  dsimp only at hrun
  rw [hinsert] at hrun
  exact (Prod.mk.inj (Except.ok.inj hrun)).2.symm

/-- A message that is refused changes nothing. -/
theorem receive_refused (h : Listening receiver) (hlen : message.payload.length ≤ u64Max)
    (hrun : receiver.receive message = .ok (receiver1, result)) (hrefused : result ≠ .ok ()) :
    receiver1 = receiver := by
  unfold receive at hrun
  by_cases hrst : message.rst = true
  · rw [if_pos hrst] at hrun
    exact absurd (Prod.mk.inj (Except.ok.inj hrun)).2.symm hrefused
  · rw [if_neg hrst] at hrun
    cases hisn : receiver.isn with
    | some isn =>
        simp only [hisn] at hrun
        split_ifs at hrun
        · exact absurd (Prod.mk.inj (Except.ok.inj hrun)).2.symm hrefused
        · obtain ⟨hkept, hreassembler⟩ := receiveAt_cases hrun
          have hsame : receiver1.reassembler = receiver.reassembler := by
            rcases hreassembler with hsame | ⟨index, hinsert⟩
            · exact hsame
            · obtain ⟨r1, result1, hrun1, -, hunchanged⟩ :=
                tryInsert_refused h.repInv index message.payload message.fin
              obtain ⟨rfl, rfl⟩ := Prod.mk.inj (Except.ok.inj (hinsert.symm.trans hrun1))
              cases result with
              | ok u => exact absurd rfl hrefused
              | error e => exact hunchanged ⟨e, rfl⟩
          show TcpReceiver.mk receiver1.reassembler receiver1.isn = receiver
          rw [hsame, hkept]
    | none =>
        simp only [hisn] at hrun
        split_ifs at hrun with hsyn
        · exact absurd (Prod.mk.inj (Except.ok.inj hrun)).2.symm hrefused
        · have hblank :
              Blank ({ receiver with isn := some message.seqno } : TcpReceiver).reassembler :=
            h.blank hisn
          exact absurd (receiveAt_syn hblank h.repInv (by simpa using hsyn) hlen hrun) hrefused

/-- Only a message with SYN ends the listening. -/
theorem Listening.step (h : Listening receiver) {op : ReceiverOp}
    (hstep : receiver.step op = .ok receiver1) : Listening receiver1 := by
  obtain ⟨receiver2, hstep2, hinv, -, hkept⟩ := step_later h.repInv op
  obtain rfl := Except.ok.inj (hstep.symm.trans hstep2)
  refine ⟨hinv, fun hnone => ?_⟩
  have hisn : receiver.isn = none := by
    cases hisn : receiver.isn with
    | none => rfl
    | some isn => exact absurd (hkept isn hisn) (by simp [hnone])
  have hblank := h.blank hisn
  cases op with
  | read len =>
      obtain rfl := Except.ok.inj hstep
      exact ⟨(ByteStream.pop_pushed _ len).trans hblank.pushed, hblank.pending, hblank.eofIndex⟩
  | setError =>
      obtain rfl := Except.ok.inj hstep
      exact ⟨hblank.pushed, hblank.pending, hblank.eofIndex⟩
  | receive message =>
      obtain ⟨⟨receiver2, result⟩, hrun, hok⟩ := Exec.bind_eq_ok.mp hstep
      obtain rfl := Except.ok.inj hok
      unfold receive at hrun
      by_cases hrst : message.rst = true
      · rw [if_pos hrst] at hrun
        obtain ⟨rfl, -⟩ := Prod.mk.inj (Except.ok.inj hrun)
        exact ⟨hblank.pushed, hblank.pending, hblank.eofIndex⟩
      · rw [if_neg hrst] at hrun
        simp only [hisn] at hrun
        split_ifs at hrun
        · obtain ⟨rfl, -⟩ := Prod.mk.inj (Except.ok.inj hrun)
          exact hblank
        · -- the sequence number is known from here on
          have hsome := (receiveAt_cases hrun).1
          rw [hnone] at hsome
          exact absurd hsome (by simp)

theorem listening_run {capacity : Nat} {ops : List ReceiverOp}
    (hnew : TcpReceiver.new capacity = .ok receiver)
    (hrun : Exec.run step receiver ops = .ok receiver1) : Listening receiver1 := by
  refine Exec.run_invariant Listening (fun _ _ _ h hstep => h.step hstep) ?_ hrun
  rw [TcpReceiver.new_ok, Except.ok.injEq] at hnew
  subst hnew
  exact ⟨repInv_new capacity, fun _ => ⟨rfl, fun _ => not_covers_empty, rfl⟩⟩

/-- In every state that a reassembler can be in, an insertion is refused exactly for these reasons,
and then the output, the pending fragments and the recorded end are as before. In every state that
a receiver can be in, a message that is refused leaves all of it as before, the initial sequence
number included; a payload is no longer than a word can say. -/
theorem refusal_atomic (capacity : Nat) :
    (∀ ops : List HostileOp, ∃ r0 r, Reassembler.new capacity = .ok r0 ∧
      Exec.run hostileStep r0 ops = .ok r ∧
      ∀ first data last, ∃ r1 result, r.tryInsert first data last = .ok (r1, result) ∧
        ((∃ e, result = .error e) ↔ r.Refused first data last) ∧
        ((∃ e, result = .error e) → r1 = r)) ∧
    ∀ ops : List ReceiverOp, ∃ receiver0 receiver, TcpReceiver.new capacity = .ok receiver0 ∧
      Exec.run step receiver0 ops = .ok receiver ∧
      ∀ message : TcpSenderMessage, message.payload.length ≤ u64Max →
        ∃ receiver1 result, receiver.receive message = .ok (receiver1, result) ∧
          ((∃ e, result = .error e) → receiver1 = receiver) := by
  obtain ⟨r0, hnew, hinv0, -⟩ := Reassembler.new_ok capacity
  constructor
  · intro ops
    obtain ⟨r, hrun, hinv⟩ := Exec.run_total RepInv (fun r op h => by
      obtain ⟨r1, hstep, h1, -⟩ := hostileStep_total h op
      exact ⟨r1, hstep, h1⟩) hinv0 ops
    exact ⟨r0, r, hnew, hrun, fun first data last => tryInsert_refused hinv first data last⟩
  · intro ops
    obtain ⟨receiver0, hnew⟩ : ∃ receiver0, TcpReceiver.new capacity = .ok receiver0 :=
      ⟨_, TcpReceiver.new_ok capacity⟩
    have h0 : Listening receiver0 := listening_run hnew Exec.run_nil
    obtain ⟨receiver, hrun, -⟩ := run_later h0.repInv ops
    have h := listening_run hnew hrun
    refine ⟨receiver0, receiver, hnew, hrun, ?_⟩
    intro message hlen
    obtain ⟨receiver1, result, hreceive, -⟩ := receive_total h.repInv message
    refine ⟨receiver1, result, hreceive, ?_⟩
    rintro ⟨e, rfl⟩
    exact receive_refused h hlen hreceive (by simp)

end TcpReceiver

end Minnow
