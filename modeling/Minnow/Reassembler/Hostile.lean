import Minnow.Reassembler.Stream
import Minnow.Library.Run

set_option autoImplicit false

/-! # Hostile input

Fragments come straight from the network, so nothing is assumed about them: indices up to the
largest word, bytes and ends that contradict each other, also after the output was put into
the error state. `representation_run` says what holds after every call all the same.
-/

namespace Minnow

namespace Reassembler

open Fragments ByteStream

inductive HostileOp where
  | tryInsert (firstIndex : Nat) (data : Bytes) (isLastSubstring : Bool)
  | pop (len : Nat)
  | setError

/-- An insertion counts as a step whether it returns `Ok` or `Err`. -/
def hostileStep (r : Reassembler) : HostileOp → Exec Reassembler
  | .tryInsert firstIndex data isLastSubstring => do
      let (r, _) ← r.tryInsert firstIndex data isLastSubstring
      .ok r
  | .pop len => .ok (r.read len).1
  | .setError => .ok r.setError

variable {r : Reassembler}

theorem hostileStep_total (h : RepInv r) (op : HostileOp) :
    ∃ r1, r.hostileStep op = .ok r1 ∧ RepInv r1 ∧ r1.output.capacity = r.output.capacity := by
  cases op with
  | tryInsert firstIndex data isLastSubstring =>
      obtain ⟨r1, result, hrun, hinv⟩ := tryInsert_total h firstIndex data isLastSubstring
      refine ⟨r1, ?_, hinv, (tryInsert_frame h hrun).1⟩
      rw [hostileStep, hrun]
      rfl
  | pop len => exact ⟨_, rfl, h.read len, pop_capacity _ _⟩
  | setError => exact ⟨_, rfl, h.setError, rfl⟩

/-- The states of a run of any calls. -/
theorem repInv_run {capacity : Nat} {ops : List HostileOp} {r1 : Reassembler}
    (hnew : Reassembler.new capacity = .ok r) (hrun : Exec.run hostileStep r ops = .ok r1) :
    RepInv r1 := by
  obtain ⟨r2, hnew2, hinv, -⟩ := new_ok capacity
  obtain rfl := Except.ok.inj (hnew2.symm.trans hnew)
  refine Exec.run_invariant RepInv ?_ hinv hrun
  intro r3 op r4 h3 hstep
  obtain ⟨r5, hstep5, h5, -⟩ := hostileStep_total h3 op
  obtain rfl := Except.ok.inj (hstep5.symm.trans hstep)
  exact h5

/-- A pending fragment lies behind the output and ends inside the window. -/
theorem RepInv.mem_pending (h : RepInv r) {x : Nat × Bytes} (hx : x ∈ r.pending) :
    x.2 ≠ [] ∧ r.output.bytesPushed < x.1 ∧
      x.1 + x.2.length ≤ r.output.bytesPopped + r.output.capacity ∧
      ∀ eof ∈ r.eofIndex, x.1 + x.2.length ≤ eof := by
  refine ⟨h.wellFormed.nonempty x hx, h.ahead _ (h.wellFormed.covers_start hx), ?_, ?_⟩
  · calc x.1 + x.2.length ≤ r.firstUnacceptable := h.wellFormed.end_le hx h.window
      _ ≤ r.output.bytesPopped + r.output.capacity := min_le_left _ _
  · intro eof heof
    exact h.wellFormed.end_le hx (fun k hk => h.beforeEof k hk eof heof)

/-- The output and the pending fragments share the capacity. -/
theorem RepInv.buffered_add_pending_le (h : RepInv r) :
    r.output.bytesBuffered + bytesPending r.pending ≤ r.output.capacity := by
  have hwindow : ∀ x ∈ r.pending, r.output.bytesPushed ≤ x.1 ∧
      x.1 + x.2.length ≤ r.output.bytesPushed + r.output.availableCapacity := by
    intro x hx
    have hend : x.1 + x.2.length ≤ r.firstUnacceptable := h.wellFormed.end_le hx h.window
    exact ⟨le_of_lt (h.mem_pending hx).2.1, le_trans hend r.firstUnacceptable_le⟩
  have htotal := h.wellFormed.totalLength_le (Nat.le_add_right _ _) hwindow
  have hbuffered := r.output.buffered_le
  unfold availableCapacity at htotal
  unfold bytesPending
  omega

/-- After every sequence of calls, whatever they are given: no assertion, slice or `expect`
has failed; the pending fragments are non-empty and disjoint, lie strictly behind the output,
inside the window and before the recorded end; and the capacity bounds what is stored. -/
theorem representation_run (capacity : Nat) (ops : List HostileOp) :
    ∃ r0 r, Reassembler.new capacity = .ok r0 ∧ Exec.run hostileStep r0 ops = .ok r ∧
      (∀ x ∈ r.pending, x.2 ≠ [] ∧ r.output.bytesPushed < x.1 ∧
        x.1 + x.2.length ≤ r.output.bytesPopped + capacity ∧
        ∀ eof ∈ r.eofIndex, x.1 + x.2.length ≤ eof) ∧
      (∀ x ∈ r.pending, ∀ y ∈ r.pending, x ≠ y →
        x.1 + x.2.length ≤ y.1 ∨ y.1 + y.2.length ≤ x.1) ∧
      (∀ eof ∈ r.eofIndex, r.output.bytesPushed ≤ eof) ∧
      r.output.bytesBuffered + bytesPending r.pending ≤ capacity := by
  obtain ⟨r0, hnew, hinv0, hout, -⟩ := new_ok capacity
  have hcap0 : r0.output.capacity = capacity := by
    rw [hout]
    rfl
  have hstep : ∀ (r1 : Reassembler) op, RepInv r1 ∧ r1.output.capacity = capacity →
      ∃ r2, r1.hostileStep op = .ok r2 ∧ RepInv r2 ∧ r2.output.capacity = capacity := by
    rintro r1 op ⟨hinv1, hcap1⟩
    obtain ⟨r2, hrun, hinv2, hcap2⟩ := hostileStep_total hinv1 op
    exact ⟨r2, hrun, hinv2, hcap2.trans hcap1⟩
  obtain ⟨r, hrun, hinv, hcap⟩ := Exec.run_total
    (fun r => RepInv r ∧ r.output.capacity = capacity) hstep ⟨hinv0, hcap0⟩ ops
  refine ⟨r0, r, hnew, hrun, ?_, ?_, hinv.pushed_le, ?_⟩
  · intro x hx
    rw [← hcap]
    exact hinv.mem_pending hx
  · intro x hx y hy hne
    -- two fragments with the same key are the same
    rcases lt_trichotomy x.1 y.1 with hlt | heq | hgt
    · exact Or.inl (hinv.wellFormed.disjoint x hx y hy hlt)
    · exact absurd (SortedMap.eq_of_key_eq hx hy heq) hne
    · exact Or.inr (hinv.wellFormed.disjoint y hy x hx hgt)
  · rw [← hcap]
    exact hinv.buffered_add_pending_le

end Reassembler

end Minnow
