import Minnow.Reassembler.Hostile

set_option autoImplicit false

/-! # Fragments that are refused, and fragments beyond the window

* `refused_iff`: why a fragment is refused. A refusal changes nothing.
* `beyond_window_iff`: the bytes of a fragment beyond the window are dropped, but the end of the
  stream that it declares is recorded, and nothing that ends elsewhere is taken after that.
-/

namespace Minnow

namespace Reassembler

open Fragments

variable {r r1 : Reassembler} {first : Nat} {data : Bytes} {last : Bool}

/-- Why a fragment is refused. -/
inductive Refused (r : Reassembler) (first : Nat) (data : Bytes) (last : Bool) : Prop where
  | indexOverflow (hover : u64Max < first + data.length)
  | inconsistentEof (eof : Nat) (hlast : last = true) (heof : r.eofIndex = some eof)
      (hne : eof ≠ first + data.length)
  | segmentBeyondEof (eof : Nat) (heof : r.eofIndex = some eof) (hlt : eof < first + data.length)
  | assembledBeyondEof (hlast : last = true) (heof : r.eofIndex = none)
      (hlt : first + data.length < r.output.bytesPushed)
  | pendingBeyondEof (x : Nat × Bytes) (hlast : last = true) (heof : r.eofIndex = none)
      (hx : x ∈ r.pending) (hlt : first + data.length < x.1 + x.2.length)

theorem refused_iff (h : RepInv r) :
    r.Refused first data last ↔ ¬ Consistent r first data last := by
  constructor
  · intro hrefused hc
    cases hrefused with
    | indexOverflow hover => exact absurd hc.fits (Nat.not_le.mpr hover)
    | inconsistentEof eof hlast heof hne => exact hne (hc.sameEof hlast eof heof)
    | segmentBeyondEof eof heof hlt => exact absurd (hc.beforeEof eof heof) (Nat.not_le.mpr hlt)
    | assembledBeyondEof hlast heof hlt => exact absurd (hc.pushed_le hlast) (Nat.not_le.mpr hlt)
    | pendingBeyondEof x hlast heof hx hlt =>
        have hend := h.wellFormed.end_le hx (hc.covers_lt hlast)
        omega
  · intro hc
    by_contra hrefused
    have hbefore : ∀ eof ∈ r.eofIndex, first + data.length ≤ eof := by
      intro eof heof
      by_contra hlt
      exact hrefused (.segmentBeyondEof eof heof (Nat.not_le.mp hlt))
    have hsame : last = true → ∀ eof ∈ r.eofIndex, eof = first + data.length := by
      intro hlast eof heof
      by_contra hne
      exact hrefused (.inconsistentEof eof hlast heof hne)
    -- what is held lies below an end that is known, and a new one has passed both checks
    refine hc ⟨?_, hbefore, hsame, ?_, ?_⟩
    · by_contra hover
      exact hrefused (.indexOverflow (Nat.not_le.mp hover))
    · intro hlast
      cases heof : r.eofIndex with
      | some eof => exact hsame hlast eof heof ▸ h.pushed_le eof heof
      | none =>
          by_contra hlt
          exact hrefused (.assembledBeyondEof hlast heof (Nat.not_le.mp hlt))
    · rintro hlast k ⟨x, hx, hstart, hend⟩
      cases heof : r.eofIndex with
      | some eof => exact hsame hlast eof heof ▸ h.beforeEof k ⟨x, hx, hstart, hend⟩ eof heof
      | none =>
          by_contra hlt
          exact hrefused (.pendingBeyondEof x hlast heof hx (by omega))

/-- An insertion is refused in these cases and in no others, and then nothing changes. -/
theorem tryInsert_refused (h : RepInv r) (first : Nat) (data : Bytes) (last : Bool) :
    ∃ r1 result, r.tryInsert first data last = .ok (r1, result) ∧
      ((∃ e, result = .error e) ↔ r.Refused first data last) ∧
      ((∃ e, result = .error e) → r1 = r) := by
  by_cases hc : Consistent r first data last
  · obtain ⟨r1, hrun, -⟩ := tryInsert_spec h hc
    refine ⟨r1, .ok (), hrun, iff_of_false (by simp) ?_, fun ⟨e, he⟩ => absurd he (by simp)⟩
    exact fun hrefused => (refused_iff h).mp hrefused hc
  · obtain ⟨e, hrun⟩ := tryInsert_inconsistent h hc
    exact ⟨r, .error e, hrun, iff_of_true ⟨e, rfl⟩ ((refused_iff h).mpr hc), fun _ => rfl⟩

/-! ## Beyond the window -/

theorem insertClipped_beyond (hbeyond : r.output.bytesPopped + r.output.capacity < first)
    (originalEnd : Nat) : r.insertClipped first data originalEnd = .ok r := by
  have hle : r.firstUnacceptable ≤ r.output.bytesPopped + r.output.capacity := min_le_left _ _
  unfold insertClipped
  dsimp only
  rw [if_neg (by omega)]

/-- An output that is complete was closed before. -/
theorem RepInv.closeIfComplete_self (h : RepInv r) : r.closeIfComplete = r := by
  rw [closeIfComplete_eq]
  by_cases hdone : r.eofIndex = some r.output.bytesPushed
  · have hclosed := h.closed_of_eof hdone
    rw [if_pos hdone, ByteStream.close]
    show Reassembler.mk { r.output with closed := true } r.pending r.eofIndex = r
    rw [← hclosed]
  · rw [if_neg hdone]

theorem bytesPushed_le (r : Reassembler) :
    r.output.bytesPushed ≤ r.output.bytesPopped + r.output.capacity := by
  have hpushed := r.output.pushed_eq
  have hbuffered := r.output.buffered_le
  omega

/-- Of a fragment beyond the window, the end that it declares is all that is recorded. -/
theorem tryInsert_beyond (h : RepInv r) (hc : Consistent r first data last)
    (hbeyond : r.output.bytesPopped + r.output.capacity < first) :
    r.tryInsert first data last
      = .ok ({ r with eofIndex := r.recordedEof first data last }, .ok ()) := by
  have hpushed := r.bytesPushed_le
  have hinv : RepInv { r with eofIndex := r.recordedEof first data last } :=
    { hc.settled h with
      closed_of_eof := by
        intro hdone
        have heof : r.recordedEof first data last = some r.output.bytesPushed := hdone
        unfold recordedEof at heof
        split_ifs at heof
        · have hend := Option.some.inj heof
          omega
        · exact h.closed_of_eof heof }
  rw [tryInsert_eq h hc]
  rw [insertClipped_beyond (r := { r with eofIndex := r.recordedEof first data last }) hbeyond]
  simp only [Exec.ok_bind, hinv.closeIfComplete_self, hinv.debugCheckInvariants_ok]

/-- The fragment declares an end, and none is known. -/
def DeclaresEnd (r : Reassembler) (first : Nat) (data : Bytes) (last : Bool) : Prop :=
  last = true ∧ r.eofIndex = none ∧ first + data.length ≤ u64Max

/-- An end beyond the window lies behind everything that is held. -/
theorem DeclaresEnd.consistent (hdeclares : r.DeclaresEnd first data last) (h : RepInv r)
    (hbeyond : r.output.bytesPopped + r.output.capacity < first) :
    Consistent r first data last where
  fits := hdeclares.2.2
  beforeEof := by simp [hdeclares.2.1]
  sameEof := by simp [hdeclares.2.1]
  pushed_le := by
    have := r.bytesPushed_le
    omega
  covers_lt := by
    intro _ k hk
    have hle : r.firstUnacceptable ≤ r.output.bytesPopped + r.output.capacity := min_le_left _ _
    have := h.window k hk
    omega

/-- Otherwise nothing is recorded. -/
theorem Consistent.recordedEof_eq (hc : Consistent r first data last)
    (hnot : ¬ r.DeclaresEnd first data last) : r.recordedEof first data last = r.eofIndex := by
  unfold recordedEof
  by_cases hlast : last = true
  · rw [if_pos hlast]
    cases heof : r.eofIndex with
    | none => exact absurd ⟨hlast, heof, hc.fits⟩ hnot
    | some eof => rw [hc.sameEof hlast eof heof]
  · rw [if_neg hlast]

/-- A recorded end beyond the window contradicts every end inside it. -/
theorem refused_of_eof (h : RepInv r) {eof : Nat} (hnone : r.eofIndex = none)
    (hle : r.output.bytesPopped + r.output.capacity < eof) (hmax : eof ≤ u64Max) :
    ¬ r.Refused (r.output.bytesPopped + r.output.capacity) [] true ∧
      Refused { r with eofIndex := some eof } (r.output.bytesPopped + r.output.capacity) [] true := by
  constructor
  · rw [refused_iff h, not_not]
    exact
      { fits := le_trans (le_of_lt hle) hmax
        beforeEof := by simp [hnone]
        sameEof := by simp [hnone]
        pushed_le := fun _ => r.bytesPushed_le
        covers_lt := fun _ k hk => lt_of_lt_of_le (h.window k hk) (min_le_left _ _) }
  · exact .inconsistentEof eof rfl rfl (Nat.ne_of_gt hle)

/-- In every reachable state, a fragment beyond the window changes nothing, and what lies in the
window and would have been taken is taken after it, exactly if it does not declare the end of a
stream whose end is not known. -/
theorem beyond_window_iff {capacity : Nat} {ops : List HostileOp} {r0 : Reassembler}
    (hnew : Reassembler.new capacity = .ok r0) (hrun : Exec.run hostileStep r0 ops = .ok r)
    (hbeyond : r.output.bytesPopped + r.output.capacity < first) (data : Bytes) (last : Bool) :
    ∃ r1 result, r.tryInsert first data last = .ok (r1, result) ∧
      (r1 = r ↔ ¬ r.DeclaresEnd first data last) ∧
      ((∀ first1 data1 last1,
          first1 + data1.length ≤ r.output.bytesPopped + r.output.capacity →
          ¬ r.Refused first1 data1 last1 → ¬ r1.Refused first1 data1 last1) ↔
        ¬ r.DeclaresEnd first data last) := by
  have h := repInv_run hnew hrun
  by_cases hdeclares : r.DeclaresEnd first data last
  · have hc := hdeclares.consistent h hbeyond
    have hinsert := tryInsert_beyond h hc hbeyond
    obtain ⟨hlast, hnone, hmax⟩ := hdeclares
    have heof : r.recordedEof first data last = some (first + data.length) := if_pos hlast
    rw [heof] at hinsert
    refine ⟨_, _, hinsert, iff_of_false ?_ (not_not.mpr ⟨hlast, hnone, hmax⟩),
      iff_of_false ?_ (not_not.mpr ⟨hlast, hnone, hmax⟩)⟩
    · intro hsame
      have hcon := congrArg Reassembler.eofIndex hsame
      rw [hnone] at hcon
      exact absurd hcon (by simp)
    · intro hall
      -- an end in the window was allowed before, and contradicts the recorded end now
      obtain ⟨htaken, hrefused⟩ := refused_of_eof h hnone (by omega) hmax
      exact hall _ [] true (le_refl _) htaken hrefused
  · -- without an end to record, the state stays whether the fragment is taken or refused
    have hsame : ∃ result, r.tryInsert first data last = .ok (r, result) := by
      by_cases hc : Consistent r first data last
      · have hinsert := tryInsert_beyond h hc hbeyond
        rw [hc.recordedEof_eq hdeclares] at hinsert
        exact ⟨_, hinsert⟩
      · obtain ⟨e, hinsert⟩ := tryInsert_inconsistent h hc
        exact ⟨_, hinsert⟩
    obtain ⟨result, hinsert⟩ := hsame
    exact ⟨r, result, hinsert, iff_of_true rfl hdeclares,
      iff_of_true (fun _ _ _ _ htaken => htaken) hdeclares⟩

/-- Bytes beyond the window are dropped, and the window stays open for every other fragment. -/
theorem beyond_window_iff_open : ∃ r0 r1 result, Reassembler.new 5 = .ok r0 ∧
    r0.tryInsert 100 [120, 121, 122] false = .ok (r1, result) ∧ r1 = r0 := by
  obtain ⟨r0, hnew, hbeyond⟩ : ∃ r0, Reassembler.new 5 = .ok r0 ∧
      r0.output.bytesPopped + r0.output.capacity < 100 := by
    decide +kernel
  obtain ⟨r1, result, hinsert, hsame, -⟩ :=
    beyond_window_iff hnew Exec.run_nil hbeyond [120, 121, 122] false
  refine ⟨r0, r1, result, hnew, hinsert, hsame.mpr ?_⟩
  intro hdeclares
  simp [DeclaresEnd] at hdeclares

/-- A fragment far beyond the window declares an end, and the stream cannot end anywhere else
after that. -/
theorem beyond_window_end_recorded : ∃ r0, Reassembler.new 5 = .ok r0 ∧
    r0.output.bytesPopped + r0.output.capacity < 100 ∧ r0.eofIndex = none ∧
    (∃ taken, r0.tryInsert 0 [97] true = .ok taken ∧ taken.2 = .ok ()) ∧
    ∃ beyond, r0.tryInsert 100 [120, 121, 122] true = .ok beyond ∧ beyond.2 = .ok () ∧
      beyond.1.eofIndex = some 103 ∧
      ∃ refused, beyond.1.tryInsert 0 [97] true = .ok refused ∧
        refused.2 = .error (.inconsistentEof 103 1) := by
  decide +kernel

end Reassembler

end Minnow
