import Minnow.TcpSender.Basic
import Minnow.Library.Tiling

set_option autoImplicit false

/-! # The queue of outstanding segments

The segments tile the interval from the oldest unacknowledged sequence number to the next
one, and each is the part of the sequence space it claims to be.

* `trimPrefix_spec`: trimming a segment drops a prefix of its symbols.
* `discardAcknowledgedPrefix_spec`: an acknowledgment at any position of the interval cuts the
  queue there (`acknowledged`), and what is left tiles the rest.
-/

namespace Minnow

namespace OutstandingSegment

/-- The segment is the part of the sequence space at its start. -/
def Genuine (data : Bytes) (closed : Bool) (isn : Wrap32) (segment : OutstandingSegment) : Prop :=
  segment.message.Occupies data closed isn segment.absoluteStart

/-- The segments stand end to end from `a` to `b`. -/
def Queue (a : Nat) (segments : List OutstandingSegment) (b : Nat) : Prop :=
  Tiles absoluteStart sequenceLength a segments b

variable {data : Bytes} {closed : Bool} {isn : Wrap32} {segment : OutstandingSegment}
  {a b n : Nat} {segments : List OutstandingSegment}

theorem absoluteEnd_ok (h : segment.absoluteStart + segment.sequenceLength ≤ u64Max) :
    segment.absoluteEnd = .ok (segment.absoluteStart + segment.sequenceLength) := by
  rw [absoluteEnd, checkedAdd_of_le h]
  rfl

/-- Genuine segments that tile an interval hold its part of the sequence space. -/
theorem flatMap_symbols (hqueue : Queue a segments b)
    (hgenuine : ∀ segment ∈ segments, segment.Genuine data closed isn) :
    segments.flatMap (fun segment => segment.message.symbols) = (seqSpace data closed).slice a b :=
  Tiles.flatMap_eq_slice hqueue (fun segment hmem => (hgenuine segment hmem).2)

/-- The segment without its first symbols: SYN goes first, and FIN stays. -/
def trimmed (segment : OutstandingSegment) (n : Nat) (isn : Wrap32) : OutstandingSegment where
  absoluteStart := segment.absoluteStart + n
  message :=
    { segment.message with
      seqno := Wrap32.wrap (segment.absoluteStart + n) isn
      syn := false
      payload := segment.message.payload.drop (n - segment.message.syn.toNat) }

theorem trims (isn : Wrap32) :
    Trims absoluteStart sequenceLength (fun segment n => segment.trimmed n isn) where
  start_eq := fun _ _ _ _ => rfl
  length_eq := by
    rintro ⟨start, ⟨seqno, syn, payload, fin, rst⟩⟩ n hpos hlt
    have hsyn : syn.toNat ≤ 1 := Bool.toNat_le syn
    have hfin : fin.toNat ≤ 1 := Bool.toNat_le fin
    simp only [sequenceLength, TcpSenderMessage.sequenceLength, trimmed, Bool.toNat_false,
      List.length_drop] at hlt ⊢
    omega
  trim_trim := by
    rintro ⟨start, ⟨seqno, syn, payload, fin, rst⟩⟩ m n hm hlt hn
    have hsyn : syn.toNat ≤ 1 := Bool.toNat_le syn
    -- SYN is gone after the first cut
    have hbytes : m - syn.toNat + (n - false.toNat) = m + n - syn.toNat := by
      rw [Bool.toNat_false]
      omega
    simp only [trimmed, List.drop_drop, hbytes, Nat.add_assoc]

theorem trimPrefix_spec (hgenuine : segment.Genuine data closed isn) (hpos : 0 < n)
    (hlt : n < segment.sequenceLength) (hmax : segment.absoluteStart + n ≤ u64Max) :
    segment.trimPrefix n isn = .ok (segment.trimmed n isn) ∧
      (segment.trimmed n isn).Genuine data closed isn := by
  obtain ⟨start, ⟨seqno, syn, payload, fin, rst⟩⟩ := segment
  simp only [sequenceLength, TcpSenderMessage.sequenceLength] at hlt hmax ⊢
  have hfin : fin.toNat ≤ 1 := Bool.toNat_le fin
  -- the prefix ends behind SYN and, as FIN alone is the last symbol, not behind the payload
  have hbytes : n - syn.toNat ≤ payload.length := by omega
  have hsyn : syn.toNat ≤ 1 := Bool.toNat_le syn
  set message : TcpSenderMessage :=
    { seqno := Wrap32.wrap (start + n) isn, syn := false, payload := payload.drop (n - syn.toNat),
      fin := fin, rst := rst } with hmessage
  have hlen : message.sequenceLength = syn.toNat + payload.length + fin.toNat - n := by
    rw [TcpSenderMessage.sequenceLength, hmessage]
    simp only [Bool.toNat_false, List.length_drop]
    omega
  have hsymbols : message.symbols = (symbolsOf syn payload fin).drop n :=
    (drop_symbolsOf hpos (by omega)).symm
  constructor
  · have hsliced : (if 0 < n - syn.toNat then sliceFrom payload (n - syn.toNat) else .ok payload)
        = .ok (payload.drop (n - syn.toNat)) := by
      by_cases h0 : 0 < n - syn.toNat
      · rw [if_pos h0, sliceFrom_of_le hbytes]
      · have hzero : n - syn.toNat = 0 := by omega
        rw [if_neg h0, hzero, List.drop_zero]
    have hempty : message.isEmptyInSequenceSpace = false := by
      rw [TcpSenderMessage.isEmptyInSequenceSpace, hlen]
      simp only [beq_eq_false_iff_ne, ne_eq]
      omega
    unfold trimPrefix
    simp only [hpos, decide_true, Bool.and_true, min_eq_left hbytes, hsliced, Exec.ok_bind,
      Nat.sub_self, lt_irrefl, decide_false, Bool.and_false, Bool.toNat_false,
      Exec.assert_pos, Bool.false_eq_true, false_imp_iff, checkedAdd_of_le hmax, Exec.expect_some,
      Bool.not_false, Bool.and_not_self]
    rw [Exec.assert_pos (show n < sequenceLength
      { absoluteStart := start
        message := { seqno := seqno, syn := syn, payload := payload, fin := fin, rst := rst } }
      from hlt), Exec.ok_bind, Exec.assert_pos hempty]
    rfl
  · refine ⟨rfl, ?_⟩
    have hold := hgenuine.2
    simp only [TcpSenderMessage.symbols, TcpSenderMessage.sequenceLength] at hold
    show message.symbols = (seqSpace data closed).slice (start + n)
      (start + n + message.sequenceLength)
    rw [hsymbols, hold, List.drop_slice, hlen]
    congr 1
    omega

/-- The queue cut at `u`. -/
def acknowledged (isn : Wrap32) (u : Nat) : List OutstandingSegment → List OutstandingSegment :=
  cutAt absoluteStart sequenceLength (fun segment n => segment.trimmed n isn) u

/-- The loop drops the segments that end up to `u`; the first one that is left contains `u`. -/
theorem dropAcknowledged_spec {u : Nat} (hqueue : Queue a segments b) (hau : a ≤ u) (hub : u ≤ b)
    (hmax : b ≤ u64Max) :
    ∃ a1 kept, TcpSender.dropAcknowledged u segments = .ok kept ∧ Queue a1 kept b ∧ a1 ≤ u ∧
      (∀ segment ∈ kept, segment ∈ segments) ∧
      (∀ isn, acknowledged isn u segments = acknowledged isn u kept) ∧
      (kept = [] → a1 = u) ∧
      ∀ front ∈ kept.head?, u < front.absoluteStart + front.sequenceLength := by
  induction segments generalizing a with
  | nil =>
      have hab : a = b := tiles_nil.mp hqueue
      exact ⟨a, [], rfl, hqueue, hau, fun _ h => h, fun _ => rfl, fun _ => by omega, by simp⟩
  | cons front rest ih =>
      obtain ⟨hstart, hpos, hrest⟩ := tiles_cons.mp hqueue
      have hle := hrest.le
      rw [TcpSender.dropAcknowledged, absoluteEnd_ok (by omega)]
      simp only [Exec.ok_bind]
      by_cases hend : front.absoluteStart + front.sequenceLength ≤ u
      · rw [if_pos hend]
        obtain ⟨a1, kept, hrun, hq, ha1, hmem, hcut, hnil, hfront⟩ := ih hrest (by omega)
        have hdropped : ∀ isn, acknowledged isn u (front :: rest) = acknowledged isn u rest :=
          fun _ => if_pos hend
        exact ⟨a1, kept, hrun, hq, ha1, fun s hs => List.mem_cons_of_mem _ (hmem s hs),
          fun isn => (hdropped isn).trans (hcut isn), hnil, hfront⟩
      · rw [if_neg hend]
        refine ⟨a, _, rfl, hqueue, hau, fun _ h => h, fun _ => rfl,
          fun h => absurd h (List.cons_ne_nil _ _), ?_⟩
        intro s hs
        obtain rfl := Option.mem_some_iff.mp hs
        exact Nat.not_le.mp hend

end OutstandingSegment

namespace TcpSender

open OutstandingSegment

variable {sender : TcpSender} {data : Bytes} {closed : Bool}

/-- The queue after an acknowledgment that has moved `sndUna` inside the interval. -/
theorem discardAcknowledgedPrefix_spec (sender : TcpSender) {a : Nat}
    (hqueue : Queue a sender.outstanding sender.sndNxt)
    (hgenuine : ∀ segment ∈ sender.outstanding, segment.Genuine data closed sender.isn)
    (hle : a ≤ sender.sndUna) (hub : sender.sndUna ≤ sender.sndNxt) (hmax : sender.sndNxt ≤ u64Max) :
    ∃ kept, discardAcknowledgedPrefix sender = .ok { sender with outstanding := kept } ∧
      kept = acknowledged sender.isn sender.sndUna sender.outstanding ∧
      Queue sender.sndUna kept sender.sndNxt ∧
      (∀ segment ∈ kept, segment.Genuine data closed sender.isn) ∧
      ∀ segment ∈ kept, ∃ old ∈ sender.outstanding, segment.message.rst = old.message.rst := by
  obtain ⟨a1, kept, hrun, hq, ha1, hmem, hcut, hnil, hfront⟩ :=
    dropAcknowledged_spec hqueue hle hub hmax
  have hsame : ∀ segment ∈ kept, segment.Genuine data closed sender.isn :=
    fun segment hs => hgenuine segment (hmem segment hs)
  rw [discardAcknowledgedPrefix, hrun, hcut]
  simp only [Exec.ok_bind]
  cases kept with
  | nil =>
      have heq := hnil rfl
      subst heq
      exact ⟨[], rfl, rfl, hq, hsame, fun _ hs => absurd hs List.not_mem_nil⟩
  | cons front rest =>
      obtain ⟨hstart, hpos, hrest⟩ := tiles_cons.mp hq
      have hend := hfront front rfl
      have hrestle := hrest.le
      by_cases hlt : front.absoluteStart < sender.sndUna
      · -- the acknowledgment falls inside the front segment
        set n := sender.sndUna - front.absoluteStart with hn
        obtain ⟨htrim, hgenuine1⟩ := trimPrefix_spec (n := n) (hsame front List.mem_cons_self)
          (by omega) (by omega) (by omega)
        have htstart := (trims sender.isn).start_eq front n (by omega) (by omega)
        have htlen := (trims sender.isn).length_eq front n (by omega) (by omega)
        refine ⟨front.trimmed n sender.isn :: rest, ?_, ?_, ?_, ?_, ?_⟩
        · simp only [if_pos hlt, ← hn, htrim, Exec.ok_bind]
        · rw [acknowledged, cutAt, if_neg (Nat.not_le.mpr hend), if_pos hlt]
        · refine tiles_cons.mpr ⟨by omega, by omega, ?_⟩
          have hnext : sender.sndUna + (front.trimmed n sender.isn).sequenceLength
              = a1 + front.sequenceLength := by
            omega
          rw [hnext]
          exact hrest
        · intro segment hs
          rcases List.mem_cons.mp hs with rfl | hs
          · exact hgenuine1
          · exact hsame segment (List.mem_cons_of_mem _ hs)
        · intro segment hs
          rcases List.mem_cons.mp hs with rfl | hs
          · exact ⟨front, hmem front List.mem_cons_self, rfl⟩
          · exact ⟨segment, hmem segment (List.mem_cons_of_mem _ hs), rfl⟩
      · have heq : a1 = sender.sndUna := by omega
        subst heq
        refine ⟨front :: rest, by simp only [if_neg hlt], ?_, hq, hsame, ?_⟩
        · exact hq.cutAt_self.symm
        · exact fun segment hs => ⟨segment, hmem segment hs, rfl⟩

theorem checkOutstanding_ok {a b : Nat} {segments : List OutstandingSegment}
    (hqueue : Queue a segments b) (hmax : b ≤ u64Max) : checkOutstanding a segments = .ok () := by
  induction segments generalizing a with
  | nil => rfl
  | cons front rest ih =>
      obtain ⟨hstart, hpos, hrest⟩ := tiles_cons.mp hqueue
      have hle := hrest.le
      have hempty : front.message.isEmptyInSequenceSpace = false := by
        rw [TcpSenderMessage.isEmptyInSequenceSpace]
        simp only [beq_eq_false_iff_ne, ne_eq]
        exact Nat.ne_of_gt hpos
      rw [checkOutstanding, Exec.assert_pos hempty, Exec.assert_pos (le_of_eq hstart.symm),
        absoluteEnd_ok (by omega)]
      simp only [Exec.ok_bind]
      rw [hstart]
      exact ih hrest

/-- The assertions hold when the queue tiles the interval in flight. -/
theorem debugCheckInvariants_ok (hqueue : Queue sender.sndUna sender.outstanding sender.sndNxt)
    (hmax : sender.sndNxt ≤ u64Max) : sender.debugCheckInvariants = .ok () := by
  have hle := hqueue.le
  have hfront : ∀ first ∈ sender.outstanding.head?, first.absoluteStart = sender.sndUna := by
    intro first hfirst
    obtain ⟨rest, hrest⟩ := List.head?_eq_some_iff.mp hfirst
    rw [hrest] at hqueue
    exact hqueue.1
  unfold debugCheckInvariants bytesInFlight
  rw [Exec.assert_pos hle, checkOutstanding_ok hqueue hmax, Exec.assert_pos hfront,
    Exec.assert_pos hqueue.eq_nil_iff.mp, checkedSub_of_le hle]
  simp only [Exec.ok_bind, Exec.expect_some]
  exact Exec.assert_pos trivial

end TcpSender

end Minnow
