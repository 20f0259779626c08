import Minnow.Network.Operations
import Minnow.Network.Progress

set_option autoImplicit false

/-! # The transfer comes to its end

A round trip of one side lets its timer expire, takes what was sent again to the peer, and takes
the first answer back. One round trip acknowledges at least one symbol, and nothing the network
does in between takes that back: so after as many round trips as the stream has symbols, SYN and
FIN among them, a closed stream has arrived and is acknowledged (`transfer_completes`). Between
the round trips segments are lost, repeated and reordered as before. No reachable state is beyond
that: reads and round trips lead from each to the end of both streams (`always_completes`).
-/

namespace Minnow

namespace Network

open TcpSender TcpConnection

/-! ## Closed streams -/

/-- The endpoint has closed the stream `data`, of whose symbols the first `n` are acknowledged. -/
structure Closing (data : Bytes) (n : Nat) (e : Endpoint) : Prop where
  written : e.written = data
  closed : e.connection.sender.outbound.closed = true
  una : n ≤ e.connection.sender.sndUna

variable {w w1 : World} {e p : Endpoint} {mine theirs : List Packet} {side : Side} {data : Bytes}
  {n : Nat}

/-- A closed stream accepts nothing. -/
theorem accepted_of_closed {connection : TcpConnection}
    (hclosed : connection.sender.outbound.closed = true) (op : ConnOp) :
    accepted connection op = [] := by
  cases op with
  | write data =>
      have hrefused : ¬ connection.sender.outbound.Accepting := by
        rintro ⟨hopen, -⟩
        exact absurd (hclosed.symm.trans hopen) (by simp)
      show data.take (connection.sender.outbound.push data).2 = []
      rw [ByteStream.push_of_not_accepting _ _ hrefused, List.take_zero]
  | flushSender => rfl
  | close => rfl
  | tick elapsedMs => rfl
  | receiveSegment segment => rfl
  | read len => rfl

theorem Closing.perform {op : ConnOp} {connection : TcpConnection} {segments : List TcpSegment}
    (h : Closing data n e) (hinv : ConnInv e.connection)
    (hperform : e.connection.perform op = .ok (connection, segments)) :
    Closing data n (e.after op connection) := by
  have hp := perform_performed hperform
  refine ⟨?_, hp.closed hinv h.closed, h.una.trans (hp.una_le hinv)⟩
  show e.written ++ accepted e.connection op = data
  rw [accepted_of_closed h.closed, List.append_nil]
  exact h.written

theorem WorldInv.step_ok {op : NetOp} (h : WorldInv w) (hallowed : w.Allowed op)
    (hstep : w.step op = .ok w1) : WorldInv w1 := by
  obtain ⟨w2, hstep2, hinv2⟩ := h.step hallowed
  rw [hstep, Except.ok.injEq] at hstep2
  rw [hstep2]
  exact hinv2

/-- No step of either endpoint takes back what was acknowledged. -/
theorem Closing.step {op : NetOp} (hinv : WorldInv w) (h : Closing data n (w.endpoint side))
    (hstep : w.step op = .ok w1) : Closing data n (w1.endpoint side) := by
  rcases World.step_cases hstep with rfl | ⟨connOp, -, hperform⟩
  · exact h
  · obtain ⟨connection, segments, hconnection, rfl⟩ := World.perform_eq_ok.mp hperform
    rcases op.side.eq_or_eq_peer side with hside | hside
    · rw [hside] at h ⊢
      rw [emit_endpoint_self]
      exact h.perform (hinv op.side).connInv hconnection
    · rw [hside] at h ⊢
      rw [emit_endpoint_peer]
      exact h

/-- Until everything is acknowledged, something is outstanding. -/
theorem Closing.outstanding (h : Closing data n e) (hfilled : Filled e.connection.sender)
    (hinv : e.connection.sender.Inv data)
    (hlt : e.connection.sender.sndUna < data.length + 2) :
    e.connection.sender.outstanding ≠ [] := by
  refine ((hfilled.moving hinv).armed ?_).1
  by_cases hexhausted : Exhausted e.connection.sender
  · -- everything was transmitted, FIN included
    obtain ⟨hsyn, -, hfinished⟩ := hexhausted
    have hfin := hfinished h.closed
    have hpopped := (hinv.fin_last hfin).2
    have hnxt := hinv.nxt_eq
    rw [hsyn, hfin, hpopped, Bool.toNat_true] at hnxt
    exact Or.inr (by omega)
  · exact Or.inl hexhausted

/-- With all symbols acknowledged, the transfer is over at both ends. -/
theorem Closing.finished (h : Closing data (data.length + 2) e) (hpair : Pair e p mine theirs) :
    e.connection.isFinished = true ∧ p.connection.receiver.output.closed = true ∧
      p.assembled = data := by
  have hinv := hpair.out.inv
  rw [h.written] at hinv
  have huna := h.una
  have hnxt := hinv.nxt_eq
  have hle := hinv.una_le
  have hspace := hinv.nxt_le_space
  have hpopped := hinv.popped_le
  have hsyn : e.connection.sender.synSent.toNat ≤ 1 := Bool.toNat_le _
  rw [h.closed, Bool.toNat_true] at hspace
  have hfin : e.connection.sender.finSent = true := by
    by_contra hopen
    rw [Bool.not_eq_true] at hopen
    rw [hopen, Bool.toNat_false] at hnxt
    omega
  have hidle : e.connection.sender.outstanding = [] := hinv.queue.eq_nil_iff.mpr (by omega)
  have hclosed := hpair.closed_of_acked (by rw [h.written]; exact h.una)
  refine ⟨?_, hclosed, ?_⟩
  · show (e.connection.sender.finSent && e.connection.sender.outstanding.isEmpty) = true
    rw [hfin, hidle]
    rfl
  · rw [(hpair.out.complete hclosed).2, h.written]

/-! ## Round trips -/

/-- The timer of `side` runs, the peer gets what is sent then, and `side` gets the first answer. -/
def World.roundTrip (w : World) (side : Side) (elapsedMs : Nat) : List NetOp :=
  [.tick side elapsedMs, .deliver side.peer (w.sent side).length,
    .deliver side (w.sent side.peer).length]

/-- The peer has room for what is sent again, or needs none: there is no payload, or it has
assembled it before. -/
def World.Admits (w : World) (side : Side) : Prop :=
  0 < (w.endpoint side.peer).connection.receiver.output.availableCapacity ∨
    (∀ front ∈ (w.endpoint side).connection.sender.outstanding.head?,
      front.message.payload = []) ∨
    (w.endpoint side).connection.sender.sndUna
      < (w.endpoint side.peer).connection.receiver.acknowledged

instance (w : World) (side : Side) : Decidable (w.Admits side) :=
  inferInstanceAs (Decidable (_ ∨ (∀ front ∈ _, _) ∨ _))

/-- The timer expires, and the peer admits what is sent again. -/
def World.Ready (w : World) (side : Side) (elapsedMs : Nat) : Prop :=
  (∀ timeout ∈ (w.endpoint side).connection.sender.timer.timeout?, timeout ≤ elapsedMs) ∧
    w.Admits side

instance (w : World) (side : Side) (elapsedMs : Nat) : Decidable (w.Ready side elapsedMs) :=
  inferInstanceAs (Decidable ((∀ timeout ∈ _, _) ∧ _))

/-- What was assembled before is answered again, with room or without. -/
theorem Pair.answer_ready {packet : Packet} (h : Pair e p mine theirs) (hp : packet ∈ theirs)
    (hreach : e.InReach packet) (hseqno : packet.seqno = p.connection.sender.sndUna)
    (hpos : 0 < packet.segment.toSenderMessage.sequenceLength)
    (hroom : 0 < e.connection.receiver.output.availableCapacity ∨ packet.segment.payload = [] ∨
      p.connection.sender.sndUna < e.connection.receiver.acknowledged) :
    ∃ connection1 answer rest,
      e.connection.receiveSegment packet.segment = .ok (connection1, answer :: rest) ∧
      Pair { e with connection := connection1 } p
        (mine ++ packets ({ e with connection := connection1 } : Endpoint).ackno
          e.connection.sender.sndNxt (answer :: rest)) theirs ∧
      p.connection.sender.sndUna < connection1.receiver.acknowledged := by
  rw [← or_assoc] at hroom
  rcases hroom with hroom | hdue
  · exact h.answer hp hreach hseqno hpos hroom
  obtain ⟨connection1, segments, hrun, hd⟩ := h.receiveSegment hp hreach
  have hmore := lt_of_lt_of_le hdue hd.acknowledged_le
  have hknown : connection1.receiver.isn ≠ none := by
    intro hnone
    rw [TcpReceiver.acknowledged_of_none hnone] at hmore
    exact absurd hmore (Nat.not_lt_zero _)
  obtain ⟨answer, rest, rfl⟩ := List.exists_cons_of_ne_nil (hd.answered hpos hknown)
  exact ⟨connection1, answer, rest, hrun, hd.pair, hmore⟩

/-- Where nothing is outstanding, nothing is sent again. -/
theorem tick_of_idle {sender : TcpSender} (h : sender.Inv data) (hidle : sender.outstanding = [])
    (elapsedMs : Nat) : ∃ sender1, sender.tick elapsedMs = .ok (sender1, []) := by
  obtain ⟨sender1, messages, hrun, -, hmessages⟩ := tick_spec h elapsedMs
  rcases hmessages with ⟨-, rfl⟩ | ⟨-, front, rest, hqueue, -⟩
  · exact ⟨sender1, hrun⟩
  · rw [hidle] at hqueue
    exact absurd hqueue (by simp)

/-- The oldest outstanding segment is sent again, and the peer is not too far from it. -/
theorem WorldInv.expire (h : WorldInv w) {elapsedMs : Nat}
    (hexpires : (w.endpoint side).connection.sender.Expires elapsedMs) :
    ∃ w1 packet front others, w.step (.tick side elapsedMs) = .ok w1 ∧ WorldInv w1 ∧
      (w.endpoint side).connection.sender.outstanding = front :: others ∧
      w1.endpoint side.peer = w.endpoint side.peer ∧
      (w1.endpoint side).connection.sender.sndUna = (w.endpoint side).connection.sender.sndUna ∧
      w1.sent side = w.sent side ++ [packet] ∧ w1.sent side.peer = w.sent side.peer ∧
      (w.endpoint side.peer).InReach packet ∧
      packet.seqno = (w.endpoint side).connection.sender.sndUna ∧
      0 < packet.segment.toSenderMessage.sequenceLength ∧
      packet.segment.payload = front.message.payload := by
  have hpair := h side
  obtain ⟨sender1, segments, htick, huna, hfront, hpair1⟩ := hpair.tick elapsedMs
  obtain ⟨front, others, hqueue, rfl⟩ := hfront hexpires
  have hmem : front ∈ (w.endpoint side).connection.sender.outstanding := by
    rw [hqueue]
    exact List.mem_cons_self
  have hpos : 0 < front.sequenceLength := (hpair.out.inv.queue.mem hmem).2.1
  refine ⟨_, _, front, others, ?_, WorldInv.emit hpair1, hqueue, emit_endpoint_peer, ?_,
    emit_sent_self, emit_sent_peer, ?_, rfl, hpos, rfl⟩
  · rw [World.step]
    dsimp only
    rw [htick]
    rfl
  · rw [emit_endpoint_self]
    exact huna
  · exact ⟨hpair.out.near_pushed (le_refl _) hpair.out.inv.una_le, hpair.swap.near_ackno⟩

/-- What the peer sends again is answered with an acknowledgment of more than its `SND.UNA`. -/
theorem WorldInv.answer (h : WorldInv w) {packet : Packet} {i : Nat}
    (hpacket : (w.sent side.peer)[i]? = some packet) (hreach : (w.endpoint side).InReach packet)
    (hseqno : packet.seqno = (w.endpoint side.peer).connection.sender.sndUna)
    (hpos : 0 < packet.segment.toSenderMessage.sequenceLength)
    (hroom : 0 < (w.endpoint side).connection.receiver.output.availableCapacity ∨
      packet.segment.payload = [] ∨
      (w.endpoint side.peer).connection.sender.sndUna
        < (w.endpoint side).connection.receiver.acknowledged) :
    ∃ w1 answer, w.step (.deliver side i) = .ok w1 ∧ WorldInv w1 ∧
      w1.endpoint side.peer = w.endpoint side.peer ∧
      (w1.sent side)[(w.sent side).length]? = some answer ∧
      (w1.endpoint side.peer).InReach answer ∧
      ∃ k ∈ answer.ackno, (w.endpoint side.peer).connection.sender.sndUna < k := by
  have hpair := h side
  obtain ⟨connection1, first, rest, hrun, hpair1, hmore⟩ :=
    hpair.answer_ready (List.mem_of_getElem? hpacket) hreach hseqno hpos hroom
  have hanswer := hpair1.out.sent _ (List.mem_append_right _ List.mem_cons_self)
  have hlower : connection1.sender.sndUna ≤ (w.endpoint side).connection.sender.sndNxt :=
    calc connection1.sender.sndUna
        ≤ (w.endpoint side.peer).connection.receiver.acknowledged := hpair1.out.acked
      _ ≤ (w.endpoint side).connection.sender.sndNxt := hpair.out.acknowledged_le
  have hupper : (w.endpoint side).connection.sender.sndNxt ≤ connection1.sender.sndNxt :=
    le_trans (Nat.le_add_right _ _) hanswer.end_le
  have hackno := hpair1.ackno_eq (lt_of_le_of_lt (Nat.zero_le _) hmore)
  refine ⟨_,
    { segment := first
      seqno := (w.endpoint side).connection.sender.sndNxt
      ackno := ({ w.endpoint side with connection := connection1 } : Endpoint).ackno },
    ?_, WorldInv.emit hpair1, emit_endpoint_peer, ?_, ?_, ?_⟩
  · rw [World.step, hpacket]
    dsimp only
    rw [hrun]
    rfl
  · rw [emit_sent_self, packets, List.getElem?_append_right (le_refl _), Nat.sub_self,
      List.getElem?_cons_zero]
  · rw [emit_endpoint_peer]
    exact ⟨hpair1.out.near_pushed hlower hupper, hpair1.swap.near_ackno⟩
  · exact ⟨_, hackno, hmore⟩

/-- A packet that is near enough is accepted, with what it acknowledges. -/
theorem WorldInv.accept (h : WorldInv w) {packet : Packet} {i : Nat}
    (hpacket : (w.sent side.peer)[i]? = some packet)
    (hreach : (w.endpoint side).InReach packet) :
    ∃ w1, w.step (.deliver side i) = .ok w1 ∧
      ∀ k ∈ packet.ackno, k ≤ (w1.endpoint side).connection.sender.sndUna := by
  obtain ⟨connection1, segments, hrun, hd⟩ :=
    (h side).receiveSegment (List.mem_of_getElem? hpacket) hreach
  refine ⟨w.emit side { w.endpoint side with connection := connection1 }
    (w.endpoint side).connection.sender.sndNxt segments, ?_, ?_⟩
  · rw [World.step, hpacket]
    dsimp only
    rw [hrun]
    rfl
  · rw [emit_endpoint_self]
    exact hd.acked

/-- With nothing outstanding, a round trip leaves the network as it is. -/
theorem WorldInv.idleTrip (h : WorldInv w) (elapsedMs : Nat)
    (hidle : (w.endpoint side).connection.sender.outstanding = []) :
    ∃ w1, Exec.RunWhile World.Allowed World.step w (w.roundTrip side elapsedMs) w1 := by
  obtain ⟨sender1, htick⟩ := tick_of_idle (h side).out.inv hidle elapsedMs
  have hstep : ∃ w1, w.step (.tick side elapsedMs) = .ok w1 ∧ w1.sent side = w.sent side ∧
      w1.sent side.peer = w.sent side.peer := by
    let e := w.endpoint side
    refine ⟨w.emit side { e with connection := { e.connection with sender := sender1 } }
      e.connection.sender.sndUna [], ?_, ?_, emit_sent_peer⟩
    · rw [World.step, TcpConnection.tick, htick]
      rfl
    · rw [emit_sent_self]
      exact List.append_nil _
  obtain ⟨w1, hstep, hsent, hpeer⟩ := hstep
  have hnone : (w1.sent side.peer.peer)[(w.sent side).length]? = none := by
    rw [side.peer_peer, hsent]
    exact List.getElem?_eq_none (le_refl _)
  have hnonePeer : (w1.sent side.peer)[(w.sent side.peer).length]? = none := by
    rw [hpeer]
    exact List.getElem?_eq_none (le_refl _)
  obtain ⟨hallowed, hunsent⟩ := step_of_unsent hnone
  obtain ⟨hallowedPeer, hunsentPeer⟩ := step_of_unsent hnonePeer
  exact ⟨w1, .cons trivial hstep (.cons hallowed hunsent
    (.cons hallowedPeer hunsentPeer (.nil w1)))⟩

/-- The oldest outstanding segment is sent again, and answered with an acknowledgment of more. -/
theorem WorldInv.exchange (h : WorldInv w) {elapsedMs : Nat}
    (hexpires : (w.endpoint side).connection.sender.Expires elapsedMs) (hadmits : w.Admits side) :
    ∃ w1 w2 packet answer, w.step (.tick side elapsedMs) = .ok w1 ∧
      w1.sent side = w.sent side ++ [packet] ∧ w1.sent side.peer = w.sent side.peer ∧
      (w1.endpoint side.peer).InReach packet ∧
      w1.step (.deliver side.peer (w.sent side).length) = .ok w2 ∧ WorldInv w2 ∧
      (w2.sent side.peer)[(w.sent side.peer).length]? = some answer ∧
      (w2.endpoint side).InReach answer ∧
      ∃ k ∈ answer.ackno, (w.endpoint side).connection.sender.sndUna < k := by
  obtain ⟨w1, packet, front, others, hstep1, hinv1, hqueue, hpeer1, huna1, hsent1, hsentPeer1,
    hreach1, hseqno1, hpos1, hpayload1⟩ := h.expire hexpires
  have hroom : 0 < (w1.endpoint side.peer).connection.receiver.output.availableCapacity ∨
      packet.segment.payload = [] ∨
      (w1.endpoint side.peer.peer).connection.sender.sndUna
        < (w1.endpoint side.peer).connection.receiver.acknowledged := by
    rw [side.peer_peer, hpeer1, hpayload1, huna1]
    rcases hadmits with hroom | hempty | hdue
    · exact Or.inl hroom
    · exact Or.inr (Or.inl (hempty front (by rw [hqueue]; rfl)))
    · exact Or.inr (Or.inr hdue)
  have hpacket : (w1.sent side.peer.peer)[(w.sent side).length]? = some packet := by
    rw [side.peer_peer, hsent1, List.getElem?_append_right (le_refl _), Nat.sub_self]
    rfl
  rw [← hpeer1] at hreach1
  have hseqno : packet.seqno = (w1.endpoint side.peer.peer).connection.sender.sndUna := by
    rw [side.peer_peer, huna1, hseqno1]
  obtain ⟨w2, answer, hstep2, hinv2, -, hanswer, hreach2, k, hk, hmore⟩ :=
    hinv1.answer hpacket hreach1 hseqno hpos1 hroom
  rw [side.peer_peer] at hreach2 hmore
  rw [hsentPeer1] at hanswer
  rw [huna1] at hmore
  exact ⟨w1, w2, packet, answer, hstep1, hsent1, hsentPeer1, hreach1, hstep2, hinv2, hanswer,
    hreach2, k, hk, hmore⟩

/-- A round trip is a run that the assumptions allow, and acknowledges at least one symbol if any
is outstanding. -/
theorem WorldInv.roundTrip (h : WorldInv w) {elapsedMs : Nat} (hready : w.Ready side elapsedMs) :
    ∃ w1, Exec.RunWhile World.Allowed World.step w (w.roundTrip side elapsedMs) w1 ∧
      ((w.endpoint side).connection.sender.outstanding ≠ [] →
        (w.endpoint side).connection.sender.sndUna
          < (w1.endpoint side).connection.sender.sndUna) := by
  by_cases hidle : (w.endpoint side).connection.sender.outstanding = []
  · obtain ⟨w1, hrun⟩ := h.idleTrip elapsedMs hidle
    exact ⟨w1, hrun, fun hout => absurd hidle hout⟩
  obtain ⟨timeout, htimeout, hexpires⟩ := expires_of_outstanding (h side).out.inv hidle
  obtain ⟨w1, w2, packet, answer, hstep1, hsent1, -, hreach1, hstep2, hinv2, hanswer, hreach2, k,
    hk, hmore⟩ := h.exchange (hexpires elapsedMs (hready.1 timeout htimeout)) hready.2
  obtain ⟨w3, hstep3, hacked⟩ := hinv2.accept hanswer hreach2
  refine ⟨w3, .cons trivial hstep1 (.cons ?_ hstep2 (.cons ?_ hstep3 (.nil w3))), ?_⟩
  · intro packet1 hp
    rw [side.peer_peer, hsent1, List.getElem?_append_right (le_refl _), Nat.sub_self,
      List.getElem?_cons_zero] at hp
    obtain rfl := Option.mem_some_iff.mp hp
    exact hreach1
  · intro packet1 hp
    rw [hanswer] at hp
    obtain rfl := Option.mem_some_iff.mp hp
    exact hreach2
  · intro _
    exact lt_of_lt_of_le hmore (hacked k hk)

/-! ## Phases -/

/-- A step, or a round trip that the network does not disturb. -/
inductive Phase where
  | step (op : NetOp)
  | roundTrip (side : Side) (elapsedMs : Nat)
  deriving DecidableEq, Repr

def World.phase (w : World) : Phase → Exec World
  | .step op => w.step op
  | .roundTrip side elapsedMs => Exec.run World.step w (w.roundTrip side elapsedMs)

/-- The assumptions on a phase. -/
def World.Fair (w : World) : Phase → Prop
  | .step op => w.Allowed op
  | .roundTrip side elapsedMs => w.Ready side elapsedMs

instance (w : World) : (phase : Phase) → Decidable (w.Fair phase)
  | .step op => inferInstanceAs (Decidable (w.Allowed op))
  | .roundTrip side elapsedMs => inferInstanceAs (Decidable (w.Ready side elapsedMs))

/-- The side whose round trip the phase is. -/
def Phase.traveller? : Phase → Option Side
  | .step _ => none
  | .roundTrip side _ => some side

/-- How many of the phases are round trips of `side`. -/
def roundTrips (side : Side) (phases : List Phase) : Nat :=
  phases.countP (fun phase => decide (phase.traveller? = some side))

/-- Every endpoint that has closed its stream has transmitted what the window admits. -/
structure WorldRunning (w : World) : Prop where
  inv : WorldInv w
  filled : ∀ side, (w.endpoint side).connection.sender.outbound.closed = true →
    Filled (w.endpoint side).connection.sender

theorem WorldRunning.step {op : NetOp} (h : WorldRunning w) (hallowed : w.Allowed op)
    (hstep : w.step op = .ok w1) : WorldRunning w1 := by
  refine ⟨h.inv.step_ok hallowed hstep, ?_⟩
  exact World.step_connections
    (fun _ connection => connection.sender.outbound.closed = true → Filled connection.sender)
    (fun side _ _ _ hp hfilled => hp.running (h.inv side).connInv hfilled) h.filled hstep

theorem WorldRunning.run {ops : List NetOp} (h : WorldRunning w)
    (hrun : Exec.RunWhile World.Allowed World.step w ops w1) : WorldRunning w1 :=
  hrun.invariant WorldRunning (fun _ _ _ h hallowed hstep => h.step hallowed hstep) h

theorem worldRunning_of_reachable (h : Reachable w) : WorldRunning w := by
  obtain ⟨config, w0, ops, hcrossed, hstart, hrun⟩ := h
  refine WorldRunning.run ⟨worldInv_start hcrossed hstart, ?_⟩ hrun
  intro side hclosed
  -- a fresh stream is open
  have hopen : (w0.endpoint side).connection.sender.outbound.closed = false := by
    obtain ⟨-, -, hsender, -⟩ := TcpConnection.new_eq_ok (new_of_start hstart side)
    rw [TcpSender.new_eq_ok hsender]
    rfl
  rw [hopen] at hclosed
  exact absurd hclosed (by simp)

theorem Closing.run {ops : List NetOp} (hw : WorldInv w) (h : Closing data n (w.endpoint side))
    (hrun : Exec.RunWhile World.Allowed World.step w ops w1) :
    Closing data n (w1.endpoint side) := by
  have hboth : WorldInv w1 ∧ Closing data n (w1.endpoint side) := by
    apply hrun.invariant (fun w => WorldInv w ∧ Closing data n (w.endpoint side)) ?_ ⟨hw, h⟩
    rintro w2 op w3 ⟨hinv, hclosing⟩ hallowed hstep
    exact ⟨hinv.step_ok hallowed hstep, hclosing.step hinv hstep⟩
  exact hboth.2

/-- A fair phase returns, and is a run of steps. -/
theorem WorldInv.phase (h : WorldInv w) {phase : Phase} (hfair : w.Fair phase) (side : Side) :
    ∃ ops w1, w.phase phase = .ok w1 ∧ Exec.RunWhile World.Allowed World.step w ops w1 ∧
      (phase.traveller? = some side →
        (w.endpoint side).connection.sender.outstanding ≠ [] →
        (w.endpoint side).connection.sender.sndUna
          < (w1.endpoint side).connection.sender.sndUna) := by
  cases phase with
  | step op =>
      obtain ⟨w1, hstep, -⟩ := h.step hfair
      exact ⟨[op], w1, hstep, .cons hfair hstep (.nil w1),
        fun htrip => absurd htrip (by simp [Phase.traveller?])⟩
  | roundTrip traveller elapsedMs =>
      obtain ⟨w1, hrun, hmore⟩ := h.roundTrip hfair
      refine ⟨_, w1, hrun.run, hrun, ?_⟩
      intro htrip
      obtain rfl := Option.some.inj htrip
      exact hmore

/-- What a side has closed, with all that is outstanding, in a state of the two endpoints. -/
structure Progressing (side : Side) (data : Bytes) (w : World) : Prop where
  running : WorldRunning w
  closing : Closing data 0 (w.endpoint side)

/-- A fair phase acknowledges a symbol if it is a round trip and not all are acknowledged yet. -/
theorem Progressing.phase {phase : Phase} (h : Progressing side data w) (hfair : w.Fair phase)
    (hphase : w.phase phase = .ok w1) :
    Progressing side data w1 ∧
      (w.endpoint side).connection.sender.sndUna
        ≤ (w1.endpoint side).connection.sender.sndUna ∧
      (decide (phase.traveller? = some side) = true →
        (w.endpoint side).connection.sender.sndUna < data.length + 2 →
        (w.endpoint side).connection.sender.sndUna
          < (w1.endpoint side).connection.sender.sndUna) := by
  obtain ⟨ops, w2, hphase2, hrun, hmore⟩ := h.running.inv.phase hfair side
  rw [hphase, Except.ok.injEq] at hphase2
  subst hphase2
  have hclosing : Closing data (w.endpoint side).connection.sender.sndUna (w.endpoint side) :=
    { h.closing with una := le_refl _ }
  have hafter := hclosing.run h.running.inv hrun
  have hinv := (h.running.inv side).out.inv
  rw [h.closing.written] at hinv
  have hfilled := h.running.filled side h.closing.closed
  refine ⟨⟨h.running.run hrun, { hafter with una := Nat.zero_le _ }⟩, hafter.una, ?_⟩
  intro htrip hlt
  exact hmore (of_decide_eq_true htrip) (h.closing.outstanding hfilled hinv hlt)

/-- Once a side has closed its stream, every run with as many undisturbed round trips of that
side as the stream has symbols ends with the stream complete at the peer and acknowledged. -/
theorem transfer_completes (h : Reachable w) (side : Side)
    (hclosed : (w.endpoint side).connection.sender.outbound.closed = true) {phases : List Phase}
    (hrun : Exec.RunWhile World.Fair World.phase w phases w1)
    (hmany : (w.endpoint side).written.length + 2 ≤ roundTrips side phases) :
    (w1.endpoint side).connection.isFinished = true ∧
      (w1.endpoint side.peer).connection.receiver.output.closed = true ∧
      (w1.endpoint side.peer).assembled = (w.endpoint side).written := by
  have hstart : Progressing side (w.endpoint side).written w :=
    ⟨worldRunning_of_reachable h, ⟨rfl, hclosed, Nat.zero_le _⟩⟩
  have hmeasure := hrun.measure_le (Progressing side (w.endpoint side).written)
    (fun w => (w.endpoint side).connection.sender.sndUna) ((w.endpoint side).written.length + 2)
    (fun phase => decide (phase.traveller? = some side))
    (fun _ _ _ h hfair hphase => h.phase hfair hphase) hstart
  have hend : Progressing side (w.endpoint side).written w1 :=
    hrun.invariant _ (fun _ _ _ h hfair hphase => (h.phase hfair hphase).1) hstart
  unfold roundTrips at hmany
  have huna : (w.endpoint side).written.length + 2
      ≤ (w1.endpoint side).connection.sender.sndUna := by
    omega
  exact Closing.finished { hend.closing with una := huna } (hend.running.inv side)

/-- Of five bytes two have arrived; `b` reads between the round trips. -/
def smallPhases : List Phase :=
  (List.replicate 7 [.step (.read .b 2), .roundTrip .a 1000]).flatten

theorem transfer_completes_full_window : ∃ w w1, Reachable w ∧
    (w.endpoint .b).assembled = [1, 2] ∧
    Exec.RunWhile World.Fair World.phase w smallPhases w1 ∧
    (w1.endpoint .a).connection.isFinished = true ∧
      (w1.endpoint .b).connection.receiver.output.closed = true ∧
      (w1.endpoint .b).assembled = [1, 2, 3, 4, 5] := by
  obtain ⟨w, hrun, hclosed, hwritten, hassembled, w1, hphases, -⟩ :
      ∃ w, smallRun fullWindow = .ok w ∧
        (w.endpoint .a).connection.sender.outbound.closed = true ∧
        (w.endpoint .a).written = [1, 2, 3, 4, 5] ∧ (w.endpoint .b).assembled = [1, 2] ∧
        ∃ w1, Exec.run (Exec.guarded World.Fair World.phase) w smallPhases = .ok w1 ∧ True := by
    decide +kernel
  have hwhile := Exec.RunWhile.of_guarded hphases
  have hmany : (w.endpoint .a).written.length + 2 ≤ roundTrips .a smallPhases := by
    rw [hwritten]
    decide
  have hreach := reachable_of_smallRun hrun
  refine ⟨w, w1, hreach, hassembled, hwhile, ?_⟩
  rw [← hwritten]
  exact transfer_completes hreach .a hclosed hwhile hmany

/-! ## The transfer can always be completed -/

/-- Both receivers have some capacity. -/
def World.Roomy (w : World) : Prop :=
  ∀ side, 0 < (w.endpoint side).connection.receiver.output.capacity

/-- No step changes the capacity of a receiver. -/
theorem capacity_step {op : NetOp} (hinv : WorldInv w) (hstep : w.step op = .ok w1) (side : Side) :
    (w1.endpoint side).connection.receiver.output.capacity
      = (w.endpoint side).connection.receiver.output.capacity :=
  World.step_connections
    (fun side connection => connection.receiver.output.capacity
      = (w.endpoint side).connection.receiver.output.capacity)
    (fun side _ _ _ hp _ => hp.capacity (hinv side).connInv) (fun _ => rfl) hstep side

theorem capacity_run {ops : List NetOp} (hinv : WorldInv w)
    (hrun : Exec.RunWhile World.Allowed World.step w ops w1) (side : Side) :
    (w1.endpoint side).connection.receiver.output.capacity
      = (w.endpoint side).connection.receiver.output.capacity := by
  induction hrun with
  | nil w => rfl
  | cons hallowed hstep _ ih =>
      rw [ih (hinv.step_ok hallowed hstep), capacity_step hinv hstep]

theorem capacity_start {config : Side → TcpConnectionConfig} (h : start config = .ok w)
    (side : Side) : (w.endpoint side).connection.receiver.output.capacity
      = (config side).receiverCapacity := by
  obtain ⟨-, -, -, hreceiver⟩ := TcpConnection.new_eq_ok (new_of_start h side)
  rw [TcpReceiver.new_ok, Except.ok.injEq] at hreceiver
  rw [← hreceiver]
  rfl

theorem roomy_run {ops : List NetOp} (hinv : WorldInv w) (h : w.Roomy)
    (hrun : Exec.RunWhile World.Allowed World.step w ops w1) : w1.Roomy := by
  intro side
  rw [capacity_run hinv hrun]
  exact h side

/-- Whoever reads a byte of a stream with some capacity has room for another one. -/
theorem available_of_pop {stream : ByteStream} (hcapacity : 0 < stream.capacity) :
    0 < (stream.pop 1).1.availableCapacity := by
  have hpushed := (stream.pop 1).1.pushed_eq
  rw [ByteStream.pop_pushed, stream.pushed_eq, ByteStream.pop_popped] at hpushed
  have hle := stream.buffered_le
  unfold ByteStream.availableCapacity
  rw [ByteStream.pop_capacity]
  by_cases hempty : stream.bytesBuffered = 0
  · omega
  · have hne : (stream.pop 1).2 ≠ [] :=
      stream.pop_ne_nil 1 Nat.one_pos (Nat.pos_of_ne_zero hempty)
    have hsome := List.length_pos_of_ne_nil hne
    omega

theorem step_read (side : Side) (h : w.Roomy) :
    ∃ w1, w.step (.read side 1) = .ok w1 ∧ w1.endpoint side.peer = w.endpoint side.peer ∧
      0 < (w1.endpoint side).connection.receiver.output.availableCapacity := by
  refine ⟨_, rfl, emit_endpoint_peer, ?_⟩
  rw [emit_endpoint_self]
  exact available_of_pop (h side)

/-- After a read at the peer and one round trip, a symbol more is acknowledged. -/
theorem Progressing.advance (h : Progressing side data w) (hroomy : w.Roomy) :
    ∃ ops w1, Exec.RunWhile World.Allowed World.step w ops w1 ∧ Progressing side data w1 ∧
      min (data.length + 2) ((w.endpoint side).connection.sender.sndUna + 1)
        ≤ (w1.endpoint side).connection.sender.sndUna := by
  obtain ⟨w1, hread, hsame, hroom⟩ := step_read side.peer hroomy
  rw [side.peer_peer] at hsame
  have hfair : w.Fair (.step (.read side.peer 1)) := trivial
  have h1 : Progressing side data w1 := (h.phase hfair hread).1
  have hready : w1.Fair
      (.roundTrip side (w1.endpoint side).connection.sender.timer.timeoutMs) := by
    refine ⟨?_, Or.inl hroom⟩
    intro timeout htimeout
    unfold Timer.timeout? at htimeout
    split_ifs at htimeout
    · exact le_of_eq (Option.mem_some_iff.mp htimeout).symm
    · exact absurd htimeout (by simp)
  obtain ⟨ops, w2, hphase, hrun, -⟩ := h1.running.inv.phase hready side
  obtain ⟨h2, hle, hlt⟩ := h1.phase hready hphase
  refine ⟨.read side.peer 1 :: ops, w2, .cons trivial hread hrun, h2, ?_⟩
  rw [← hsame]
  have hmore := hlt (by simp [Phase.traveller?])
  omega

/-- Reads and round trips complete the transfer. -/
theorem Progressing.finish (h : Progressing side data w) (hroomy : w.Roomy) :
    ∃ ops w1, Exec.RunWhile World.Allowed World.step w ops w1 ∧
      Closing data (data.length + 2) (w1.endpoint side) := by
  have hmore : ∀ w : World, Progressing side data w ∧ w.Roomy →
      (w.endpoint side).connection.sender.sndUna < data.length + 2 →
      ∃ ops w1, Exec.RunWhile World.Allowed World.step w ops w1 ∧
        (Progressing side data w1 ∧ w1.Roomy) ∧
        (w.endpoint side).connection.sender.sndUna
          < (w1.endpoint side).connection.sender.sndUna := by
    rintro w ⟨hw, hroomy⟩ hlt
    obtain ⟨ops, w1, hrun, h1, hle⟩ := hw.advance hroomy
    exact ⟨ops, w1, hrun, ⟨h1, roomy_run hw.running.inv hroomy hrun⟩, by omega⟩
  obtain ⟨ops, w1, hrun, ⟨h1, -⟩, huna⟩ := Exec.exists_run_of_climb _ _ _ hmore ⟨h, hroomy⟩
  exact ⟨ops, w1, hrun, { h1.closing with una := huna }⟩

/-- Closing a stream closes it and lets the peer alone. -/
theorem WorldInv.closes (h : WorldInv w) (side : Side) :
    ∃ w1, w.step (.close side) = .ok w1 ∧ Closing (w.endpoint side).written 0 (w1.endpoint side) ∧
      w1.endpoint side.peer = w.endpoint side.peer := by
  obtain ⟨sender1, segments, hclose, -⟩ := (h side).close
  have hclosed : sender1.outbound.closed = true :=
    (Performed.flushed .flushSender hclose (Or.inl rfl)).closed
      (Prepared.close.inv (h side).connInv) rfl
  refine ⟨w.emit side
    { w.endpoint side with connection := { (w.endpoint side).connection with sender := sender1 } }
    (w.endpoint side).connection.sender.sndNxt segments, ?_, ?_, emit_endpoint_peer⟩
  · rw [World.step]
    dsimp only
    rw [hclose]
    rfl
  · rw [emit_endpoint_self]
    exact ⟨rfl, hclosed, Nat.zero_le _⟩

/-- From every reachable state of two connections whose receivers have some capacity, there is a
run that closes both streams and completes both transfers. -/
theorem always_completes (h : Reachable w) (hroomy : w.Roomy) :
    ∃ ops w1, Exec.RunWhile World.Allowed World.step w ops w1 ∧
      ∀ side : Side, (w1.endpoint side).connection.isFinished = true ∧
        (w1.endpoint side.peer).connection.receiver.output.closed = true ∧
        (w1.endpoint side.peer).assembled = (w.endpoint side).written := by
  have hrunning := worldRunning_of_reachable h
  -- both sides close
  obtain ⟨w1, hstep1, ha1, hb1⟩ := hrunning.inv.closes .a
  have hallowed1 : w.Allowed (.close .a) := trivial
  have hrunning1 := hrunning.step hallowed1 hstep1
  obtain ⟨w2, hstep2, hb2, -⟩ := hrunning1.inv.closes .b
  have hallowed2 : w1.Allowed (.close .b) := trivial
  have hrunning2 := hrunning1.step hallowed2 hstep2
  have ha2 := ha1.step hrunning1.inv hstep2
  rw [show w1.endpoint .b = w.endpoint .b from hb1] at hb2
  have hboth := (Exec.RunWhile.cons hallowed1 hstep1 (.cons hallowed2 hstep2 (.nil w2)))
  have hroomy2 := roomy_run hrunning.inv hroomy hboth
  -- one after the other completes its transfer
  obtain ⟨opsA, w3, hrunA, ha3⟩ := Progressing.finish ⟨hrunning2, ha2⟩ hroomy2
  have hrunning3 := hrunning2.run hrunA
  have hb3 := hb2.run hrunning2.inv hrunA
  obtain ⟨opsB, w4, hrunB, hb4⟩ :=
    Progressing.finish ⟨hrunning3, hb3⟩ (roomy_run hrunning2.inv hroomy2 hrunA)
  have ha4 := ha3.run hrunning3.inv hrunB
  have hinv4 := (hrunning3.run hrunB).inv
  refine ⟨.close .a :: .close .b :: (opsA ++ opsB), w4,
    .cons hallowed1 hstep1 (.cons hallowed2 hstep2 (hrunA.append hrunB)), ?_⟩
  intro side
  cases side with
  | a => exact ha4.finished (hinv4 .a)
  | b => exact hb4.finished (hinv4 .b)

/-- The third byte was lost, and nothing was written at `b`. -/
theorem always_completes_full_window : ∃ w, Reachable w ∧ w.Roomy ∧
    (w.endpoint .a).written = [1, 2, 3, 4, 5] ∧ (w.endpoint .b).written = [] ∧
    ∃ ops w1, Exec.RunWhile World.Allowed World.step w ops w1 ∧
      ∀ side : Side, (w1.endpoint side).connection.isFinished = true ∧
        (w1.endpoint side.peer).connection.receiver.output.closed = true ∧
        (w1.endpoint side.peer).assembled = (w.endpoint side).written := by
  obtain ⟨w, hrun, ha, hb, hwrittenA, hwrittenB⟩ : ∃ w, smallRun fullWindow = .ok w ∧
      0 < (w.endpoint .a).connection.receiver.output.capacity ∧
      0 < (w.endpoint .b).connection.receiver.output.capacity ∧
      (w.endpoint .a).written = [1, 2, 3, 4, 5] ∧ (w.endpoint .b).written = [] := by
    decide +kernel
  have hroomy : w.Roomy := by
    intro side
    cases side with
    | a => exact ha
    | b => exact hb
  have hreach := reachable_of_smallRun hrun
  exact ⟨w, hreach, hroomy, hwrittenA, hwrittenB, always_completes hreach hroomy⟩

end Network

end Minnow
