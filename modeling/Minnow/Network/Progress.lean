import Minnow.Network.Safety

set_option autoImplicit false

/-! # Progress

`round_trip_progress`: as long as something is outstanding, the timer runs, and one round
trip after its expiry frees at least one sequence number, provided the receiver has room or
none is needed. The proof follows the three segments: the retransmission starts at `SND.UNA`,
so either the receiver has already assembled more than that, or it assembles the next symbol;
in both cases its answer acknowledges more than `SND.UNA`.
-/

namespace Minnow

namespace Network

open TcpSender Reassembler TcpConnection

variable {w : World} {e p : Endpoint} {mine theirs : List Packet} {sender : TcpSender}
  {written read : Bytes} {receiver : TcpReceiver} {sent feedback : List Packet} {k : Nat}

/-! ## Distances inside the flight -/

/-- Whatever the sender may have to repeat is near the receiver's window. -/
theorem Link.near_pushed (h : Link sender written receiver read sent feedback)
    (hlower : sender.sndUna ≤ k) (hupper : k ≤ sender.sndNxt) :
    absDiff k (receiver.output.bytesPushed + 1) ≤ 2 ^ 31 - 1 := by
  have hflight := h.inv.flight_le
  have hacked := h.acked
  have hpushed := h.pushed_le
  have hnxt := h.inv.nxt_eq
  have hbound : receiver.acknowledged ≤ receiver.output.bytesPushed + 2 := by
    cases hisn : receiver.isn with
    | none =>
        rw [TcpReceiver.acknowledged_of_none hisn]
        exact Nat.zero_le _
    | some isn =>
        have hclosed : receiver.output.closed.toNat ≤ 1 := Bool.toNat_le _
        rw [TcpReceiver.acknowledged_of_some hisn]
        omega
  have hdist : absDiff k (receiver.output.bytesPushed + 1) < 2 ^ 31 := by
    apply Wrap32.absDiff_lt_iff.mpr
    omega
  omega

/-- Whatever the receiver acknowledges now is near `SND.NXT`. -/
theorem Pair.near_ackno (h : Pair e p mine theirs) :
    ∀ k ∈ p.ackno, absDiff k e.connection.sender.sndNxt ≤ 2 ^ 31 - 1 := by
  intro k hk
  have hflight := h.out.inv.flight_le
  have hacked := h.out.acked
  have hle := h.out.acknowledged_le
  unfold Endpoint.ackno at hk
  cases hisn : p.connection.receiver.isn with
  | none =>
      rw [hisn] at hk
      exact absurd hk (by simp)
  | some isn =>
      rw [hisn] at hk
      obtain rfl := Option.mem_some_iff.mp hk
      rw [h.out.absoluteAckno_eq hisn]
      have hdist :
          absDiff p.connection.receiver.acknowledged e.connection.sender.sndNxt < 2 ^ 31 := by
        apply Wrap32.absDiff_lt_iff.mpr
        omega
      exact Nat.le_sub_one_of_lt hdist

/-- Once the receiver has heard SYN, the packets of an endpoint carry what it acknowledges. -/
theorem Pair.ackno_eq (h : Pair e p mine theirs)
    (hpos : 0 < e.connection.receiver.acknowledged) :
    e.ackno = some e.connection.receiver.acknowledged := by
  unfold Endpoint.ackno
  cases hisn : e.connection.receiver.isn with
  | none =>
      rw [TcpReceiver.acknowledged_of_none hisn] at hpos
      exact absurd hpos (lt_irrefl 0)
  | some isn =>
      rw [Option.map_some, h.inc.absoluteAckno_eq hisn]

/-! ## The round trip -/

/-- The timer of a sender with outstanding segments runs, and expires when its timeout has
passed once more. -/
theorem expires_of_outstanding (h : sender.Inv written) (hout : sender.outstanding ≠ []) :
    ∃ timeout, sender.timer.timeout? = some timeout ∧
      ∀ elapsedMs, timeout ≤ elapsedMs → sender.Expires elapsedMs := by
  have hrunning := h.timed.running_iff.mpr hout
  refine ⟨sender.timer.timeoutMs, ?_, ?_⟩
  · rw [Timer.timeout?, if_pos hrunning]
  · intro elapsedMs hlate
    have htimeout := h.timed.timeout_eq hrunning
    have hpersist := h.backoff.persist_le
    have hrto := h.backoff.rto_le
    have hword := sender.config.maxTimerIntervalMs.toNat_lt
    have hmax : sender.timer.timeoutMs ≤ u64Max := by
      rw [htimeout]
      unfold u64Max
      split_ifs <;> omega
    refine ⟨hrunning, ?_⟩
    unfold saturatingAdd
    omega

/-- The retransmission of the front makes the receiver answer beyond `SND.UNA`. -/
theorem Pair.answer {packet : Packet} (h : Pair e p mine theirs) (hp : packet ∈ theirs)
    (hreach : e.InReach packet) (hseqno : packet.seqno = p.connection.sender.sndUna)
    (hpos : 0 < packet.segment.toSenderMessage.sequenceLength)
    (hroom : 0 < e.connection.receiver.output.availableCapacity ∨ packet.segment.payload = []) :
    ∃ connection1 answer rest,
      e.connection.receiveSegment packet.segment = .ok (connection1, answer :: rest) ∧
      Pair { e with connection := connection1 } p
        (mine ++ packets ({ e with connection := connection1 } : Endpoint).ackno
          e.connection.sender.sndNxt (answer :: rest)) theirs ∧
      p.connection.sender.sndUna < connection1.receiver.acknowledged := by
  obtain ⟨connection1, segments, hrun, hd⟩ := h.receiveSegment hp hreach
  have hacked := h.inc.acked
  have hmore : p.connection.sender.sndUna < connection1.receiver.acknowledged := by
    by_cases hdue : p.connection.sender.sndUna < e.connection.receiver.acknowledged
    · -- the segment was assembled before, and its acknowledgment was lost
      exact lt_of_lt_of_le hdue hd.acknowledged_le
    · have hstart : packet.seqno = e.connection.receiver.acknowledged := by omega
      have hlt := hd.acknowledged_lt hpos hstart hroom
      omega
  have hknown : connection1.receiver.isn ≠ none := by
    intro hnone
    rw [TcpReceiver.acknowledged_of_none hnone] at hmore
    exact absurd hmore (Nat.not_lt_zero _)
  obtain ⟨answer, rest, rfl⟩ := List.exists_cons_of_ne_nil (hd.answered hpos hknown)
  exact ⟨connection1, answer, rest, hrun, hd.pair, hmore⟩

/-- In every reachable state with something outstanding: if the receiver has room or the
front carries no payload, then expiry, delivery and answer free at least one symbol. -/
theorem round_trip_progress (h : Reachable w) (side : Side)
    (hout : (w.endpoint side).connection.sender.outstanding ≠ [])
    (hroom : 0 < (w.endpoint side.peer).connection.receiver.output.availableCapacity ∨
      ∀ front ∈ (w.endpoint side).connection.sender.outstanding.head?, front.message.payload = []) :
    ∃ timeout, (w.endpoint side).connection.sender.timer.timeout? = some timeout ∧
      ∀ elapsedMs, timeout ≤ elapsedMs →
        ∃ connection1 segment peer1 answer rest connection2 segments,
          (w.endpoint side).connection.tick elapsedMs = .ok (connection1, [segment]) ∧
          (w.endpoint side.peer).connection.receiveSegment segment = .ok (peer1, answer :: rest) ∧
          connection1.receiveSegment answer = .ok (connection2, segments) ∧
          (w.endpoint side).connection.sender.sndUna < connection2.sender.sndUna := by
  have hpair := worldInv_of_reachable h side
  obtain ⟨timeout, htimeout, hexpires⟩ := expires_of_outstanding hpair.out.inv hout
  refine ⟨timeout, htimeout, ?_⟩
  intro elapsedMs hlate
  -- the timer expires, and the front goes out again
  obtain ⟨sender1, segments1, htick, huna, hfront, hpair1⟩ := hpair.tick elapsedMs
  obtain ⟨front, others, hqueue, rfl⟩ := hfront (hexpires elapsedMs hlate)
  have hmem : front ∈ (w.endpoint side).connection.sender.outstanding := by
    rw [hqueue]
    exact List.mem_cons_self
  have hpos : 0 < front.sequenceLength := (hpair.out.inv.queue.mem hmem).2.1
  have hpayload : 0 < (w.endpoint side.peer).connection.receiver.output.availableCapacity ∨
      front.message.payload = [] :=
    hroom.imp_right (fun hempty => hempty front (by rw [hqueue]; rfl))
  -- the peer assembles it, unless it has done so before, and answers
  have hnear1 : (w.endpoint side.peer).InReach
      { segment := buildSegment (w.endpoint side).connection.localPort
          (w.endpoint side).connection.peerPort front.message
          (w.endpoint side).connection.receiver.send
        seqno := (w.endpoint side).connection.sender.sndUna
        ackno := (w.endpoint side).ackno } :=
    ⟨hpair.out.near_pushed (le_refl _) hpair.out.inv.una_le, hpair.swap.near_ackno⟩
  obtain ⟨peer1, answer, rest, hrun1, hpair2, hmore⟩ := hpair1.swap.answer
    (List.mem_append_right _ List.mem_cons_self) hnear1 huna.symm hpos hpayload
  dsimp only at hmore
  -- the answer is accepted
  have hanswer := hpair2.out.sent _ (List.mem_append_right _ List.mem_cons_self)
  have hlower : peer1.sender.sndUna ≤ (w.endpoint side.peer).connection.sender.sndNxt :=
    calc peer1.sender.sndUna
        ≤ (w.endpoint side).connection.receiver.acknowledged := hpair2.out.acked
      _ ≤ (w.endpoint side.peer).connection.sender.sndNxt := hpair.inc.acknowledged_le
  have hupper : (w.endpoint side.peer).connection.sender.sndNxt ≤ peer1.sender.sndNxt :=
    le_trans (Nat.le_add_right _ _) hanswer.end_le
  obtain ⟨connection2, segments2, hrun2, hd⟩ := hpair2.swap.receiveSegment
    (List.mem_append_right _ List.mem_cons_self)
    ⟨hpair2.out.near_pushed hlower hupper, hpair2.swap.near_ackno⟩
  refine ⟨_, _, peer1, answer, rest, connection2, segments2, htick, hrun1, hrun2, ?_⟩
  have hacked := hd.acked peer1.receiver.acknowledged
    (hpair2.ackno_eq (lt_of_le_of_lt (Nat.zero_le _) hmore))
  omega

/-- The third byte was lost, and the reader has made room for it. -/
theorem round_trip_progress_lost_byte : ∃ w, Reachable w ∧
    (w.endpoint .a).connection.sender.outstanding.map OutstandingSegment.absoluteStart = [3] ∧
    ∃ timeout, (w.endpoint .a).connection.sender.timer.timeout? = some timeout ∧
      ∀ elapsedMs, timeout ≤ elapsedMs →
        ∃ connection1 segment peer1 answer rest connection2 segments,
          (w.endpoint .a).connection.tick elapsedMs = .ok (connection1, [segment]) ∧
          (w.endpoint .b).connection.receiveSegment segment = .ok (peer1, answer :: rest) ∧
          connection1.receiveSegment answer = .ok (connection2, segments) ∧
          (w.endpoint .a).connection.sender.sndUna < connection2.sender.sndUna := by
  obtain ⟨w, hrun, hqueue, hroom⟩ : ∃ w, smallRun (fullWindow ++ [.read .b 2]) = .ok w ∧
      (w.endpoint .a).connection.sender.outstanding.map OutstandingSegment.absoluteStart = [3] ∧
      0 < (w.endpoint .b).connection.receiver.output.availableCapacity := by
    decide +kernel
  have hreach := reachable_of_smallRun hrun
  have hout : (w.endpoint .a).connection.sender.outstanding ≠ [] := by
    intro hnil
    rw [hnil] at hqueue
    exact absurd hqueue (by simp)
  exact ⟨w, hreach, hqueue, round_trip_progress hreach .a hout (Or.inl hroom)⟩

end Network

end Minnow
