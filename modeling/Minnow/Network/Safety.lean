import Minnow.Network.Pair

set_option autoImplicit false

/-! # What holds between two connections

Whatever the network does with the segments, within the distances that 32-bit sequence
numbers can bridge:

* `stream_safety`: each receiver has assembled a prefix of what the other side has written,
  closes it only when it is complete, and no connection is reset;
* `ack_soundness`: no sender frees what the other side has not assembled.
-/

namespace Minnow

namespace Network

open TcpSender Reassembler TcpConnection

/-- The invariant of the two connections, seen from either side. -/
def WorldInv (w : World) : Prop :=
  ∀ side : Side, Pair (w.endpoint side) (w.endpoint side.peer) (w.sent side) (w.sent side.peer)

variable {w w1 : World} {side : Side} {endpoint : Endpoint} {first : Nat}
  {segments : List TcpSegment} {config : Side → TcpConnectionConfig} {op : NetOp}

theorem WorldInv.of_pair (side : Side)
    (h : Pair (w.endpoint side) (w.endpoint side.peer) (w.sent side) (w.sent side.peer)) :
    WorldInv w := by
  intro other
  rcases side.eq_or_eq_peer other with rfl | rfl
  · exact h
  · rw [Side.peer_peer]
    exact h.swap

theorem WorldInv.emit (hpair : Pair endpoint (w.endpoint side.peer)
      (w.sent side ++ packets endpoint.ackno first segments) (w.sent side.peer)) :
    WorldInv (w.emit side endpoint first segments) := by
  apply WorldInv.of_pair side
  rw [emit_endpoint_self, emit_endpoint_peer, emit_sent_self, emit_sent_peer]
  exact hpair

theorem worldInv_start (hcrossed : Crossed config) (h : start config = .ok w) : WorldInv w := by
  obtain ⟨a, ha, h⟩ := Exec.bind_eq_ok.mp h
  obtain ⟨b, hb, h⟩ := Exec.bind_eq_ok.mp h
  obtain rfl := Except.ok.inj h
  obtain ⟨halocal, hapeer, hasender, hareceiver⟩ := TcpConnection.new_eq_ok ha
  obtain ⟨hblocal, hbpeer, hbsender, hbreceiver⟩ := TcpConnection.new_eq_ok hb
  have hab : a.localPort = b.peerPort := by
    rw [halocal, hbpeer]
    exact hcrossed .a
  have hba : a.peerPort = b.localPort := by
    rw [hapeer, hblocal]
    exact (hcrossed .b).symm
  apply WorldInv.of_pair .a
  exact
    { out := Link.new hasender hbreceiver
      inc := Link.new hbsender hareceiver
      crossed := ⟨hab, hba⟩
      mineAddressed := fun _ hp => absurd hp List.not_mem_nil
      theirsAddressed := fun _ hp => absurd hp List.not_mem_nil }

/-- Every step the assumptions allow returns a value and keeps the invariant. -/
theorem WorldInv.step (h : WorldInv w) (hallowed : w.Allowed op) :
    ∃ w1, w.step op = .ok w1 ∧ WorldInv w1 := by
  cases op with
  | connect side =>
      obtain ⟨sender1, segments, hrun, -, -, -, hpair⟩ := (h side).flushSender
      refine ⟨_, ?_, WorldInv.emit hpair⟩
      rw [World.step, TcpConnection.connect]
      dsimp only
      rw [hrun]
      rfl
  | write side data =>
      obtain ⟨sender1, segments, hrun, hpair⟩ := (h side).write data hallowed
      refine ⟨_, ?_, WorldInv.emit hpair⟩
      rw [World.step]
      dsimp only
      rw [hrun]
      rfl
  | close side =>
      obtain ⟨sender1, segments, hrun, hpair⟩ := (h side).close
      refine ⟨_, ?_, WorldInv.emit hpair⟩
      rw [World.step]
      dsimp only
      rw [hrun]
      rfl
  | tick side elapsedMs =>
      obtain ⟨sender1, segments, hrun, -, -, hpair⟩ := (h side).tick elapsedMs
      refine ⟨_, ?_, WorldInv.emit hpair⟩
      rw [World.step]
      dsimp only
      rw [hrun]
      rfl
  | read side len =>
      refine ⟨_, rfl, WorldInv.emit ?_⟩
      rw [packets, List.append_nil]
      exact (h side).read len
  | deliver side i =>
      rw [World.step]
      -- any packet of the peer, old or new, or none when the index is past the last one
      cases hpacket : (w.sent side.peer)[i]? with
      | none => exact ⟨w, rfl, h⟩
      | some packet =>
          have hreach := hallowed packet hpacket
          obtain ⟨connection1, segments, hrun, hd⟩ :=
            (h side).receiveSegment (List.mem_of_getElem? hpacket) hreach
          refine ⟨_, ?_, WorldInv.emit hd.pair⟩
          dsimp only
          rw [hrun]
          rfl

theorem worldInv_of_reachable (h : Reachable w) : WorldInv w := by
  obtain ⟨config, w0, ops, hcrossed, hstart, hrun⟩ := h
  apply hrun.invariant WorldInv ?_ (worldInv_start hcrossed hstart)
  intro w1 op w2 hinv hallowed hstep
  obtain ⟨w3, hstep3, hinv3⟩ := hinv.step hallowed
  rw [hstep, Except.ok.injEq] at hstep3
  rw [hstep3]
  exact hinv3

/-! ## A run

Side `a` numbers its symbols from just below a multiple of 2^32 on, and `b` has room for two
bytes. -/

def smallConfig : Side → TcpConnectionConfig
  | .a =>
      { localPort := 1000, peerPort := 2000, senderCapacity := 8, receiverCapacity := 8
        isn := ⟨4294967294⟩, senderConfig := ⟨100, 1000, 4⟩ }
  | .b =>
      { localPort := 2000, peerPort := 1000, senderCapacity := 8, receiverCapacity := 2
        isn := ⟨7⟩, senderConfig := ⟨100, 1000, 4⟩ }

/-- Perform the operations, stopping where the assumptions do not hold. -/
def smallRun (ops : List NetOp) : Exec World := do
  let w ← start smallConfig
  Exec.run (Exec.guarded World.Allowed World.step) w ops

/-- Five bytes are written, the first segment with data arrives twice, and `b` has no room for
the third byte. -/
def fullWindow : List NetOp :=
  [.connect .a, .deliver .b 0, .deliver .a 0, .deliver .b 1, .write .a [1, 2, 3, 4, 5], .close .a,
    .deliver .b 2, .deliver .b 2, .deliver .a 1]

/-- The reader makes room, and the transfer goes on to its end. -/
def wholeTransfer : List NetOp :=
  fullWindow ++ [.read .b 2, .tick .a 100, .deliver .b 4, .deliver .a 3, .read .b 2, .tick .a 100,
    .deliver .b 5, .deliver .a 4, .deliver .b 7, .deliver .a 5, .deliver .b 8, .deliver .a 6]

theorem reachable_of_smallRun {ops : List NetOp} (h : smallRun ops = .ok w) : Reachable w := by
  obtain ⟨w0, hstart, hrun⟩ := Exec.bind_eq_ok.mp h
  refine ⟨smallConfig, w0, ops, ?_, hstart, Exec.RunWhile.of_guarded hrun⟩
  intro side
  cases side <;> rfl

/-! ## The streams -/

/-- The bytes the endpoint has assembled: those it has read, and those it may read. -/
def Endpoint.assembled (endpoint : Endpoint) : Bytes :=
  endpoint.read ++ endpoint.connection.receiver.output.contents

theorem Link.assembled_eq {e p : Endpoint} {sent feedback : List Packet}
    (h : Link e.connection.sender e.written p.connection.receiver p.read sent feedback) :
    p.assembled = e.written.take p.connection.receiver.output.bytesPushed := by
  have hassembled := h.agrees.assembled
  have hle := h.pushed_le
  calc p.assembled
      = (e.connection.sender.transmitted e.written).take
          p.connection.receiver.output.bytesPushed := hassembled
    _ = e.written.take p.connection.receiver.output.bytesPushed := by
        rw [transmitted, List.take_take, min_eq_left hle]

/-- A receiver that is closed has everything. -/
theorem Link.complete {e p : Endpoint} {sent feedback : List Packet}
    (h : Link e.connection.sender e.written p.connection.receiver p.read sent feedback)
    (hclosed : p.connection.receiver.output.closed = true) :
    e.connection.sender.outbound.closed = true ∧ p.assembled = e.written := by
  obtain ⟨hfin, hall⟩ := h.of_closed hclosed
  obtain ⟨hended, hpopped⟩ := h.inv.fin_last hfin
  refine ⟨hended, ?_⟩
  rw [h.assembled_eq, hall, hpopped, List.take_length]

/-- In every reachable state: what one side has assembled is a prefix of what the other side
has written, and complete if it is closed; no stream is in the error state, no segment
carries RST, and no step that the assumptions allow stops abnormally. -/
theorem stream_safety (h : Reachable w) (side : Side) :
    (w.endpoint side.peer).assembled <+: (w.endpoint side).written ∧
      ((w.endpoint side.peer).connection.receiver.output.closed = true →
        (w.endpoint side).connection.sender.outbound.closed = true ∧
          (w.endpoint side.peer).assembled = (w.endpoint side).written) ∧
      (w.endpoint side).connection.sender.outbound.error = false ∧
      (w.endpoint side).connection.receiver.output.error = false ∧
      (∀ packet ∈ w.sent side, packet.segment.header.rst = false) ∧
      ∀ op, w.Allowed op → ∃ w1, w.step op = .ok w1 := by
  have hinv := worldInv_of_reachable h
  have hout := (hinv side).out
  refine ⟨?_, hout.complete, hout.healthy, (hinv side).inc.intact, ?_, ?_⟩
  · rw [hout.assembled_eq]
    exact List.take_prefix _ _
  · exact fun packet hp => (hout.sent packet hp).rst
  · intro op hallowed
    obtain ⟨w1, hstep, -⟩ := hinv.step hallowed
    exact ⟨w1, hstep⟩

/-- Two of five bytes have arrived, one of them twice. -/
theorem stream_safety_full_window : ∃ w, Reachable w ∧ (w.endpoint .b).assembled = [1, 2] ∧
    (w.endpoint .b).assembled <+: (w.endpoint .a).written ∧
      ((w.endpoint .b).connection.receiver.output.closed = true →
        (w.endpoint .a).connection.sender.outbound.closed = true ∧
          (w.endpoint .b).assembled = (w.endpoint .a).written) ∧
      (w.endpoint .a).connection.sender.outbound.error = false ∧
      (w.endpoint .a).connection.receiver.output.error = false ∧
      (∀ packet ∈ w.sent .a, packet.segment.header.rst = false) ∧
      ∀ op, w.Allowed op → ∃ w1, w.step op = .ok w1 := by
  obtain ⟨w, hrun, hassembled⟩ : ∃ w, smallRun fullWindow = .ok w ∧
      (w.endpoint .b).assembled = [1, 2] := by
    decide +kernel
  have hreach := reachable_of_smallRun hrun
  exact ⟨w, hreach, hassembled, stream_safety hreach .a⟩

/-! ## The acknowledgments -/

/-- In every reachable state: what a sender has freed was acknowledged by the other side,
and that lies behind what was transmitted; so a sender that is finished knows that
everything arrived, and an established connection has exchanged both initial numbers. -/
theorem ack_soundness (h : Reachable w) (side : Side) :
    ((w.endpoint side.peer).connection.receiver.isn = none →
        (w.endpoint side).connection.sender.sndUna = 0) ∧
      ((w.endpoint side.peer).connection.receiver.isn ≠ none →
        (w.endpoint side).connection.sender.sndUna
            ≤ 1 + (w.endpoint side.peer).connection.receiver.output.bytesPushed +
              (w.endpoint side.peer).connection.receiver.output.closed.toNat ∧
          1 + (w.endpoint side.peer).connection.receiver.output.bytesPushed +
              (w.endpoint side.peer).connection.receiver.output.closed.toNat
            ≤ (w.endpoint side).connection.sender.sndNxt) ∧
      ((w.endpoint side).connection.isFinished = true →
        (w.endpoint side.peer).connection.receiver.output.closed = true ∧
          (w.endpoint side.peer).assembled = (w.endpoint side).written) ∧
      ((w.endpoint side).connection.isEstablished = true →
        (w.endpoint side.peer).connection.receiver.isn
            = some (w.endpoint side).connection.sender.isn ∧
          (w.endpoint side).connection.receiver.isn
            = some (w.endpoint side.peer).connection.sender.isn) := by
  have hpair := worldInv_of_reachable h side
  have hout := hpair.out
  have hacked := hout.acked
  have hle := hout.acknowledged_le
  refine ⟨?_, ?_, ?_, ?_⟩
  · intro hnone
    rw [TcpReceiver.acknowledged_of_none hnone] at hacked
    exact Nat.le_zero.mp hacked
  · intro hsome
    obtain ⟨isn, hisn⟩ := Option.ne_none_iff_exists'.mp hsome
    rw [TcpReceiver.acknowledged_of_some hisn] at hacked hle
    constructor <;> omega
  · intro hfinished
    rw [TcpConnection.isFinished, TcpSender.isFinished, Bool.and_eq_true, List.isEmpty_iff]
      at hfinished
    obtain ⟨hfin, hempty⟩ := hfinished
    have hidle := hout.inv.queue.eq_nil_iff.mp hempty
    have hpushed := hout.pushed_le
    have hpositive : 0 < (w.endpoint side).connection.sender.sndNxt := by
      have hnxt := hout.inv.nxt_eq
      rw [hfin, Bool.toNat_true] at hnxt
      omega
    have hnxt := hout.inv.nxt_eq_of_pos hpositive
    rw [hfin, Bool.toNat_true] at hnxt
    -- the acknowledgment of FIN can only come from a closed output
    have hclosed : (w.endpoint side.peer).connection.receiver.output.closed = true := by
      by_contra hopen
      rw [Bool.not_eq_true] at hopen
      cases hisn : (w.endpoint side.peer).connection.receiver.isn with
      | none =>
          rw [TcpReceiver.acknowledged_of_none hisn] at hacked
          omega
      | some isn =>
          rw [TcpReceiver.acknowledged_of_some hisn, hopen, Bool.toNat_false] at hacked
          omega
    exact ⟨hclosed, (hout.complete hclosed).2⟩
  · intro hestablished
    rw [isEstablished, Bool.and_eq_true, Bool.and_eq_true, decide_eq_true_eq] at hestablished
    obtain ⟨⟨-, hpositive⟩, hheard⟩ := hestablished
    constructor
    · cases hisn : (w.endpoint side.peer).connection.receiver.isn with
      | none =>
          rw [TcpReceiver.acknowledged_of_none hisn] at hacked
          omega
      | some isn => rw [hout.isn isn hisn]
    · rw [TcpReceiver.send, Option.isSome_map] at hheard
      obtain ⟨isn, hisn⟩ := Option.isSome_iff_exists.mp hheard
      rw [hisn, hpair.inc.isn isn hisn]

/-- At the end of the transfer both conclusions apply. -/
theorem ack_soundness_whole_transfer : ∃ w, Reachable w ∧
    ((w.endpoint .b).connection.receiver.isn ≠ none ∧
      (w.endpoint .a).connection.sender.sndUna
          ≤ 1 + (w.endpoint .b).connection.receiver.output.bytesPushed +
            (w.endpoint .b).connection.receiver.output.closed.toNat) ∧
      ((w.endpoint .b).connection.receiver.output.closed = true ∧
        (w.endpoint .b).assembled = (w.endpoint .a).written) ∧
      (w.endpoint .b).connection.receiver.isn = some (w.endpoint .a).connection.sender.isn ∧
      (w.endpoint .a).connection.receiver.isn = some (w.endpoint .b).connection.sender.isn := by
  obtain ⟨w, hrun, hfinished, hestablished⟩ : ∃ w, smallRun wholeTransfer = .ok w ∧
      (w.endpoint .a).connection.isFinished = true ∧
      (w.endpoint .a).connection.isEstablished = true := by
    decide +kernel
  have hreach := reachable_of_smallRun hrun
  obtain ⟨-, hbound, hfinish, hestablish⟩ := ack_soundness hreach .a
  have hisn : (w.endpoint .b).connection.receiver.isn
        = some (w.endpoint .a).connection.sender.isn ∧
      (w.endpoint .a).connection.receiver.isn
        = some (w.endpoint .b).connection.sender.isn := hestablish hestablished
  have hheard : (w.endpoint .b).connection.receiver.isn ≠ none := by
    rw [hisn.1]
    simp
  exact ⟨w, hreach, ⟨hheard, (hbound hheard).1⟩, hfinish hfinished, hisn⟩

end Network

end Minnow
