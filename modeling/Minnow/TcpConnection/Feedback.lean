import Minnow.TcpConnection.Reset

set_option autoImplicit false

/-! # Feedback to the peer

What the receiver has to tell is read before the sender transmits, in `flush_sender` and in
`tick`, and once more behind it for a bare acknowledgment. The sender does not touch the receiver,
so that this makes no difference: every segment carries the feedback of the state that the call
leaves (`Performed.feedback`).

`acknowledged` adds when there is such a segment.
-/

namespace Minnow

namespace TcpConnection

open TcpSender

variable {connection connection1 : TcpConnection} {op : ConnOp} {segment : TcpSegment}
  {segments : List TcpSegment}

/-- The segment carries the acknowledgment and the window of `feedback`. -/
def Tells (feedback : TcpReceiverMessage) (segment : TcpSegment) : Prop :=
  segment.header.ackno = feedback.ackno ∧ segment.header.windowSize = feedback.windowSize

/-! ## Which feedback goes out -/

theorem tells_buildSegments {messages : List TcpSenderMessage} :
    ∀ s ∈ connection.buildSegments messages, Tells connection.receiver.send s := by
  intro s hs
  obtain ⟨message, -, rfl⟩ := List.mem_map.mp hs
  exact ⟨rfl, rfl⟩

theorem tells_makePureAckSegment :
    ∀ s ∈ connection.makePureAckSegment.toList, Tells connection.receiver.send s := by
  intro s hs
  rw [mem_makePureAckSegment hs]
  exact ⟨rfl, rfl⟩

/-- What goes out carries the feedback that the receiver has after the operation. -/
theorem Performed.feedback (hp : Performed connection op connection1 segments) :
    ∀ s ∈ segments, Tells connection1.receiver.send s := by
  cases hp with
  | flushed hprepared hflush hsegments =>
      obtain ⟨sender, messages, -, rfl, rfl⟩ := flushSender_eq_ok.mp hflush
      rcases hsegments with rfl | ⟨-, rfl⟩
      · exact tells_buildSegments
      · exact tells_makePureAckSegment
  | ticked htick => exact tells_buildSegments
  | foreign hport => exact fun s hs => absurd hs List.not_mem_nil
  | read len => exact fun s hs => absurd hs List.not_mem_nil

/-! ## When something goes out -/

/-- A segment that occupies sequence space is answered, once the receiver has heard SYN. -/
theorem receiveSegment_answered (hport : connection.belongsToThisConnection segment = true)
    (hrun : connection.receiveSegment segment = .ok (connection1, segments))
    (hpos : 0 < segment.toSenderMessage.sequenceLength)
    (hknown : connection1.receiver.isn ≠ none) : segments ≠ [] := by
  obtain ⟨connection0, outgoing, -, -, rfl⟩ := receiveSegment_flushed hport hrun
  split_ifs with hack
  · exact makePureAckSegment_ne_nil (Or.inl hknown)
  · -- the segment is answered with data
    exact fun hnil => hack ⟨hpos, hnil⟩

/-- The sender transmits nothing that is empty in sequence space. -/
theorem flushSender_positive (h : ConnInv connection)
    (hrun : connection.flushSender = .ok (connection1, segments)) :
    ∀ s ∈ segments, 0 < s.toSenderMessage.sequenceLength := by
  obtain ⟨data, hinv⟩ := h.sender
  obtain ⟨sender, messages, hpush, -, rfl⟩ := flushSender_eq_ok.mp hrun
  intro s hs
  obtain ⟨message, hm, rfl⟩ := List.mem_map.mp hs
  exact (push_pushed hinv hpush).positive hinv message hm

/-- A segment that is empty in sequence space is answered with data, or not at all. -/
theorem receiveSegment_positive (h : ConnInv connection)
    (hzero : segment.toSenderMessage.sequenceLength = 0)
    (hrun : connection.receiveSegment segment = .ok (connection1, segments)) :
    ∀ s ∈ segments, 0 < s.toSenderMessage.sequenceLength := by
  cases hport : connection.belongsToThisConnection segment with
  | false =>
      rw [receiveSegment, hport, if_pos (by simp), Except.ok.injEq, Prod.mk.injEq] at hrun
      obtain ⟨-, rfl⟩ := hrun
      exact fun s hs => absurd hs List.not_mem_nil
  | true =>
      obtain ⟨connection0, outgoing, hprepared, hflush, rfl⟩ := receiveSegment_flushed hport hrun
      rw [if_neg (fun hack => Nat.ne_of_gt hack.1 hzero)]
      exact flushSender_positive (hprepared.inv h) hflush

/-- Every segment of the peer that occupies sequence space is acknowledged, whatever became of it;
what goes out carries the feedback of the state that the operation leaves; and a segment that
is empty in sequence space brings about no bare acknowledgment. An arrival is processed to the end
as long as there are sequence numbers for the bytes that the application wrote. -/
theorem acknowledged (hreach : Reachable connection) :
    (∀ segment connection1 segments, connection.belongsToThisConnection segment = true →
      0 < segment.toSenderMessage.sequenceLength →
      connection.receiveSegment segment = .ok (connection1, segments) →
      connection1.receiver.isn ≠ none → segments ≠ []) ∧
    (connection.sender.outbound.bytesPushed + 2 ≤ u64Max →
      ∀ segment, ∃ result, connection.receiveSegment segment = .ok result) ∧
    (∀ op connection1 segments, connection.perform op = .ok (connection1, segments) →
      ∀ s ∈ segments, Tells connection1.receiver.send s) ∧
    ∀ segment connection1 segments, segment.toSenderMessage.sequenceLength = 0 →
      connection.receiveSegment segment = .ok (connection1, segments) →
      ∀ s ∈ segments, 0 < s.toSenderMessage.sequenceLength := by
  have h := connInv_of_reachable hreach
  refine ⟨?_, ?_, ?_, ?_⟩
  · intro segment connection1 segments hport hpos hrun hknown
    exact receiveSegment_answered hport hrun hpos hknown
  · intro hmax segment
    exact receiveSegment_total h hmax segment
  · intro op connection1 segments hrun
    exact (perform_performed hrun).feedback
  · intro segment connection1 segments hzero hrun
    exact receiveSegment_positive h hzero hrun

/-- SYN of the peer arrives twice, and is acknowledged again. -/
theorem acknowledged_twice : ∃ connection connection1 segments, Reachable connection ∧
    connection.receiver.isn ≠ none ∧
    connection.receiveSegment (examplePeerSyn 10) = .ok (connection1, segments) ∧
    segments ≠ [] ∧ ∀ s ∈ segments, Tells connection1.receiver.send s := by
  obtain ⟨state, hrun, hport, hbefore, ⟨connection1, segments⟩, hreceive, hknown⟩ : ∃ state,
      exampleRun [.flushSender, .receiveSegment (examplePeerSyn 10)] = .ok state ∧
        state.1.belongsToThisConnection (examplePeerSyn 10) = true ∧
        state.1.receiver.isn ≠ none ∧
        ∃ answer, state.1.receiveSegment (examplePeerSyn 10) = .ok answer ∧
          answer.1.receiver.isn ≠ none := by
    decide +kernel
  have hreach : Reachable state.1 := reachable_of_exampleRun hrun
  obtain ⟨hanswered, -, htells, -⟩ := acknowledged hreach
  exact ⟨state.1, connection1, segments, hreach, hbefore, hreceive,
    hanswered _ _ _ hport (by decide) hreceive hknown,
    htells (.receiveSegment (examplePeerSyn 10)) _ _ hreceive⟩

end TcpConnection

end Minnow
