import Minnow.Network.Link

set_option autoImplicit false

/-! # Two endpoints

A pair is one endpoint, its peer, and what each of them has sent: two links, one in each
direction, that share the packets, since every segment carries data one way and an
acknowledgment the other way. Every operation of an endpoint returns a value and keeps the
pair.
-/

namespace Minnow

namespace Network

open TcpSender Reassembler TcpConnection

variable {ackno : Option Nat} {start : Nat} {segments : List TcpSegment} {packet : Packet}

/-! ## The packets of one operation -/

theorem mem_packets (h : packet ∈ packets ackno start segments) :
    packet.segment ∈ segments ∧ packet.ackno = ackno := by
  induction segments generalizing start with
  | nil => exact absurd h List.not_mem_nil
  | cons segment rest ih =>
      rcases List.mem_cons.mp h with rfl | h
      · exact ⟨List.mem_cons_self, rfl⟩
      · obtain ⟨hmem, hackno⟩ := ih h
        exact ⟨List.mem_cons_of_mem _ hmem, hackno⟩

/-- The packets of the segments that carry some messages stand where the messages do. -/
theorem mem_packets_stamp {localPort peerPort : UInt16} {feedback : TcpReceiverMessage}
    {messages : List TcpSenderMessage}
    (h : packet ∈ packets ackno start
      (messages.map (fun message => buildSegment localPort peerPort message feedback))) :
    ∃ segment ∈ stamp start messages, packet.seqno = segment.absoluteStart ∧
      packet.segment = buildSegment localPort peerPort segment.message feedback := by
  induction messages generalizing start with
  | nil => exact absurd h List.not_mem_nil
  | cons message rest ih =>
      rcases List.mem_cons.mp h with rfl | h
      · exact ⟨_, List.mem_cons_self, rfl, rfl⟩
      · obtain ⟨segment, hmem, hseqno, hsegment⟩ := ih h
        exact ⟨segment, List.mem_cons_of_mem _ hmem, hseqno, hsegment⟩

/-- A segment goes from one port to the other, carries the feedback of the receiver and no
RST. -/
structure Emitted (connection : TcpConnection) (segment : TcpSegment) : Prop where
  src : segment.header.srcPort = connection.localPort
  dst : segment.header.dstPort = connection.peerPort
  ackno : segment.header.ackno = connection.receiver.send.ackno
  rst : segment.header.rst = false

theorem emitted_buildSegment {connection : TcpConnection} {message : TcpSenderMessage}
    (hmessage : message.rst = false) (hreceiver : connection.receiver.output.error = false) :
    Emitted connection
      (buildSegment connection.localPort connection.peerPort message connection.receiver.send) where
  src := rfl
  dst := rfl
  ackno := rfl
  rst := by
    have hsend : connection.receiver.send.rst = false := hreceiver
    show (message.rst || connection.receiver.send.rst) = false
    rw [hmessage, hsend]
    rfl

/-! ## Pairs -/

structure Pair (e p : Endpoint) (mine theirs : List Packet) : Prop where
  out : Link e.connection.sender e.written p.connection.receiver p.read mine theirs
  inc : Link p.connection.sender p.written e.connection.receiver e.read theirs mine
  crossed : e.connection.localPort = p.connection.peerPort ∧
    e.connection.peerPort = p.connection.localPort
  mineAddressed : ∀ packet ∈ mine, packet.segment.header.srcPort = e.connection.localPort ∧
    packet.segment.header.dstPort = e.connection.peerPort
  theirsAddressed : ∀ packet ∈ theirs, packet.segment.header.srcPort = p.connection.localPort ∧
    packet.segment.header.dstPort = p.connection.peerPort

variable {e p : Endpoint} {mine theirs : List Packet} {connection : TcpConnection}
  {sender : TcpSender}

theorem Pair.swap (h : Pair e p mine theirs) : Pair p e theirs mine where
  out := h.inc
  inc := h.out
  crossed := ⟨h.crossed.2.symm, h.crossed.1.symm⟩
  mineAddressed := h.theirsAddressed
  theirsAddressed := h.mineAddressed

/-- What the peer has sent is for this connection. -/
theorem Pair.belongs (h : Pair e p mine theirs) (hp : packet ∈ theirs) :
    e.connection.belongsToThisConnection packet.segment = true := by
  obtain ⟨hsrc, hdst⟩ := h.theirsAddressed packet hp
  obtain ⟨hlocal, hpeer⟩ := h.crossed
  unfold belongsToThisConnection
  rw [hsrc, hdst, hpeer, hlocal]
  simp

/-- Whatever the endpoint sends acknowledges what its receiver has assembled. -/
theorem Pair.feedback (h : Pair e p mine theirs) {segment : TcpSegment}
    (hsegment : packet.segment = segment) (hemitted : Emitted e.connection segment)
    (hackno : packet.ackno = e.ackno) :
    packet.Feedback p.connection.sender.isn e.connection.receiver := by
  subst hsegment
  have hsent : packet.segment.header.ackno = e.connection.receiver.isn.map
    (fun isn => Wrap32.wrap e.connection.receiver.absoluteAckno isn) := hemitted.ackno
  unfold Endpoint.ackno at hackno
  cases hisn : e.connection.receiver.isn with
  | none =>
      rw [hisn] at hsent hackno
      refine ⟨hemitted.rst, ?_, ?_⟩
      · rw [hsent, hackno]
        rfl
      · intro k hk
        rw [hackno] at hk
        exact absurd hk (by simp)
  | some isn =>
      obtain rfl := h.inc.isn isn hisn
      have hlevel := h.inc.absoluteAckno_eq hisn
      rw [hisn] at hsent hackno
      refine ⟨hemitted.rst, ?_, ?_⟩
      · rw [hsent, hackno]
        rfl
      · intro k hk
        rw [hackno] at hk
        obtain rfl := Option.mem_some_iff.mp hk
        exact le_of_eq hlevel

/-- The endpoint has a new sender, and has sent parts of what this one has transmitted. -/
theorem Pair.emit (h : Pair e p mine theirs)
    (hout : Link sender e.written p.connection.receiver p.read mine theirs)
    (hemitted : ∀ s ∈ segments, Emitted e.connection s)
    (hdata : ∀ packet ∈ packets e.ackno start segments, packet.Data sender e.written) :
    Pair { e with connection := { e.connection with sender := sender } } p
      (mine ++ packets e.ackno start segments) theirs where
  out := hout.send hdata
  inc := by
    apply h.inc.reply
    intro packet hp
    obtain ⟨hmem, hackno⟩ := mem_packets hp
    exact h.feedback rfl (hemitted _ hmem) hackno
  crossed := h.crossed
  mineAddressed := by
    intro packet hp
    rcases List.mem_append.mp hp with hp | hp
    · exact h.mineAddressed packet hp
    · have hseg := hemitted _ (mem_packets hp).1
      exact ⟨hseg.src, hseg.dst⟩
  theirsAddressed := h.theirsAddressed

/-! ## Sending -/

/-- What `buildSegments` makes of the messages the sender hands out. -/
theorem Pair.emitted_buildSegments (h : Pair e p mine theirs) {messages : List TcpSenderMessage}
    (hmessages : ∀ message ∈ messages, message.rst = false) :
    ∀ s ∈ e.connection.buildSegments messages, Emitted e.connection s := by
  intro s hs
  obtain ⟨message, hmem, rfl⟩ := List.mem_map.mp hs
  exact emitted_buildSegment (hmessages message hmem) h.inc.intact

theorem exists_mem_stamp (start : Nat) {messages : List TcpSenderMessage}
    {message : TcpSenderMessage} (hmem : message ∈ messages) :
    ∃ segment ∈ stamp start messages, segment.message = message := by
  rw [← map_message_stamp start messages] at hmem
  exact List.mem_map.mp hmem

/-- Segments with outstanding messages carry data of the sender. -/
theorem data_of_stamp {written : Bytes} {messages : List TcpSenderMessage}
    (hinv : sender.Inv written) {feedback : TcpReceiverMessage} {localPort peerPort : UInt16}
    (hstamp : ∀ segment ∈ stamp start messages,
      segment.Genuine written sender.outbound.closed sender.isn ∧ segment.message.rst = false ∧
        segment.absoluteStart + segment.sequenceLength ≤ sender.sndNxt)
    (hfeedback : feedback.rst = false) :
    ∀ packet ∈ packets ackno start
        (messages.map (fun message => buildSegment localPort peerPort message feedback)),
      packet.Data sender written := by
  intro packet hp
  obtain ⟨segment, hmem, hseqno, hsegment⟩ := mem_packets_stamp hp
  obtain ⟨hgenuine, hrst, hend⟩ := hstamp segment hmem
  have hmessage : packet.segment.toSenderMessage = segment.message := by
    rw [hsegment, buildSegment, TcpSegment.toSenderMessage_fromMessages, hrst, hfeedback]
    show { segment.message with rst := false } = segment.message
    rw [← hrst]
  refine ⟨?_, ?_, ?_⟩
  · rw [hsegment]
    show (segment.message.rst || feedback.rst) = false
    rw [hrst, hfeedback]
    rfl
  · rw [hmessage, hseqno]
    exact hinv.occupies_transmitted hgenuine hend
  · rw [hmessage, hseqno]
    exact hend

/-- `flush_sender` sends what the window allows. -/
theorem Pair.flushSender (h : Pair e p mine theirs) :
    ∃ sender1 segments,
      e.connection.flushSender = .ok ({ e.connection with sender := sender1 }, segments) ∧
      sender1.sndUna = e.connection.sender.sndUna ∧
      (segments = [] → sender1.sndNxt = e.connection.sender.sndNxt) ∧
      (∀ s ∈ segments, Emitted e.connection s) ∧
      Pair { e with connection := { e.connection with sender := sender1 } } p
        (mine ++ packets e.ackno e.connection.sender.sndNxt segments) theirs := by
  have hshort := h.out.short
  have hmax : e.written.length + 2 ≤ u64Max := by
    unfold u64Max
    omega
  obtain ⟨sender1, messages, hrun, hp⟩ := push_total h.out.inv hmax
  have hqueue := hp.queue h.out.inv
  obtain ⟨bytes, hdrained⟩ := hp.drained
  have hisn : sender1.isn = e.connection.sender.isn := by rw [hp.frame]
  have huna : sender1.sndUna = e.connection.sender.sndUna := by rw [hp.frame]
  -- what a push sends is genuine, no reset, and lies before the new `snd_nxt`
  have hstamp : ∀ segment ∈ stamp e.connection.sender.sndNxt messages,
      segment.Genuine e.written sender1.outbound.closed sender1.isn ∧
        segment.message.rst = false ∧
        segment.absoluteStart + segment.sequenceLength ≤ sender1.sndNxt := by
    intro segment hmem
    obtain ⟨hgenuine, hrst⟩ := hp.genuine segment hmem
    rw [hdrained.closed, hisn]
    exact ⟨hgenuine, hrst.trans h.out.healthy, (hqueue.mem hmem).2.2⟩
  have hsilent : ∀ message ∈ messages, message.rst = false := by
    intro message hmem
    obtain ⟨segment, hseg, rfl⟩ := exists_mem_stamp e.connection.sender.sndNxt hmem
    exact (hstamp segment hseg).2.1
  have hemitted := h.emitted_buildSegments hsilent
  have hacked : sender1.sndUna ≤ p.connection.receiver.acknowledged := by
    rw [huna]
    exact h.out.acked
  have hout := h.out.advance (hp.advanced h.out.inv) h.out.short hacked
  have hsame : e.connection.buildSegments messages = [] →
      sender1.sndNxt = e.connection.sender.sndNxt := by
    intro hnil
    obtain rfl := List.map_eq_nil_iff.mp hnil
    exact (tiles_nil.mp hqueue).symm
  refine ⟨sender1, e.connection.buildSegments messages,
    flushSender_eq_ok.mpr ⟨sender1, messages, hrun, rfl, rfl⟩, huna, hsame, hemitted, ?_⟩
  exact h.emit hout hemitted (data_of_stamp hp.inv hstamp h.inc.intact)

/-- The oldest segment is sent again when the timer expires. -/
theorem Pair.tick (h : Pair e p mine theirs) (elapsedMs : Nat) :
    ∃ sender1 segments,
      e.connection.tick elapsedMs = .ok ({ e.connection with sender := sender1 }, segments) ∧
      sender1.sndUna = e.connection.sender.sndUna ∧
      (e.connection.sender.Expires elapsedMs → ∃ front rest,
        e.connection.sender.outstanding = front :: rest ∧
        segments = e.connection.buildSegments [front.message]) ∧
      Pair { e with connection := { e.connection with sender := sender1 } } p
        (mine ++ packets e.ackno e.connection.sender.sndUna segments) theirs := by
  obtain ⟨sender1, messages, hrun, ht, hmessages⟩ := tick_spec h.out.inv elapsedMs
  have hframe := ht.frame
  have huna : sender1.sndUna = e.connection.sender.sndUna := by rw [hframe]
  -- the repeated message is the oldest outstanding one, which is genuine already
  have hstamp : ∀ segment ∈ stamp e.connection.sender.sndUna messages,
      segment.Genuine e.written sender1.outbound.closed sender1.isn ∧
        segment.message.rst = false ∧
        segment.absoluteStart + segment.sequenceLength ≤ sender1.sndNxt := by
    intro segment hmem
    rcases hmessages with ⟨-, rfl⟩ | ⟨-, front, rest, hfront, rfl⟩
    · exact absurd hmem List.not_mem_nil
    · have hin : front ∈ e.connection.sender.outstanding := by
        rw [hfront]
        exact List.mem_cons_self
      have hsame : segment = front := by
        rw [stamp, stamp, List.mem_singleton] at hmem
        rw [hmem, ← h.out.inv.front_start hfront]
      rw [hsame, hframe]
      exact ⟨h.out.inv.genuine front hin, (h.out.inv.rst_eq front hin).trans h.out.healthy,
        (h.out.inv.queue.mem hin).2.2⟩
  have hsilent : ∀ message ∈ messages, message.rst = false := by
    intro message hmem
    obtain ⟨segment, hseg, rfl⟩ := exists_mem_stamp e.connection.sender.sndUna hmem
    exact (hstamp segment hseg).2.1
  have hacked : sender1.sndUna ≤ p.connection.receiver.acknowledged := by
    rw [huna]
    exact h.out.acked
  have hout := h.out.advance ht.advanced h.out.short hacked
  refine ⟨sender1, e.connection.buildSegments messages, ?_, huna, ?_, ?_⟩
  · rw [TcpConnection.tick, hrun]
    rfl
  · intro hexpires
    rcases hmessages with ⟨hnot, -⟩ | ⟨-, front, rest, hfront, rfl⟩
    · exact absurd hexpires hnot
    · exact ⟨front, rest, hfront, rfl⟩
  · exact h.emit hout (h.emitted_buildSegments hsilent) (data_of_stamp ht.inv hstamp h.inc.intact)

/-! ## The application's side -/

/-- The sender goes on before it is flushed. -/
theorem Pair.advance (h : Pair e p mine theirs) {written : Bytes}
    (ha : Advanced e.connection.sender e.written sender written)
    (hshort : written.length < 2 ^ 63) (huna : sender.sndUna = e.connection.sender.sndUna) :
    Pair { e with connection := { e.connection with sender := sender }, written := written } p
      mine theirs where
  out := by
    apply h.out.advance ha hshort
    rw [huna]
    exact h.out.acked
  inc := h.inc
  crossed := h.crossed
  mineAddressed := h.mineAddressed
  theirsAddressed := h.theirsAddressed

theorem Pair.write (h : Pair e p mine theirs) (data : Bytes)
    (hshort : e.written.length + (e.connection.sender.write data).2 < 2 ^ 63) :
    ∃ sender1 segments, e.connection.write data = .ok
        ({ e.connection with sender := sender1 }, (e.connection.sender.write data).2, segments) ∧
      Pair
        { e with
          connection := { e.connection with sender := sender1 }
          written := e.written ++ data.take (e.connection.sender.write data).2 } p
        (mine ++ packets e.ackno e.connection.sender.sndNxt segments) theirs := by
  have hlen : (e.written ++ data.take (e.connection.sender.write data).2).length < 2 ^ 63 := by
    rw [List.length_append, List.length_take]
    omega
  have hwritten := h.advance (h.out.inv.advanced_write data) hlen rfl
  obtain ⟨sender1, segments, hrun, -, -, -, hpair⟩ := hwritten.flushSender
  refine ⟨sender1, segments, ?_, hpair⟩
  rw [TcpConnection.write]
  dsimp only at hrun ⊢
  rw [hrun]
  rfl

theorem Pair.close (h : Pair e p mine theirs) :
    ∃ sender1 segments,
      e.connection.close = .ok ({ e.connection with sender := sender1 }, segments) ∧
      Pair { e with connection := { e.connection with sender := sender1 } } p
        (mine ++ packets e.ackno e.connection.sender.sndNxt segments) theirs := by
  have hclosed := h.advance h.out.inv.advanced_close h.out.short rfl
  obtain ⟨sender1, segments, hrun, -, -, -, hpair⟩ := hclosed.flushSender
  exact ⟨sender1, segments, hrun, hpair⟩

theorem Pair.read (h : Pair e p mine theirs) (len : Nat) :
    Pair
      { e with
        connection := (e.connection.read len).1, read := e.read ++ (e.connection.read len).2 } p
      mine theirs where
  out := h.out
  inc := h.inc.pop len
  crossed := h.crossed
  mineAddressed := h.mineAddressed
  theirsAddressed := h.theirsAddressed

/-! ## A segment arrives -/

/-- The answer to data that released nothing else. -/
theorem Pair.pureAck (h : Pair e p mine theirs) :
    (∀ s ∈ e.connection.makePureAckSegment.toList, Emitted e.connection s) ∧
      Pair e p (mine ++ packets e.ackno e.connection.sender.sndNxt
        e.connection.makePureAckSegment.toList) theirs := by
  have hempty : e.connection.sender.makeEmptyMessage.rst = false := h.out.healthy
  have hemitted : ∀ s ∈ e.connection.makePureAckSegment.toList, Emitted e.connection s := by
    intro s hs
    rw [mem_makePureAckSegment hs]
    exact emitted_buildSegment hempty h.inc.intact
  refine ⟨hemitted, h.emit h.out hemitted ?_⟩
  intro packet hp
  unfold makePureAckSegment at hp
  dsimp only at hp
  split_ifs at hp
  · exact absurd hp List.not_mem_nil
  · obtain rfl := List.mem_singleton.mp hp
    refine ⟨(emitted_buildSegment hempty h.inc.intact).rst, ?_, ?_⟩
    · exact TcpSenderMessage.occupies_of_empty rfl rfl
    · exact le_refl _

/-- What a segment of the peer brings about. -/
structure Delivered (e p : Endpoint) (mine theirs : List Packet) (packet : Packet)
    (connection1 : TcpConnection) (segments : List TcpSegment) : Prop where
  pair : Pair { e with connection := connection1 } p
    (mine ++ packets ({ e with connection := connection1 } : Endpoint).ackno
      e.connection.sender.sndNxt segments) theirs
  una_le : e.connection.sender.sndUna ≤ connection1.sender.sndUna
  acked : ∀ k ∈ packet.ackno, k ≤ connection1.sender.sndUna
  acknowledged_le : e.connection.receiver.acknowledged ≤ connection1.receiver.acknowledged
  acknowledged_lt : 0 < packet.segment.toSenderMessage.sequenceLength →
    packet.seqno = e.connection.receiver.acknowledged →
    0 < e.connection.receiver.output.availableCapacity ∨ packet.segment.payload = [] →
    e.connection.receiver.acknowledged < connection1.receiver.acknowledged
  answered : 0 < packet.segment.toSenderMessage.sequenceLength →
    connection1.receiver.isn ≠ none → segments ≠ []

theorem Pair.receiveSegment (h : Pair e p mine theirs) (hp : packet ∈ theirs)
    (hreach : e.InReach packet) :
    ∃ connection1 segments,
      e.connection.receiveSegment packet.segment = .ok (connection1, segments) ∧
      Delivered e p mine theirs packet connection1 segments := by
  obtain ⟨hseqno, hackno⟩ := hreach
  -- first the acknowledgment, then the data, then whatever may be sent now
  obtain ⟨sender1, hsender, hout, hnxt, huna, hacked⟩ :=
    h.out.receive_ack (h.out.feedback packet hp) hackno
  have hreceiver : ({ e.connection with sender := sender1 } : TcpConnection).receiver
    = e.connection.receiver := rfl
  obtain ⟨receiver1, hdata, hinc, hle, hlt⟩ :=
    h.inc.receive_data (h.inc.sent packet hp) hseqno hreceiver
  have hmiddle : Pair
      { e with connection := { e.connection with sender := sender1, receiver := receiver1 } } p
      mine theirs :=
    { out := hout
      inc := hinc
      crossed := h.crossed
      mineAddressed := h.mineAddressed
      theirsAddressed := h.theirsAddressed }
  obtain ⟨sender2, outgoing, hflush, huna2, hnxt2, -, hpair⟩ := hmiddle.flushSender
  dsimp only at hflush huna2 hnxt2
  have hrun : e.connection.receiveSegment packet.segment = .ok
      ({ e.connection with sender := sender2, receiver := receiver1 },
        if 0 < packet.segment.toSenderMessage.sequenceLength ∧ outgoing = [] then
          ({ e.connection with
              sender := sender2, receiver := receiver1 } : TcpConnection).makePureAckSegment.toList
        else outgoing) := by
    rw [TcpConnection.receiveSegment, if_neg (by simp [h.belongs hp]), hsender]
    simp only [Exec.ok_bind, hdata, hflush]
    split_ifs <;> rfl
  have hfinal : Pair
      { e with connection := { e.connection with sender := sender2, receiver := receiver1 } } p
      (mine ++ packets
        ({ e with
            connection := { e.connection with sender := sender2, receiver := receiver1 } }
          : Endpoint).ackno e.connection.sender.sndNxt
        (if 0 < packet.segment.toSenderMessage.sequenceLength ∧ outgoing = [] then
          ({ e.connection with
              sender := sender2, receiver := receiver1 } : TcpConnection).makePureAckSegment.toList
        else outgoing)) theirs := by
    split_ifs with hsilent
    · have hack := hpair.pureAck.2
      dsimp only at hack
      rw [hsilent.2, packets, List.append_nil, hnxt2 hsilent.2, hnxt] at hack
      exact hack
    · rw [← hnxt]
      exact hpair
  refine ⟨_, _, hrun, ?_⟩
  refine
    { pair := hfinal
      una_le := by
        show _ ≤ sender2.sndUna
        omega
      acked := by
        intro k hk
        have hbound := hacked k hk
        show _ ≤ sender2.sndUna
        omega
      acknowledged_le := hle
      acknowledged_lt := hlt
      answered := ?_ }
  intro hpos hknown
  by_cases hnil : outgoing = []
  · rw [if_pos ⟨hpos, hnil⟩]
    exact makePureAckSegment_ne_nil (Or.inl hknown)
  · rw [if_neg (fun hsilent => hnil hsilent.2)]
    exact hnil

end Network

end Minnow
