import Minnow.Network.Basic
import Minnow.TcpSender.Transmitted

set_option autoImplicit false

/-! # One direction of the transfer

A link is the sender at one end, the receiver at the other, and what is on the way between
them: segments with data, and acknowledgments. The receiver assembles bytes that were
transmitted and acknowledges what it has assembled, and the sender frees what is
acknowledged:

  `SND.UNA ≤ acknowledged by the receiver ≤ SND.NXT`.

Each section says what one kind of step does to a link.
-/

namespace Minnow

namespace TcpReceiver

/-- The number of symbols the receiver acknowledges: none before the first SYN. -/
def acknowledged (receiver : TcpReceiver) : Nat :=
  match receiver.isn with
  | none => 0
  | some _ => receiver.output.bytesPushed + 1 + receiver.output.closed.toNat

variable {receiver : TcpReceiver}

theorem acknowledged_of_none (h : receiver.isn = none) : receiver.acknowledged = 0 := by
  rw [acknowledged, h]

theorem acknowledged_of_some {isn : Wrap32} (h : receiver.isn = some isn) :
    receiver.acknowledged
      = receiver.output.bytesPushed + 1 + receiver.output.closed.toNat := by
  rw [acknowledged, h]

end TcpReceiver

namespace Network

open TcpSender Reassembler

/-- The packet carries a part of what the sender has transmitted. -/
structure Packet.Data (sender : TcpSender) (written : Bytes) (packet : Packet) : Prop where
  rst : packet.segment.header.rst = false
  occupies : packet.segment.toSenderMessage.Occupies (sender.transmitted written) sender.finSent
    sender.isn packet.seqno
  end_le : packet.seqno + packet.segment.toSenderMessage.sequenceLength ≤ sender.sndNxt

/-- The packet acknowledges no more than the receiver does. -/
structure Packet.Feedback (isn : Wrap32) (receiver : TcpReceiver) (packet : Packet) : Prop where
  rst : packet.segment.header.rst = false
  ackno : packet.segment.header.ackno = packet.ackno.map (fun k => Wrap32.wrap k isn)
  le : ∀ k ∈ packet.ackno, k ≤ receiver.acknowledged

/-- The invariant of one direction: `sender` has accepted the bytes `written`, of which `read`
have been read at the other end. -/
structure Link (sender : TcpSender) (written : Bytes) (receiver : TcpReceiver) (read : Bytes)
    (sent feedback : List Packet) : Prop where
  inv : sender.Inv written
  short : written.length < 2 ^ 63
  healthy : sender.outbound.error = false
  agrees : Agrees (sender.transmitted written) (sender.finSent = true) read receiver.reassembler
  intact : receiver.output.error = false
  isn : ∀ z ∈ receiver.isn, z = sender.isn
  heard : receiver.isn ≠ none → 0 < sender.sndNxt
  acked : sender.sndUna ≤ receiver.acknowledged
  sent : ∀ packet ∈ sent, packet.Data sender written
  feedback : ∀ packet ∈ feedback, packet.Feedback sender.isn receiver

variable {sender sender1 : TcpSender} {written written1 : Bytes} {receiver : TcpReceiver}
  {read : Bytes} {sent feedback more : List Packet} {packet : Packet}

/-! ## The two bounds -/

theorem Link.pushed_le (h : Link sender written receiver read sent feedback) :
    receiver.output.bytesPushed ≤ sender.outbound.bytesPopped := by
  have hle := h.agrees.pushed_le_length
  rwa [h.inv.length_transmitted] at hle

/-- The receiver closes its output when FIN was sent and everything has been assembled. -/
theorem Link.of_closed (h : Link sender written receiver read sent feedback)
    (hclosed : receiver.output.closed = true) : sender.finSent = true ∧
      receiver.output.bytesPushed = sender.outbound.bytesPopped := by
  obtain ⟨hsome, hall⟩ := h.agrees.closed_iff.mp hclosed
  obtain ⟨eof, heof⟩ := Option.isSome_iff_exists.mp hsome
  have hfin := (h.agrees.eof_eq eof heof).1
  exact ⟨hfin, hall.trans h.inv.length_transmitted⟩

theorem Link.acknowledged_le (h : Link sender written receiver read sent feedback) :
    receiver.acknowledged ≤ sender.sndNxt := by
  cases hisn : receiver.isn with
  | none =>
      rw [TcpReceiver.acknowledged_of_none hisn]
      exact Nat.zero_le _
  | some isn =>
      have hpos := h.heard (by rw [hisn]; simp)
      have hpushed := h.pushed_le
      rw [TcpReceiver.acknowledged_of_some hisn, h.inv.nxt_eq_of_pos hpos]
      cases hclosed : receiver.output.closed with
      | false =>
          rw [Bool.toNat_false]
          omega
      | true =>
          rw [(h.of_closed hclosed).1]
          omega

theorem Link.absoluteAckno_eq (h : Link sender written receiver read sent feedback)
    {isn : Wrap32} (hisn : receiver.isn = some isn) :
    receiver.absoluteAckno = receiver.acknowledged := by
  have hpushed := h.pushed_le
  have hpopped := h.inv.popped_le
  have hshort := h.short
  have hmax : receiver.output.bytesPushed + 2 ≤ u64Max := by
    unfold u64Max
    omega
  rw [TcpReceiver.absoluteAckno_eq hmax, TcpReceiver.acknowledged_of_some hisn]

/-! ## Sending -/

theorem Link.new {capacity capacity1 : Nat} {isn : Wrap32} {config : TcpSenderConfig}
    (hsender : TcpSender.new capacity isn config = .ok sender)
    (hreceiver : TcpReceiver.new capacity1 = .ok receiver) :
    Link sender [] receiver [] [] [] := by
  obtain ⟨hinv, -, -, huna, -, -, hout⟩ := TcpSender.new_ok hsender
  rw [TcpReceiver.new_ok, Except.ok.injEq] at hreceiver
  subst hreceiver
  refine
    { inv := hinv
      short := by decide
      healthy := by rw [hout]; rfl
      agrees := Agrees.new _ _ capacity1
      intact := rfl
      isn := by simp
      heard := fun hne => absurd rfl hne
      acked := by rw [huna]; exact Nat.zero_le _
      sent := fun _ hp => absurd hp List.not_mem_nil
      feedback := fun _ hp => absurd hp List.not_mem_nil }

/-- What the sender has transmitted grows, and a packet stays a part of it. -/
theorem Packet.Data.advance (hp : packet.Data sender written)
    (ha : Advanced sender written sender1 written1) : packet.Data sender1 written1 where
  rst := hp.rst
  occupies := by
    rw [ha.isn]
    exact hp.occupies.mono ha.prefix_space
  end_le := le_trans hp.end_le ha.nxt_le

/-- The sender goes on, and its `SND.UNA` stays behind the receiver. -/
theorem Link.advance (h : Link sender written receiver read sent feedback)
    (ha : Advanced sender written sender1 written1) (hshort : written1.length < 2 ^ 63)
    (hacked : sender1.sndUna ≤ receiver.acknowledged) :
    Link sender1 written1 receiver read sent feedback where
  inv := ha.inv
  short := hshort
  healthy := ha.error.trans h.healthy
  agrees := h.agrees.mono ha.grows (fun hfin => ha.ends hfin)
  intact := h.intact
  isn := fun z hz => (h.isn z hz).trans ha.isn.symm
  heard := fun hne => lt_of_lt_of_le (h.heard hne) ha.nxt_le
  acked := hacked
  sent := fun packet hp => (h.sent packet hp).advance ha
  feedback := by
    intro packet hp
    rw [ha.isn]
    exact h.feedback packet hp

theorem Link.send (h : Link sender written receiver read sent feedback)
    (hmore : ∀ packet ∈ more, packet.Data sender written) :
    Link sender written receiver read (sent ++ more) feedback :=
  { h with
    sent := by
      intro packet hp
      rcases List.mem_append.mp hp with hp | hp
      · exact h.sent packet hp
      · exact hmore packet hp }

theorem Link.reply (h : Link sender written receiver read sent feedback)
    (hmore : ∀ packet ∈ more, packet.Feedback sender.isn receiver) :
    Link sender written receiver read sent (feedback ++ more) :=
  { h with
    feedback := by
      intro packet hp
      rcases List.mem_append.mp hp with hp | hp
      · exact h.feedback packet hp
      · exact hmore packet hp }

/-! ## An acknowledgment arrives -/

theorem Link.receive_ack (h : Link sender written receiver read sent feedback)
    (hp : packet.Feedback sender.isn receiver)
    (hnear : ∀ k ∈ packet.ackno, absDiff k sender.sndNxt ≤ 2 ^ 31 - 1) :
    ∃ sender1, sender.receive packet.segment.toReceiverMessage = .ok sender1 ∧
      Link sender1 written receiver read sent feedback ∧
      sender1.sndNxt = sender.sndNxt ∧ sender.sndUna ≤ sender1.sndUna ∧
      ∀ k ∈ packet.ackno, k ≤ sender1.sndUna := by
  have hle := h.acknowledged_le
  have hmax := h.inv.nxt_le
  have hdecode : ∀ k ∈ packet.ackno, Wrap32.unwrap (Wrap32.wrap k sender.isn) sender.isn
      sender.sndNxt = k := by
    intro k hk
    have hlevel := hp.le k hk
    have hdist := hnear k hk
    exact Wrap32.unwrap_wrap sender.isn (by omega) (by omega)
  have hack : packet.segment.toReceiverMessage.ackno
      = packet.ackno.map (fun k => Wrap32.wrap k sender.isn) := hp.ackno
  have hrst : packet.segment.toReceiverMessage.rst = false := hp.rst
  -- the acknowledgment decodes to the number it was made from, which was transmitted
  have hacc : sender.Accepts packet.segment.toReceiverMessage := by
    intro ackno hmem
    rw [hack, Option.mem_map] at hmem
    obtain ⟨k, hk, rfl⟩ := hmem
    rw [hdecode k hk]
    exact le_trans (hp.le k hk) hle
  have huna : sender.ackedUna packet.segment.toReceiverMessage
      = max sender.sndUna (packet.ackno.getD 0) := by
    unfold ackedUna
    rw [hack]
    cases hk : packet.ackno with
    | none => simp
    | some k =>
        have hsame := hdecode k hk
        simp only [Option.map_some, Option.getD_some, hsame]
  rcases receive_spec h.inv hrst with ⟨-, sender1, hrun, hr⟩ | ⟨hnot, -⟩
  · have huna1 : sender1.sndUna = max sender.sndUna (packet.ackno.getD 0) := by
      rw [hr.frame]
      exact huna
    have hacked : sender1.sndUna ≤ receiver.acknowledged := by
      have hold := h.acked
      rw [huna1]
      apply max_le hold
      cases hk : packet.ackno with
      | none => exact Nat.zero_le _
      | some k => exact hp.le k hk
    refine ⟨sender1, hrun, h.advance hr.advanced h.short hacked, ?_, ?_, ?_⟩
    · rw [hr.frame]
    · rw [huna1]
      exact le_max_left _ _
    · intro k hk
      rw [huna1, hk]
      exact le_max_right _ _
  · exact absurd hacc hnot

/-! ## Data arrives -/

/-- The receiver goes on with the same stream. -/
theorem Link.deliver {receiver1 : TcpReceiver} {read1 : Bytes}
    (h : Link sender written receiver read sent feedback)
    (hagrees : Agrees (sender.transmitted written) (sender.finSent = true) read1
      receiver1.reassembler)
    (hintact : receiver1.output.error = false) (hisn : ∀ z ∈ receiver1.isn, z = sender.isn)
    (hheard : receiver1.isn ≠ none → 0 < sender.sndNxt)
    (hle : receiver.acknowledged ≤ receiver1.acknowledged) :
    Link sender written receiver1 read1 sent feedback :=
  { h with
    agrees := hagrees
    intact := hintact
    isn := hisn
    heard := hheard
    acked := le_trans h.acked hle
    feedback := by
      intro packet hp
      have hold := h.feedback packet hp
      exact { hold with le := fun k hk => le_trans (hold.le k hk) hle } }

theorem Link.pop (h : Link sender written receiver read sent feedback) (len : Nat) :
    Link sender written (receiver.read len).1 (read ++ (receiver.read len).2) sent feedback := by
  have hpushed : (receiver.read len).1.output.bytesPushed = receiver.output.bytesPushed :=
    receiver.output.pop_pushed len
  have hclosed : (receiver.read len).1.output.closed = receiver.output.closed :=
    receiver.output.pop_closed len
  have hsame : (receiver.read len).1.acknowledged = receiver.acknowledged := by
    show (match receiver.isn with | none => 0 | some _ => _) = _
    rw [hpushed, hclosed]
    rfl
  have hintact : (receiver.read len).1.output.error = false := by
    show (receiver.output.pop len).1.error = false
    rw [ByteStream.pop_error]
    exact h.intact
  have hisn : ∀ z ∈ (receiver.read len).1.isn, z = sender.isn := h.isn
  have hheard : (receiver.read len).1.isn ≠ none → 0 < sender.sndNxt := h.heard
  exact h.deliver (h.agrees.read_step len) hintact hisn hheard (le_of_eq hsame.symm)

/-- The acknowledgment never moves back. -/
theorem acknowledged_le_of_inserted {stream : Bytes} {ended : Prop} {first : Nat} {data : Bytes}
    {last : Bool} {r1 : Reassembler} {isn : Wrap32}
    (h : Agrees stream ended read receiver.reassembler) (h1 : Agrees stream ended read r1)
    (hins : Inserted receiver.reassembler first data r1)
    (heof : r1.eofIndex = receiver.reassembler.recordedEof first data last) :
    receiver.acknowledged
      ≤ TcpReceiver.acknowledged { reassembler := r1, isn := some isn } := by
  have hpushed : receiver.output.bytesPushed ≤ r1.output.bytesPushed := hins.pushed_le
  have hclosed : receiver.output.closed = true → r1.output.closed = true :=
    hins.closed h h1 heof
  cases hisn : receiver.isn with
  | none =>
      rw [TcpReceiver.acknowledged_of_none hisn]
      exact Nat.zero_le _
  | some z =>
      rw [TcpReceiver.acknowledged_of_some hisn]
      show _ ≤ r1.output.bytesPushed + 1 + r1.output.closed.toNat
      cases hold : receiver.output.closed with
      | false =>
          rw [Bool.toNat_false]
          omega
      | true =>
          rw [hclosed hold, Bool.toNat_true]
          omega

/-- A closed output has acknowledged FIN, behind which nothing is transmitted. -/
theorem Link.open_of_lt (h : Link sender written receiver read sent feedback) {isn : Wrap32}
    (hisn : receiver.isn = some isn) (hlt : receiver.acknowledged < sender.sndNxt) :
    receiver.output.closed = false := by
  by_contra hclosed
  rw [Bool.not_eq_false] at hclosed
  obtain ⟨hfin, hall⟩ := h.of_closed hclosed
  have hnxt := h.inv.nxt_eq_of_pos (by omega)
  rw [hfin, Bool.toNat_true] at hnxt
  rw [TcpReceiver.acknowledged_of_some hisn, hclosed, Bool.toNat_true] at hlt
  omega

/-- Data that starts where the acknowledgment stands and fits moves it on. -/
theorem Link.acknowledged_lt {r1 : Reassembler} {message : TcpSenderMessage} {start : Nat}
    (h : Link sender written receiver read sent feedback)
    (hagrees : Agrees (sender.transmitted written) (sender.finSent = true) read r1)
    (hins : Inserted receiver.reassembler (start - 1) message.payload r1)
    (heof : r1.eofIndex
      = receiver.reassembler.recordedEof (start - 1) message.payload message.fin)
    (hcar : message.Carries (sender.transmitted written) sender.finSent sender.isn start)
    (hend : start + message.sequenceLength ≤ sender.sndNxt) (hpos : 0 < message.sequenceLength)
    (hstart : start = receiver.acknowledged)
    (hroom : 0 < receiver.output.availableCapacity ∨ message.payload = []) :
    receiver.acknowledged
      < TcpReceiver.acknowledged { reassembler := r1, isn := some sender.isn } := by
  show _ < r1.output.bytesPushed + 1 + r1.output.closed.toNat
  cases hisn : receiver.isn with
  | none =>
      rw [TcpReceiver.acknowledged_of_none hisn]
      omega
  | some z =>
      have hopen := h.open_of_lt hisn (by omega)
      have hlevel := TcpReceiver.acknowledged_of_some hisn
      rw [hopen, Bool.toNat_false, Nat.add_zero] at hlevel
      rw [hlevel]
      have hdue : start - 1 = receiver.reassembler.output.bytesPushed := by
        show start - 1 = receiver.output.bytesPushed
        omega
      rw [hdue] at hins heof
      have hmore : receiver.output.bytesPushed ≤ r1.output.bytesPushed := hins.pushed_le
      by_cases hnil : message.payload = []
      · -- only FIN is left
        have hsyn : message.syn = false := by
          by_contra hs
          rw [Bool.not_eq_false] at hs
          have hzero := hcar.syn.mp hs
          omega
        have hfin : message.fin = true := by
          by_contra hf
          rw [Bool.not_eq_true] at hf
          rw [TcpSenderMessage.sequenceLength, hsyn, hf, hnil] at hpos
          exact absurd hpos (by simp)
        rw [recordedEof, if_pos hfin, hnil, List.length_nil, Nat.add_zero] at heof
        rw [hins.closed_of_eof hagrees heof, Bool.toNat_true]
        omega
      · -- the first byte is assembled
        have hfree : 0 < receiver.output.availableCapacity := hroom.resolve_right hnil
        have hinside : receiver.reassembler.output.bytesPushed
            < receiver.reassembler.firstUnacceptable := by
          have hpushed := receiver.output.pushed_eq
          have hpopped := h.pushed_le
          have hwritten := h.inv.popped_le
          have hshort := h.short
          show receiver.output.bytesPushed
            < saturatingAdd receiver.output.bytesPopped receiver.output.capacity
          unfold ByteStream.availableCapacity at hfree
          unfold saturatingAdd u64Max
          omega
        have hnext : receiver.output.bytesPushed < r1.output.bytesPushed :=
          hins.pushed_lt hagrees.toRepInv h.intact hnil hinside
        omega

/-- The receiver takes a segment of the link, or does not know yet what to do with it. -/
theorem Link.receive_data (h : Link sender written receiver read sent feedback)
    (hp : packet.Data sender written)
    (hnear : absDiff packet.seqno (receiver.output.bytesPushed + 1) ≤ 2 ^ 31 - 1)
    {connection : TcpConnection} (hreceiver : connection.receiver = receiver) :
    ∃ receiver1, connection.receiveData packet.segment.toSenderMessage
        = .ok { connection with receiver := receiver1 } ∧
      Link sender written receiver1 read sent feedback ∧
      receiver.acknowledged ≤ receiver1.acknowledged ∧
      (0 < packet.segment.toSenderMessage.sequenceLength →
        packet.seqno = receiver.acknowledged →
        0 < receiver.output.availableCapacity ∨ packet.segment.payload = [] →
        receiver.acknowledged < receiver1.acknowledged) := by
  have hrst : packet.segment.toSenderMessage.rst = false := hp.rst
  unfold TcpConnection.receiveData
  by_cases hpos : 0 < packet.segment.toSenderMessage.sequenceLength
  · rw [if_pos (Or.inl hpos), hreceiver]
    have hcar := hp.occupies.carries hpos
    have hsynPos : packet.segment.toSenderMessage.syn = true ↔ packet.seqno = 0 := hcar.syn
    have hend := hp.end_le
    by_cases hknown : receiver.isn = none ∧ packet.segment.toSenderMessage.syn = false
    · -- nothing is taken before SYN
      obtain ⟨hnone, hsyn⟩ := hknown
      refine ⟨receiver, ?_, h, le_refl _, ?_⟩
      · rw [TcpReceiver.receive_ignored hnone hsyn hrst, ← hreceiver]
        rfl
      · intro _ hstart
        rw [TcpReceiver.acknowledged_of_none hnone] at hstart
        rw [hsynPos.mpr hstart] at hsyn
        exact absurd hsyn (by simp)
    · have hshort := h.short
      have hlen := h.inv.length_transmitted
      have hpopped := h.inv.popped_le
      have hmax : (sender.transmitted written).length + 2 ≤ u64Max := by
        unfold u64Max
        omega
      have hsyn : receiver.isn = none → packet.segment.toSenderMessage.syn = true :=
        fun hnone => by simpa [hnone] using hknown
      obtain ⟨r1, hrun, hagrees, hins, heof⟩ := TcpReceiver.receive_taken h.agrees h.isn hmax hcar
        hpos hrst hsyn (by omega)
      have hle : receiver.acknowledged
          ≤ TcpReceiver.acknowledged { reassembler := r1, isn := some sender.isn } :=
        acknowledged_le_of_inserted h.agrees hagrees hins heof
      have hintact : r1.output.error = false := by
        obtain ⟨tl, hgrown, -⟩ := hins.grown
        exact hgrown.error.trans h.intact
      refine ⟨{ reassembler := r1, isn := some sender.isn }, ?_, ?_, hle, ?_⟩
      · rw [hrun]
        rfl
      · exact h.deliver hagrees hintact (fun z hz => (Option.mem_some_iff.mp hz).symm)
          (fun _ => by omega) hle
      · intro _ hstart hroom
        exact h.acknowledged_lt hagrees hins heof hcar hend hpos hstart hroom
  · have hnone : ¬ (0 < packet.segment.toSenderMessage.sequenceLength ∨
        packet.segment.toSenderMessage.rst = true) := by
      rw [hrst]
      simpa using hpos
    refine ⟨receiver, ?_, h, le_refl _, fun hlen => absurd hlen hpos⟩
    rw [if_neg hnone, ← hreceiver]

end Network

end Minnow
