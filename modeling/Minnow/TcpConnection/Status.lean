import Minnow.TcpConnection.Reset

set_option autoImplicit false

/-! # The status of a connection

`is_established` and `is_finished` read what the sender believes: the oldest unacknowledged
sequence number, and whether FIN was sent and the queue is empty. RST empties the queue and
takes everything in flight for acknowledged.

* `Record.step`: a run with what was sent, which acknowledgments were accepted and what was
  heard.
* `truthful_iff`: the status is truthful throughout a run exactly if RST arrives only while
  nothing is in flight.
* `not_truthful`: RST ends a handshake and a close that were never acknowledged.
-/

namespace Minnow

namespace TcpSender

open OutstandingSegment

variable {sender sender1 : TcpSender} {data : Bytes} {window : Nat}
  {messages : List TcpSenderMessage}

/-- The acknowledgment number of a message, decoded, if the sender accepts it. -/
def acceptedAck (sender : TcpSender) (message : TcpReceiverMessage) : Option Nat :=
  if message.rst then none
  else
    (message.ackno.map (fun ackno => ackno.unwrap sender.isn sender.sndNxt)).filter
      (fun n => decide (n ≤ sender.sndNxt))

/-- Feedback moves the oldest unacknowledged number up to the acknowledgment it accepts; RST
moves it to the end of what was sent. -/
theorem receive_una {message : TcpReceiverMessage} (h : Inv data sender)
    (hrun : sender.receive message = .ok sender1) :
    sender1.sndUna =
      if message.rst then sender.sndNxt
      else (sender.acceptedAck message).elim sender.sndUna (max sender.sndUna) := by
  rcases receive_cases h hrun with ⟨hrst, rfl⟩ | ⟨hrst, hacc, hr⟩ | ⟨hrst, hdropped, rfl⟩
  · rw [if_pos hrst]
    rfl
  · rw [if_neg (by simp [hrst]), hr.frame]
    show sender.ackedUna message = _
    unfold ackedUna acceptedAck
    rw [hrst]
    cases hack : message.ackno with
    | none => rfl
    | some ackno =>
        have hsent := hacc ackno hack
        simp [Option.filter, hsent]
  · -- the acknowledgment is for what was never sent
    rw [if_neg (by simp [hrst])]
    unfold acceptedAck
    unfold Accepts at hdropped
    rw [hrst]
    cases hack : message.ackno with
    | none =>
        rw [hack] at hdropped
        exact absurd (fun ackno hmem => by simp at hmem) hdropped
    | some ackno =>
        have hunsent : ¬ ackno.unwrap sender1.isn sender1.sndNxt ≤ sender1.sndNxt := by
          simpa [hack] using hdropped
        simp [Option.filter, hunsent]

/-- What is transmitted when SYN becomes sent starts with SYN. -/
theorem Pushed.exists_syn (h : Inv data sender)
    (hp : Pushed data window sender messages sender1) (hbefore : sender.synSent = false)
    (hafter : sender1.synSent = true) :
    ∃ x ∈ stamp sender.sndNxt messages, x.message.syn = true ∧ x.absoluteStart = 0 := by
  obtain ⟨hpopped, hfin⟩ := h.syn_first hbefore
  have hnxt := h.nxt_eq
  rw [hbefore, hpopped, hfin] at hnxt
  have hnxt1 := hp.inv.nxt_eq
  rw [hafter, Bool.toNat_true] at hnxt1
  have hqueue := hp.queue h
  cases messages with
  | nil =>
      have hend := tiles_nil.mp hqueue
      simp only [Bool.toNat_false] at hnxt
      omega
  | cons message rest =>
      -- nothing has a number yet, so the first message starts at zero and carries SYN
      have hmem : { absoluteStart := sender.sndNxt, message := message }
          ∈ stamp sender.sndNxt (message :: rest) := List.mem_cons_self
      have hgenuine := (hp.genuine _ hmem).1
      have hpos := (hqueue.mem hmem).2.1
      have hzero : sender.sndNxt = 0 := hnxt
      exact ⟨_, hmem, (hgenuine.carries hpos).syn.mpr hzero, hzero⟩

/-- What is transmitted when FIN becomes sent ends with FIN. -/
theorem Pushed.exists_fin (h : Inv data sender)
    (hp : Pushed data window sender messages sender1) (hbefore : sender.finSent = false)
    (hafter : sender1.finSent = true) :
    ∃ x ∈ stamp sender.sndNxt messages, x.message.fin = true ∧
      x.absoluteStart + x.sequenceLength = sender1.sndNxt := by
  obtain ⟨bytes, hdrained⟩ := hp.drained
  have hqueue := hp.queue h
  -- had nothing been transmitted, FIN would have been sent before
  have hlt : sender.sndNxt < sender1.sndNxt := by
    by_contra hge
    have hsame : sender1.sndNxt = sender.sndNxt := by
      have hle := hqueue.le
      omega
    have hopen := TcpConnection.finSent_of_same_nxt h hp.inv hdrained hsame hafter
    rw [hbefore] at hopen
    exact absurd hopen (by simp)
  obtain ⟨x, hmem, hlast⟩ := hqueue.exists_last hlt
  have hgenuine := (hp.genuine x hmem).1
  have hpos := (hqueue.mem hmem).2.1
  obtain ⟨hclosed, hpopped⟩ := hp.inv.fin_last hafter
  have hsyn : sender1.synSent = true := by
    by_contra hs
    have hopen := (hp.inv.syn_first (by simpa using hs)).2
    rw [hafter] at hopen
    exact absurd hopen (by simp)
  -- FIN is the last symbol of the sequence space
  have hend : sender1.sndNxt = data.length + 2 := by
    have hnxt := hp.inv.nxt_eq
    rw [hsyn, hafter, hpopped, Bool.toNat_true] at hnxt
    omega
  refine ⟨x, hmem, (hgenuine.carries hpos).fin.mpr ⟨hdrained.closed.symm.trans hclosed, ?_⟩, hlast⟩
  exact hlast.trans hend

/-- A change of flags that leaves the length alone commutes with numbering. -/
theorem stamp_map {f : TcpSenderMessage → TcpSenderMessage}
    (hf : ∀ message, (f message).sequenceLength = message.sequenceLength) (a : Nat) :
    stamp a (messages.map f)
      = (stamp a messages).map (fun x => { x with message := f x.message }) := by
  induction messages generalizing a with
  | nil => rfl
  | cons message rest ih =>
      rw [List.map_cons, stamp, stamp, List.map_cons, hf, ih]

end TcpSender

namespace TcpReceiver

variable {receiver receiver1 : TcpReceiver} {message : TcpSenderMessage}
  {result : Except ReassemblerError Unit}

theorem receiveAt_isn {isn : Wrap32}
    (hrun : receiver.receiveAt isn message = .ok (receiver1, result)) :
    receiver1.isn = receiver.isn := by
  unfold receiveAt at hrun
  dsimp only at hrun
  split at hrun
  · obtain ⟨rfl, -⟩ := Prod.mk.inj (Except.ok.inj hrun)
    rfl
  · obtain ⟨⟨reassembler, result1⟩, -, hok⟩ := Exec.bind_eq_ok.mp hrun
    obtain ⟨rfl, -⟩ := Prod.mk.inj (Except.ok.inj hok)
    rfl

/-- Only SYN records an initial sequence number. -/
theorem receive_isn (hrun : receiver.receive message = .ok (receiver1, result)) :
    receiver1.isn = receiver.isn ∨ message.syn = true ∧ receiver1.isn = some message.seqno := by
  unfold receive at hrun
  by_cases hrst : message.rst = true
  · rw [if_pos hrst] at hrun
    obtain ⟨rfl, -⟩ := Prod.mk.inj (Except.ok.inj hrun)
    exact Or.inl rfl
  · rw [if_neg hrst] at hrun
    cases hisn : receiver.isn with
    | some isn =>
        simp only [hisn] at hrun
        split_ifs at hrun
        · obtain ⟨rfl, -⟩ := Prod.mk.inj (Except.ok.inj hrun)
          exact Or.inl hisn
        · exact Or.inl ((receiveAt_isn hrun).trans hisn)
    | none =>
        simp only [hisn] at hrun
        split_ifs at hrun with hsyn
        · obtain ⟨rfl, -⟩ := Prod.mk.inj (Except.ok.inj hrun)
          exact Or.inl hisn
        · exact Or.inr ⟨by simpa using hsyn, receiveAt_isn hrun⟩

end TcpReceiver

namespace TcpConnection

open TcpSender

/-- A connection with what it has sent, under absolute sequence numbers, which
acknowledgments it has accepted, and what it has heard from its peer. -/
structure Record where
  connection : TcpConnection
  sent : List OutstandingSegment
  acked : List Nat
  heard : List TcpSegment

/-- The absolute sequence number of the first segment that an operation emits: time repeats
the oldest segment, everything else is new. -/
def firstSeqno (connection : TcpConnection) : ConnOp → Nat
  | .tick _ => connection.sender.sndUna
  | _ => connection.sender.sndNxt

/-- The acknowledgment that an operation accepts. -/
def acceptedIn (connection : TcpConnection) : ConnOp → Option Nat
  | .receiveSegment segment =>
      if connection.belongsToThisConnection segment then
        connection.sender.acceptedAck segment.toReceiverMessage
      else none
  | _ => none

/-- The operation brings RST. -/
def resets (connection : TcpConnection) : ConnOp → Bool
  | .receiveSegment segment => connection.belongsToThisConnection segment && segment.header.rst
  | _ => false

/-- The segment of the peer that an operation hears. -/
def heardIn (connection : TcpConnection) : ConnOp → List TcpSegment
  | .receiveSegment segment =>
      if connection.belongsToThisConnection segment then [segment] else []
  | _ => []

namespace Record

def start (connection : TcpConnection) : Record :=
  { connection := connection, sent := [], acked := [], heard := [] }

def step (record : Record) (op : ConnOp) : Exec Record := do
  let (connection, segments) ← record.connection.perform op
  .ok
    { connection := connection
      sent := record.sent ++
        stamp (firstSeqno record.connection op) (segments.map TcpSegment.toSenderMessage)
      acked := record.acked ++ (acceptedIn record.connection op).toList
      heard := record.heard ++ heardIn record.connection op }

/-- The oldest unacknowledged number is the initial one or a number the peer acknowledged. -/
def AckedUna (record : Record) : Prop :=
  record.connection.sender.sndUna = 0 ∨ record.connection.sender.sndUna ∈ record.acked

/-- A segment with FIN was sent, and an acknowledgment that covers it was accepted. -/
def FinAcked (record : Record) : Prop :=
  ∃ x ∈ record.sent, x.message.fin = true ∧
    ∃ n ∈ record.acked, x.absoluteStart + x.sequenceLength ≤ n

/-- SYN was sent, and an acknowledgment that covers it was accepted. -/
def SynAcked (record : Record) : Prop :=
  ∃ x ∈ record.sent, x.message.syn = true ∧ ∃ n ∈ record.acked, x.absoluteStart < n

/-- The initial sequence number of the peer is that of a SYN heard from it. -/
def SynRecorded (record : Record) : Prop :=
  ∃ segment ∈ record.heard, segment.header.syn = true ∧
    record.connection.receiver.isn = some segment.header.seqno

structure Truthful (record : Record) : Prop where
  una : record.AckedUna
  finished : record.connection.isFinished = true → record.FinAcked
  established : record.connection.isEstablished = true → record.SynAcked ∧ record.SynRecorded

/-- RST arrives only while nothing is in flight. -/
def RstIdle (record : Record) (op : ConnOp) : Prop :=
  resets record.connection op = true →
    record.connection.sender.sndUna = record.connection.sender.sndNxt

instance (record : Record) (op : ConnOp) : Decidable (record.RstIdle op) :=
  inferInstanceAs (Decidable (_ → _))

/-- What the record has to do with the connection, whatever the peer sends. -/
structure Inv (record : Record) : Prop where
  conn : ConnInv record.connection
  syn : record.connection.sender.synSent = true →
    ∃ x ∈ record.sent, x.message.syn = true ∧ x.absoluteStart = 0
  fin : record.connection.sender.finSent = true →
    ∃ x ∈ record.sent, x.message.fin = true ∧
      x.absoluteStart + x.sequenceLength = record.connection.sender.sndNxt
  isn : ∀ z ∈ record.connection.receiver.isn,
    ∃ segment ∈ record.heard, segment.header.syn = true ∧ segment.header.seqno = z
  acked_le : ∀ n ∈ record.acked, n ≤ record.connection.sender.sndUna

variable {record record1 : Record} {connection connection0 connection1 : TcpConnection}
  {op : ConnOp} {segments : List TcpSegment} {data : Bytes}

/-! ## The status is read off the oldest unacknowledged number -/

theorem Inv.finAcked (h : Inv record) (huna : record.AckedUna)
    (hfinished : record.connection.isFinished = true) : record.FinAcked := by
  obtain ⟨data, hinv⟩ := h.conn.sender
  obtain ⟨hfin, hempty⟩ : record.connection.sender.finSent = true ∧
      record.connection.sender.outstanding = [] := by
    simpa [TcpConnection.isFinished, TcpSender.isFinished] using hfinished
  -- an empty queue tiles nothing: everything up to FIN is acknowledged
  have hsame := hinv.queue.eq_nil_iff.mp hempty
  obtain ⟨x, hmem, hxfin, hend⟩ := h.fin hfin
  have hpos : 0 < record.connection.sender.sndNxt := by
    have hnxt := hinv.nxt_eq
    rw [hfin, Bool.toNat_true] at hnxt
    omega
  have hacked : record.connection.sender.sndUna ∈ record.acked :=
    huna.resolve_left (by omega)
  exact ⟨x, hmem, hxfin, _, hacked, by omega⟩

theorem Inv.synAcked (h : Inv record) (huna : record.AckedUna)
    (hestablished : record.connection.isEstablished = true) :
    record.SynAcked ∧ record.SynRecorded := by
  obtain ⟨⟨hsyn, hpos⟩, hack⟩ : (record.connection.sender.synSent = true ∧
      0 < record.connection.sender.sndUna) ∧ record.connection.receiver.isn.isSome = true := by
    simpa [TcpConnection.isEstablished, TcpReceiver.send] using hestablished
  constructor
  · obtain ⟨x, hmem, hxsyn, hzero⟩ := h.syn hsyn
    have hacked : record.connection.sender.sndUna ∈ record.acked :=
      huna.resolve_left (by omega)
    exact ⟨x, hmem, hxsyn, _, hacked, by omega⟩
  · obtain ⟨z, hz⟩ := Option.isSome_iff_exists.mp hack
    obtain ⟨segment, hmem, hseg, hseqno⟩ := h.isn z hz
    exact ⟨segment, hmem, hseg, by rw [hz, hseqno]⟩

theorem Inv.truthful_iff_ackedUna (h : Inv record) : record.Truthful ↔ record.AckedUna :=
  ⟨fun ht => ht.una, fun huna => ⟨huna, h.finAcked huna, h.synAcked huna⟩⟩

end Record

/-! ## What an operation does to the oldest unacknowledged number -/

section

variable {connection connection0 connection1 : TcpConnection} {op : ConnOp}
  {segments : List TcpSegment} {messages : List TcpSenderMessage} {segment : TcpSegment}

/-- The oldest unacknowledged number after an operation. -/
def nextUna (connection : TcpConnection) (op : ConnOp) : Nat :=
  if resets connection op then connection.sender.sndNxt
  else (acceptedIn connection op).elim connection.sender.sndUna (max connection.sender.sndUna)

theorem acceptedIn_of_resets (hresets : resets connection op = true) :
    acceptedIn connection op = none := by
  cases op with
  | receiveSegment segment =>
      obtain ⟨hport, hrst⟩ := Bool.and_eq_true_iff.mp hresets
      show (if connection.belongsToThisConnection segment = true then
        connection.sender.acceptedAck segment.toReceiverMessage else none) = none
      rw [if_pos hport]
      exact if_pos hrst
  | flushSender => rfl
  | write data => rfl
  | close => rfl
  | tick elapsedMs => rfl
  | read len => rfl

theorem Prepared.una (hp : Prepared connection op connection0) (h : ConnInv connection) :
    connection0.sender.sndUna = nextUna connection op := by
  obtain ⟨data, hinv⟩ := h.sender
  cases hp with
  | flushSender => rfl
  | write data => rfl
  | close => rfl
  | @receiveSegment segment sender receiver hport hsender hdata =>
      have hresets : resets connection (.receiveSegment segment) = segment.header.rst := by
        rw [resets, hport, Bool.true_and]
      have haccepted : acceptedIn connection (.receiveSegment segment)
          = connection.sender.acceptedAck segment.toReceiverMessage := if_pos hport
      rw [nextUna, hresets, haccepted]
      exact receive_una hinv hsender

/-- Preparing transmits nothing. -/
theorem Prepared.sent (hp : Prepared connection op connection0) (h : ConnInv connection) :
    connection0.sender.sndNxt = connection.sender.sndNxt ∧
      connection0.sender.synSent = connection.sender.synSent ∧
      connection0.sender.finSent = connection.sender.finSent := by
  obtain ⟨data, hinv⟩ := h.sender
  cases hp with
  | flushSender => exact ⟨rfl, rfl, rfl⟩
  | write data => exact ⟨rfl, rfl, rfl⟩
  | close => exact ⟨rfl, rfl, rfl⟩
  | @receiveSegment segment sender receiver hport hsender hdata =>
      have hsame := receive_sameSent hinv hsender
      exact ⟨hsame.nxt, hsame.syn, hsame.fin⟩

theorem Prepared.firstSeqno (hp : Prepared connection op connection0) :
    firstSeqno connection op = connection.sender.sndNxt := by
  cases hp <;> rfl

/-- Only SYN records an initial sequence number. -/
theorem receiveData_isn {message : TcpSenderMessage}
    (hrun : connection.receiveData message = .ok connection1) :
    connection1.receiver.isn = connection.receiver.isn ∨
      message.syn = true ∧ connection1.receiver.isn = some message.seqno := by
  rcases receiveData_eq_ok hrun with
    ⟨rfl, -⟩ | ⟨-, receiver, result, hreceive, ⟨rfl, -⟩ | ⟨rfl, -⟩⟩
  · exact Or.inl rfl
  · exact TcpReceiver.receive_isn hreceive
  · -- an error in the output leaves the initial sequence number
    have hisn := TcpReceiver.receive_isn hreceive
    exact hisn

theorem Prepared.isn (hp : Prepared connection op connection0) :
    connection0.receiver.isn = connection.receiver.isn ∨
      ∃ segment ∈ heardIn connection op, segment.header.syn = true ∧
        connection0.receiver.isn = some segment.header.seqno := by
  cases hp with
  | flushSender => exact Or.inl rfl
  | write data => exact Or.inl rfl
  | close => exact Or.inl rfl
  | @receiveSegment segment sender receiver hport hsender hdata =>
      rcases receiveData_isn hdata with hold | ⟨hsyn, hnew⟩
      · exact Or.inl hold
      · refine Or.inr ⟨segment, ?_, hsyn, hnew⟩
        show segment ∈ if connection.belongsToThisConnection segment = true then [segment] else []
        rw [if_pos hport]
        exact List.mem_cons_self

/-- The segments for messages carry their flags under the same numbers. -/
theorem exists_mem_stamp_buildSegments (connection : TcpConnection) {a : Nat}
    {x : OutstandingSegment} (hx : x ∈ stamp a messages) :
    ∃ y ∈ stamp a ((connection.buildSegments messages).map TcpSegment.toSenderMessage),
      y.absoluteStart = x.absoluteStart ∧ y.sequenceLength = x.sequenceLength ∧
        y.message.syn = x.message.syn ∧ y.message.fin = x.message.fin := by
  let flagged : TcpSenderMessage → TcpSenderMessage := fun message =>
    { message with rst := message.rst || connection.receiver.send.rst }
  have hmap : (connection.buildSegments messages).map TcpSegment.toSenderMessage
      = messages.map flagged := by
    rw [buildSegments, List.map_map]
    rfl
  have hlen : ∀ message, (flagged message).sequenceLength = message.sequenceLength := fun _ => rfl
  rw [hmap, stamp_map hlen]
  exact ⟨_, List.mem_map_of_mem hx, rfl, rfl, rfl, rfl⟩

/-- What an operation does to the numbers and flags of the sender. -/
theorem Performed.una (hp : Performed connection op connection1 segments)
    (h : ConnInv connection) : connection1.sender.sndUna = nextUna connection op := by
  cases hp with
  | @flushed op connection0 connection1 outgoing segments hprepared hflush hsegments =>
      obtain ⟨data, hinv⟩ := (hprepared.inv h).sender
      obtain ⟨sender, messages, hpush, rfl, -⟩ := flushSender_eq_ok.mp hflush
      rw [← hprepared.una h, (push_pushed hinv hpush).frame]
  | @ticked elapsedMs sender messages htick =>
      obtain ⟨data, hinv⟩ := h.sender
      show sender.sndUna = connection.sender.sndUna
      rw [(tick_ticked hinv htick).1.frame]
  | foreign hport =>
      unfold nextUna resets acceptedIn
      simp [hport]
  | read len => rfl

/-- What a flush transmits is among the segments that go out, under the same numbers. -/
theorem exists_mem_stamp_flushed {outgoing : List TcpSegment}
    (hprepared : Prepared connection op connection0) (h : ConnInv connection)
    (houtgoing : outgoing = connection0.buildSegments messages)
    (hsegments : segments = outgoing ∨
      (outgoing = [] ∧ segments = connection1.makePureAckSegment.toList))
    {x : OutstandingSegment} (hx : x ∈ stamp connection0.sender.sndNxt messages) :
    ∃ y ∈ stamp (firstSeqno connection op) (segments.map TcpSegment.toSenderMessage),
      y.absoluteStart = x.absoluteStart ∧ y.sequenceLength = x.sequenceLength ∧
        y.message.syn = x.message.syn ∧ y.message.fin = x.message.fin := by
  have hout : segments = connection0.buildSegments messages := by
    rcases hsegments with rfl | ⟨hnil, -⟩
    · exact houtgoing
    · rw [hnil] at houtgoing
      obtain rfl : messages = [] := List.map_eq_nil_iff.mp houtgoing.symm
      exact absurd hx List.not_mem_nil
  rw [hprepared.firstSeqno, ← (hprepared.sent h).1, hout]
  exact exists_mem_stamp_buildSegments connection0 hx

/-- SYN was sent before, or it is among what the operation sends. -/
theorem Performed.syn (hp : Performed connection op connection1 segments)
    (h : ConnInv connection) (hsyn : connection1.sender.synSent = true) :
    connection.sender.synSent = true ∨
      ∃ x ∈ stamp (firstSeqno connection op) (segments.map TcpSegment.toSenderMessage),
        x.message.syn = true ∧ x.absoluteStart = 0 := by
  cases hp with
  | @flushed op connection0 connection1 outgoing segments hprepared hflush hsegments =>
      obtain ⟨data, hinv0⟩ := (hprepared.inv h).sender
      obtain ⟨-, hsyn0, -⟩ := hprepared.sent h
      obtain ⟨sender, messages, hpush, rfl, houtgoing⟩ := flushSender_eq_ok.mp hflush
      cases hbefore : connection0.sender.synSent with
      | true => exact Or.inl (hsyn0.symm.trans hbefore)
      | false =>
          obtain ⟨x, hx, hxsyn, hstart⟩ :=
            (push_pushed hinv0 hpush).exists_syn hinv0 hbefore hsyn
          obtain ⟨y, hy, hystart, -, hysyn, -⟩ :=
            exists_mem_stamp_flushed hprepared h houtgoing hsegments hx
          exact Or.inr ⟨y, hy, hysyn.trans hxsyn, hystart.trans hstart⟩
  | @ticked elapsedMs sender messages htick =>
      obtain ⟨data, hinv⟩ := h.sender
      have hsyn1 : sender.synSent = true := hsyn
      rw [(tick_ticked hinv htick).1.frame] at hsyn1
      exact Or.inl hsyn1
  | foreign hport => exact Or.inl hsyn
  | read len => exact Or.inl hsyn

/-- FIN was sent before, and nothing since, or it is among what the operation sends. -/
theorem Performed.fin (hp : Performed connection op connection1 segments)
    (h : ConnInv connection) (hfin : connection1.sender.finSent = true) :
    (connection.sender.finSent = true ∧ connection1.sender.sndNxt = connection.sender.sndNxt) ∨
      ∃ x ∈ stamp (firstSeqno connection op) (segments.map TcpSegment.toSenderMessage),
        x.message.fin = true ∧
          x.absoluteStart + x.sequenceLength = connection1.sender.sndNxt := by
  cases hp with
  | @flushed op connection0 connection1 outgoing segments hprepared hflush hsegments =>
      obtain ⟨data, hinv0⟩ := (hprepared.inv h).sender
      obtain ⟨hnxt0, -, hfin0⟩ := hprepared.sent h
      obtain ⟨sender, messages, hpush, rfl, houtgoing⟩ := flushSender_eq_ok.mp hflush
      cases hbefore : connection0.sender.finSent with
      | true =>
          rw [push_of_finSent hinv0 hbefore, Except.ok.injEq, Prod.mk.injEq] at hpush
          obtain ⟨rfl, -⟩ := hpush
          exact Or.inl ⟨hfin0.symm.trans hbefore, hnxt0⟩
      | false =>
          obtain ⟨x, hx, hxfin, hend⟩ :=
            (push_pushed hinv0 hpush).exists_fin hinv0 hbefore hfin
          obtain ⟨y, hy, hystart, hylen, -, hyfin⟩ :=
            exists_mem_stamp_flushed hprepared h houtgoing hsegments hx
          exact Or.inr ⟨y, hy, hyfin.trans hxfin, by rw [hystart, hylen, hend]⟩
  | @ticked elapsedMs sender messages htick =>
      obtain ⟨data, hinv⟩ := h.sender
      have hframe := (tick_ticked hinv htick).1.frame
      have hfin1 : sender.finSent = true := hfin
      rw [hframe] at hfin1
      exact Or.inl ⟨hfin1, by dsimp only; rw [hframe]⟩
  | foreign hport => exact Or.inl ⟨hfin, rfl⟩
  | read len => exact Or.inl ⟨hfin, rfl⟩

/-- Only a SYN heard from the peer records its initial sequence number. -/
theorem Performed.isn (hp : Performed connection op connection1 segments) :
    connection1.receiver.isn = connection.receiver.isn ∨
      ∃ segment ∈ heardIn connection op, segment.header.syn = true ∧
        connection1.receiver.isn = some segment.header.seqno := by
  cases hp with
  | flushed hprepared hflush hsegments =>
      obtain ⟨sender, messages, -, rfl, -⟩ := flushSender_eq_ok.mp hflush
      exact hprepared.isn
  | ticked htick => exact Or.inl rfl
  | foreign hport => exact Or.inl rfl
  | read len => exact Or.inl rfl

end

namespace Record

variable {record record1 : Record} {connection connection0 connection1 : TcpConnection}
  {op : ConnOp} {segments : List TcpSegment} {data : Bytes}

/-! ## A run -/

theorem step_eq_ok : record.step op = .ok record1 ↔
    ∃ connection1 segments, record.connection.perform op = .ok (connection1, segments) ∧
      record1 =
        { connection := connection1
          sent := record.sent ++
            stamp (firstSeqno record.connection op) (segments.map TcpSegment.toSenderMessage)
          acked := record.acked ++ (acceptedIn record.connection op).toList
          heard := record.heard ++ heardIn record.connection op } := by
  unfold step
  rw [Exec.bind_eq_ok]
  constructor
  · rintro ⟨⟨connection1, segments⟩, hperform, hok⟩
    exact ⟨connection1, segments, hperform, (Except.ok.inj hok).symm⟩
  · rintro ⟨connection1, segments, hperform, rfl⟩
    exact ⟨(connection1, segments), hperform, rfl⟩

theorem inv_start {config : TcpConnectionConfig} (h : new config = .ok connection) :
    Inv (start connection) := by
  obtain ⟨-, -, hsender, hreceiver⟩ := new_eq_ok h
  obtain ⟨hinv, -, hnxt, -, hsyn, -⟩ := TcpSender.new_ok hsender
  rw [TcpReceiver.new_ok, Except.ok.injEq] at hreceiver
  have hfin := (hinv.syn_first hsyn).2
  constructor
  · exact connInv_new h
  · intro hs
    exact absurd (hsyn.symm.trans hs) (by simp)
  · intro hf
    exact absurd (hfin.symm.trans hf) (by simp)
  · intro z hz
    have hnone : connection.receiver.isn = none := by rw [← hreceiver]
    have hz1 : z ∈ connection.receiver.isn := hz
    rw [hnone] at hz1
    exact absurd hz1 (by simp)
  · intro n hn
    exact absurd hn List.not_mem_nil

/-- What an operation sends accounts for SYN. -/
theorem Inv.syn_of_performed (h : Inv record)
    (hp : Performed record.connection op connection1 segments)
    (hsyn : connection1.sender.synSent = true) :
    ∃ x ∈ record.sent ++
        stamp (firstSeqno record.connection op) (segments.map TcpSegment.toSenderMessage),
      x.message.syn = true ∧ x.absoluteStart = 0 := by
  rcases hp.syn h.conn hsyn with hbefore | ⟨x, hmem, hx⟩
  · obtain ⟨x, hmem, hx⟩ := h.syn hbefore
    exact ⟨x, List.mem_append_left _ hmem, hx⟩
  · exact ⟨x, List.mem_append_right _ hmem, hx⟩

/-- What an operation sends accounts for FIN. -/
theorem Inv.fin_of_performed (h : Inv record)
    (hp : Performed record.connection op connection1 segments)
    (hfin : connection1.sender.finSent = true) :
    ∃ x ∈ record.sent ++
        stamp (firstSeqno record.connection op) (segments.map TcpSegment.toSenderMessage),
      x.message.fin = true ∧
        x.absoluteStart + x.sequenceLength = connection1.sender.sndNxt := by
  rcases hp.fin h.conn hfin with ⟨hbefore, hnxt⟩ | ⟨x, hmem, hx⟩
  · obtain ⟨x, hmem, hxfin, hend⟩ := h.fin hbefore
    exact ⟨x, List.mem_append_left _ hmem, hxfin, hend.trans hnxt.symm⟩
  · exact ⟨x, List.mem_append_right _ hmem, hx⟩

theorem Inv.isn_of_performed (h : Inv record)
    (hp : Performed record.connection op connection1 segments) :
    ∀ z ∈ connection1.receiver.isn,
      ∃ segment ∈ record.heard ++ heardIn record.connection op,
        segment.header.syn = true ∧ segment.header.seqno = z := by
  intro z hz
  rcases hp.isn with hsame | ⟨segment, hmem, hsyn, hnew⟩
  · obtain ⟨segment, hmem, hseg⟩ := h.isn z (by rw [← hsame]; exact hz)
    exact ⟨segment, List.mem_append_left _ hmem, hseg⟩
  · rw [hnew, Option.mem_some_iff] at hz
    exact ⟨segment, List.mem_append_right _ hmem, hsyn, hz⟩

theorem Inv.step (h : Inv record) (hstep : record.step op = .ok record1) : Inv record1 := by
  obtain ⟨connection1, segments, hperform, rfl⟩ := step_eq_ok.mp hstep
  have hp := perform_performed hperform
  obtain ⟨data, hinv⟩ := h.conn.sender
  have hle := hinv.una_le
  refine ⟨h.conn.perform hperform, h.syn_of_performed hp, h.fin_of_performed hp,
    h.isn_of_performed hp, ?_⟩
  intro n hn
  dsimp only at hn ⊢
  rw [hp.una h.conn, nextUna]
  rcases List.mem_append.mp hn with hn | hn
  · -- accepted before: the oldest unacknowledged number only grows
    have hbelow := h.acked_le n hn
    split_ifs
    · omega
    · cases acceptedIn record.connection op with
      | none => exact hbelow
      | some ackno => exact le_trans hbelow (le_max_left _ _)
  · -- accepted now
    have haccepted : acceptedIn record.connection op = some n := Option.mem_toList.mp hn
    have hnot : ¬ resets record.connection op = true := by
      intro hresets
      rw [acceptedIn_of_resets hresets] at haccepted
      exact absurd haccepted (by simp)
    rw [if_neg hnot, haccepted]
    exact le_max_right _ _

/-- A step keeps the oldest unacknowledged number an acknowledged one exactly if it does not
bring RST while something is in flight. -/
theorem Inv.ackedUna_iff (h : Inv record) (huna : record.AckedUna)
    (hstep : record.step op = .ok record1) : record1.AckedUna ↔ record.RstIdle op := by
  obtain ⟨connection1, segments, hperform, rfl⟩ := step_eq_ok.mp hstep
  have hnext := (perform_performed hperform).una h.conn
  obtain ⟨data, hinv⟩ := h.conn.sender
  have hle := hinv.una_le
  unfold AckedUna RstIdle
  dsimp only
  rw [hnext, nextUna]
  by_cases hresets : resets record.connection op = true
  · rw [if_pos hresets, acceptedIn_of_resets hresets, Option.toList_none, List.append_nil]
    constructor
    · -- nothing accepted so far lies behind the oldest unacknowledged number
      intro hacked _
      rcases hacked with hzero | hmem
      · omega
      · exact Nat.le_antisymm hle (h.acked_le _ hmem)
    · intro hidle
      rw [← hidle hresets]
      exact huna
  · -- without RST the new number is the old one or the acknowledgment
    rw [if_neg hresets]
    refine iff_of_true ?_ (fun hr => absurd hr hresets)
    cases acceptedIn record.connection op with
    | none =>
        rw [Option.toList_none, List.append_nil]
        exact huna
    | some ackno =>
        rcases max_choice record.connection.sender.sndUna ackno with hold | hnew
        · rw [Option.elim_some, hold]
          exact huna.imp_right (List.mem_append_left _)
        · rw [Option.elim_some, hnew]
          exact Or.inr (List.mem_append_right _ (by simp))

/-- The status of a connection is truthful throughout a run exactly if RST arrives only while
nothing is in flight. -/
theorem truthful_iff {config : TcpConnectionConfig} {ops : List ConnOp}
    (hnew : new config = .ok connection)
    (hrun : Exec.run Record.step (start connection) ops = .ok record) :
    Exec.RunAlways Truthful Record.step (start connection) ops ↔
      Exec.RunWhile RstIdle Record.step (start connection) ops record := by
  have hgood : ∀ record record1 op, Inv record → Truthful record →
      Record.step record op = .ok record1 →
      Inv record1 ∧ (Truthful record1 ↔ RstIdle record op) := by
    intro record record1 op h ht hstep
    have h1 := h.step hstep
    exact ⟨h1, h1.truthful_iff_ackedUna.trans (h.ackedUna_iff ht.una hstep)⟩
  have hstart := inv_start hnew
  have huna : (start connection).AckedUna := by
    obtain ⟨-, -, hsender, -⟩ := new_eq_ok hnew
    exact Or.inl (TcpSender.new_ok hsender).2.2.2.1
  exact Exec.runAlways_iff Inv Truthful (fun record op record1 => hgood record record1 op) hstart
    (hstart.truthful_iff_ackedUna.mpr huna) hrun

/-- The peer acknowledges everything up to the number `ackno`. -/
def examplePeerAck (ackno : UInt32) : TcpSegment where
  header :=
    { srcPort := 2000, dstPort := 1000, seqno := ⟨501⟩, ackno := some ⟨ackno⟩
      windowSize := 10, syn := false, fin := false, rst := false }
  payload := []

/-- FIN is acknowledged before RST arrives. -/
def acknowledgedRun : List ConnOp :=
  [.close, .receiveSegment (examplePeerSyn 10), .receiveSegment (examplePeerAck 2),
    .receiveSegment examplePeerRst]

/-- RST arrives while FIN is in flight. -/
def unacknowledgedRun : List ConnOp :=
  [.close, .receiveSegment (examplePeerSyn 10), .receiveSegment examplePeerRst]

theorem truthful_acknowledged : ∃ connection record, new exampleConfig = .ok connection ∧
    Exec.run Record.step (start connection) acknowledgedRun = .ok record ∧
    record.connection.isFinished = true ∧
    Exec.RunAlways Truthful Record.step (start connection) acknowledgedRun := by
  obtain ⟨connection, hnew, record, hguarded, hfinished⟩ : ∃ connection,
      new exampleConfig = .ok connection ∧
        ∃ record, Exec.run (Exec.guarded RstIdle Record.step) (start connection) acknowledgedRun
            = .ok record ∧ record.connection.isFinished = true := by
    decide +kernel
  have hwhile := Exec.RunWhile.of_guarded hguarded
  exact ⟨connection, record, hnew, hwhile.run, hfinished,
    (truthful_iff hnew hwhile.run).mpr hwhile⟩

/-- After RST the connection is finished, though the only acknowledgment it has accepted is the
one for SYN. -/
theorem not_truthful : ¬ ∀ config connection ops record, new config = .ok connection →
    Exec.run Record.step (start connection) ops = .ok record → Truthful record := by
  intro hclaim
  obtain ⟨connection, hnew, record, hrun, hfinished, hacked, hsent⟩ : ∃ connection,
      new exampleConfig = .ok connection ∧
        ∃ record, Exec.run Record.step (start connection) unacknowledgedRun = .ok record ∧
          record.connection.isFinished = true ∧ record.acked = [1] ∧
          ∀ x ∈ record.sent, x.message.fin = true → x.absoluteStart + x.sequenceLength = 2 := by
    decide +kernel
  have ht := hclaim exampleConfig connection unacknowledgedRun record hnew hrun
  obtain ⟨x, hmem, hfin, n, hn, hle⟩ := ht.finished hfinished
  rw [hacked, List.mem_singleton] at hn
  have hend := hsent x hmem hfin
  omega

end Record

end TcpConnection

end Minnow
