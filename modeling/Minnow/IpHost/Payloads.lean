import Minnow.IpHost.Dispatch
import Minnow.Reassembler.InOrder

set_option autoImplicit false

/-! # The payloads a host reports

A host reports the payload of every segment for its connection before the connection has
looked at the segment. What the application gets is therefore the peer's stream only if
every payload is new, in order and inside the window:

* `payloads_faithful`: then it is exactly what the receiver has assembled, in every run;
* `payloads_repeated`: a segment that arrives twice is reported twice.
-/

namespace Minnow

namespace IpHostEvent

def payload : IpHostEvent → Bytes
  | .tcpPayload payload => payload
  | _ => []

end IpHostEvent

namespace IpHost

open TcpConnection

/-- The bytes handed to the application. -/
def payloads (events : List IpHostEvent) : Bytes := events.flatMap IpHostEvent.payload

theorem payloads_append (events more : List IpHostEvent) :
    payloads (events ++ more) = payloads events ++ payloads more :=
  List.flatMap_append

variable {host host1 : IpHost} {output : IpHostOutput} {segment : TcpSegment}
  {segments : List TcpSegment} {datagram : Ipv4Datagram} {op : HostOp}

/-- Outgoing segments are not reported as payload. -/
theorem wrapTcpSegments_payloads (h : host.wrapTcpSegments segments = .ok output) :
    payloads output.events = [] := by
  rw [wrapTcpSegments_events h]
  apply List.flatMap_eq_nil_iff.mpr
  intro event hmem
  obtain ⟨segment, -, rfl⟩ := List.mem_map.mp hmem
  rfl

/-- Only TCP events carry payload. -/
theorem payloads_of_silent (h : output.Silent) : payloads output.events = [] := by
  apply List.flatMap_eq_nil_iff.mpr
  intro event hmem
  have hother := h.events event hmem
  cases event <;> first | rfl | exact absurd hother (by simp [IpHostEvent.isTcp])

/-- What an operation does to the receiver, and which payload it reports. -/
inductive Effect (host : IpHost) : Option TcpSegment → IpHost → IpHostOutput → Prop where
  | silent {host1 : IpHost} {output : IpHostOutput}
      (hreceiver : host1.connection.receiver = host.connection.receiver)
      (hpayloads : payloads output.events = []) : Effect host none host1 output
  | segment {host1 : IpHost} {output : IpHostOutput} {segment : TcpSegment}
      {segments : List TcpSegment}
      (hport : host.connection.belongsToThisConnection segment = true)
      (hrun : host.connection.receiveSegment segment = .ok (host1.connection, segments))
      (hpayloads : payloads output.events = segment.payload) :
      Effect host (some segment) host1 output

/-- Flushing the sender leaves the receiver alone. -/
theorem receiver_of_flushSender {connection connection1 : TcpConnection}
    (h : connection.flushSender = .ok (connection1, segments)) :
    connection1.receiver = connection.receiver := by
  obtain ⟨sender, messages, -, rfl, -⟩ := flushSender_eq_ok.mp h
  rfl

theorem payloads_incomingEvents (segment : TcpSegment) :
    payloads (incomingEvents (.receiveSegment segment)) = segment.payload := by
  by_cases hnil : segment.payload = []
  · simp [incomingEvents, payloads, IpHostEvent.payload, hnil]
  · simp [incomingEvents, payloads, IpHostEvent.payload, hnil]

theorem perform_effect (h : host.perform op = .ok (host1, output)) :
    Effect host (op.segment host) host1 output := by
  have hsegment := op.segment_eq host
  cases hop : op.connOp host with
  | none =>
      obtain ⟨rfl, hsilent⟩ := perform_of_idle hop h
      rw [hsegment, hop]
      exact .silent rfl (payloads_of_silent hsilent)
  | some connOp =>
      rw [perform_of_connOp hop] at h
      obtain ⟨connection, segments, wrapped, hperform, hwrap, rfl, rfl⟩ := dispatch_eq_ok.mp h
      rw [hop, Option.bind_some] at hsegment
      have hpayloads : ∀ events, payloads (events ++ wrapped.events) = payloads events := by
        intro events
        rw [payloads_append, wrapTcpSegments_payloads hwrap, List.append_nil]
      rw [hsegment]
      -- the operations that bring no segment flush the sender or let time pass
      cases connOp with
      | receiveSegment segment =>
          have hreceive : host.connection.receiveSegment segment = .ok (connection, segments) :=
            hperform
          refine Effect.segment (HostOp.belongs hsegment) hreceive ?_
          exact (hpayloads _).trans (payloads_incomingEvents segment)
      | flushSender =>
          have hreceiver := receiver_of_flushSender hperform
          exact .silent hreceiver (hpayloads [])
      | write data =>
          cases perform_performed hperform with
          | flushed hprepared hflush hsegments =>
              cases hprepared with
              | write data =>
                  have hreceiver := receiver_of_flushSender hflush
                  exact .silent hreceiver (hpayloads [])
      | close =>
          have hflush : { host.connection with
              sender := host.connection.sender.close }.flushSender = .ok (connection, segments) :=
            hperform
          have hreceiver := receiver_of_flushSender hflush
          exact .silent hreceiver (hpayloads [])
      | tick elapsedMs =>
          obtain ⟨⟨sender, messages⟩, -, hok⟩ := Exec.bind_eq_ok.mp hperform
          obtain ⟨rfl, rfl⟩ := Prod.mk.inj (Except.ok.inj hok)
          exact .silent rfl (hpayloads [])
      | read len =>
          exact absurd hop (by cases op <;> simp [HostOp.connOp, Option.map_eq_some_iff])

/-! ## What the receiver makes of a payload -/

/-- The receiver has assembled a prefix of the stream and holds nothing behind it. -/
structure InOrder (stream : Bytes) (isn : Wrap32) (receiver : TcpReceiver) : Prop where
  repInv : receiver.reassembler.RepInv
  noGap : receiver.reassembler.NoGap
  isn : ∀ z ∈ receiver.isn, z = isn
  assembled : receiver.output.contents = stream.take receiver.output.bytesPushed

/-- The segment is a part of SYN, `stream`, FIN, or carries an acknowledgment only. -/
def Genuine (stream : Bytes) (isn : Wrap32) (segment : TcpSegment) : Prop :=
  segment.header.rst = false ∧ (segment.toSenderMessage.sequenceLength = 0 ∨
    ∃ b < stream.length + 3, ∃ a < b,
      segment.toSenderMessage = TcpReceiver.sliceMessage stream isn a b)

instance (stream : Bytes) (isn : Wrap32) (segment : TcpSegment) :
    Decidable (Genuine stream isn segment) :=
  inferInstanceAs (Decidable (_ ∧ (_ ∨ ∃ b < stream.length + 3, ∃ a < b, _)))

/-- The whole payload is new, due and inside the window: the receiver knows the initial
sequence number or is told it, the first byte is the next one of the stream, all of it fits,
and neither the error state nor a recorded end of the stream is in its way. -/
def Due (stream : Bytes) (isn : Wrap32) (receiver : TcpReceiver) (segment : TcpSegment) : Prop :=
  (receiver.isn ≠ none ∨ segment.header.syn = true) ∧
    (∃ b < stream.length + 3, ∃ a < b,
      segment.toSenderMessage = TcpReceiver.sliceMessage stream isn a b ∧
        a - 1 = receiver.output.bytesPushed) ∧
    segment.payload.length ≤ receiver.output.availableCapacity ∧
    receiver.output.error = false ∧
    ∀ eof ∈ receiver.reassembler.eofIndex,
      receiver.output.bytesPushed + segment.payload.length ≤ eof ∧
        (segment.header.fin = true → eof = receiver.output.bytesPushed + segment.payload.length)

instance (stream : Bytes) (isn : Wrap32) (receiver : TcpReceiver) (segment : TcpSegment) :
    Decidable (Due stream isn receiver segment) :=
  inferInstanceAs (Decidable (_ ∧ (∃ b < stream.length + 3, ∃ a < b, _) ∧ _ ∧ _ ∧
    ∀ eof ∈ receiver.reassembler.eofIndex, _))

variable {stream : Bytes} {isn : Wrap32} {receiver receiver1 : TcpReceiver}
  {message : TcpSenderMessage} {result : Except ReassemblerError Unit}

theorem InOrder.setError (h : InOrder stream isn receiver) :
    InOrder stream isn receiver.setError where
  repInv := h.repInv.setError
  noGap := h.noGap
  isn := h.isn
  assembled := h.assembled

/-- SYN, FIN and what cannot be used leave the assembled bytes as they are. -/
theorem InOrder.receiveAt_nil (h : InOrder stream isn receiver) {zero : Wrap32}
    (hpayload : message.payload = [])
    (hrun : receiver.receiveAt zero message = .ok (receiver1, result)) :
    InOrder stream isn receiver1 ∧
      receiver1.output.bytesPushed = receiver.output.bytesPushed := by
  unfold TcpReceiver.receiveAt at hrun
  dsimp only at hrun
  split at hrun
  · simp only [Except.ok.injEq, Prod.mk.injEq] at hrun
    obtain ⟨rfl, -⟩ := hrun
    exact ⟨h, rfl⟩
  · obtain ⟨⟨r1, result1⟩, hinsert, hok⟩ := Exec.bind_eq_ok.mp hrun
    simp only [Except.ok.injEq, Prod.mk.injEq] at hok
    obtain ⟨rfl, rfl⟩ := hok
    rw [hpayload] at hinsert
    obtain ⟨hrep, hgap, hgrown⟩ := Reassembler.tryInsert_nil h.repInv h.noGap hinsert
    have hpushed : r1.output.bytesPushed = receiver.output.bytesPushed := hgrown.pushed
    have hcontents : r1.output.contents = receiver.output.contents := by
      rw [hgrown.contents, List.append_nil]
      rfl
    refine ⟨⟨hrep, hgap, h.isn, ?_⟩, hpushed⟩
    show r1.output.contents = stream.take r1.output.bytesPushed
    rw [hcontents, hpushed]
    exact h.assembled

theorem InOrder.receive_nil (h : InOrder stream isn receiver) (hpayload : message.payload = [])
    (hrst : message.rst = false) (hseqno : message.syn = true → message.seqno = isn)
    (hrun : receiver.receive message = .ok (receiver1, result)) :
    InOrder stream isn receiver1 ∧
      receiver1.output.bytesPushed = receiver.output.bytesPushed := by
  have hsame : ∀ (receiver2 : TcpReceiver) (result2 : Except ReassemblerError Unit),
      (Except.ok (receiver, .ok ()) : Exec _) = .ok (receiver2, result2) →
      InOrder stream isn receiver2 ∧
        receiver2.output.bytesPushed = receiver.output.bytesPushed := by
    intro receiver2 result2 heq
    simp only [Except.ok.injEq, Prod.mk.injEq] at heq
    rw [← heq.1]
    exact ⟨h, rfl⟩
  unfold TcpReceiver.receive at hrun
  rw [hrst, if_neg (by simp)] at hrun
  cases hisn : receiver.isn with
  | some z =>
      simp only [hisn] at hrun
      split_ifs at hrun
      · exact hsame _ _ hrun
      · exact h.receiveAt_nil hpayload hrun
  | none =>
      simp only [hisn] at hrun
      split_ifs at hrun with hsyn
      · exact hsame _ _ hrun
      · -- the first SYN
        have hheard : InOrder stream isn { receiver with isn := some message.seqno } :=
          { h with
            isn := by
              intro z hz
              rw [← Option.mem_some_iff.mp hz]
              exact hseqno (by simpa using hsyn) }
        exact hheard.receiveAt_nil hpayload hrun

/-- A payload that is due becomes part of the output. -/
theorem InOrder.receive_due (h : InOrder stream isn receiver) (hmax : stream.length + 2 ≤ u64Max)
    (hpayload : segment.payload ≠ []) (hdue : Due stream isn receiver segment) :
    ∃ receiver1, receiver.receive segment.toSenderMessage = .ok (receiver1, .ok ()) ∧
      InOrder stream isn receiver1 ∧
      stream.take receiver1.output.bytesPushed
        = stream.take receiver.output.bytesPushed ++ segment.payload := by
  obtain ⟨hknown, ⟨b, hb, a, hab, hslice, hnext⟩, hroom, herror, hend⟩ := hdue
  have hpay : segment.payload = stream.slice (a - 1) (b - 1) :=
    congrArg TcpSenderMessage.payload hslice
  have hlen : segment.payload.length = min (b - 1 - (a - 1)) (stream.length - (a - 1)) := by
    rw [hpay, List.length_slice]
  have hpos : 0 < segment.payload.length := List.length_pos_iff.mpr hpayload
  have hcar : segment.toSenderMessage.Carries stream true isn a := by
    rw [hslice]
    exact TcpReceiver.carries_sliceMessage isn hab (by omega)
  have hrst : segment.toSenderMessage.rst = false := by rw [hslice]; rfl
  have hsyn : receiver.isn = none → segment.toSenderMessage.syn = true :=
    fun hnone => hknown.resolve_left (fun hne => hne hnone)
  have hnear : absDiff a (receiver.output.bytesPushed + 1) < 2 ^ 31 := by
    apply Wrap32.absDiff_lt_iff.mpr
    omega
  -- the reassembler takes it
  have hfits : receiver.output.bytesPushed + segment.payload.length ≤ stream.length := by omega
  obtain ⟨r1, hinsert, hrep, hgap, hgrown⟩ := Reassembler.tryInsert_due h.repInv h.noGap herror
    (hfits.trans (by omega)) hroom hend
  have hrun : receiver.receive segment.toSenderMessage
      = .ok ({ reassembler := r1, isn := some isn }, .ok ()) := by
    apply TcpReceiver.receive_carries h.isn hmax (by omega) hcar hrst hsyn hnear
    rw [hnext]
    exact hinsert
  have hpushed : r1.output.bytesPushed
      = receiver.output.bytesPushed + segment.payload.length := hgrown.pushed
  have hbytes : stream.slice receiver.output.bytesPushed
      (receiver.output.bytesPushed + segment.payload.length) = segment.payload := by
    rw [← hnext]
    exact hcar.payload.symm
  have hextend : stream.take r1.output.bytesPushed
      = stream.take receiver.output.bytesPushed ++ segment.payload :=
    calc stream.take r1.output.bytesPushed
        = stream.take receiver.output.bytesPushed
            ++ stream.slice receiver.output.bytesPushed r1.output.bytesPushed := by
          rw [List.take_append_slice stream (by omega)]
      _ = stream.take receiver.output.bytesPushed ++ segment.payload := by
          rw [hpushed, hbytes]
  refine ⟨{ reassembler := r1, isn := some isn }, hrun, ⟨hrep, hgap, ?_, ?_⟩, hextend⟩
  · exact fun z hz => (Option.mem_some_iff.mp hz).symm
  · calc r1.output.contents
        = receiver.output.contents ++ segment.payload := hgrown.contents
      _ = stream.take receiver.output.bytesPushed ++ segment.payload := by rw [h.assembled]
      _ = stream.take r1.output.bytesPushed := hextend.symm

/-- A payload that makes the output grow by its length was due. -/
theorem InOrder.due_of_receive {a b : Nat} (h : InOrder stream isn receiver)
    (hmax : stream.length + 2 ≤ u64Max) (hpayload : segment.payload ≠ []) (hab : a < b)
    (hb : b < stream.length + 3)
    (hslice : segment.toSenderMessage = TcpReceiver.sliceMessage stream isn a b)
    (hnear : absDiff a (receiver.output.bytesPushed + 1) < 2 ^ 31)
    (herror : receiver.output.error = false)
    (hrun : receiver.receive segment.toSenderMessage = .ok (receiver1, result))
    (hle : receiver.output.bytesPushed ≤ stream.length)
    (hgrow : receiver.output.bytesPushed + segment.payload.length
      ≤ receiver1.output.bytesPushed) : Due stream isn receiver segment := by
  have hpos : 0 < segment.payload.length := List.length_pos_iff.mpr hpayload
  have hcar : segment.toSenderMessage.Carries stream true isn a := by
    rw [hslice]
    exact TcpReceiver.carries_sliceMessage isn hab (by omega)
  have hrst : segment.toSenderMessage.rst = false := by rw [hslice]; rfl
  by_cases hknown : receiver.isn ≠ none ∨ segment.header.syn = true
  · have hsyn : receiver.isn = none → segment.toSenderMessage.syn = true :=
      fun hnone => hknown.resolve_left (fun hne => hne hnone)
    by_cases hc : Reassembler.Consistent receiver.reassembler (a - 1) segment.payload
        segment.header.fin
    · obtain ⟨r1, hinsert, hrep, hins, -⟩ := Reassembler.tryInsert_spec h.repInv hc
      have hrun1 := TcpReceiver.receive_carries h.isn hmax hle hcar hrst hsyn hnear hinsert
      rw [hrun, Except.ok.injEq, Prod.mk.injEq] at hrun1
      obtain ⟨rfl, -⟩ := hrun1
      obtain ⟨hnext, hroom⟩ := hins.next_of_grown h.noGap herror hpos hgrow
      refine ⟨hknown, ⟨b, hb, a, hab, hslice, hnext⟩, hroom, herror, ?_⟩
      intro eof heof
      have hbefore := hc.beforeEof eof heof
      have hsame := hc.sameEof
      rw [hnext] at hbefore hsame
      exact ⟨hbefore, fun hfin => hsame hfin eof heof⟩
    · -- a refused fragment leaves the output where it was
      obtain ⟨e, hinsert⟩ := Reassembler.tryInsert_inconsistent h.repInv hc
      have hrun1 := TcpReceiver.receive_carries h.isn hmax hle hcar hrst hsyn hnear hinsert
      rw [hrun, Except.ok.injEq, Prod.mk.injEq] at hrun1
      obtain ⟨rfl, -⟩ := hrun1
      have hsame : TcpReceiver.output { reassembler := receiver.reassembler, isn := some isn }
          = receiver.output := rfl
      rw [hsame] at hgrow
      omega
  · rw [not_or, not_not, Bool.not_eq_true] at hknown
    -- before the SYN nothing is taken
    obtain ⟨hnone, hsyn⟩ := hknown
    have hplain : segment.toSenderMessage.syn = false := hsyn
    have hrun1 := TcpReceiver.receive_ignored hnone hplain hrst
    rw [hrun, Except.ok.injEq, Prod.mk.injEq] at hrun1
    rw [hrun1.1] at hgrow
    omega

/-! ## Faithful runs -/

/-- What reaches the connection in this step is genuine. -/
def Session.Genuine (stream : Bytes) (isn : Wrap32) (s : Session) (op : HostOp) : Prop :=
  ∀ segment ∈ op.segment s.host, IpHost.Genuine stream isn segment

/-- A payload that reaches the connection in this step is due. -/
def Session.InOrder (stream : Bytes) (isn : Wrap32) (s : Session) (op : HostOp) : Prop :=
  ∀ segment ∈ op.segment s.host,
    segment.payload ≠ [] → Due stream isn s.host.connection.receiver segment

instance (stream : Bytes) (isn : Wrap32) (s : Session) (op : HostOp) :
    Decidable (s.Genuine stream isn op) :=
  inferInstanceAs (Decidable (∀ segment ∈ op.segment s.host, _))

instance (stream : Bytes) (isn : Wrap32) (s : Session) (op : HostOp) :
    Decidable (s.InOrder stream isn op) :=
  inferInstanceAs (Decidable (∀ segment ∈ op.segment s.host, segment.payload ≠ [] → _))

/-- The application was handed what the receiver has assembled. -/
structure Faithful (stream : Bytes) (isn : Wrap32) (s : Session) : Prop where
  inOrder : IpHost.InOrder stream isn s.host.connection.receiver
  payloads_eq : payloads s.events = stream.take s.host.connection.receiver.output.bytesPushed

/-- The part of `receive_segment` that concerns the receiver. -/
theorem receiveSegment_receiver {connection connection1 : TcpConnection}
    (hport : connection.belongsToThisConnection segment = true)
    (hrun : connection.receiveSegment segment = .ok (connection1, segments)) :
    (connection1.receiver = connection.receiver ∧
        segment.toSenderMessage.sequenceLength = 0 ∧ segment.toSenderMessage.rst = false) ∨
      (0 < segment.toSenderMessage.sequenceLength ∨ segment.toSenderMessage.rst = true) ∧
        ∃ receiver1 result,
          connection.receiver.receive segment.toSenderMessage = .ok (receiver1, result) ∧
          (connection1.receiver = receiver1 ∧ result = .ok () ∨
            connection1.receiver = receiver1.setError ∧ result ≠ .ok ()) := by
  obtain ⟨sender, connection2, outgoing, -, hdata, hflush, -⟩ := receiveSegment_eq_ok hport hrun
  have hsame := receiver_of_flushSender hflush
  rcases receiveData_eq_ok hdata with
    ⟨rfl, hnothing⟩ | ⟨htaken, receiver1, result, hreceive, ⟨rfl, hok⟩ | ⟨rfl, hfailed⟩⟩
  · exact Or.inl ⟨hsame, hnothing⟩
  · exact Or.inr ⟨htaken, receiver1, result, hreceive, Or.inl ⟨hsame, hok⟩⟩
  · exact Or.inr ⟨htaken, receiver1, result, hreceive, Or.inr ⟨hsame, hfailed⟩⟩

/-- A segment that occupies nothing does not reach the receiver. -/
theorem receiver_of_empty {connection connection1 : TcpConnection}
    (hport : connection.belongsToThisConnection segment = true)
    (hrun : connection.receiveSegment segment = .ok (connection1, segments))
    (hrst : segment.toSenderMessage.rst = false)
    (hzero : segment.toSenderMessage.sequenceLength = 0) :
    connection1.receiver = connection.receiver := by
  rcases receiveSegment_receiver hport hrun with ⟨hsame, -⟩ | ⟨hpos | hset, -⟩
  · exact hsame
  · omega
  · exact absurd (hset.symm.trans hrst) (by simp)

/-- The connection keeps the receiver that took a segment without an error. -/
theorem receiver_of_taken {connection connection1 : TcpConnection} {receiver1 : TcpReceiver}
    (hport : connection.belongsToThisConnection segment = true)
    (hrun : connection.receiveSegment segment = .ok (connection1, segments))
    (hpos : 0 < segment.toSenderMessage.sequenceLength)
    (hreceive : connection.receiver.receive segment.toSenderMessage = .ok (receiver1, .ok ())) :
    connection1.receiver = receiver1 := by
  rcases receiveSegment_receiver hport hrun with
    ⟨-, hzero, -⟩ | ⟨-, receiver2, result, hreceive2, hend⟩
  · omega
  · rw [hreceive, Except.ok.injEq, Prod.mk.injEq] at hreceive2
    obtain ⟨rfl, rfl⟩ := hreceive2
    rcases hend with ⟨heq, -⟩ | ⟨-, hfail⟩
    · exact heq
    · exact absurd rfl hfail

theorem faithful_start {config : IpHostConfig} (hnew : IpHost.new config = .ok host) :
    Faithful stream isn (start host) := by
  obtain ⟨connection, hconnection, hok⟩ := Exec.bind_eq_ok.mp hnew
  obtain rfl := Except.ok.inj hok
  obtain ⟨-, -, -, hreceiver⟩ := TcpConnection.new_eq_ok hconnection
  rw [TcpReceiver.new_ok, Except.ok.injEq] at hreceiver
  have hfresh : IpHost.InOrder stream isn connection.receiver := by
    rw [← hreceiver]
    refine ⟨Reassembler.repInv_new _, fun _ => Fragments.not_covers_empty, by simp, ?_⟩
    show [] = stream.take 0
    rw [List.take_zero]
  refine ⟨hfresh, ?_⟩
  show [] = stream.take connection.receiver.output.bytesPushed
  rw [← hreceiver]
  exact List.take_zero.symm

/-- A segment that reports no payload. -/
theorem Faithful.silent {s : Session} (h : Faithful stream isn s)
    (hgenuine : IpHost.Genuine stream isn segment) (hpayload : segment.payload = [])
    {connection1 : TcpConnection}
    (hport : s.host.connection.belongsToThisConnection segment = true)
    (hrun : s.host.connection.receiveSegment segment = .ok (connection1, segments)) :
    IpHost.InOrder stream isn connection1.receiver ∧
      connection1.receiver.output.bytesPushed
        = s.host.connection.receiver.output.bytesPushed := by
  rcases receiveSegment_receiver hport hrun with
    ⟨hsame, -, -⟩ | ⟨-, receiver1, result, hreceive, hend⟩
  · rw [hsame]
    exact ⟨h.inOrder, rfl⟩
  · have hseqno : segment.toSenderMessage.syn = true → segment.toSenderMessage.seqno = isn := by
      intro hsyn
      rcases hgenuine.2 with hzero | ⟨b, -, a, -, hslice⟩
      · unfold TcpSenderMessage.sequenceLength at hzero
        rw [hsyn, Bool.toNat_true] at hzero
        omega
      · have hstart : a = 0 := by
          rw [hslice] at hsyn
          simpa [TcpReceiver.sliceMessage] using hsyn
        rw [hslice, hstart]
        exact Wrap32.wrap_zero isn
    obtain ⟨hinv, hpushed⟩ := h.inOrder.receive_nil hpayload hgenuine.1 hseqno hreceive
    rcases hend with ⟨heq, -⟩ | ⟨heq, -⟩
    · rw [heq]
      exact ⟨hinv, hpushed⟩
    · rw [heq]
      exact ⟨hinv.setError, hpushed⟩

theorem Faithful.step {s s1 : Session} (hmax : stream.length + 2 ≤ u64Max)
    (h : Faithful stream isn s) (hgenuine : s.Genuine stream isn op)
    (hdue : s.InOrder stream isn op) (hstep : s.step op = .ok s1) : Faithful stream isn s1 := by
  obtain ⟨⟨host1, output⟩, hperform, hok⟩ := Exec.bind_eq_ok.mp hstep
  obtain rfl := Except.ok.inj hok
  have heffect := perform_effect hperform
  cases hsegment : op.segment s.host with
  | none =>
      rw [hsegment] at heffect
      cases heffect with
      | silent hreceiver hpayloads =>
          constructor
          · show IpHost.InOrder stream isn host1.connection.receiver
            rw [hreceiver]
            exact h.inOrder
          · calc payloads (s.events ++ output.events)
                = payloads s.events ++ [] := by rw [payloads_append, hpayloads]
              _ = stream.take s.host.connection.receiver.output.bytesPushed := by
                  rw [List.append_nil, h.payloads_eq]
              _ = stream.take host1.connection.receiver.output.bytesPushed := by rw [hreceiver]
  | some segment =>
      rw [hsegment] at heffect
      cases heffect with
      | segment hport hrun hpayloads =>
          have hpart := hgenuine segment hsegment
          by_cases hnil : segment.payload = []
          · obtain ⟨hinv, hpushed⟩ := h.silent hpart hnil hport hrun
            refine ⟨hinv, ?_⟩
            calc payloads (s.events ++ output.events)
                = payloads s.events ++ [] := by rw [payloads_append, hpayloads, hnil]
              _ = stream.take s.host.connection.receiver.output.bytesPushed := by
                  rw [List.append_nil, h.payloads_eq]
              _ = stream.take host1.connection.receiver.output.bytesPushed := by rw [hpushed]
          · obtain ⟨receiver1, hreceive, hinv, hextend⟩ :=
              h.inOrder.receive_due hmax hnil (hdue segment hsegment hnil)
            -- a payload occupies sequence space
            have hpos : 0 < segment.toSenderMessage.sequenceLength := by
              have hlen : 0 < segment.toSenderMessage.payload.length :=
                List.length_pos_iff.mpr hnil
              unfold TcpSenderMessage.sequenceLength
              omega
            have hreceiver : host1.connection.receiver = receiver1 :=
              receiver_of_taken hport hrun hpos hreceive
            constructor
            · show IpHost.InOrder stream isn host1.connection.receiver
              rw [hreceiver]
              exact hinv
            · -- what is reported is what the receiver has assembled in addition
              calc payloads (s.events ++ output.events)
                  = stream.take s.host.connection.receiver.output.bytesPushed ++ segment.payload := by
                    rw [payloads_append, hpayloads, h.payloads_eq]
                _ = stream.take receiver1.output.bytesPushed := hextend.symm
                _ = stream.take host1.connection.receiver.output.bytesPushed := by rw [hreceiver]

/-- A payload that is not due is reported although the receiver does not assemble it, or not
there. -/
theorem Faithful.due_of_step {s s1 : Session} {a b : Nat} (hmax : stream.length + 2 ≤ u64Max)
    (h : Faithful stream isn s) (hstep : s.step op = .ok s1) (h1 : Faithful stream isn s1)
    (hsegment : op.segment s.host = some segment) (hpayload : segment.payload ≠ [])
    (hab : a < b) (hb : b < stream.length + 3)
    (hslice : segment.toSenderMessage = TcpReceiver.sliceMessage stream isn a b)
    (hnear : absDiff a (s.host.connection.receiver.output.bytesPushed + 1) < 2 ^ 31)
    (herror : s.host.connection.receiver.output.error = false) :
    Due stream isn s.host.connection.receiver segment := by
  obtain ⟨⟨host1, output⟩, hperform, hok⟩ := Exec.bind_eq_ok.mp hstep
  obtain rfl := Except.ok.inj hok
  have heffect := perform_effect hperform
  rw [hsegment] at heffect
  cases heffect with
  | segment hport hrun hpayloads =>
      have hpos : 0 < segment.payload.length := List.length_pos_iff.mpr hpayload
      -- the output grows by the length of the payload
      have hsplit : stream.take host1.connection.receiver.output.bytesPushed
          = stream.take s.host.connection.receiver.output.bytesPushed ++ segment.payload := by
        rw [← h1.payloads_eq, ← h.payloads_eq, ← hpayloads]
        exact payloads_append _ _
      have hlen := congrArg List.length hsplit
      rw [List.length_append, List.length_take, List.length_take] at hlen
      rcases receiveSegment_receiver hport hrun with
        ⟨hsame, -, -⟩ | ⟨-, receiver1, result, hreceive, hend⟩
      · rw [hsame] at hlen
        omega
      · have hpushed : host1.connection.receiver.output.bytesPushed
            = receiver1.output.bytesPushed := by
          rcases hend with ⟨heq, -⟩ | ⟨heq, -⟩
          · rw [heq]
          · rw [heq]
            rfl
        exact h.inOrder.due_of_receive hmax hpayload hab hb hslice hnear herror hreceive (by omega)
          (by omega)

/-- The condition is exact for a payload near the window of a receiver without error. -/
theorem Faithful.step_iff {s s1 : Session} {a b : Nat} (hmax : stream.length + 2 ≤ u64Max)
    (h : Faithful stream isn s) (hstep : s.step op = .ok s1)
    (hsegment : op.segment s.host = some segment) (hpayload : segment.payload ≠ [])
    (hab : a < b) (hb : b < stream.length + 3)
    (hslice : segment.toSenderMessage = TcpReceiver.sliceMessage stream isn a b)
    (hnear : absDiff a (s.host.connection.receiver.output.bytesPushed + 1) < 2 ^ 31)
    (herror : s.host.connection.receiver.output.error = false) :
    Faithful stream isn s1 ↔ Due stream isn s.host.connection.receiver segment := by
  constructor
  · intro h1
    exact h.due_of_step hmax hstep h1 hsegment hpayload hab hb hslice hnear herror
  · intro hdue
    have hrst : segment.toSenderMessage.rst = false := by rw [hslice]; rfl
    have honly : ∀ other ∈ op.segment s.host, other = segment := by
      intro other hother
      rw [hsegment] at hother
      exact (Option.mem_some_iff.mp hother).symm
    apply h.step hmax ?_ ?_ hstep
    · intro other hother
      rw [honly other hother]
      exact ⟨hrst, Or.inr ⟨b, hb, a, hab, hslice⟩⟩
    · intro other hother _
      rw [honly other hother]
      exact hdue

/-- In every run in which what reaches the connection is genuine, and every payload is due
when it arrives, the application is handed a prefix of the stream: what the receiver has
assembled. -/
theorem payloads_faithful {config : IpHostConfig} {ops : List HostOp} {s : Session}
    (hmax : stream.length + 2 ≤ u64Max) (hnew : IpHost.new config = .ok host)
    (hrun : Exec.RunWhile (fun s op => s.Genuine stream isn op ∧ s.InOrder stream isn op)
      Session.step (start host) ops s) :
    payloads s.events <+: stream ∧
      payloads s.events = s.host.connection.receiver.output.contents := by
  have h : Faithful stream isn s := by
    apply hrun.invariant (Faithful stream isn) ?_ (faithful_start hnew)
    intro s1 op s2 hinv hop hstep
    exact hinv.step hmax hop.1 hop.2 hstep
  rw [h.inOrder.assembled]
  refine ⟨?_, h.payloads_eq⟩
  rw [h.payloads_eq]
  exact List.take_prefix _ _

/-! ## Two runs -/

def sampleStream : Bytes := [10, 20, 30]

def sampleLocalIp : Ipv4AddrBytes := ⟨169, 254, 144, 2⟩

def samplePeerIp : Ipv4AddrBytes := ⟨169, 254, 144, 1⟩

def sampleConfig : IpHostConfig := .tcpDemo sampleLocalIp samplePeerIp 50000 9090 ⟨1⟩

/-- The datagrams in which the peer sends the symbols `[a, b)`. -/
def sampleOps : List (Nat × Nat) → Exec (List HostOp)
  | [] => .ok []
  | (a, b) :: rest => do
      let segment := TcpSegment.fromMessages 9090 50000
        (TcpReceiver.sliceMessage sampleStream ⟨1000⟩ a b) none
      let bytes ← segment.serializeIpv4 samplePeerIp sampleLocalIp
      let ops ← sampleOps rest
      .ok (.receiveDatagram (Ipv4Datagram.newTcp samplePeerIp sampleLocalIp bytes) :: ops)

/-- A host that receives them, stopping where the condition does not hold. -/
def sampleRun (P : Session → HostOp → Prop) [∀ s op, Decidable (P s op)]
    (slices : List (Nat × Nat)) : Exec (IpHost × List HostOp × Session) := do
  let host ← IpHost.new sampleConfig
  let ops ← sampleOps slices
  let s ← Exec.run (Exec.guarded P Session.step) (start host) ops
  .ok (host, ops, s)

theorem runWhile_of_sampleRun {P : Session → HostOp → Prop} [∀ s op, Decidable (P s op)]
    {slices : List (Nat × Nat)} {ops : List HostOp} {s : Session}
    (h : sampleRun P slices = .ok (host, ops, s)) :
    IpHost.new sampleConfig = .ok host ∧ Exec.RunWhile P Session.step (start host) ops s := by
  obtain ⟨host1, hnew, h⟩ := Exec.bind_eq_ok.mp h
  obtain ⟨ops1, -, h⟩ := Exec.bind_eq_ok.mp h
  obtain ⟨s1, hrun, h⟩ := Exec.bind_eq_ok.mp h
  simp only [Except.ok.injEq, Prod.mk.injEq] at h
  obtain ⟨rfl, rfl, rfl⟩ := h
  exact ⟨hnew, Exec.RunWhile.of_guarded hrun⟩

/-- SYN with the first byte, two more bytes, FIN twice. -/
theorem payloads_faithful_three_bytes : ∃ host ops s, IpHost.new sampleConfig = .ok host ∧
    Exec.RunWhile (fun s op => s.Genuine sampleStream ⟨1000⟩ op ∧ s.InOrder sampleStream ⟨1000⟩ op)
      Session.step (start host) ops s ∧
    payloads s.events = [10, 20, 30] ∧
    payloads s.events <+: sampleStream ∧
      payloads s.events = s.host.connection.receiver.output.contents := by
  obtain ⟨⟨host, ops, s⟩, hrun, hpayloads⟩ : ∃ result, sampleRun
        (fun s op => s.Genuine sampleStream ⟨1000⟩ op ∧ s.InOrder sampleStream ⟨1000⟩ op)
        [(0, 2), (2, 4), (4, 5), (4, 5)] = .ok result ∧
      payloads result.2.2.events = [10, 20, 30] := by
    decide +kernel
  obtain ⟨hnew, hwhile⟩ := runWhile_of_sampleRun hrun
  exact ⟨host, ops, s, hnew, hwhile, hpayloads, payloads_faithful (by decide) hnew hwhile⟩

/-- SYN, and a segment with two bytes that arrives twice. -/
theorem payloads_repeated : ¬ ∀ (stream : Bytes) (isn : Wrap32) (config : IpHostConfig)
    (host : IpHost) (ops : List HostOp) (s : Session), stream.length + 2 ≤ u64Max →
    IpHost.new config = .ok host →
    Exec.RunWhile (fun s op => s.Genuine stream isn op) Session.step (start host) ops s →
    payloads s.events <+: stream := by
  intro hclaim
  obtain ⟨⟨host, ops, s⟩, hrun, hpayloads⟩ : ∃ result, sampleRun
        (fun s op => s.Genuine sampleStream ⟨1000⟩ op) [(0, 1), (1, 3), (1, 3)] = .ok result ∧
      payloads result.2.2.events = [10, 20, 10, 20] := by
    decide +kernel
  obtain ⟨hnew, hwhile⟩ := runWhile_of_sampleRun hrun
  have hpre := hclaim sampleStream ⟨1000⟩ sampleConfig host ops s (by decide) hnew hwhile
  dsimp only at hpayloads
  rw [hpayloads] at hpre
  exact absurd hpre (by decide)

end IpHost

end Minnow
