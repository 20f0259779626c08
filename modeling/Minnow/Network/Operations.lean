import Minnow.Network.Safety
import Minnow.TcpConnection.NotStuck
import Minnow.TcpConnection.Status
import Minnow.TcpSender.PayloadSize

set_option autoImplicit false

/-! # A step is an operation of one connection

Every step of the two endpoints is an operation of one of the two connections, whose segments
are numbered and join what was sent, or it is the delivery of something that was never sent.

* `World.step_eq`: the step, as that operation.
* `Performed.una_le`, `Performed.closed`, `Performed.running`: what no operation of a connection
  takes back.
-/

namespace Minnow

namespace TcpConnection

open TcpSender

variable {connection connection0 connection1 : TcpConnection} {op : ConnOp}
  {segments : List TcpSegment}

/-- What was acknowledged stays acknowledged. -/
theorem Performed.una_le (hp : Performed connection op connection1 segments)
    (h : ConnInv connection) : connection.sender.sndUna ≤ connection1.sender.sndUna := by
  obtain ⟨data, hinv⟩ := h.sender
  rw [hp.una h, nextUna]
  split_ifs
  · exact hinv.una_le
  · cases acceptedIn connection op with
    | none => exact le_refl _
    | some n => exact le_max_left _ _

theorem Prepared.closed (hp : Prepared connection op connection0) (h : ConnInv connection)
    (hclosed : connection.sender.outbound.closed = true) :
    connection0.sender.outbound.closed = true := by
  obtain ⟨data, hinv⟩ := h.sender
  cases hp with
  | flushSender => exact hclosed
  | write data => exact (connection.sender.outbound.push_appended data).closed.trans hclosed
  | close => rfl
  | @receiveSegment segment sender receiver hport hsender hdata =>
      show sender.outbound.closed = true
      rcases receive_cases hinv hsender with ⟨-, rfl⟩ | ⟨-, -, hr⟩ | ⟨-, -, rfl⟩
      · exact hclosed
      · rw [hr.frame]
        exact hclosed
      · exact hclosed

/-- A stream that is closed stays closed. -/
theorem Performed.closed (hp : Performed connection op connection1 segments)
    (h : ConnInv connection) (hclosed : connection.sender.outbound.closed = true) :
    connection1.sender.outbound.closed = true := by
  cases hp with
  | @flushed op connection0 connection1 outgoing segments hprepared hflush hsegments =>
      obtain ⟨data, hinv⟩ := (hprepared.inv h).sender
      obtain ⟨sender, messages, hpush, rfl, -⟩ := flushSender_eq_ok.mp hflush
      obtain ⟨bytes, hdrained⟩ := (push_pushed hinv hpush).drained
      exact hdrained.closed.trans (hprepared.closed h hclosed)
  | @ticked elapsedMs sender messages htick =>
      obtain ⟨data, hinv⟩ := h.sender
      show sender.outbound.closed = true
      rw [(tick_ticked hinv htick).1.frame]
      exact hclosed
  | foreign hport => exact hclosed
  | read len => exact hclosed

/-- Once the stream is closed, the sender has transmitted what the window admits. -/
theorem Performed.running (hp : Performed connection op connection1 segments)
    (h : ConnInv connection)
    (hfilled : connection.sender.outbound.closed = true → Filled connection.sender)
    (hclosed : connection1.sender.outbound.closed = true) : Filled connection1.sender := by
  cases hp with
  | flushed hprepared hflush hsegments => exact filled_of_flushSender (hprepared.inv h) hflush
  | @ticked elapsedMs sender messages htick =>
      obtain ⟨data, hinv⟩ := h.sender
      have hframe := (tick_ticked hinv htick).1.frame
      show Filled sender
      have hsame : sender.outbound.closed = true := hclosed
      rw [hframe] at hsame ⊢
      exact hfilled hsame
  | foreign hport => exact hfilled hclosed
  | read len => exact hfilled hclosed

theorem Prepared.capacity (hp : Prepared connection op connection0) (h : ConnInv connection) :
    connection0.receiver.output.capacity = connection.receiver.output.capacity := by
  cases hp with
  | flushSender => rfl
  | write data => rfl
  | close => rfl
  | @receiveSegment segment sender receiver hport hsender hdata =>
      show receiver.output.capacity = _
      rcases receiveData_eq_ok hdata with
        ⟨hsame, -⟩ | ⟨-, receiver1, result, hreceive, ⟨hsame, -⟩ | ⟨hsame, -⟩⟩
      · obtain rfl : receiver = connection.receiver := congrArg TcpConnection.receiver hsame
        rfl
      · obtain rfl : receiver = receiver1 := congrArg TcpConnection.receiver hsame
        exact (TcpReceiver.receive_frame h.receiver hreceive).1
      · obtain rfl : receiver = receiver1.setError := congrArg TcpConnection.receiver hsame
        exact (TcpReceiver.receive_frame h.receiver hreceive).1

/-- No operation changes the capacity of the receiver. -/
theorem Performed.capacity (hp : Performed connection op connection1 segments)
    (h : ConnInv connection) :
    connection1.receiver.output.capacity = connection.receiver.output.capacity := by
  cases hp with
  | @flushed op connection0 connection1 outgoing segments hprepared hflush hsegments =>
      obtain ⟨sender, messages, -, rfl, -⟩ := flushSender_eq_ok.mp hflush
      exact hprepared.capacity h
  | ticked htick => rfl
  | foreign hport => rfl
  | read len => exact connection.receiver.output.pop_capacity len

/-- What is in flight, and what will be sent, fits in payloads of `limit` bytes. -/
structure Slim (limit : Nat) (connection : TcpConnection) : Prop where
  sized : Sized connection.sender
  payload : connection.sender.config.maxPayloadSize ≤ limit

variable {limit : Nat}

theorem Slim.mono {more : Nat} (h : Slim limit connection) (hle : limit ≤ more) :
    Slim more connection := ⟨h.sized, h.payload.trans hle⟩

theorem Prepared.slim (hp : Prepared connection op connection0) (h : ConnInv connection)
    (hslim : Slim limit connection) : Slim limit connection0 := by
  cases hp with
  | flushSender => exact hslim
  | write data => exact ⟨hslim.sized, hslim.payload⟩
  | close => exact ⟨hslim.sized, hslim.payload⟩
  | @receiveSegment segment sender receiver hport hsender hdata =>
      obtain ⟨data, hinv⟩ := h.sender
      refine ⟨hslim.sized.receive hsender, ?_⟩
      show sender.config.maxPayloadSize ≤ limit
      rw [(receive_sameSent hinv hsender).config]
      exact hslim.payload

/-- Every segment carries as much payload as is configured, or less. -/
theorem Performed.slim (hp : Performed connection op connection1 segments)
    (h : ConnInv connection) (hslim : Slim limit connection) :
    Slim limit connection1 ∧ ∀ s ∈ segments, s.payload.length ≤ limit := by
  cases hp with
  | @flushed op connection0 connection1 outgoing segments hprepared hflush hsegments =>
      have hslim0 := hprepared.slim h hslim
      obtain ⟨data, hinv⟩ := (hprepared.inv h).sender
      obtain ⟨sender, messages, hpush, rfl, rfl⟩ := flushSender_eq_ok.mp hflush
      have hconfig : sender.config = connection0.sender.config := by
        rw [(push_pushed hinv hpush).frame]
      refine ⟨⟨hslim0.sized.push hinv hpush, hconfig ▸ hslim0.payload⟩, ?_⟩
      rcases hsegments with rfl | ⟨-, rfl⟩
      · intro s hs
        obtain ⟨message, hm, rfl⟩ := List.mem_map.mp hs
        exact le_trans (push_payload_le hpush message hm) hslim0.payload
      · intro s hs
        rw [mem_makePureAckSegment hs]
        exact Nat.zero_le _
  | @ticked elapsedMs sender messages htick =>
      obtain ⟨data, hinv⟩ := h.sender
      obtain ⟨hsized, hmessages⟩ := hslim.sized.tick hinv htick
      have hconfig : sender.config = connection.sender.config := by
        rw [(tick_ticked hinv htick).1.frame]
      refine ⟨⟨hsized, hconfig ▸ hslim.payload⟩, ?_⟩
      intro s hs
      obtain ⟨message, hm, rfl⟩ := List.mem_map.mp hs
      exact le_trans (hmessages message hm) hslim.payload
  | foreign hport => exact ⟨hslim, fun _ hs => absurd hs List.not_mem_nil⟩
  | read len => exact ⟨⟨hslim.sized, hslim.payload⟩, fun _ hs => absurd hs List.not_mem_nil⟩

end TcpConnection

namespace Network

open TcpConnection

/-- The endpoint that an operation is about. -/
def NetOp.side : NetOp → Side
  | .connect side | .write side _ | .close side | .tick side _ | .read side _ => side
  | .deliver side _ => side

/-- What an operation asks of the connection. -/
def World.connOp (w : World) : NetOp → Option ConnOp
  | .connect _ => some .flushSender
  | .write _ data => some (.write data)
  | .close _ => some .close
  | .tick _ elapsedMs => some (.tick elapsedMs)
  | .read _ len => some (.read len)
  | .deliver side i => ((w.sent side.peer)[i]?).map (fun packet => .receiveSegment packet.segment)

/-- The bytes of a write that the connection accepts. -/
def accepted (connection : TcpConnection) : ConnOp → Bytes
  | .write data => data.take (connection.sender.write data).2
  | _ => []

/-- The bytes that a read takes out of the connection. -/
def popped (connection : TcpConnection) : ConnOp → Bytes
  | .read len => (connection.read len).2
  | _ => []

/-- The endpoint whose connection has become another by an operation. -/
def Endpoint.after (e : Endpoint) (op : ConnOp) (connection : TcpConnection) : Endpoint where
  connection := connection
  written := e.written ++ accepted e.connection op
  read := e.read ++ popped e.connection op

/-- One endpoint performs an operation of its connection. -/
def World.perform (w : World) (side : Side) (op : ConnOp) : Exec World := do
  let e := w.endpoint side
  let (connection, segments) ← e.connection.perform op
  .ok (w.emit side (e.after op connection) (firstSeqno e.connection op) segments)

variable {w w1 : World} {op : NetOp} {connOp : ConnOp} {side : Side}

theorem World.step_eq (w : World) (op : NetOp) : w.step op =
    (w.connOp op).elim (.ok w) (w.perform op.side) := by
  cases op with
  | connect side =>
      simp only [step, connOp, Option.elim_some, NetOp.side, perform, TcpConnection.perform,
        Endpoint.after, accepted, popped, List.append_nil, firstSeqno]
      rfl
  | write side data =>
      simp only [step, connOp, Option.elim_some, NetOp.side, perform, TcpConnection.perform,
        Endpoint.after, accepted, popped, List.append_nil, firstSeqno, TcpConnection.write]
      cases TcpConnection.flushSender { (w.endpoint side).connection with
        sender := ((w.endpoint side).connection.sender.write data).1 } <;> rfl
  | close side =>
      simp only [step, connOp, Option.elim_some, NetOp.side, perform, TcpConnection.perform,
        Endpoint.after, accepted, popped, List.append_nil, firstSeqno]
  | tick side elapsedMs =>
      simp only [step, connOp, Option.elim_some, NetOp.side, perform, TcpConnection.perform,
        Endpoint.after, accepted, popped, List.append_nil, firstSeqno]
  | read side len =>
      simp only [step, connOp, Option.elim_some, NetOp.side, perform, TcpConnection.perform,
        Endpoint.after, accepted, popped, List.append_nil, firstSeqno, Exec.ok_bind]
  | deliver side i =>
      rw [step]
      cases hpacket : (w.sent side.peer)[i]? with
      | none => simp only [connOp, hpacket, Option.map_none, Option.elim_none]
      | some packet =>
          simp only [connOp, hpacket, Option.map_some, Option.elim_some, NetOp.side, perform,
            TcpConnection.perform, Endpoint.after, accepted, popped, List.append_nil, firstSeqno]

theorem World.perform_eq_ok : w.perform side connOp = .ok w1 ↔
    ∃ connection segments,
      (w.endpoint side).connection.perform connOp = .ok (connection, segments) ∧
      w1 = w.emit side ((w.endpoint side).after connOp connection)
        (firstSeqno (w.endpoint side).connection connOp) segments := by
  unfold perform
  dsimp only
  rw [Exec.bind_eq_ok]
  constructor
  · rintro ⟨⟨connection, segments⟩, hperform, hok⟩
    exact ⟨connection, segments, hperform, (Except.ok.inj hok).symm⟩
  · rintro ⟨connection, segments, hperform, rfl⟩
    exact ⟨(connection, segments), hperform, rfl⟩

/-- What an operation sends first is sent after all that was sent before. -/
theorem sent_of_getElem {packet : Packet} (h : w.perform side connOp = .ok w1)
    (hpacket : (w1.sent side)[(w.sent side).length]? = some packet) :
    ∃ more, w1.sent side = w.sent side ++ packet :: more := by
  obtain ⟨connection, segments, -, rfl⟩ := World.perform_eq_ok.mp h
  rw [emit_sent_self] at hpacket ⊢
  rw [List.getElem?_append_right (le_refl _), Nat.sub_self, ← List.head?_eq_getElem?,
    List.head?_eq_some_iff] at hpacket
  obtain ⟨more, hmore⟩ := hpacket
  exact ⟨more, congrArg (w.sent side ++ ·) hmore⟩

/-- A step does nothing, or one endpoint performs an operation. -/
theorem World.step_cases (h : w.step op = .ok w1) : w1 = w ∨
    ∃ connOp, w.connOp op = some connOp ∧ w.perform op.side connOp = .ok w1 := by
  rw [World.step_eq] at h
  cases hop : w.connOp op with
  | none =>
      rw [hop] at h
      exact Or.inl (Except.ok.inj h).symm
  | some connOp =>
      rw [hop] at h
      exact Or.inr ⟨connOp, rfl, h⟩

/-- What every operation keeps of a connection, every step keeps of both. -/
theorem World.step_connections (Q : Side → TcpConnection → Prop)
    (hop : ∀ side connOp connection segments,
      Performed (w.endpoint side).connection connOp connection segments →
      Q side (w.endpoint side).connection → Q side connection)
    (h : ∀ side, Q side (w.endpoint side).connection) (hstep : w.step op = .ok w1) (side : Side) :
    Q side (w1.endpoint side).connection := by
  rcases World.step_cases hstep with rfl | ⟨connOp, -, hperform⟩
  · exact h side
  obtain ⟨connection, segments, hconnection, rfl⟩ := World.perform_eq_ok.mp hperform
  rcases op.side.eq_or_eq_peer side with hside | hside
  · rw [hside, emit_endpoint_self]
    exact hop op.side connOp connection segments (perform_performed hconnection) (h op.side)
  · rw [hside, emit_endpoint_peer]
    exact h op.side.peer

/-- At the start both connections are fresh. -/
theorem new_of_start {config : Side → TcpConnectionConfig} (h : start config = .ok w)
    (side : Side) : TcpConnection.new (config side) = .ok (w.endpoint side).connection := by
  obtain ⟨a, ha, h⟩ := Exec.bind_eq_ok.mp h
  obtain ⟨b, hb, h⟩ := Exec.bind_eq_ok.mp h
  obtain rfl := Except.ok.inj h
  cases side with
  | a => exact ha
  | b => exact hb

/-- What was sent is delivered to the connection. -/
theorem step_of_sent {i : Nat} {packet : Packet} (h : (w.sent side.peer)[i]? = some packet) :
    w.step (.deliver side i) = w.perform side (.receiveSegment packet.segment) := by
  rw [World.step_eq, World.connOp, h]
  rfl

/-- Nothing happens when what was never sent is delivered. -/
theorem step_of_unsent {i : Nat} (h : (w.sent side.peer)[i]? = none) :
    w.Allowed (.deliver side i) ∧ w.step (.deliver side i) = .ok w := by
  constructor
  · intro packet hpacket
    rw [h] at hpacket
    exact absurd hpacket (by simp)
  · rw [World.step, h]

variable {e p : Endpoint} {mine theirs : List Packet}

/-- Only a closed output acknowledges FIN. -/
theorem Pair.closed_of_acked (h : Pair e p mine theirs)
    (hall : e.written.length + 2 ≤ e.connection.sender.sndUna) :
    p.connection.receiver.output.closed = true := by
  have hacked := h.out.acked
  have hpushed := h.out.pushed_le
  have hpopped := h.out.inv.popped_le
  by_contra hopen
  rw [Bool.not_eq_true] at hopen
  cases hisn : p.connection.receiver.isn with
  | none =>
      rw [TcpReceiver.acknowledged_of_none hisn] at hacked
      omega
  | some isn =>
      rw [TcpReceiver.acknowledged_of_some hisn, hopen, Bool.toNat_false] at hacked
      omega

/-- A sender that has finished knows that everything was acknowledged. -/
theorem Pair.una_of_finished (h : Pair e p mine theirs)
    (hfinished : e.connection.isFinished = true) :
    e.written.length + 2 ≤ e.connection.sender.sndUna := by
  rw [isFinished, TcpSender.isFinished, Bool.and_eq_true, List.isEmpty_iff] at hfinished
  obtain ⟨hfin, hempty⟩ := hfinished
  have hidle := h.out.inv.queue.eq_nil_iff.mp hempty
  have hpopped := (h.out.inv.fin_last hfin).2
  have hnxt := h.out.inv.nxt_eq
  rw [hfin, Bool.toNat_true] at hnxt
  have hafter := h.out.inv.nxt_eq_of_pos (by omega)
  rw [hfin, Bool.toNat_true] at hafter
  omega

/-- A connection that is established has the initial numbers of both senders. -/
theorem Pair.isns_of_established (h : Pair e p mine theirs)
    (hestablished : e.connection.isEstablished = true) :
    p.connection.receiver.isn = some e.connection.sender.isn ∧
      e.connection.receiver.isn = some p.connection.sender.isn := by
  rw [isEstablished, Bool.and_eq_true, Bool.and_eq_true, decide_eq_true_eq] at hestablished
  obtain ⟨⟨-, hpositive⟩, hheard⟩ := hestablished
  have hacked := h.out.acked
  constructor
  · cases hisn : p.connection.receiver.isn with
    | none =>
        rw [TcpReceiver.acknowledged_of_none hisn] at hacked
        omega
    | some isn => rw [h.out.isn isn hisn]
  · rw [TcpReceiver.send, Option.isSome_map] at hheard
    obtain ⟨isn, hisn⟩ := Option.isSome_iff_exists.mp hheard
    rw [hisn, h.inc.isn isn hisn]

theorem Pair.connInv {e p : Endpoint} {mine theirs : List Packet} (h : Pair e p mine theirs) :
    ConnInv e.connection :=
  ⟨⟨e.written, h.out.inv⟩, h.inc.agrees.toRepInv⟩

end Network

end Minnow
