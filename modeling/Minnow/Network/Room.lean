import Minnow.Network.Completion
import Minnow.TcpReceiver.Refusal

set_option autoImplicit false

/-! # A stream that fits

A reader that never reads has room for as many bytes as its capacity says, and no more: so a
transfer to it can be completed exactly if the stream is no longer (`Pair.room_of_fits`,
`Endpoint.length_assembled_le`).
-/

namespace Minnow

namespace TcpConnection

open TcpReceiver

variable {connection connection0 connection1 : TcpConnection} {op : ConnOp}
  {segments : List TcpSegment}

theorem Prepared.listening (hp : Prepared connection op connection0)
    (h : Listening connection.receiver) : Listening connection0.receiver := by
  cases hp with
  | flushSender => exact h
  | write data => exact h
  | close => exact h
  | @receiveSegment segment sender receiver hport hsender hdata =>
      show Listening receiver
      rcases receiveData_eq_ok hdata with
        ⟨hsame, -⟩ | ⟨-, receiver1, result, hreceive, ⟨hsame, -⟩ | ⟨hsame, -⟩⟩
      · obtain rfl : receiver = connection.receiver := congrArg TcpConnection.receiver hsame
        exact h
      · obtain rfl : receiver = receiver1 := congrArg TcpConnection.receiver hsame
        exact @Listening.step _ _ h (.receive segment.toSenderMessage)
          (Exec.bind_eq_ok.mpr ⟨_, hreceive, rfl⟩)
      · obtain rfl : receiver = receiver1.setError := congrArg TcpConnection.receiver hsame
        have h1 : Listening receiver1 := @Listening.step _ _ h (.receive segment.toSenderMessage)
          (Exec.bind_eq_ok.mpr ⟨_, hreceive, rfl⟩)
        exact @Listening.step _ _ h1 .setError rfl

/-- A receiver that does not know the initial sequence number has assembled nothing. -/
theorem Performed.listening (hp : Performed connection op connection1 segments)
    (h : Listening connection.receiver) : Listening connection1.receiver := by
  cases hp with
  | @flushed op connection0 connection1 outgoing segments hprepared hflush hsegments =>
      obtain ⟨sender, messages, -, rfl, -⟩ := flushSender_eq_ok.mp hflush
      exact hprepared.listening h
  | ticked htick => exact h
  | foreign hport => exact h
  | read len => exact @Listening.step _ _ h (.read len) rfl

theorem listening_new {config : TcpConnectionConfig}
    (hnew : TcpConnection.new config = .ok connection) : Listening connection.receiver := by
  obtain ⟨-, -, -, hreceiver⟩ := TcpConnection.new_eq_ok hnew
  exact listening_run hreceiver Exec.run_nil

end TcpConnection

namespace Network

open TcpConnection TcpSender

variable {w w1 : World} {op : NetOp} {side : Side} {e p : Endpoint} {mine theirs : List Packet}

theorem listening_step (h : ∀ side, (w.endpoint side).connection.receiver.Listening)
    (hstep : w.step op = .ok w1) (side : Side) :
    (w1.endpoint side).connection.receiver.Listening :=
  World.step_connections (fun _ connection => connection.receiver.Listening)
    (fun _ _ _ _ hp hlistening => hp.listening hlistening) h hstep side

theorem listening_of_reachable (h : Reachable w) (side : Side) :
    (w.endpoint side).connection.receiver.Listening := by
  obtain ⟨config, w0, ops, -, hstart, hrun⟩ := h
  have hall : ∀ side, (w.endpoint side).connection.receiver.Listening := by
    refine hrun.invariant (fun w => ∀ side, (w.endpoint side).connection.receiver.Listening)
      (fun _ _ _ h _ hstep => listening_step h hstep) ?_
    exact fun side => listening_new (new_of_start hstart side)
  exact hall side

/-- A segment with payload starts inside the stream. -/
theorem Pair.front_le (h : Pair e p mine theirs) {front : OutstandingSegment}
    (hfront : front ∈ e.connection.sender.outstanding.head?)
    (hpayload : front.message.payload ≠ []) :
    e.connection.sender.sndUna ≤ e.written.length ∧ 0 < e.written.length := by
  have hinv := h.out.inv
  obtain ⟨rest, hqueue⟩ := List.head?_eq_some_iff.mp hfront
  have htiles := hinv.queue
  rw [hqueue] at htiles
  obtain ⟨hstart, hpos, -⟩ := htiles
  have hcarries := (hinv.genuine front (List.mem_of_mem_head? hfront)).carries hpos
  have hlen : 0 < front.message.payload.length := List.length_pos_of_ne_nil hpayload
  have hslice := congrArg List.length hcarries.payload
  rw [List.length_slice] at hslice
  omega

/-- Who has read nothing has room for what is sent again, if the stream fits. -/
theorem Pair.room_of_fits (h : Pair e p mine theirs)
    (hlistening : p.connection.receiver.Listening) (hread : p.read = [])
    (hfits : e.written.length ≤ p.connection.receiver.output.capacity) :
    0 < p.connection.receiver.output.availableCapacity ∨
      (∀ front ∈ e.connection.sender.outstanding.head?, front.message.payload = []) ∨
      e.connection.sender.sndUna < p.connection.receiver.acknowledged := by
  by_cases hroom : 0 < p.connection.receiver.output.availableCapacity
  · exact Or.inl hroom
  right
  by_contra hneither
  rw [not_or, not_forall] at hneither
  obtain ⟨⟨front, hfront⟩, hnone⟩ := hneither
  rw [Classical.not_imp] at hfront
  obtain ⟨huna, hpos⟩ := h.front_le hfront.1 hfront.2
  -- the whole stream is assembled, so what is sent again was assembled before
  have hpopped : p.connection.receiver.output.bytesPopped = 0 := by
    have hlength := h.out.agrees.read_length
    rw [hread] at hlength
    exact hlength.symm
  have hpushed := p.connection.receiver.output.pushed_eq
  unfold ByteStream.availableCapacity at hroom
  cases hisn : p.connection.receiver.isn with
  | none =>
      have hblank : p.connection.receiver.output.bytesPushed = 0 := (hlistening.blank hisn).pushed
      omega
  | some isn =>
      rw [TcpReceiver.acknowledged_of_some hisn] at hnone
      omega

/-- Who has read nothing has assembled no more than its capacity. -/
theorem Endpoint.length_assembled_le (hread : p.read = []) :
    p.assembled.length ≤ p.connection.receiver.output.capacity := by
  have hcontents : p.assembled = p.connection.receiver.output.contents := by
    rw [Endpoint.assembled, hread, List.nil_append]
  rw [hcontents, ByteStream.length_contents]
  exact p.connection.receiver.output.buffered_le

end Network

end Minnow
