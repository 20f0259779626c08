import Minnow.IpHost.Dispatch
import Minnow.TcpSender.PayloadSize

set_option autoImplicit false

/-! # No packet stops the host

An operation of the model stops abnormally where the program would panic: at an assertion, an
`expect`, an index or a slice out of range, or a `u32` sum that overflows. `never_stops` says
that no run of a host does, whatever bytes arrive, and that the `u64` counters the program
adds to without a check stay in range.

The reasons lie in different modules. Here they are put together: the sender has accepted
fewer bytes than there are sequence numbers, what it transmits fits in a datagram, the
reassembler is well formed and its output is never read.
-/

namespace Minnow

namespace TcpConnection

open TcpSender

/-- The bytes an operation offers to the sender. -/
def ConnOp.written : ConnOp → Nat
  | .write data => data.length
  | _ => 0

/-- The sender has accepted at most `n` bytes. -/
structure Bounded (n : Nat) (connection : TcpConnection) : Prop where
  sender : ∃ data, connection.sender.Inv data ∧ data.length ≤ n
  sized : Sized connection.sender
  payload : connection.sender.config.maxPayloadSize ≤ 65515
  repInv : connection.receiver.reassembler.RepInv
  popped : connection.receiver.output.bytesPopped = 0
  capacity : connection.receiver.output.capacity ≤ u64Max

variable {connection connection1 : TcpConnection} {segments : List TcpSegment} {n : Nat}

/-- Every segment fits in a datagram. -/
def Fit (segments : List TcpSegment) : Prop := ∀ s ∈ segments, s.payload.length ≤ 65515

theorem fit_nil : Fit [] := fun _ hs => absurd hs List.not_mem_nil

theorem fit_buildSegments {messages : List TcpSenderMessage}
    (h : ∀ m ∈ messages, m.payload.length ≤ 65515) : Fit (connection.buildSegments messages) := by
  intro s hs
  obtain ⟨message, hm, rfl⟩ := List.mem_map.mp hs
  exact h message hm

theorem fit_makePureAckSegment : Fit connection.makePureAckSegment.toList := by
  intro s hs
  rw [mem_makePureAckSegment hs]
  exact Nat.zero_le _

/-! ## Each operation -/

theorem Bounded.flushSender (h : Bounded n connection) (hmax : n + 2 ≤ u64Max) :
    ∃ connection1 segments, connection.flushSender = .ok (connection1, segments) ∧
      Bounded n connection1 ∧ Fit segments := by
  obtain ⟨data, hinv, hle⟩ := h.sender
  obtain ⟨sender, messages, hpush, hp⟩ := push_total hinv (by omega)
  have hconfig : sender.config = connection.sender.config := by rw [hp.frame]
  have hpayload : sender.config.maxPayloadSize ≤ 65515 := by
    rw [hconfig]
    exact h.payload
  refine ⟨{ connection with sender := sender }, connection.buildSegments messages,
    flushSender_eq_ok.mpr ⟨sender, messages, hpush, rfl, rfl⟩, ?_, ?_⟩
  · exact ⟨⟨data, hp.inv, hle⟩, h.sized.push hinv hpush, hpayload, h.repInv, h.popped, h.capacity⟩
  · apply fit_buildSegments
    intro m hm
    exact le_trans (push_payload_le hpush m hm) h.payload

theorem Bounded.write (h : Bounded n connection) (bytes : Bytes) :
    Bounded (n + bytes.length) { connection with sender := (connection.sender.write bytes).1 } := by
  obtain ⟨data, hinv, hle⟩ := h.sender
  refine ⟨⟨_, hinv.write bytes, ?_⟩, h.sized, h.payload, h.repInv, h.popped, h.capacity⟩
  rw [List.length_append, List.length_take]
  omega

theorem Bounded.close (h : Bounded n connection) :
    Bounded n { connection with sender := connection.sender.close } := by
  obtain ⟨data, hinv, hle⟩ := h.sender
  exact ⟨⟨data, hinv.close, hle⟩, h.sized, h.payload, h.repInv, h.popped, h.capacity⟩

/-- Incoming data changes neither the capacity of the output nor what was read of it. -/
theorem receiveData_output {message : TcpSenderMessage}
    (h : connection.receiver.reassembler.RepInv)
    (hrun : connection.receiveData message = .ok connection1) :
    connection1.receiver.output.capacity = connection.receiver.output.capacity ∧
      connection1.receiver.output.bytesPopped = connection.receiver.output.bytesPopped := by
  rcases receiveData_eq_ok hrun with
    ⟨rfl, -⟩ | ⟨-, receiver, result, hreceive, ⟨rfl, -⟩ | ⟨rfl, -⟩⟩
  · exact ⟨rfl, rfl⟩
  · exact TcpReceiver.receive_frame h hreceive
  · -- the error state is all that `set_error` changes
    have hframe := TcpReceiver.receive_frame h hreceive
    exact hframe

theorem Bounded.receiveSegment (h : Bounded n connection) (hmax : n + 2 ≤ u64Max)
    (segment : TcpSegment) :
    ∃ connection1 segments, connection.receiveSegment segment = .ok (connection1, segments) ∧
      Bounded n connection1 ∧ Fit segments := by
  obtain ⟨data, hinv, hle⟩ := h.sender
  have hpushed := hinv.pushed_eq
  obtain ⟨⟨connection1, segments⟩, hrun⟩ :=
    receiveSegment_total ⟨⟨data, hinv⟩, h.repInv⟩ (by omega) segment
  refine ⟨connection1, segments, hrun, ?_⟩
  cases receiveSegment_performed hrun with
  | foreign hport => exact ⟨h, fit_nil⟩
  | @flushed op connection2 connection1 outgoing segments hprepared hflush hsegments =>
      have h2 : Bounded n connection2 := by
        cases hprepared with
        | @receiveSegment segment sender receiver hport hsender hdata =>
            have hrep : ({ connection with sender := sender } :
                TcpConnection).receiver.reassembler.RepInv := h.repInv
            have hconfig := (receive_sameSent hinv hsender).config
            obtain ⟨hcapacity, hpopped⟩ := receiveData_output hrep hdata
            exact
              { sender := ⟨data, hinv.receive hsender, hle⟩
                sized := h.sized.receive hsender
                payload := by
                  show sender.config.maxPayloadSize ≤ 65515
                  rw [hconfig]
                  exact h.payload
                repInv := receiveData_repInv hdata hrep
                popped := hpopped.trans h.popped
                capacity := le_of_eq_of_le hcapacity h.capacity }
      -- what remains is the flush, and perhaps a bare acknowledgment
      obtain ⟨connection3, outgoing3, hflush3, h3, hfit⟩ := h2.flushSender hmax
      obtain ⟨rfl, rfl⟩ := Prod.mk.inj (Except.ok.inj (hflush.symm.trans hflush3))
      refine ⟨h3, ?_⟩
      rcases hsegments with rfl | ⟨-, rfl⟩
      · exact hfit
      · exact fit_makePureAckSegment

theorem Bounded.tick (h : Bounded n connection) (elapsedMs : Nat) :
    ∃ connection1 segments, connection.tick elapsedMs = .ok (connection1, segments) ∧
      Bounded n connection1 ∧ Fit segments := by
  obtain ⟨data, hinv, hle⟩ := h.sender
  obtain ⟨sender, messages, hrun, ht, -⟩ := tick_spec hinv elapsedMs
  obtain ⟨hsized, hmessages⟩ := h.sized.tick hinv hrun
  have hconfig : sender.config = connection.sender.config := by rw [ht.frame]
  have hpayload : sender.config.maxPayloadSize ≤ 65515 := by
    rw [hconfig]
    exact h.payload
  refine ⟨{ connection with sender := sender }, connection.buildSegments messages, ?_, ?_, ?_⟩
  · rw [TcpConnection.tick, hrun]
    rfl
  · exact ⟨⟨data, ht.inv, hle⟩, hsized, hpayload, h.repInv, h.popped, h.capacity⟩
  · exact fit_buildSegments (fun m hm => le_trans (hmessages m hm) h.payload)

theorem Bounded.perform {op : ConnOp} (h : Bounded n connection)
    (hmax : n + op.written + 2 ≤ u64Max) (hread : ∀ len, op ≠ .read len) :
    ∃ connection1 segments, connection.perform op = .ok (connection1, segments) ∧
      Bounded (n + op.written) connection1 ∧ Fit segments := by
  cases op with
  | flushSender => exact h.flushSender hmax
  | write data =>
      obtain ⟨connection1, segments, hflush, h1, hfit⟩ := (h.write data).flushSender hmax
      refine ⟨connection1, segments, ?_, h1, hfit⟩
      rw [TcpConnection.perform, TcpConnection.write]
      dsimp only
      rw [hflush]
      rfl
  | close => exact h.close.flushSender hmax
  | tick elapsedMs => exact h.tick elapsedMs
  | receiveSegment segment => exact h.receiveSegment hmax segment
  | read len => exact absurd rfl (hread len)

end TcpConnection

/-! ## Runs of a host -/

namespace IpHost

open TcpConnection

/-- The bytes an operation brings. -/
def HostOp.bytes : HostOp → Nat
  | .write data => data.length
  | .receiveDatagram datagram => datagram.payload.length
  | .receiveIpv4Bytes packet => packet.length
  | _ => 0

/-- What the program adds to without a check is a `u64`. -/
structure CountersFit (host : IpHost) : Prop where
  outbound : host.connection.sender.outbound.bytesPushed ≤ u64Max
  output : host.connection.receiver.output.bytesPushed ≤ u64Max
  nxt : host.connection.sender.sndNxt ≤ u64Max
  pending : ∀ x ∈ host.connection.receiver.reassembler.pending, x.1 + x.2.length ≤ u64Max
  decoded : ∀ number zeroPoint : Wrap32,
    host.connection.sender.sndNxt / modulus * modulus +
      (number.rawValue - zeroPoint.rawValue).toNat ≤ u64Max

variable {host : IpHost} {op : HostOp} {connOp : ConnOp} {n : Nat}

theorem wrapTcpSegments_total {segments : List TcpSegment} (h : Fit segments) :
    ∃ output, host.wrapTcpSegments segments = .ok output := by
  induction segments with
  | nil => exact ⟨_, rfl⟩
  | cons segment rest ih =>
      have hsegment := h segment List.mem_cons_self
      obtain ⟨bytes, hbytes⟩ := segment.serializeIpv4_total host.config.localIp host.config.peerIp
        (by unfold TCP_HEADER_MIN_LEN; omega)
      obtain ⟨output, houtput⟩ := ih (fun s hs => h s (List.mem_cons_of_mem _ hs))
      rw [wrapTcpSegments, hbytes, Exec.ok_bind, houtput]
      exact ⟨_, rfl⟩

/-- A host hands no read to its connection, and no more bytes than it was given. -/
theorem HostOp.written_le (h : op.connOp host = some connOp) :
    connOp.written ≤ op.bytes ∧ ∀ len, connOp ≠ .read len := by
  have hsegment : ∀ segment : Option TcpSegment,
      segment.map ConnOp.receiveSegment = some connOp →
      connOp.written ≤ op.bytes ∧ ∀ len, connOp ≠ .read len := by
    intro segment hmap
    obtain ⟨segment1, -, rfl⟩ := Option.map_eq_some_iff.mp hmap
    exact ⟨Nat.zero_le _, fun len => by simp⟩
  cases op with
  | connect =>
      obtain rfl := Option.some.inj h
      exact ⟨Nat.zero_le _, fun len => by simp⟩
  | write data =>
      obtain rfl := Option.some.inj h
      exact ⟨le_refl _, fun len => by simp⟩
  | close =>
      obtain rfl := Option.some.inj h
      exact ⟨Nat.zero_le _, fun len => by simp⟩
  | tick elapsedMs =>
      obtain rfl := Option.some.inj h
      exact ⟨Nat.zero_le _, fun len => by simp⟩
  | receiveDatagram datagram => exact hsegment _ h
  | receiveIpv4Bytes packet => exact hsegment _ h

theorem perform_total (hfits : op.Fits) (h : Bounded n host.connection)
    (hmax : n + op.bytes + 2 ≤ u64Max) :
    ∃ host1 output, host.perform op = .ok (host1, output) ∧
      Bounded (n + op.bytes) host1.connection := by
  have hmore : ∀ {m connection}, m ≤ n + op.bytes → Bounded m connection →
      Bounded (n + op.bytes) connection := by
    intro m connection hle hbounded
    obtain ⟨data, hinv, hlength⟩ := hbounded.sender
    exact { hbounded with sender := ⟨data, hinv, le_trans hlength hle⟩ }
  cases hop : op.connOp host with
  | none =>
      obtain ⟨output, hrun⟩ := perform_idle_total hfits hop
      exact ⟨host, output, hrun, hmore (Nat.le_add_right _ _) h⟩
  | some connOp =>
      obtain ⟨hwritten, hread⟩ := HostOp.written_le hop
      obtain ⟨connection, segments, hperform, h1, hfit⟩ := h.perform (by omega) hread
      obtain ⟨wrapped, hwrap⟩ := wrapTcpSegments_total hfit
      rw [perform_of_connOp hop]
      exact ⟨_, _, dispatch_eq_ok.mpr ⟨connection, segments, wrapped, hperform, hwrap, rfl, rfl⟩,
        hmore (by omega) h1⟩

theorem run_total {s : Session} {ops : List HostOp} (hfits : ∀ op ∈ ops, op.Fits)
    (h : Bounded n s.host.connection) (hmax : n + (ops.map HostOp.bytes).sum + 2 ≤ u64Max) :
    ∃ s1, Exec.run Session.step s ops = .ok s1 ∧
      Bounded (n + (ops.map HostOp.bytes).sum) s1.host.connection := by
  induction ops generalizing s n with
  | nil => exact ⟨s, rfl, h⟩
  | cons op rest ih =>
      rw [List.map_cons, List.sum_cons] at hmax ⊢
      obtain ⟨host1, output, hperform, h1⟩ :=
        perform_total (hfits op List.mem_cons_self) h (by omega)
      have hstep : s.step op = .ok { host := host1, events := s.events ++ output.events } := by
        rw [Session.step, hperform]
        rfl
      obtain ⟨s1, hrest, hfinal⟩ := ih (s := { host := host1, events := s.events ++ output.events })
        (fun op1 hop1 => hfits op1 (List.mem_cons_of_mem _ hop1)) h1 (by omega)
      refine ⟨s1, Exec.run_cons_eq_ok.mpr ⟨_, hstep, hrest⟩, ?_⟩
      -- the budget of the whole run is that of the step and that of the rest
      rw [← Nat.add_assoc]
      exact hfinal

theorem countersFit_of_bounded (h : Bounded n host.connection) (hmax : n ≤ u64Max) :
    CountersFit host := by
  obtain ⟨data, hinv, hle⟩ := h.sender
  have hpushed := hinv.pushed_eq
  have houtput := host.connection.receiver.output.pushed_eq
  have hbuffered := host.connection.receiver.output.buffered_le
  have hpopped := h.popped
  have hcapacity := h.capacity
  -- nothing is read of the output, so what was pushed is still in its capacity
  refine ⟨by omega, by omega, hinv.nxt_le, ?_, Wrap32.current_le hinv.nxt_le⟩
  intro x hx
  have hend : x.1 + x.2.length ≤ host.connection.receiver.reassembler.firstUnacceptable :=
    h.repInv.wellFormed.end_le hx h.repInv.window
  exact le_trans hend host.connection.receiver.reassembler.firstUnacceptable_le_max

/-- The demo configuration is accepted. -/
theorem new_tcpDemo (localIp peerIp : Ipv4AddrBytes) {localPort peerPort : UInt16} (isn : Wrap32)
    (hlocal : localPort ≠ 0) (hpeer : peerPort ≠ 0) :
    ∃ host, IpHost.new (.tcpDemo localIp peerIp localPort peerPort isn) = .ok host ∧
      Bounded 0 host.connection := by
  set config : TcpSenderConfig :=
    { initialRtoMs := 1000, maxTimerIntervalMs := 60000, maxPayloadSize := 1000 } with hconfig
  have hsender : ∃ sender, TcpSender.new (64 * 1024) isn config = .ok sender :=
    TcpSender.new_total (64 * 1024) isn (by decide) (by decide) (by decide)
  obtain ⟨sender, hsender⟩ := hsender
  have hconnection : TcpConnection.new
      { localPort := localPort, peerPort := peerPort, senderCapacity := 64 * 1024
        receiverCapacity := 64 * 1024, isn := isn, senderConfig := config } = .ok
      { localPort := localPort
        peerPort := peerPort
        sender := sender
        receiver :=
          { reassembler :=
              { output := ByteStream.new (64 * 1024), pending := SortedMap.empty, eofIndex := none }
            isn := none } } := by
    rw [TcpConnection.new, Exec.assert_pos hlocal, Exec.assert_pos hpeer]
    simp only [Exec.ok_bind, hsender, TcpReceiver.new_ok]
  -- the ports are not zero and the timer bounds are in order, so every assertion holds
  obtain ⟨hinv, -⟩ := TcpSender.new_ok hsender
  have hsenderConfig : sender.config = config := by rw [TcpSender.new_eq_ok hsender]
  have hnone : sender.outstanding = [] := by rw [TcpSender.new_eq_ok hsender]
  refine ⟨_, Exec.bind_eq_ok.mpr ⟨_, hconnection, rfl⟩, ?_⟩
  exact
    { sender := ⟨[], hinv, le_refl _⟩
      sized := TcpSender.sized_of_nil hnone
      payload := by
        show sender.config.maxPayloadSize ≤ 65515
        rw [hsenderConfig]
        decide
      repInv := Reassembler.repInv_new _
      popped := rfl
      capacity := by
        show 64 * 1024 ≤ u64Max
        decide }

/-- Whatever arrives at a demo host, in whatever order with whatever it does itself: no
operation stops abnormally, and no counter leaves its range. -/
theorem never_stops (localIp peerIp : Ipv4AddrBytes) {localPort peerPort : UInt16} (isn : Wrap32)
    (hlocal : localPort ≠ 0) (hpeer : peerPort ≠ 0) {ops : List HostOp}
    (hfits : ∀ op ∈ ops, op.Fits) (hbytes : (ops.map HostOp.bytes).sum < 2 ^ 63) :
    ∃ host s, IpHost.new (.tcpDemo localIp peerIp localPort peerPort isn) = .ok host ∧
      Exec.run Session.step (start host) ops = .ok s ∧ CountersFit s.host := by
  have hmax : 2 ^ 63 + 1 ≤ u64Max := by decide
  obtain ⟨host, hnew, h⟩ := new_tcpDemo localIp peerIp isn hlocal hpeer
  obtain ⟨s, hrun, hbounded⟩ := run_total (s := start host) hfits h (by omega)
  exact ⟨host, s, hnew, hrun, countersFit_of_bounded hbounded (by omega)⟩

/-- A host that opens, writes, closes, and meanwhile receives bytes that are no datagram. -/
theorem never_stops_truncated : ∃ host s,
    IpHost.new (.tcpDemo ⟨10, 0, 0, 1⟩ ⟨10, 0, 0, 2⟩ 4000 80 ⟨4294967295⟩) = .ok host ∧
      Exec.run Session.step (start host)
        [.connect, .write [1, 2, 3], .receiveIpv4Bytes [69, 0, 0], .tick 1000, .close,
          .tick u64Max] = .ok s ∧ CountersFit s.host := by
  apply never_stops _ _ _ (by decide) (by decide)
  · intro op hop
    simp only [List.mem_cons, List.not_mem_nil, or_false] at hop
    rcases hop with rfl | rfl | rfl | rfl | rfl | rfl <;> trivial
  · decide

end IpHost

end Minnow
