import Minnow.IpHost.Payloads
import Minnow.TcpConnection.Feedback

set_option autoImplicit false

/-! # The window a host advertises

What a host hands to the application as an event it also keeps in the output of its receiver,
and no operation of a host reads that output. `windows_open_iff` is what follows for a peer
that sends its stream in order and inside the window: the application gets every byte, and
the window is the initial one throughout exactly as long as the bytes the peer has sent leave
65535 bytes of the capacity free. Behind that it closes for good.
-/

namespace Minnow

namespace IpHost

open TcpConnection Reassembler

/-- How many bytes of the stream are among the first `sent` symbols of SYN, `stream`, FIN. -/
def bytesAmong (stream : Bytes) (sent : Nat) : Nat := min (sent - 1) stream.length

variable {stream : Bytes} {isn : Wrap32} {capacity sent : Nat}

theorem take_bytesAmong (stream : Bytes) (sent : Nat) :
    stream.take (bytesAmong stream sent) = stream.take (sent - 1) :=
  List.take_eq_take_min.symm

/-! ## The receiver -/

section Receiver

/-- The receiver has taken the first `sent` symbols of SYN, `stream`, FIN, and nothing was read
of its output. -/
structure Ordered (stream : Bytes) (isn : Wrap32) (capacity sent : Nat) (receiver : TcpReceiver) :
    Prop where
  agrees : Agrees stream True [] receiver.reassembler
  noGap : receiver.reassembler.NoGap
  noError : receiver.output.error = false
  isn_eq : ∀ z ∈ receiver.isn, z = isn
  heard : receiver.isn = none ↔ sent = 0
  capacity_eq : receiver.output.capacity = capacity
  pushed : receiver.output.bytesPushed = bytesAmong stream sent

variable {receiver : TcpReceiver}

theorem ordered_new (hnew : TcpReceiver.new capacity = .ok receiver) :
    Ordered stream isn capacity 0 receiver := by
  rw [TcpReceiver.new_ok, Except.ok.injEq] at hnew
  rw [← hnew]
  exact
    { agrees := Agrees.new stream True capacity
      noGap := fun _ => Fragments.not_covers_empty
      noError := rfl
      isn_eq := fun z hz => absurd hz (by simp)
      heard := iff_of_true rfl rfl
      capacity_eq := rfl
      pushed := by
        show 0 = bytesAmong stream 0
        unfold bytesAmong
        omega }

/-- What was received is still there. -/
theorem Ordered.available (h : Ordered stream isn capacity sent receiver) :
    receiver.output.availableCapacity = capacity - bytesAmong stream sent ∧
      bytesAmong stream sent ≤ capacity := by
  have hpopped : 0 = receiver.output.bytesPopped := h.agrees.read_length
  have hpushed := receiver.output.pushed_eq
  have hbuffered := receiver.output.buffered_le
  have hcapacity := h.capacity_eq
  have hbytes := h.pushed
  unfold ByteStream.availableCapacity
  omega

theorem Ordered.windowSize (h : Ordered stream isn capacity sent receiver) :
    receiver.send.windowSize.toNat = min (capacity - bytesAmong stream sent) 65535 := by
  rw [TcpReceiver.send_windowSize, h.available.1]

/-- The next part of the stream, if it fits into the window, is taken as a whole. -/
theorem Ordered.receive {message : TcpSenderMessage} (h : Ordered stream isn capacity sent receiver)
    (hmax : stream.length + 2 ≤ u64Max) (hpos : 0 < message.sequenceLength)
    (hend : sent + message.sequenceLength ≤ stream.length + 2)
    (hslice : message = TcpReceiver.sliceMessage stream isn sent (sent + message.sequenceLength))
    (hwindow : message.payload.length ≤ capacity - bytesAmong stream sent) :
    ∃ receiver1, receiver.receive message = .ok (receiver1, .ok ()) ∧
      Ordered stream isn capacity (sent + message.sequenceLength) receiver1 := by
  have hcar : message.Carries stream true isn sent := by
    have hcarries := TcpReceiver.carries_sliceMessage isn
      (show sent < sent + message.sequenceLength by omega) hend
    rwa [← hslice] at hcarries
  have hrst : message.rst = false := by rw [hslice]; rfl
  have hsyn : receiver.isn = none → message.syn = true := by
    intro hnone
    rw [hslice, h.heard.mp hnone]
    rfl
  have hpayload : message.payload.length
      = min (sent + message.sequenceLength - 1 - (sent - 1)) (stream.length - (sent - 1)) := by
    have hbytes := congrArg TcpSenderMessage.payload hslice
    rw [hbytes]
    exact List.length_slice ..
  have hpushed := h.pushed
  unfold bytesAmong at hpushed
  -- the segment starts where the assembled bytes end
  have hstart : sent - 1 = receiver.reassembler.output.bytesPushed := by
    show sent - 1 = receiver.output.bytesPushed
    omega
  have hnear : absDiff sent (receiver.output.bytesPushed + 1) < 2 ^ 31 := by
    apply Wrap32.absDiff_lt_iff.mpr
    omega
  have hagrees : Agrees stream (true = true) [] receiver.reassembler :=
    h.agrees.mono (List.prefix_refl _) (fun _ => ⟨rfl, rfl⟩)
  obtain ⟨r1, hrun, hagrees1, hins, -⟩ :=
    TcpReceiver.receive_taken hagrees h.isn_eq hmax hcar hpos hrst hsyn hnear
  have hroom : receiver.reassembler.output.bytesPushed + message.payload.length
      ≤ receiver.reassembler.firstUnacceptable := by
    obtain ⟨-, hle⟩ := h.available
    have hpopped : 0 = receiver.reassembler.output.bytesPopped := h.agrees.read_length
    have hcapacity : receiver.reassembler.output.capacity = capacity := h.capacity_eq
    unfold bytesAmong at hle hwindow
    unfold firstUnacceptable saturatingAdd
    omega
  rw [hstart] at hins
  -- it is due and fits, so all of it is assembled
  obtain ⟨hgap, hgrown⟩ := hins.due hagrees1.toRepInv h.noError h.noGap hroom
  refine ⟨{ reassembler := r1, isn := some isn }, hrun, ?_⟩
  exact
    { agrees := hagrees1.mono (List.prefix_refl _) (fun _ => ⟨trivial, rfl⟩)
      noGap := hgap
      noError := hgrown.error.trans h.noError
      isn_eq := fun z hz => (Option.mem_some_iff.mp hz).symm
      heard := iff_of_false (by simp) (by omega)
      capacity_eq := hgrown.capacity.trans h.capacity_eq
      pushed := by
        have hgrow : r1.output.bytesPushed
            = receiver.reassembler.output.bytesPushed + message.payload.length := hgrown.pushed
        show r1.output.bytesPushed = _
        unfold bytesAmong
        omega }

end Receiver

/-! ## Windows in the events -/

/-- The windows in the segments that were reported as sent. -/
def windows (events : List IpHostEvent) : List Nat :=
  events.filterMap (fun event =>
    match event with
    | .outgoingTcp segment => some segment.header.windowSize.toNat
    | _ => none)

/-- The window of a host that has received nothing. -/
def openWindow (config : IpHostConfig) : Nat := min config.receiverCapacity 65535

theorem windows_append (events more : List IpHostEvent) :
    windows (events ++ more) = windows events ++ windows more :=
  List.filterMap_append

variable {host host1 : IpHost} {config : IpHostConfig} {op : HostOp} {output : IpHostOutput}
  {segment : TcpSegment} {segments : List TcpSegment} {connOp : ConnOp}

theorem windows_wrapTcpSegments (h : host.wrapTcpSegments segments = .ok output) :
    windows output.events = segments.map (fun s => s.header.windowSize.toNat) := by
  calc windows output.events
      = windows (segments.map .outgoingTcp) := by rw [wrapTcpSegments_events h]
    _ = segments.filterMap (fun s => some s.header.windowSize.toNat) := List.filterMap_map
    _ = segments.map (fun s => s.header.windowSize.toNat) := congrFun List.filterMap_eq_map segments

theorem windows_incomingEvents (connOp : ConnOp) : windows (incomingEvents connOp) = [] := by
  cases connOp with
  | receiveSegment segment =>
      unfold incomingEvents
      dsimp only
      split_ifs <;> rfl
  | _ => rfl

theorem windows_of_silent (h : output.Silent) : windows output.events = [] := by
  apply List.filterMap_eq_nil_iff.mpr
  intro event hmem
  have hother := h.events event hmem
  cases event <;> first | rfl | exact absurd hother (by simp [IpHostEvent.isTcp])

/-- All segments of one operation carry the window the receiver has after it. -/
theorem perform_windows (h : host.perform op = .ok (host1, output)) :
    ∀ w ∈ windows output.events, w = host1.connection.receiver.send.windowSize.toNat := by
  cases hop : op.connOp host with
  | none =>
      obtain ⟨-, hsilent⟩ := perform_of_idle hop h
      rw [windows_of_silent hsilent]
      exact fun w hw => absurd hw List.not_mem_nil
  | some connOp =>
      rw [perform_of_connOp hop] at h
      obtain ⟨connection, segments, wrapped, hperform, hwrap, rfl, rfl⟩ := dispatch_eq_ok.mp h
      intro w hw
      have hwindows : windows (incomingEvents connOp ++ wrapped.events)
          = segments.map (fun s => s.header.windowSize.toNat) := by
        rw [windows_append, windows_incomingEvents, List.nil_append, windows_wrapTcpSegments hwrap]
      have hmem : w ∈ windows (incomingEvents connOp ++ wrapped.events) := hw
      rw [hwindows] at hmem
      obtain ⟨s, hs, rfl⟩ := List.mem_map.mp hmem
      rw [((perform_performed hperform).feedback s hs).2]

/-- An operation that brings a segment with sequence space reports a window, once the receiver
has heard SYN. -/
theorem perform_answered (h : host.perform op = .ok (host1, output))
    (hsegment : op.segment host = some segment)
    (hpos : 0 < segment.toSenderMessage.sequenceLength)
    (hknown : host1.connection.receiver.isn ≠ none) : windows output.events ≠ [] := by
  have hport := HostOp.belongs hsegment
  rw [HostOp.segment_eq] at hsegment
  obtain ⟨connOp, hop, hbrings⟩ := Option.bind_eq_some_iff.mp hsegment
  rw [perform_of_connOp hop] at h
  obtain ⟨connection, segments, wrapped, hperform, hwrap, rfl, rfl⟩ := dispatch_eq_ok.mp h
  have hreceive : connOp = .receiveSegment segment := by
    cases connOp with
    | receiveSegment segment1 => rw [Option.some.inj hbrings]
    | _ => exact absurd hbrings (by simp [segment?])
  rw [hreceive] at hperform
  have hne : segments ≠ [] := receiveSegment_answered hport hperform hpos hknown
  intro hnil
  have hwindows : windows (incomingEvents connOp ++ wrapped.events) = [] := hnil
  rw [windows_append, windows_wrapTcpSegments hwrap] at hwindows
  exact hne (List.map_eq_nil_iff.mp (List.append_eq_nil_iff.mp hwindows).2)

/-! ## A peer that sends in order -/

/-- A host, and how many symbols of SYN, stream, FIN the peer has sent to it. -/
structure Inflow where
  session : Session
  sent : Nat

namespace Inflow

def start (host : IpHost) : Inflow where
  session := IpHost.start host
  sent := 0

def step (f : Inflow) (op : HostOp) : Exec Inflow := do
  let session ← f.session.step op
  .ok
    { session := session
      sent := f.sent + ((op.segment f.session.host).elim 0
        (fun segment => segment.toSenderMessage.sequenceLength)) }

def receiver (f : Inflow) : TcpReceiver := f.session.host.connection.receiver

/-- The window in the last segment the host has sent. -/
def advertised (f : Inflow) : Nat :=
  (windows f.session.events).getLast?.getD (openWindow f.session.host.config)

/-- What the peer sends next to the connection is the next part of the stream, inside the window
last advertised, or an acknowledgment. -/
def Next (stream : Bytes) (isn : Wrap32) (f : Inflow) (op : HostOp) : Prop :=
  ∀ segment ∈ op.segment f.session.host, segment.header.rst = false ∧
    (segment.toSenderMessage.sequenceLength = 0 ∨
      f.sent + segment.toSenderMessage.sequenceLength ≤ stream.length + 2 ∧
      segment.toSenderMessage = TcpReceiver.sliceMessage stream isn f.sent
        (f.sent + segment.toSenderMessage.sequenceLength) ∧
      segment.payload.length ≤ f.advertised)

instance (stream : Bytes) (isn : Wrap32) (f : Inflow) (op : HostOp) :
    Decidable (f.Next stream isn op) :=
  inferInstanceAs (Decidable (∀ segment ∈ op.segment f.session.host, _ ∧ (_ ∨ _ ∧ _ ∧ _)))

/-- The receiver has the bytes, the application has them too, and the windows add up. -/
structure Inv (stream : Bytes) (isn : Wrap32) (config : IpHostConfig) (f : Inflow) : Prop where
  ordered : Ordered stream isn config.receiverCapacity f.sent f.receiver
  config_eq : f.session.host.config = config
  payloads_eq : payloads f.session.events = stream.take (bytesAmong stream f.sent)
  advertised_eq : f.advertised = f.receiver.send.windowSize.toNat
  open_iff : (∀ w ∈ windows f.session.events, w = openWindow config) ↔
    bytesAmong stream f.sent = 0 ∨ bytesAmong stream f.sent + 65535 ≤ config.receiverCapacity

variable {f f1 : Inflow}

theorem step_eq_ok : f.step op = .ok f1 ↔ ∃ output,
    f.session.host.perform op = .ok (f1.session.host, output) ∧
      f1.session.events = f.session.events ++ output.events ∧
      f1.sent = f.sent + ((op.segment f.session.host).elim 0
        (fun segment => segment.toSenderMessage.sequenceLength)) := by
  unfold step Session.step
  constructor
  · intro h
    obtain ⟨session, hsession, hok⟩ := Exec.bind_eq_ok.mp h
    obtain ⟨⟨host1, output⟩, hperform, hok1⟩ := Exec.bind_eq_ok.mp hsession
    obtain rfl := Except.ok.inj hok
    obtain rfl := Except.ok.inj hok1
    exact ⟨output, hperform, rfl, rfl⟩
  · rintro ⟨output, hperform, hevents, hsent⟩
    rw [hperform, Exec.ok_bind, Exec.ok_bind, ← hevents, ← hsent]

theorem inv_start (hnew : IpHost.new config = .ok host) : (start host).Inv stream isn config := by
  obtain ⟨connection, hconnection, hok⟩ := Exec.bind_eq_ok.mp hnew
  obtain rfl := Except.ok.inj hok
  obtain ⟨-, -, -, hreceiver⟩ := TcpConnection.new_eq_ok hconnection
  have hordered : Ordered stream isn config.receiverCapacity 0 connection.receiver :=
    ordered_new hreceiver
  have hzero : bytesAmong stream 0 = 0 := Nat.zero_min _
  refine ⟨hordered, rfl, ?_, ?_, ?_⟩
  · show [] = stream.take (bytesAmong stream 0)
    rw [hzero, List.take_zero]
  · show openWindow config = connection.receiver.send.windowSize.toNat
    rw [hordered.windowSize, hzero]
    rfl
  · exact iff_of_true (fun w hw => absurd hw List.not_mem_nil) (Or.inl hzero)

/-- What a step does to the receiver. -/
theorem Inv.receiver_step (h : f.Inv stream isn config) (hmax : stream.length + 2 ≤ u64Max)
    (hnext : f.Next stream isn op) (hstep : f.step op = .ok f1) :
    Ordered stream isn config.receiverCapacity f1.sent f1.receiver ∧
      payloads f1.session.events = stream.take (bytesAmong stream f1.sent) := by
  obtain ⟨output, hperform, hevents, hsent⟩ := step_eq_ok.mp hstep
  have heffect := perform_effect hperform
  cases hsegment : op.segment f.session.host with
  | none =>
      rw [hsegment] at heffect hsent
      cases heffect with
      | silent hreceiver hpayloads =>
          have hsame : f1.sent = f.sent := hsent
          have hreceiver1 : f1.receiver = f.receiver := hreceiver
          rw [hsame, hreceiver1]
          refine ⟨h.ordered, ?_⟩
          calc payloads f1.session.events
              = payloads f.session.events ++ [] := by rw [hevents, payloads_append, hpayloads]
            _ = stream.take (bytesAmong stream f.sent) := by rw [List.append_nil, h.payloads_eq]
  | some segment =>
      rw [hsegment] at heffect hsent
      have hadd : f1.sent = f.sent + segment.toSenderMessage.sequenceLength := hsent
      cases heffect with
      | segment hport hrun hpayloads =>
          obtain ⟨hrst, hpart⟩ := hnext segment hsegment
          have hgrown : payloads f1.session.events
              = stream.take (bytesAmong stream f.sent) ++ segment.payload := by
            rw [hevents, payloads_append, hpayloads, h.payloads_eq]
          rw [hadd, hgrown]
          rcases Nat.eq_zero_or_pos segment.toSenderMessage.sequenceLength with hzero | hpos
          · -- an acknowledgment does not reach the receiver
            have hnil : segment.payload = [] := by
              apply List.length_eq_zero_iff.mp
              have hpayload : segment.toSenderMessage.payload = segment.payload := rfl
              unfold TcpSenderMessage.sequenceLength at hzero
              rw [hpayload] at hzero
              omega
            have hreceiver1 : f1.receiver = f.receiver := receiver_of_empty hport hrun hrst hzero
            rw [hzero, hnil, hreceiver1, Nat.add_zero, List.append_nil]
            exact ⟨h.ordered, rfl⟩
          · obtain ⟨hend, hslice, hwindow⟩ := hpart.resolve_left (by omega)
            rw [h.advertised_eq, h.ordered.windowSize] at hwindow
            obtain ⟨receiver1, hreceive, hordered⟩ :=
              h.ordered.receive hmax hpos hend hslice (le_trans hwindow (Nat.min_le_left _ _))
            have hreceiver : f1.receiver = receiver1 :=
              receiver_of_taken hport hrun hpos hreceive
            rw [hreceiver]
            refine ⟨hordered, ?_⟩
            -- the payload is what lies between the two positions
            have hpayload : segment.payload = stream.slice (f.sent - 1)
                (f.sent + segment.toSenderMessage.sequenceLength - 1) :=
              congrArg TcpSenderMessage.payload hslice
            calc stream.take (bytesAmong stream f.sent) ++ segment.payload
                = stream.take (f.sent - 1) ++ stream.slice (f.sent - 1)
                    (f.sent + segment.toSenderMessage.sequenceLength - 1) := by
                  rw [take_bytesAmong, hpayload]
              _ = stream.take (f.sent + segment.toSenderMessage.sequenceLength - 1) :=
                  stream.take_append_slice (by omega)
              _ = stream.take (bytesAmong stream
                    (f.sent + segment.toSenderMessage.sequenceLength)) :=
                  (take_bytesAmong ..).symm

/-- A step keeps the rest. -/
theorem Inv.step (h : f.Inv stream isn config) (hmax : stream.length + 2 ≤ u64Max)
    (hnext : f.Next stream isn op) (hstep : f.step op = .ok f1) : f1.Inv stream isn config := by
  obtain ⟨hordered, hpayloads⟩ := h.receiver_step hmax hnext hstep
  obtain ⟨output, hperform, hevents, hsent⟩ := step_eq_ok.mp hstep
  have hwindow : f1.receiver.send.windowSize.toNat
      = min (config.receiverCapacity - bytesAmong stream f1.sent) 65535 := hordered.windowSize
  have hwindows : ∀ w ∈ windows output.events, w = f1.receiver.send.windowSize.toNat :=
    perform_windows hperform
  have hconfig : f1.session.host.config = config := by
    rw [perform_config hperform]
    exact h.config_eq
  have hmore : bytesAmong stream f.sent ≤ bytesAmong stream f1.sent := by
    unfold bytesAmong
    omega
  obtain ⟨-, hroom⟩ := hordered.available
  -- without a new window, nothing was taken
  have hquiet : windows output.events = [] →
      bytesAmong stream f1.sent = bytesAmong stream f.sent := by
    intro hnil
    cases hsegment : op.segment f.session.host with
    | none => rw [hsent, hsegment, Option.elim_none, Nat.add_zero]
    | some segment =>
        rw [hsent, hsegment, Option.elim_some]
        rcases Nat.eq_zero_or_pos segment.toSenderMessage.sequenceLength with hzero | hpos
        · rw [hzero, Nat.add_zero]
        · have hknown : f1.receiver.isn ≠ none := by
            rw [Ne, hordered.heard, hsent, hsegment, Option.elim_some]
            omega
          exact absurd hnil (perform_answered hperform hsegment hpos hknown)
  refine ⟨hordered, hconfig, hpayloads, ?_, ?_⟩
  · unfold advertised
    rw [hevents, windows_append, hconfig]
    by_cases hnil : windows output.events = []
    · -- the last window stays the last, and it still tells the room
      have hsame := h.advertised_eq
      unfold advertised at hsame
      rw [hnil, List.append_nil, ← h.config_eq, hsame, h.ordered.windowSize, hwindow, hquiet hnil]
    · rw [List.getLast?_append_of_ne_nil _ hnil, List.getLast?_eq_some_getLast hnil, Option.getD_some]
      exact hwindows _ (List.getLast_mem hnil)
  · rw [hevents, windows_append, List.forall_mem_append, h.open_iff]
    by_cases hnil : windows output.events = []
    · -- nothing was reported and nothing was taken
      rw [hnil, hquiet hnil]
      exact and_iff_left (fun w hw => absurd hw List.not_mem_nil)
    · -- there is a window, and it tells how much room is left
      have hall : (∀ w ∈ windows output.events, w = openWindow config) ↔
          f1.receiver.send.windowSize.toNat = openWindow config := by
        constructor
        · intro hopen
          have hlast := List.getLast_mem hnil
          rw [← hwindows _ hlast]
          exact hopen _ hlast
        · intro hopen w hw
          rw [hwindows w hw, hopen]
      rw [hall, hwindow]
      unfold openWindow
      omega

theorem inv_of_run {ops : List HostOp} (hmax : stream.length + 2 ≤ u64Max)
    (hnew : IpHost.new config = .ok host)
    (hrun : Exec.RunWhile (Next stream isn) step (start host) ops f) :
    f.Inv stream isn config := by
  apply hrun.invariant (Inv stream isn config) ?_ (inv_start hnew)
  intro f1 op f2 hinv hop hstep
  exact hinv.step hmax hop hstep

/-- The window closes by every byte the peer sends. -/
theorem advertised_of_run {ops : List HostOp} (hmax : stream.length + 2 ≤ u64Max)
    (hnew : IpHost.new config = .ok host)
    (hrun : Exec.RunWhile (Next stream isn) step (start host) ops f) :
    f.advertised = min (config.receiverCapacity - bytesAmong stream f.sent) 65535 := by
  have h := inv_of_run hmax hnew hrun
  rw [h.advertised_eq, h.ordered.windowSize]

/-- A peer that sends its stream in order, each segment new and inside the window last
advertised: the application gets all that was sent, and every window the host advertises is
that of an empty buffer exactly as long as the bytes sent leave 65535 bytes of it free. -/
theorem windows_open_iff {ops : List HostOp} (hmax : stream.length + 2 ≤ u64Max)
    (hnew : IpHost.new config = .ok host)
    (hrun : Exec.RunWhile (Next stream isn) step (start host) ops f) :
    payloads f.session.events = stream.take (bytesAmong stream f.sent) ∧
      ((∀ w ∈ windows f.session.events, w = min config.receiverCapacity 65535) ↔
        bytesAmong stream f.sent = 0 ∨
          bytesAmong stream f.sent + 65535 ≤ config.receiverCapacity) := by
  have h := inv_of_run hmax hnew hrun
  exact ⟨h.payloads_eq, h.open_iff⟩

/-! ## Two bytes -/

/-- A host that receives parts of `sampleStream`, stopping where one is not the next. -/
def sampleRun (slices : List (Nat × Nat)) : Exec (IpHost × List HostOp × Inflow) := do
  let host ← IpHost.new sampleConfig
  let ops ← sampleOps slices
  let f ← Exec.run (Exec.guarded (Next sampleStream ⟨1000⟩) step) (start host) ops
  .ok (host, ops, f)

theorem runWhile_of_sampleRun {slices : List (Nat × Nat)} {ops : List HostOp}
    (h : sampleRun slices = .ok (host, ops, f)) : IpHost.new sampleConfig = .ok host ∧
      Exec.RunWhile (Next sampleStream ⟨1000⟩) step (start host) ops f := by
  obtain ⟨host1, hnew, h⟩ := Exec.bind_eq_ok.mp h
  obtain ⟨ops1, -, h⟩ := Exec.bind_eq_ok.mp h
  obtain ⟨f1, hrun, h⟩ := Exec.bind_eq_ok.mp h
  simp only [Except.ok.injEq, Prod.mk.injEq] at h
  obtain ⟨rfl, rfl, rfl⟩ := h
  exact ⟨hnew, Exec.RunWhile.of_guarded hrun⟩

/-- SYN and two bytes: the capacity has one byte more than a full window. -/
theorem sampleRun_windows : ∃ host ops f, IpHost.new sampleConfig = .ok host ∧
    Exec.RunWhile (Next sampleStream ⟨1000⟩) step (start host) ops f ∧
    windows f.session.events = [65535, 65534] := by
  obtain ⟨⟨host, ops, f⟩, hrun, hwindows⟩ : ∃ result, sampleRun [(0, 1), (1, 3)] = .ok result ∧
      windows result.2.2.session.events = [65535, 65534] := by
    decide +kernel
  obtain ⟨hnew, hwhile⟩ := runWhile_of_sampleRun hrun
  exact ⟨host, ops, f, hnew, hwhile, hwindows⟩

theorem windows_open_iff_two_bytes : ∃ host ops f, IpHost.new sampleConfig = .ok host ∧
    Exec.RunWhile (Next sampleStream ⟨1000⟩) step (start host) ops f ∧
    payloads f.session.events = sampleStream.take (bytesAmong sampleStream f.sent) ∧
      ((∀ w ∈ windows f.session.events, w = min sampleConfig.receiverCapacity 65535) ↔
        bytesAmong sampleStream f.sent = 0 ∨
          bytesAmong sampleStream f.sent + 65535 ≤ sampleConfig.receiverCapacity) := by
  obtain ⟨host, ops, f, hnew, hwhile, -⟩ := sampleRun_windows
  exact ⟨host, ops, f, hnew, hwhile, windows_open_iff (by decide) hnew hwhile⟩

/-- Two bytes are not given back to the window. -/
theorem window_leaks : ¬ ∀ (stream : Bytes) (isn : Wrap32) (config : IpHostConfig)
    (host : IpHost) (ops : List HostOp) (f : Inflow), stream.length + 2 ≤ u64Max →
    IpHost.new config = .ok host →
    Exec.RunWhile (Next stream isn) step (start host) ops f →
    payloads f.session.events = stream.take (bytesAmong stream f.sent) ∧
      ∀ w ∈ windows f.session.events, w = min config.receiverCapacity 65535 := by
  intro hclaim
  obtain ⟨host, ops, f, hnew, hwhile, hwindows⟩ := sampleRun_windows
  obtain ⟨-, hopen⟩ := hclaim sampleStream ⟨1000⟩ sampleConfig host ops f (by decide) hnew hwhile
  rw [hwindows] at hopen
  exact absurd (hopen 65534 (by simp)) (by decide)

end Inflow

end IpHost

end Minnow
