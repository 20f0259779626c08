import Minnow.IpHost.Sending
import Minnow.TapHost.Capture
import Minnow.TapHost.Steps

set_option autoImplicit false

/-! # A station among others

Whatever frames a demo station reads, from whomever, no round of it stops, no frame is left behind
at the end of a round, and whatever it writes is an ARP message about itself or a datagram from
its own address (`station_rounds`).
-/

namespace Minnow

open IpHost NetworkInterface

namespace TapHost

variable {t t1 : TapHost} {mac : EthernetAddress} {config : IpHostConfig} {n : Nat} {op : TapOp}
  {ops : List TapOp} {turn : Turn} {turns : List Turn}

/-- What holds of a station at all times. -/
structure Sound (mac : EthernetAddress) (config : IpHostConfig) (n : Nat) (t : TapHost) : Prop where
  wired : Wired (FromHost config.localIp) t
  quiet : t.interface.datagramsIn = []
  healthy : Healthy n t.host
  config_eq : t.host.config = config
  ethernetAddress : t.interface.ethernetAddress = mac
  ipAddress : t.interface.ipAddress = config.localIp

def AppEvent.length : AppEvent → Nat
  | .data bytes => bytes.length
  | .close => 0

/-- The bytes that a step takes from the application. -/
def TapOp.written : TapOp → Nat
  | .app event => AppEvent.length event
  | _ => 0

theorem TapOp.written_of_hostOp {hostOp : HostOp} (h : op.hostOp mac = some hostOp) :
    hostOp.written = op.written := by
  cases op with
  | connect =>
      obtain rfl := Option.some.inj h
      rfl
  | frame frameBytes =>
      obtain ⟨datagram, -, rfl⟩ := Option.map_eq_some_iff.mp h
      rfl
  | app event =>
      cases event with
      | data bytes =>
          obtain rfl := Option.some.inj h
          rfl
      | close =>
          obtain rfl := Option.some.inj h
          rfl
  | tick elapsedMs =>
      obtain rfl := Option.some.inj h
      rfl
  | flush => exact nomatch h

theorem TapOp.sendable_of_hostOp {hostOp : HostOp} (h : op.hostOp mac = some hostOp) :
    Internet.Sendable hostOp := by
  cases op with
  | frame frameBytes =>
      obtain ⟨datagram, hinbound, rfl⟩ := Option.map_eq_some_iff.mp h
      exact inbound_short hinbound
  | connect =>
      obtain rfl := Option.some.inj h
      trivial
  | app event =>
      cases event with
      | data bytes =>
          obtain rfl := Option.some.inj h
          trivial
      | close =>
          obtain rfl := Option.some.inj h
          trivial
  | tick elapsedMs =>
      obtain rfl := Option.some.inj h
      trivial
  | flush => exact nomatch h

/-! ## Steps -/

/-- What the step asks of the host is done, and can be sent. -/
theorem Sound.perform (h : Sound mac config n t) (hmax : n + op.written + 2 ≤ u64Max) :
    ∃ host output, perform? t.host (op.hostOp t.interface.ethernetAddress) = .ok (host, output) ∧
      Healthy (n + op.written) host ∧ host.config = config ∧
      ∀ datagram ∈ output.datagrams, Known (FromHost config.localIp) datagram := by
  cases hop : op.hostOp t.interface.ethernetAddress with
  | none =>
      have hnone : op.written = 0 := by
        cases op with
        | frame frameBytes => rfl
        | flush => rfl
        | app event => cases event <;> exact nomatch hop
        | connect => exact nomatch hop
        | tick elapsedMs => exact nomatch hop
      rw [hnone]
      exact ⟨t.host, .empty, rfl, h.healthy, h.config_eq, fun _ hd => absurd hd List.not_mem_nil⟩
  | some hostOp =>
      have hwritten := TapOp.written_of_hostOp hop
      obtain ⟨host, output, list, hrun, hhealthy, -, hknown⟩ :=
        h.healthy.perform (TapOp.sendable_of_hostOp hop) (by omega)
      rw [hwritten] at hhealthy
      rw [h.config_eq] at hknown
      exact ⟨host, output, hrun, hhealthy, (perform_config hrun).trans h.config_eq, hknown⟩

theorem Sound.step (h : Sound mac config n t) (hfits : op.Fits)
    (hmax : n + op.written + 2 ≤ u64Max) :
    ∃ t1 host output, t.step op = .ok t1 ∧ Sound mac config (n + op.written) t1 ∧
      Stepped (FromHost config.localIp) t op host output t1 := by
  obtain ⟨host, output, hrun, hhealthy, hconfig, hknown⟩ := h.perform hmax
  obtain ⟨t1, hstep, hstepped⟩ := step_total h.wired h.quiet hfits hrun hknown
  refine ⟨t1, host, output, hstep, ?_, hstepped⟩
  exact
    { wired := hstepped.wired
      quiet := hstepped.quiet
      healthy := hstepped.host_eq ▸ hhealthy
      config_eq := hstepped.host_eq ▸ hconfig
      ethernetAddress := hstepped.station.ethernetAddress.trans h.ethernetAddress
      ipAddress := hstepped.station.ipAddress.trans h.ipAddress }

theorem Sound.run (h : Sound mac config n t) (hfits : ∀ op ∈ ops, op.Fits)
    (hmax : n + (ops.map TapOp.written).sum + 2 ≤ u64Max) :
    ∃ t1, Exec.run TapHost.step t ops = .ok t1 ∧
      Sound mac config (n + (ops.map TapOp.written).sum) t1 := by
  induction ops generalizing t n with
  | nil => exact ⟨t, rfl, h⟩
  | cons op rest ih =>
      rw [List.map_cons, List.sum_cons] at hmax ⊢
      obtain ⟨t2, host, output, hstep, h2, -⟩ := h.step (hfits op List.mem_cons_self) (by omega)
      obtain ⟨t1, hrest, h1⟩ := ih h2 (fun op1 hop => hfits op1 (List.mem_cons_of_mem _ hop))
        (by omega)
      rw [Nat.add_assoc] at h1
      exact ⟨t1, Exec.run_cons_eq_ok.mpr ⟨t2, hstep, hrest⟩, h1⟩

/-! ## Rounds -/

def Turn.written (turn : Turn) : Nat := (turn.events.map AppEvent.length).sum

theorem Turn.written_ops (turn : Turn) : (turn.ops.map TapOp.written).sum = turn.written := by
  have hframes : ∀ frames : List Bytes, ((frames.map TapOp.frame).map TapOp.written).sum = 0 := by
    intro frames
    rw [List.map_map]
    exact List.sum_eq_zero (fun k hk => by
      obtain ⟨frameBytes, -, rfl⟩ := List.mem_map.mp hk
      rfl)
  have hevents : (turn.events.map TapOp.app).map TapOp.written
      = turn.events.map AppEvent.length := List.map_map
  unfold ops work written
  rw [List.map_append, List.map_append, List.map_append, List.sum_append, List.sum_append,
    List.sum_append, hframes, hevents]
  split_ifs <;> simp [TapOp.written]

/-- The frames that a round reads fit in the buffer of the device. -/
def Turn.Fits (turn : Turn) : Prop := ∀ frameBytes ∈ turn.frames, frameBytes.length ≤ 65535

instance (turn : Turn) : Decidable turn.Fits :=
  inferInstanceAs (Decidable (∀ frameBytes ∈ turn.frames, frameBytes.length ≤ 65535))

theorem Turn.Fits.each (h : turn.Fits) : ∀ op ∈ turn.ops, op.Fits := by
  intro op hop
  cases op with
  | frame frameBytes =>
      refine h frameBytes ?_
      simpa [Turn.ops, Turn.work] using hop
  | _ => trivial

theorem Sound.round (h : Sound mac config n t) (hfits : turn.Fits)
    (hmax : n + turn.written + 2 ≤ u64Max) :
    ∃ t1, t.turn turn = .ok t1 ∧ Sound mac config (n + turn.written) t1 ∧
      t1.interface.framesOut = [] := by
  rw [← turn.written_ops] at hmax ⊢
  have hsplit : turn.ops = turn.work ++ [.flush] := rfl
  have hall := hfits.each
  rw [hsplit] at hall
  rw [hsplit, List.map_append, List.sum_append] at hmax ⊢
  -- the last step of a round writes all that is left
  obtain ⟨t2, hwork, h2⟩ := h.run (fun op hop => hall op (List.mem_append_left _ hop)) (by omega)
  have hlast : TapOp.flush.written = 0 := rfl
  obtain ⟨t1, host, output, hflush, h1, hstepped⟩ :=
    h2.step (show TapOp.flush.Fits from trivial) (by omega)
  have hrun : Exec.run TapHost.step t turn.ops = .ok t1 := by
    rw [hsplit, Exec.run_append, hwork]
    exact (Exec.run_singleton t2 TapOp.flush).trans hflush
  rw [Nat.add_assoc] at h1
  exact ⟨t1, (turn_eq_run t turn).trans hrun, h1, hstepped.flushed rfl⟩

/-- The rounds one after the other. -/
theorem Sound.rounds (h : Sound mac config n t) (hrest : t.interface.framesOut = [])
    (hfits : ∀ turn ∈ turns, turn.Fits) (hmax : n + (turns.map Turn.written).sum + 2 ≤ u64Max) :
    ∃ t1, Exec.run TapHost.turn t turns = .ok t1 ∧
      Sound mac config (n + (turns.map Turn.written).sum) t1 ∧ t1.interface.framesOut = [] := by
  induction turns generalizing t n with
  | nil => exact ⟨t, rfl, h, hrest⟩
  | cons turn rest ih =>
      rw [List.map_cons, List.sum_cons] at hmax ⊢
      obtain ⟨t2, hturn, h2, hrest2⟩ := h.round (hfits turn List.mem_cons_self) (by omega)
      obtain ⟨t1, hrun, h1⟩ := ih h2 hrest2
        (fun turn1 hturn1 => hfits turn1 (List.mem_cons_of_mem _ hturn1)) (by omega)
      rw [Nat.add_assoc] at h1
      exact ⟨t1, Exec.run_cons_eq_ok.mpr ⟨t2, hturn, hrun⟩, h1⟩

theorem sound_new {host : IpHost} (hnew : IpHost.new config = .ok host) (h : Healthy 0 host)
    (hconfig : host.config = config) (mac : EthernetAddress) (capture : Bool) :
    ∃ t, TapHost.new mac config capture = .ok t ∧ Sound mac config 0 t := by
  refine ⟨_, Exec.bind_eq_ok.mpr ⟨host, hnew, rfl⟩, ?_⟩
  exact
    { wired := ⟨traced_new .., fun _ hbytes => absurd hbytes List.not_mem_nil⟩
      quiet := rfl
      healthy := h
      config_eq := hconfig
      ethernetAddress := rfl
      ipAddress := rfl }

/-- The station connects. -/
theorem Sound.start {t0 : TapHost} {capture : Bool} (h : Sound mac config 0 t0)
    (hnew : TapHost.new mac config capture = .ok t0) :
    ∃ t, TapHost.start mac config capture = .ok t ∧ Sound mac config 0 t ∧
      t.interface.framesOut = [] := by
  obtain ⟨t1, host1, output1, hconnect, h1, -⟩ :=
    h.step (show TapOp.connect.Fits from trivial) (show 0 + 0 + 2 ≤ u64Max by decide)
  obtain ⟨t2, host2, output2, hflush, h2, hstepped⟩ :=
    h1.step (show TapOp.flush.Fits from trivial) (show 0 + 0 + 0 + 2 ≤ u64Max by decide)
  refine ⟨t2, ?_, h2, hstepped.flushed rfl⟩
  rw [TapHost.start, hnew, Exec.ok_bind]
  exact (congrArg (fun connected => connected >>= flushInterfaceFrames) hconnect).trans hflush

/-- Whatever a demo station reads, from whomever, no round of it stops; it leaves no frame and no
datagram behind; and all that it writes comes from its own addresses. -/
theorem station_rounds (mac : EthernetAddress) (localIp peerIp : Ipv4AddrBytes)
    {localPort peerPort : UInt16} (isn : Wrap32) (hlocal : localPort ≠ 0) (hpeer : peerPort ≠ 0)
    (capture : Bool) (hfits : ∀ turn ∈ turns, turn.Fits)
    (hwritten : (turns.map Turn.written).sum < 2 ^ 63) :
    ∃ t0 t, TapHost.start mac (.tcpDemo localIp peerIp localPort peerPort isn) capture = .ok t0 ∧
      Exec.run TapHost.turn t0 turns = .ok t ∧
      t.interface.framesOut = [] ∧ t.interface.datagramsIn = [] ∧
      ∀ bytes ∈ t.written, ∃ frame : EthernetFrame, bytes = frame.serialize ∧
        Genuine (FromHost localIp) mac localIp frame := by
  have hmax : 2 ^ 63 + 1 ≤ u64Max := by decide
  obtain ⟨host, hnew, hhealthy, hconfig⟩ := healthy_tcpDemo localIp peerIp isn hlocal hpeer
  obtain ⟨fresh, hfresh, h⟩ := sound_new hnew hhealthy hconfig mac capture
  obtain ⟨t0, hstart, h0, hrest⟩ := h.start hfresh
  obtain ⟨t, hrun, h1, hout⟩ := h0.rounds hrest hfits (by omega)
  have hsent := h1.wired.written
  rw [h1.ethernetAddress, h1.ipAddress] at hsent
  exact ⟨t0, t, hstart, hrun, hout, h1.quiet, hsent⟩

end TapHost

end Minnow
