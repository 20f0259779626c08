import Minnow.Internet.Safety
import Minnow.IpHost.Sending
import Minnow.TunHost.Steps

set_option autoImplicit false

/-! # Two hosts on TUN devices

What two stations on TUN devices do is what two hosts do that exchange datagrams, step for step
(`tunnels_bisimulate`): nothing that is written gets lost or changed on its way from a host to its
device, or from a device to its host. One station alone never stops, whatever it reads, and captures
all that it reads and writes (`station_rounds`).
-/

namespace Minnow

open IpHost Internet

namespace TunHost

variable {t t1 : TunHost} {op : TunOp} {ops : List TunOp} {n : Nat} {w w1 : Internet} {side : Side}
  {config : IpHostConfig}

/-! ## Two stations -/

/-- The station is the host `side`, and has written what that host has sent. -/
structure Tracks (w : Internet) (side : Side) (t : TunHost) : Prop where
  host : t.host = (w.station side).host
  events : t.events = (w.station side).events
  written : t.written = (w.sent side).map Parcel.bytes

/-- One step of one of two stations. -/
def linkStep (tun : Side → TunHost) (move : Side × TunOp) : Exec (Side → TunHost) := do
  let t ← (tun move.1).step move.2
  .ok (Function.update tun move.1 t)

/-- The same step, of the hosts alone. -/
def hostMove (move : Side × TunOp) : Side × HostOp := (move.1, move.2.hostOp)

theorem tracks_update {tun : Side → TunHost} (h : ∀ side, Tracks w side (tun side))
    (hself : Tracks w1 side t1) (hstation : w1.station side.peer = w.station side.peer)
    (hsent : w1.sent side.peer = w.sent side.peer) (other : Side) :
    Tracks w1 other (Function.update tun side t1 other) := by
  rcases side.eq_or_eq_peer other with rfl | rfl
  · rw [Function.update_self]
    exact hself
  · rw [Function.update_of_ne side.peer_ne]
    have hpeer := h side.peer
    exact
      { host := by rw [hpeer.host, hstation]
        events := by rw [hpeer.events, hstation]
        written := by rw [hpeer.written, hsent] }

/-- An operation of the station is one of its host, and what it has written is what that sent. -/
theorem Operated.tracks {list read : List Bytes} {hostOp : HostOp} (h : Tracks w side t)
    (hoperated : Operated t hostOp read list t1) :
    ∃ w1, w.step (side, hostOp) = .ok w1 ∧ Tracks w1 side t1 ∧
      w1.station side.peer = w.station side.peer ∧ w1.sent side.peer = w.sent side.peer := by
  obtain ⟨⟨output, hrun, hlist, hevents⟩, hwritten, -⟩ := hoperated
  rw [h.host] at hrun
  refine ⟨_, Internet.step_eq_ok.mpr ⟨t1.host, output, list, hrun, hlist, rfl⟩, ?_,
    emit_station_peer, emit_sent_peer⟩
  exact
    { host := by
        rw [emit_station_self]
        rfl
      events := by
        rw [emit_station_self, hevents, h.events]
        rfl
      written := by
        rw [emit_sent_self, List.map_append, map_bytes_parcels, hwritten, h.written] }

/-- One step is the same for stations and for hosts. -/
theorem linkStep_tracks {tun tun1 : Side → TunHost} {move : Side × TunOp}
    (h : ∀ side, Tracks w side (tun side)) (hfits : move.2.Fits)
    (hstep : linkStep tun move = .ok tun1) :
    ∃ w1, w.step (hostMove move) = .ok w1 ∧ ∀ side, Tracks w1 side (tun1 side) := by
  obtain ⟨t1, hone, hok⟩ := Exec.bind_eq_ok.mp hstep
  obtain rfl := Except.ok.inj hok
  obtain ⟨list, hoperated⟩ := (step_eq_ok hfits).mp hone
  obtain ⟨w1, hw1, hself, hstation, hsent⟩ := hoperated.tracks (h move.1)
  exact ⟨w1, hw1, tracks_update h hself hstation hsent⟩

theorem step_tracks {tun : Side → TunHost} {move : Side × TunOp}
    (h : ∀ side, Tracks w side (tun side)) (hfits : move.2.Fits)
    (hstep : w.step (hostMove move) = .ok w1) :
    ∃ tun1, linkStep tun move = .ok tun1 ∧ ∀ side, Tracks w1 side (tun1 side) := by
  obtain ⟨side, op⟩ := move
  obtain ⟨host, output, list, hrun, hlist, -⟩ := Internet.step_eq_ok.mp hstep
  rw [← (h side).host] at hrun
  let t1 : TunHost :=
    { host := host
      events := (tun side).events ++ output.events
      written := (tun side).written ++ list
      pcap := (tun side).pcap.map (· ++ (op.read ++ list)) }
  have hoperated : Operated (tun side) op.hostOp op.read list t1 :=
    ⟨⟨output, hrun, hlist, rfl⟩, rfl, rfl⟩
  have hone : (tun side).step op = .ok t1 := (step_eq_ok hfits).mpr ⟨list, hoperated⟩
  have hlink : linkStep tun (side, op) = .ok (Function.update tun side t1) :=
    Exec.bind_eq_ok.mpr ⟨t1, hone, rfl⟩
  obtain ⟨w2, hw2, htracks⟩ := linkStep_tracks h hfits hlink
  rw [hstep, Except.ok.injEq] at hw2
  subst hw2
  exact ⟨_, hlink, htracks⟩

/-- The two stations, before they connect. -/
def startBoth (config : Side → IpHostConfig) (capture : Bool) : Exec (Side → TunHost) := do
  let a ← TunHost.new (config .a) capture
  let b ← TunHost.new (config .b) capture
  .ok fun
    | .a => a
    | .b => b

theorem tracks_start {config : Side → IpHostConfig} {capture : Bool} {tun : Side → TunHost}
    (h : startBoth config capture = .ok tun) :
    ∃ w, Internet.start config = .ok w ∧ ∀ side, Tracks w side (tun side) := by
  obtain ⟨a, ha, h⟩ := Exec.bind_eq_ok.mp h
  obtain ⟨b, hb, h⟩ := Exec.bind_eq_ok.mp h
  obtain rfl := Except.ok.inj h
  obtain ⟨hostA, hnewA, hokA⟩ := Exec.bind_eq_ok.mp ha
  obtain ⟨hostB, hnewB, hokB⟩ := Exec.bind_eq_ok.mp hb
  obtain rfl := Except.ok.inj hokA
  obtain rfl := Except.ok.inj hokB
  have hstart : Internet.start config = .ok _ :=
    Exec.bind_eq_ok.mpr ⟨hostA, hnewA, Exec.bind_eq_ok.mpr ⟨hostB, hnewB, rfl⟩⟩
  refine ⟨_, hstart, ?_⟩
  intro side
  cases side <;> exact ⟨rfl, rfl, rfl⟩

theorem run_tracks {moves : List (Side × TunOp)} {tun tun1 : Side → TunHost}
    (h : ∀ side, Tracks w side (tun side)) (hfits : ∀ move ∈ moves, move.2.Fits)
    (hrun : Exec.run linkStep tun moves = .ok tun1) :
    ∃ w1, Exec.run Internet.step w (moves.map hostMove) = .ok w1 ∧
      ∀ side, Tracks w1 side (tun1 side) := by
  induction moves generalizing w tun with
  | nil =>
      obtain rfl := Except.ok.inj hrun
      exact ⟨w, rfl, h⟩
  | cons move rest ih =>
      obtain ⟨tun2, hstep, hrest⟩ := Exec.run_cons_eq_ok.mp hrun
      obtain ⟨w2, hstep2, h2⟩ := linkStep_tracks h (hfits move List.mem_cons_self) hstep
      obtain ⟨w1, hrun1, h1⟩ :=
        ih h2 (fun move1 hmove => hfits move1 (List.mem_cons_of_mem _ hmove)) hrest
      exact ⟨w1, Exec.run_cons_eq_ok.mpr ⟨w2, hstep2, hrun1⟩, h1⟩

theorem exists_run_tracks {moves : List (Side × TunOp)} {tun : Side → TunHost}
    (h : ∀ side, Tracks w side (tun side)) (hfits : ∀ move ∈ moves, move.2.Fits)
    (hrun : Exec.run Internet.step w (moves.map hostMove) = .ok w1) :
    ∃ tun1, Exec.run linkStep tun moves = .ok tun1 ∧ ∀ side, Tracks w1 side (tun1 side) := by
  induction moves generalizing w tun with
  | nil =>
      obtain rfl := Except.ok.inj hrun
      exact ⟨tun, rfl, h⟩
  | cons move rest ih =>
      obtain ⟨w2, hstep, hrest⟩ := Exec.run_cons_eq_ok.mp hrun
      obtain ⟨tun2, hstep2, h2⟩ := step_tracks h (hfits move List.mem_cons_self) hstep
      obtain ⟨tun1, hrun1, h1⟩ :=
        ih h2 (fun move1 hmove => hfits move1 (List.mem_cons_of_mem _ hmove)) hrest
      exact ⟨tun1, Exec.run_cons_eq_ok.mpr ⟨tun2, hstep2, hrun1⟩, h1⟩

/-- Stations on TUN devices do what hosts do that exchange datagrams, and nothing else: a run of
the ones returns if and only if that of the others does, and then the devices were given what the
hosts have sent. So where packets arrive as they were sent, the streams of the stations are what TCP
promises, and no such packet, no input and no tick stops a station. -/
theorem tunnels_bisimulate {config : Side → IpHostConfig} (hpaired : Paired config)
    {capture : Bool} {tun0 : Side → TunHost} (hstart : startBoth config capture = .ok tun0)
    {moves : List (Side × TunOp)} (hfits : ∀ move ∈ moves, move.2.Fits) :
    ∃ w0, Internet.start config = .ok w0 ∧
      (∀ tun, Exec.run linkStep tun0 moves = .ok tun →
        ∃ w, Exec.run Internet.step w0 (moves.map hostMove) = .ok w ∧
          ∀ side, Tracks w side (tun side)) ∧
      (∀ w, Exec.run Internet.step w0 (moves.map hostMove) = .ok w →
        ∃ tun, Exec.run linkStep tun0 moves = .ok tun ∧ ∀ side, Tracks w side (tun side)) ∧
      ∀ w, Exec.RunWhile Verbatim Internet.step w0 (moves.map hostMove) w →
        ∃ tun, Exec.run linkStep tun0 moves = .ok tun ∧
          (∀ side, Tracks w side (tun side) ∧ w.Reliable side) ∧
          ∀ move, move.2.Fits → w.Verbatim (hostMove move) →
            ∃ tun1 w1, linkStep tun move = .ok tun1 ∧ w.step (hostMove move) = .ok w1 ∧
              ∀ side, Tracks w1 side (tun1 side) := by
  obtain ⟨w0, hhosts, h⟩ := tracks_start hstart
  refine ⟨w0, hhosts, fun tun hrun => run_tracks h hfits hrun,
    fun w hrun => exists_run_tracks h hfits hrun, ?_⟩
  intro w hrun
  obtain ⟨tun, htun, htracks⟩ := exists_run_tracks h hfits hrun.run
  have hwhole := (whole_start hpaired hhosts).run hrun
  refine ⟨tun, htun, fun side => ⟨htracks side, hwhole.inv.reliable side⟩, ?_⟩
  intro move hmove hverbatim
  obtain ⟨w1, hstep, -⟩ := hwhole.step_total hverbatim
  obtain ⟨tun1, hlink, htracks1⟩ := step_tracks htracks hmove hstep
  exact ⟨tun1, w1, hlink, hstep, htracks1⟩

/-- Two hosts that connect; `b` reads bytes that are no datagram, and the SYN twice. -/
def tunnelMoves : List (Side × TunOp) :=
  [(.a, .connect), (.b, .packet [69, 0, 0]), (.b, .packet demoSyn), (.b, .packet demoSyn),
    (.a, .packet demoSynAck), (.a, .app (.data [1, 2, 3])), (.b, .packet demoData)]

/-- The stations make that run and can go on, here with a tick of `b`. -/
theorem tunnels_bisimulate_demo : ∃ tun0 w0 w tun,
    startBoth demoConfig true = .ok tun0 ∧ Internet.start demoConfig = .ok w0 ∧
    Exec.RunWhile Verbatim Internet.step w0 (tunnelMoves.map hostMove) w ∧
    Exec.run linkStep tun0 tunnelMoves = .ok tun ∧
    (∀ side, Tracks w side (tun side) ∧ w.Reliable side) ∧
    (tun .b).host.connection.receiver.output.contents = [1, 2, 3] ∧
    ∃ tun1, linkStep tun (.b, .tick 1000) = .ok tun1 := by
  obtain ⟨tun0, hstart⟩ : ∃ tun0, startBoth demoConfig true = .ok tun0 := ⟨_, rfl⟩
  have hfits : ∀ move ∈ tunnelMoves, move.2.Fits := by decide
  obtain ⟨w0, hhosts, -, -, hverbatim⟩ := tunnels_bisimulate demo_paired hstart hfits
  obtain ⟨w1, hstart1, w, hmoves, hcontents, htick⟩ : ∃ w1, Internet.start demoConfig = .ok w1 ∧
      ∃ w, Exec.run (Exec.guarded Verbatim Internet.step) w1 (tunnelMoves.map hostMove) = .ok w ∧
        (w.station .b).host.connection.receiver.output.contents = [1, 2, 3] ∧
        w.Verbatim (hostMove (.b, .tick 1000)) := by
    decide +kernel
  rw [hhosts, Except.ok.injEq] at hstart1
  subst hstart1
  have hrun := Exec.RunWhile.of_guarded hmoves
  obtain ⟨tun, htun, htracks, hgoes⟩ := hverbatim w hrun
  obtain ⟨tun1, -, hlink, -⟩ := hgoes (.b, .tick 1000) trivial htick
  refine ⟨tun0, w0, w, tun, hstart, hhosts, hrun, htun, htracks, ?_, tun1, hlink⟩
  rw [(htracks .b).1.host]
  exact hcontents

/-! ## One station among others -/

/-- What holds of a station at all times. -/
structure Sound (config : IpHostConfig) (n : Nat) (t : TunHost) : Prop where
  healthy : Healthy n t.host
  config_eq : t.host.config = config
  written : ∀ bytes ∈ t.written, FromHost config.localIp bytes

theorem Sound.step (h : Sound config n t) (hfits : op.Fits)
    (hmax : n + op.hostOp.written + 2 ≤ u64Max) :
    ∃ t1 list, t.step op = .ok t1 ∧ Sound config (n + op.hostOp.written) t1 ∧
      Operated t op.hostOp op.read list t1 := by
  have hsendable : Sendable op.hostOp := by
    cases op with
    | app event => cases event <;> trivial
    | _ => trivial
  obtain ⟨host, output, list, hrun, hhealthy, hlist, hknown⟩ := h.healthy.perform hsendable hmax
  let t1 : TunHost :=
    { host := host
      events := t.events ++ output.events
      written := t.written ++ list
      pcap := t.pcap.map (· ++ (op.read ++ list)) }
  have hoperated : Operated t op.hostOp op.read list t1 := ⟨⟨output, hrun, hlist, rfl⟩, rfl, rfl⟩
  refine ⟨t1, list, (step_eq_ok hfits).mpr ⟨list, hoperated⟩, ?_, hoperated⟩
  refine ⟨hhealthy, (perform_config hrun).trans h.config_eq, ?_⟩
  intro bytes hbytes
  rcases List.mem_append.mp hbytes with hbytes | hbytes
  · exact h.written bytes hbytes
  · obtain ⟨datagram, hdatagram, hserialize⟩ := mem_emitOutput hlist hbytes
    obtain ⟨bytes1, hbytes1, hfrom⟩ := hknown datagram hdatagram
    rw [hserialize, Except.ok.injEq] at hbytes1
    subst hbytes1
    rw [h.config_eq] at hfrom
    exact hfrom

/-- What a capture of the steps holds, if `sents` was written in them. -/
def capturedIn (ops : List TunOp) (sents : List (List Bytes)) : List Bytes :=
  (List.zipWith (fun op sent => TunOp.read op ++ sent) ops sents).flatten

theorem Sound.run (h : Sound config n t) (hfits : ∀ op ∈ ops, op.Fits)
    (hmax : n + (ops.map (fun op => op.hostOp.written)).sum + 2 ≤ u64Max) :
    ∃ t1 sents, Exec.run TunHost.step t ops = .ok t1 ∧
      Sound config (n + (ops.map (fun op => op.hostOp.written)).sum) t1 ∧
      sents.length = ops.length ∧ t1.written = t.written ++ sents.flatten ∧
      t1.pcap = t.pcap.map (· ++ capturedIn ops sents) := by
  induction ops generalizing t n with
  | nil =>
      refine ⟨t, [], rfl, h, rfl, (List.append_nil _).symm, ?_⟩
      cases t.pcap with
      | none => rfl
      | some packets => exact congrArg some (List.append_nil packets).symm
  | cons op rest ih =>
      rw [List.map_cons, List.sum_cons] at hmax ⊢
      obtain ⟨t2, list, hstep, h2, hoperated⟩ := h.step (hfits op List.mem_cons_self) (by omega)
      obtain ⟨t1, sents, hrest, h1, hlength, hwritten, hpcap⟩ :=
        ih h2 (fun op1 hop => hfits op1 (List.mem_cons_of_mem _ hop)) (by omega)
      rw [Nat.add_assoc] at h1
      refine ⟨t1, list :: sents, Exec.run_cons_eq_ok.mpr ⟨t2, hstep, hrest⟩, h1,
        congrArg Nat.succ hlength, ?_, ?_⟩
      · rw [hwritten, hoperated.written, List.append_assoc]
        rfl
      · rw [hpcap, hoperated.pcap, Option.map_map]
        congr 1
        funext packets
        exact List.append_assoc ..

/-- The rounds as one list of steps. -/
theorem turns_eq_run (t : TunHost) (turns : List Turn) :
    Exec.run TunHost.turn t turns = Exec.run TunHost.step t (turns.flatMap Turn.ops) := by
  induction turns generalizing t with
  | nil => rfl
  | cons turn rest ih =>
      rw [List.flatMap_cons, Exec.run_append, Exec.run, turn_eq_run]
      refine bind_congr fun t1 => ?_
      exact ih t1

/-- What the application writes in the steps. -/
def writtenIn (ops : List TunOp) : Nat := (ops.map (fun op => op.hostOp.written)).sum

/-- Whatever a demo station reads, from whomever, no round of it stops, and all that it writes is
from its own address. It captures what it writes at first, and then step by step the packets that it
reads, each before what it writes then. -/
theorem station_rounds (localIp peerIp : Ipv4AddrBytes) {localPort peerPort : UInt16}
    (isn : Wrap32) (hlocal : localPort ≠ 0) (hpeer : peerPort ≠ 0) (capture : Bool)
    {turns : List Turn} (hfits : ∀ op ∈ turns.flatMap Turn.ops, op.Fits)
    (hwritten : writtenIn (turns.flatMap Turn.ops) < 2 ^ 63) :
    ∃ t0 t sent0 sents,
      TunHost.start (.tcpDemo localIp peerIp localPort peerPort isn) capture = .ok t0 ∧
      Exec.run TunHost.turn t0 turns = .ok t ∧
      (∀ bytes ∈ t.written, FromHost localIp bytes) ∧
      sents.length = (turns.flatMap Turn.ops).length ∧ t.written = sent0 ++ sents.flatten ∧
      t.pcap = if capture then some (sent0 ++ capturedIn (turns.flatMap Turn.ops) sents)
        else none := by
  have hmax : 2 ^ 63 + 1 ≤ u64Max := by decide
  obtain ⟨host, hnew, hhealthy, hconfig⟩ := healthy_tcpDemo localIp peerIp isn hlocal hpeer
  let fresh : TunHost :=
    { host := host, events := [], written := [], pcap := if capture then some [] else none }
  have hfresh : TunHost.new (.tcpDemo localIp peerIp localPort peerPort isn) capture = .ok fresh :=
    Exec.bind_eq_ok.mpr ⟨host, hnew, rfl⟩
  have hsound : Sound (.tcpDemo localIp peerIp localPort peerPort isn) 0 fresh :=
    ⟨hhealthy, hconfig, fun _ hbytes => absurd hbytes List.not_mem_nil⟩
  -- the station connects
  obtain ⟨t0, sent0, hconnect, h0, hoperated⟩ :=
    hsound.step (show TunOp.connect.Fits from trivial) (show 0 + 0 + 2 ≤ u64Max by decide)
  have hstart : TunHost.start (.tcpDemo localIp peerIp localPort peerPort isn) capture
      = .ok t0 := by
    rw [TunHost.start, hfresh]
    exact hconnect
  unfold writtenIn at hwritten
  obtain ⟨t, sents, hrun, h, hlength, hsent, hpcap⟩ :=
    h0.run hfits (show 0 + 0 + _ + 2 ≤ u64Max by omega)
  have hwritten0 : t0.written = sent0 := hoperated.written
  rw [hwritten0] at hsent
  refine ⟨t0, t, sent0, sents, hstart, (turns_eq_run t0 turns).trans hrun, h.written, hlength,
    hsent, ?_⟩
  rw [hpcap, hoperated.pcap]
  cases capture <;> rfl

end TunHost

end Minnow
