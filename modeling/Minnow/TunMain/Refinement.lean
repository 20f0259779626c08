import Minnow.Outside.Follows
import Minnow.TunHost.Steps
import Minnow.TunMain

set_option autoImplicit false

/-! # The program on a TUN device follows the station

As at the other device: what a `TunHost` prints, writes and captures is what the program does while
its calls are answered, and a beginning of that is done where a call fails.
-/

namespace Minnow

open IpHost Outside

/-- What a station has printed, written and captured. -/
def TunHost.log (t : TunHost) : Log := ⟨t.events, t.written, t.pcap⟩

namespace TunMain

variable {env : Env} {R : IoError → Prop} {final : Log} {t t1 : TunHost} {m : TunMain} {s : Outside}
  {op : HostOp} {output : IpHostOutput}

/-- The round as a station sees it. -/
def Turn.calm (turn : Turn) : TunHost.Turn where
  packets := delivered turn.reads
  events := turn.events
  elapsedMs := turn.elapsedMs

/-- The program is where the station is. -/
structure At (env : Env) (t : TunHost) (m : TunMain) (s : Outside) : Prop where
  host : m.host = t.host
  steady : Steady env .rawIpv4 t.log s

theorem At.made (h : At env t m s) (call : Call) : At env t m (s.made call) :=
  ⟨h.host, h.steady.made call⟩

/-! ## What is printed and written -/

theorem emitDatagrams_before {datagrams : List Ipv4Datagram}
    (h : t.emitDatagrams datagrams = .ok t1) : t.log.Before t1.log := by
  obtain ⟨list, -, rfl⟩ := TunHost.emitDatagrams_eq_ok.mp h
  exact ⟨List.prefix_refl _, List.prefix_append _ _⟩

theorem emitOutput_before (h : t.emitOutput output = .ok t1) : t.log.Before t1.log :=
  (t.log.before_print output.events).trans (emitDatagrams_before h)

theorem operate_before (h : t.operate op = .ok t1) : t.log.Before t1.log := by
  obtain ⟨⟨host, output⟩, -, hemit⟩ := Exec.bind_eq_ok.mp h
  have hbefore := emitOutput_before hemit
  exact ⟨hbefore.events, hbefore.written⟩

theorem dumpPacket_eq_ok {packet : Bytes} (h : t.dumpPacket packet = .ok t1) :
    (t.pcap ≠ none → packet.length < 2 ^ 32) ∧
      t1 = { t with pcap := t.pcap.map (· ++ [packet]) } := by
  obtain ⟨host, events, written, pcap⟩ := t
  unfold TunHost.dumpPacket at h
  cases pcap with
  | none =>
      obtain rfl := Except.ok.inj h
      exact ⟨fun hsome => absurd rfl hsome, rfl⟩
  | some packets =>
      obtain ⟨u, hshort, hok⟩ := Exec.bind_eq_ok.mp h
      obtain rfl := Except.ok.inj hok
      exact ⟨fun _ => Exec.assert_eq_ok.mp hshort, rfl⟩

theorem drainPacket_before {packet : Bytes} (h : t.drainPacket packet = .ok t1) :
    t.log.Before t1.log := by
  obtain ⟨t2, hdump, hoperate⟩ := Exec.bind_eq_ok.mp h
  obtain ⟨-, rfl⟩ := dumpPacket_eq_ok hdump
  have hbefore := operate_before hoperate
  exact ⟨hbefore.events, hbefore.written⟩

theorem drainAppEvent_before {event : AppEvent} (h : t.drainAppEvent event = .ok t1) :
    t.log.Before t1.log := by
  cases event with
  | data bytes => exact operate_before h
  | close => exact operate_before h

theorem turn_before {turn : TunHost.Turn} (h : t.turn turn = .ok t1) : t.log.Before t1.log := by
  rw [TunHost.turn_eq_run] at h
  refine Exec.run_back (fun t => t.log.Before t1.log) ?_ h (Log.Before.refl _)
  intro t op t2 hstep h2
  cases op with
  | connect => exact (operate_before hstep).trans h2
  | packet packet => exact (drainPacket_before hstep).trans h2
  | app event => exact (drainAppEvent_before hstep).trans h2
  | tick elapsedMs => exact (operate_before hstep).trans h2

/-! ## The host does something -/

theorem emitDatagrams_follows {datagrams : List Ipv4Datagram}
    (hrun : t.emitDatagrams datagrams = .ok t1) (h : Steady env .rawIpv4 t.log s)
    (hfinal : t1.log.Before final) :
    (emitDatagrams env datagrams).Ensures s (fun _ => Steady env .rawIpv4 t1.log)
      (Halted env .rawIpv4 R final) := by
  induction datagrams generalizing t s with
  | nil =>
      obtain rfl := Except.ok.inj hrun
      exact .pure h
  | cons datagram rest ih =>
      have hbefore := emitDatagrams_before hrun
      obtain ⟨packet, hpacket, hrun⟩ := Exec.bind_eq_ok.mp hrun
      obtain ⟨t2, hdump, hrun⟩ := Exec.bind_eq_ok.mp hrun
      obtain ⟨t3, hwrite, hrest⟩ := Exec.bind_eq_ok.mp hrun
      obtain ⟨hshort, rfl⟩ := dumpPacket_eq_ok hdump
      obtain ⟨u, hne, hok⟩ := Exec.bind_eq_ok.mp hwrite
      obtain rfl := Except.ok.inj hok
      refine .exec_bind hpacket ?_
      refine h.dumped_written hshort (Exec.assert_eq_ok.mp hne) (hbefore.trans hfinal)
        fun s2 h2 => ?_
      exact ih hrest h2

theorem emitOutput_follows (hrun : t.emitOutput output = .ok t1) (h : Steady env .rawIpv4 t.log s)
    (hfinal : t1.log.Before final) :
    (emitOutput env output).Ensures s (fun _ => Steady env .rawIpv4 t1.log)
      (Halted env .rawIpv4 R final) := by
  have hprinted := (emitDatagrams_before hrun).trans hfinal
  exact (h.printEvents hprinted).bind fun _ s1 h1 => emitDatagrams_follows hrun h1 hfinal

theorem emitOutput_host (h : t.emitOutput output = .ok t1) : t1.host = t.host := by
  obtain ⟨list, -, rfl⟩ := TunHost.emitDatagrams_eq_ok.mp h
  rfl

theorem operate_follows (hrun : t.operate op = .ok t1) (h : At env t m s)
    (hfinal : t1.log.Before final) :
    (operate env m op).Ensures s (At env t1) (Halted env .rawIpv4 R final) := by
  obtain ⟨⟨host, output⟩, hperform, hemit⟩ := Exec.bind_eq_ok.mp hrun
  rw [← h.host] at hperform
  refine .exec_bind hperform ?_
  refine (emitOutput_follows hemit h.steady hfinal).bind fun _ s1 h1 => ?_
  exact .pure ⟨(emitOutput_host hemit).symm, h1⟩

/-! ## Draining -/

theorem drainPacket_follows {packet : Bytes} (hrun : t.drainPacket packet = .ok t1)
    (h : At env t m s) (hfinal : t1.log.Before final) :
    (drainPacket env m packet).Ensures s (At env t1) (Halted env .rawIpv4 R final) := by
  have hbefore := drainPacket_before hrun
  obtain ⟨t2, hdump, hoperate⟩ := Exec.bind_eq_ok.mp hrun
  obtain ⟨hshort, rfl⟩ := dumpPacket_eq_ok hdump
  refine h.steady.received_dumped hshort (hbefore.trans hfinal) fun s2 h2 => ?_
  exact operate_follows hoperate ⟨h.host, h2⟩ hfinal

theorem drainTunPackets_follows {reads : List (Except IoError Bytes)}
    (hrun : t.drainTunPackets (delivered reads) = .ok t1)
    (hR : ∀ err, .error err ∈ reads → Ends err → R err) (h : At env t m s)
    (hfinal : t1.log.Before final) :
    (drainTunPackets env m reads).Ensures s (At env t1) (Halted env .rawIpv4 R final) := by
  refine drain_follows (fun t => t.log.Before final) (At env) ?_ ?_ ?_ ?_ hrun hfinal h
  · intro t packet t2 hstep h2
    exact (drainPacket_before hstep).trans h2
  · intro t m s h
    exact h.made .read
  · intro packet t t2 m s hstep hbefore h
    exact drainPacket_follows hstep h hbefore
  · intro err herr hends t m s hbefore h
    exact (h.steady.made .read).halted hbefore (.read (hR err herr hends))

/-! ## The application and the clock -/

theorem drainAppEvent_follows {event : AppEvent} (hrun : t.drainAppEvent event = .ok t1)
    (h : At env t m s) (hfinal : t1.log.Before final) :
    (drainAppEvent env m event).Ensures s (At env t1) (Halted env .rawIpv4 R final) := by
  have hbefore := drainAppEvent_before hrun
  cases event with
  | data bytes =>
      obtain ⟨⟨host, output⟩, hperform, hemit⟩ := Exec.bind_eq_ok.mp hrun
      obtain ⟨⟨host1, accepted, output1⟩, hwrite, hok⟩ := Exec.bind_eq_ok.mp hperform
      obtain ⟨rfl, rfl⟩ := Prod.mk.inj (Except.ok.inj hok)
      rw [← h.host] at hwrite
      have hemitted : ∀ s, Steady env .rawIpv4 t.log s →
          (do
            emitOutput env output1
            return { m with host := host1 } : Program TunMain).Ensures s (At env t1)
              (Halted env .rawIpv4 R final) := fun s h =>
        (emitOutput_follows hemit h hfinal).bind
          fun _ s1 h1 => .pure ⟨(emitOutput_host hemit).symm, h1⟩
      refine .exec_bind hwrite ?_
      dsimp only
      split_ifs
      · exact (h.steady.eprintln (hbefore.trans hfinal)).bind fun _ s2 h2 => hemitted s2 h2
      · exact hemitted s h.steady
  | close =>
      refine (h.steady.eprintln (hbefore.trans hfinal)).bind fun _ s2 h2 => ?_
      exact operate_follows hrun ⟨h.host, h2⟩ hfinal

theorem drainAppEvents_before {events : List AppEvent} (h : t.drainAppEvents events = .ok t1)
    (hfinal : t1.log.Before final) : t.log.Before final :=
  Exec.run_back (fun t => t.log.Before final)
    (fun _ _ _ hstep h2 => (drainAppEvent_before hstep).trans h2) h hfinal

theorem drainAppEvents_follows {events : List AppEvent} (hrun : t.drainAppEvents events = .ok t1)
    (h : At env t m s) (hfinal : t1.log.Before final) :
    (drainAppEvents env m events).Ensures s (At env t1) (Halted env .rawIpv4 R final) := by
  refine .run (fun t => t.log.Before final) (At env) ?_ ?_ hrun hfinal h
  · intro t event t2 hstep h2
    exact (drainAppEvent_before hstep).trans h2
  · intro event hevent t t2 m s hstep hbefore h
    exact drainAppEvent_follows hstep h hbefore

/-! ## Rounds -/

theorem announce_follows (h : At env t m s) (hfinal : t.log.Before final) :
    (announce env m).Ensures s (At env t) (Halted env .rawIpv4 R final) := by
  have hfinished : ∀ m s, At env t m s →
      (do
        if m.host.connection.isFinished then Outside.eprintlns env 2
        return m : Program TunMain).Ensures s (At env t) (Halted env .rawIpv4 R final) := by
    intro m s h
    dsimp only
    split_ifs
    · exact (h.steady.eprintlns 2 hfinal).bind fun _ s1 h1 => .pure ⟨h.host, h1⟩
    · exact .pure h
  unfold announce
  split_ifs
  · refine (h.steady.eprintlns 2 hfinal).bind fun _ s1 h1 => ?_
    exact hfinished _ s1 ⟨h.host, h1⟩
  · exact hfinished m s h

theorem turn_follows {turn : Turn} (hrun : t.turn turn.calm = .ok t1)
    (hR : ∀ err, .error err ∈ turn.reads → Ends err → R err) (h : At env t m s)
    (hfinal : t1.log.Before final) :
    (TunMain.turn env m turn).Ensures s (At env t1) (Halted env .rawIpv4 R final) := by
  obtain ⟨t2, hpackets, hrun⟩ := Exec.bind_eq_ok.mp hrun
  obtain ⟨t3, hevents, hrun⟩ := Exec.bind_eq_ok.mp hrun
  -- the clock may have moved before the messages
  obtain ⟨hafter, hrest⟩ : t3.log.Before final ∧ ∀ m s, At env t3 m s →
      (do
        let m ← if 0 < turn.elapsedMs then operate env m (.tick turn.elapsedMs) else pure m
        announce env m : Program TunMain).Ensures s (At env t1)
          (Halted env .rawIpv4 R final) := by
    have helapsed : turn.calm.elapsedMs = turn.elapsedMs := rfl
    rw [helapsed] at hrun
    dsimp only at hrun ⊢
    split_ifs at hrun ⊢
    · refine ⟨(operate_before hrun).trans hfinal, fun m s h3 => ?_⟩
      exact (operate_follows hrun h3 hfinal).bind fun m4 s4 h4 => announce_follows h4 hfinal
    · obtain rfl := Except.ok.inj hrun
      exact ⟨hfinal, fun m s h3 => announce_follows h3 hfinal⟩
  have hbefore := drainAppEvents_before hevents hafter
  refine (drainTunPackets_follows hpackets hR h hbefore).bind fun m2 s2 h2 => ?_
  exact (drainAppEvents_follows hevents h2 hafter).bind fun m3 s3 h3 => hrest m3 s3 h3

theorem rounds_follow {turns : List Turn}
    (hrun : Exec.run TunHost.turn t (turns.map Turn.calm) = .ok t1)
    (hR : ∀ turn ∈ turns, ∀ err, .error err ∈ turn.reads → Ends err → R err) (h : At env t m s)
    (hfinal : t1.log.Before final) :
    (Io.run (TunMain.turn env) m turns).Ensures s (At env t1) (Halted env .rawIpv4 R final) := by
  rw [Exec.run_map] at hrun
  refine .run (fun t => t.log.Before final) (At env) ?_ ?_ hrun hfinal h
  · intro t turn t2 hstep h2
    exact (turn_before hstep).trans h2
  · intro turn hturn t t2 m s hstep hbefore h
    exact turn_follows hstep (hR turn hturn) h hbefore

theorem start_follows {config : IpHostConfig} {capture : Bool}
    (hrun : TunHost.start config capture = .ok t) (hfinal : t.log.Before final) :
    (start env config capture).Ensures Outside.start (At env t)
      (Halted env .rawIpv4 R final) := by
  obtain ⟨t0, hnew, hconnect⟩ := Exec.bind_eq_ok.mp hrun
  obtain ⟨host, hhost, hok⟩ := Exec.bind_eq_ok.mp hnew
  obtain rfl := Except.ok.inj hok
  refine opening_steady _ capture fun s4 h4 => ?_
  have hcreated := Log.before_of_empty (if capture then some [] else none) final
  refine (h4.eprintln hcreated).bind fun _ s5 h5 => ?_
  refine .exec_bind hhost ?_
  refine (h5.spawnStdinThread hcreated).bind fun _ s6 h6 => ?_
  refine (h6.eprintln hcreated).bind fun _ s7 h7 => ?_
  refine (operate_follows hconnect ⟨rfl, h7⟩ hfinal).bind fun m8 s8 h8 => ?_
  exact (h8.steady.eprintlns 3 hfinal).bind fun _ s9 h9 => .pure ⟨h8.host, h9⟩

/-- The reads of the rounds that end the program. -/
def FailedRead (turns : List Turn) (err : IoError) : Prop :=
  Ends err ∧ ∃ turn ∈ turns, .error err ∈ turn.reads

/-- The program does what the station does, until a call fails. -/
theorem main_follows {config : IpHostConfig} {capture : Bool} {turns : List Turn} {t0 : TunHost}
    (hstart : TunHost.start config capture = .ok t0)
    (hrun : Exec.run TunHost.turn t0 (turns.map Turn.calm) = .ok t) :
    (main env config capture turns).Ensures Outside.start (At env t)
      (Halted env .rawIpv4 (FailedRead turns) t.log) := by
  have hbefore : t0.log.Before t.log :=
    Exec.run_back (fun t1 => t1.log.Before t.log)
      (fun _ _ _ hstep h1 => (turn_before hstep).trans h1) hrun (Log.Before.refl _)
  refine (start_follows hstart hbefore).bind fun m1 s1 h1 => ?_
  exact rounds_follow hrun (fun turn hturn err herr hends => ⟨hends, turn, hturn, herr⟩) h1
    (Log.Before.refl _)

end TunMain

end Minnow
