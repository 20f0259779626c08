import Minnow.Outside.Follows
import Minnow.TapHost.Capture
import Minnow.TapMain

set_option autoImplicit false

/-! # The program follows the station

What a `TapHost` prints, writes and captures is what the program does while its calls are answered,
function by function. Where a call fails, the program has done a beginning of that.
-/

namespace Minnow

open IpHost Outside

/-- What a station has printed, written and captured. -/
def TapHost.log (t : TapHost) : Log := ⟨t.events, t.written, t.pcap⟩

namespace TapMain

variable {env : Env} {R : IoError → Prop} {final : Log} {t t1 : TapHost} {m : TapMain} {s : Outside}
  {op : HostOp} {output : IpHostOutput}

/-- The round as a station sees it. -/
def Turn.calm (turn : Turn) : TapHost.Turn where
  frames := delivered turn.reads
  events := turn.events
  elapsedMs := turn.elapsedMs

/-- The program is where the station is. -/
structure At (env : Env) (t : TapHost) (m : TapMain) (s : Outside) : Prop where
  interface : m.interface = t.interface
  host : m.host = t.host
  steady : Steady env .ethernet t.log s

theorem At.made (h : At env t m s) (call : Call) : At env t m (s.made call) :=
  ⟨h.interface, h.host, h.steady.made call⟩

theorem before_of_logged {written captured : List Bytes}
    (h : TapHost.Logged t t1 written captured) : t.log.Before t1.log :=
  ⟨h.events, written, h.written.symm⟩

/-! ## The host does something -/

theorem sendHostOutputToInterface_follows (hrun : t.sendHostOutputToInterface output = .ok t1)
    (h : At env t m s) (hfinal : t1.log.Before final) :
    (sendHostOutputToInterface env m output).Ensures s (At env t1)
      (Halted env .ethernet R final) := by
  obtain ⟨interface, hsend, hok⟩ := Exec.bind_eq_ok.mp hrun
  obtain rfl := Except.ok.inj hok
  refine (h.steady.printEvents hfinal).bind fun _ s1 h1 => ?_
  rw [← h.interface] at hsend
  exact .exec_bind hsend (.pure ⟨rfl, h.host, h1⟩)

theorem operate_follows (hrun : t.operate op = .ok t1) (h : At env t m s)
    (hfinal : t1.log.Before final) :
    (operate env m op).Ensures s (At env t1) (Halted env .ethernet R final) := by
  obtain ⟨⟨host, output⟩, hperform, hsend⟩ := Exec.bind_eq_ok.mp hrun
  rw [← h.host] at hperform
  exact .exec_bind hperform
    (sendHostOutputToInterface_follows hsend ⟨h.interface, rfl, h.steady⟩ hfinal)

/-! ## Draining -/

theorem drainLoop_follows {budget : Nat} (hrun : TapHost.drainLoop budget t = .ok t1)
    (h : At env t m s) (hfinal : t1.log.Before final) :
    (drainLoop env budget m).Ensures s (At env t1) (Halted env .ethernet R final) := by
  induction budget generalizing t m s with
  | zero => exact nomatch hrun
  | succ budget ih =>
      rw [TapHost.drainLoop] at hrun
      rw [drainLoop, h.interface]
      cases hpopped : t.interface.popDatagram with
      | mk interface popped =>
          rw [hpopped] at hrun
          cases popped with
          | none =>
              obtain rfl := Except.ok.inj hrun
              exact .pure ⟨rfl, h.host, h.steady⟩
          | some datagram =>
              obtain ⟨t2, hoperate, hrest⟩ := Exec.bind_eq_ok.mp hrun
              have hbefore := before_of_logged (TapHost.drainLoop_logged hrest)
              have hpop : At env { t with interface := interface }
                  { m with interface := interface } s := ⟨rfl, h.host, h.steady⟩
              refine (operate_follows hoperate hpop (hbefore.trans hfinal)).bind
                fun m2 s2 h2 => ?_
              exact ih hrest h2

theorem dumpPacket_eq_ok {packet : Bytes} (h : t.dumpPacket packet = .ok t1) :
    (t.pcap ≠ none → packet.length < 2 ^ 32) ∧
      t1 = { t with pcap := t.pcap.map (· ++ [packet]) } := by
  refine ⟨fun hsome => (TapHost.dumpPacket_logged h).short hsome packet List.mem_cons_self, ?_⟩
  obtain ⟨interface, host, events, written, pcap⟩ := t
  unfold TapHost.dumpPacket at h
  cases pcap with
  | none =>
      obtain rfl := Except.ok.inj h
      rfl
  | some packets =>
      obtain ⟨u, -, hok⟩ := Exec.bind_eq_ok.mp h
      obtain rfl := Except.ok.inj hok
      rfl

theorem drainFrame_follows {frameBytes : Bytes} (hrun : t.drainFrame frameBytes = .ok t1)
    (h : At env t m s) (hfinal : t1.log.Before final) :
    (drainFrame env m frameBytes).Ensures s (At env t1) (Halted env .ethernet R final) := by
  have hlogged := before_of_logged (TapHost.drainFrame_logged hrun)
  obtain ⟨t2, hdump, hrun⟩ := Exec.bind_eq_ok.mp hrun
  obtain ⟨parsed, hparsed, hrun⟩ := Exec.bind_eq_ok.mp hrun
  obtain ⟨hshort, rfl⟩ := dumpPacket_eq_ok hdump
  refine h.steady.received_dumped hshort (hlogged.trans hfinal) fun s2 h2 => ?_
  refine .exec_bind hparsed ?_
  cases parsed with
  | error err =>
      obtain rfl := Except.ok.inj hrun
      exact (h2.eprintln hfinal).bind fun _ s3 h3 => .pure ⟨h.interface, h.host, h3⟩
  | ok frame =>
      obtain ⟨interface, hrecv, hdrain⟩ := Exec.bind_eq_ok.mp hrun
      rw [← h.interface] at hrecv
      refine .exec_bind hrecv ?_
      exact drainLoop_follows hdrain ⟨rfl, h.host, h2⟩ hfinal

theorem drainTapFrames_follows {reads : List (Except IoError Bytes)}
    (hrun : t.drainTapFrames (delivered reads) = .ok t1)
    (hR : ∀ err, .error err ∈ reads → Ends err → R err) (h : At env t m s)
    (hfinal : t1.log.Before final) :
    (drainTapFrames env m reads).Ensures s (At env t1) (Halted env .ethernet R final) := by
  refine drain_follows (fun t => t.log.Before final) (At env) ?_ ?_ ?_ ?_ hrun hfinal h
  · intro t packet t2 hstep h2
    exact (before_of_logged (TapHost.drainFrame_logged hstep)).trans h2
  · intro t m s h
    exact h.made .read
  · intro packet t t2 m s hstep hbefore h
    exact drainFrame_follows hstep h hbefore
  · intro err herr hends t m s hbefore h
    exact (h.steady.made .read).halted hbefore (.read (hR err herr hends))

/-! ## The application and the clock -/

theorem drainAppEvent_follows {event : AppEvent} (hrun : t.drainAppEvent event = .ok t1)
    (h : At env t m s) (hfinal : t1.log.Before final) :
    (drainAppEvent env m event).Ensures s (At env t1) (Halted env .ethernet R final) := by
  cases event with
  | data bytes =>
      obtain ⟨⟨host, output⟩, hperform, hsend⟩ := Exec.bind_eq_ok.mp hrun
      obtain ⟨⟨host1, accepted, output1⟩, hwrite, hok⟩ := Exec.bind_eq_ok.mp hperform
      obtain ⟨rfl, rfl⟩ := Prod.mk.inj (Except.ok.inj hok)
      have hbefore := before_of_logged (TapHost.operate_logged hrun)
      rw [← h.host] at hwrite
      refine .exec_bind hwrite ?_
      dsimp only
      split_ifs
      · refine (h.steady.eprintln (hbefore.trans hfinal)).bind fun _ s2 h2 => ?_
        exact sendHostOutputToInterface_follows hsend ⟨h.interface, rfl, h2⟩ hfinal
      · exact sendHostOutputToInterface_follows hsend ⟨h.interface, rfl, h.steady⟩ hfinal
  | close =>
      have hbefore := before_of_logged (TapHost.operate_logged hrun)
      refine (h.steady.eprintln (hbefore.trans hfinal)).bind fun _ s2 h2 => ?_
      exact operate_follows hrun ⟨h.interface, h.host, h2⟩ hfinal

theorem drainAppEvents_follows {events : List AppEvent} (hrun : t.drainAppEvents events = .ok t1)
    (h : At env t m s) (hfinal : t1.log.Before final) :
    (drainAppEvents env m events).Ensures s (At env t1) (Halted env .ethernet R final) := by
  refine .run (fun t => t.log.Before final) (At env) ?_ ?_ hrun hfinal h
  · intro t event t2 hstep h2
    exact (before_of_logged (TapHost.drainAppEvent_logged hstep)).trans h2
  · intro event hevent t t2 m s hstep hbefore h
    exact drainAppEvent_follows hstep h hbefore

theorem tick_follows {elapsedMs : Nat} (hrun : t.tick elapsedMs = .ok t1) (h : At env t m s)
    (hfinal : t1.log.Before final) :
    (tick env m elapsedMs).Ensures s (At env t1) (Halted env .ethernet R final) :=
  operate_follows hrun ⟨congrArg (NetworkInterface.tick · elapsedMs) h.interface, h.host, h.steady⟩
    hfinal

theorem flushLoop_before {budget : Nat} (h : TapHost.flushLoop budget t = .ok t1) :
    t.log.Before t1.log := by
  obtain ⟨sent, hlogged⟩ := TapHost.flushLoop_logged h
  exact before_of_logged hlogged

theorem flushLoop_follows {budget : Nat} (hrun : TapHost.flushLoop budget t = .ok t1)
    (h : At env t m s) (hfinal : t1.log.Before final) :
    (flushLoop env budget m).Ensures s (At env t1) (Halted env .ethernet R final) := by
  induction budget generalizing t m s with
  | zero => exact nomatch hrun
  | succ budget ih =>
      have hbefore := flushLoop_before hrun
      rw [TapHost.flushLoop] at hrun
      rw [flushLoop, h.interface]
      cases hpopped : t.interface.popFrame with
      | mk interface popped =>
          rw [hpopped] at hrun
          cases popped with
          | none =>
              obtain rfl := Except.ok.inj hrun
              exact .pure ⟨rfl, h.host, h.steady⟩
          | some frame =>
              obtain ⟨t2, hdump, hrun⟩ := Exec.bind_eq_ok.mp hrun
              obtain ⟨t3, hwrite, hrest⟩ := Exec.bind_eq_ok.mp hrun
              obtain ⟨hshort, rfl⟩ := dumpPacket_eq_ok hdump
              obtain ⟨u, hne, hok⟩ := Exec.bind_eq_ok.mp hwrite
              obtain rfl := Except.ok.inj hok
              refine h.steady.dumped_written hshort (Exec.assert_eq_ok.mp hne)
                (hbefore.trans hfinal) fun s2 h2 => ?_
              exact ih hrest ⟨rfl, h.host, h2⟩

theorem flushInterfaceFrames_follows (hrun : t.flushInterfaceFrames = .ok t1) (h : At env t m s)
    (hfinal : t1.log.Before final) :
    (flushInterfaceFrames env m).Ensures s (At env t1) (Halted env .ethernet R final) := by
  rw [flushInterfaceFrames, h.interface]
  exact flushLoop_follows hrun h hfinal

/-! ## Rounds -/

theorem announce_follows (h : At env t m s) (hfinal : t.log.Before final) :
    (announce env m).Ensures s (At env t) (Halted env .ethernet R final) := by
  have hfinished : ∀ m s, At env t m s →
      (do
        if m.host.connection.isFinished then Outside.eprintlns env 2
        return m : Program TapMain).Ensures s (At env t) (Halted env .ethernet R final) := by
    intro m s h
    dsimp only
    split_ifs
    · exact (h.steady.eprintlns 2 hfinal).bind fun _ s1 h1 => .pure ⟨h.interface, h.host, h1⟩
    · exact .pure h
  unfold announce
  split_ifs
  · refine (h.steady.eprintlns 2 hfinal).bind fun _ s1 h1 => ?_
    exact hfinished _ s1 ⟨h.interface, h.host, h1⟩
  · exact hfinished m s h

theorem turn_before {turn : TapHost.Turn} (hrun : t.turn turn = .ok t1) :
    t.log.Before t1.log := by
  obtain ⟨sent, hlogged⟩ := TapHost.turn_logged hrun
  exact before_of_logged hlogged

theorem turn_follows {turn : Turn} (hrun : t.turn turn.calm = .ok t1)
    (hR : ∀ err, .error err ∈ turn.reads → Ends err → R err) (h : At env t m s)
    (hfinal : t1.log.Before final) :
    (TapMain.turn env m turn).Ensures s (At env t1) (Halted env .ethernet R final) := by
  obtain ⟨t2, hframes, hrun⟩ := Exec.bind_eq_ok.mp hrun
  obtain ⟨t3, hevents, hrun⟩ := Exec.bind_eq_ok.mp hrun
  have hend : ∀ t4, TapHost.flushInterfaceFrames t4 = .ok t1 → ∀ m s, At env t4 m s →
      (flushInterfaceFrames env m >>= announce env).Ensures s (At env t1)
        (Halted env .ethernet R final) := by
    intro t4 hflush m s h4
    exact (flushInterfaceFrames_follows hflush h4 hfinal).bind
      fun m1 s1 h1 => announce_follows h1 hfinal
  have hlast : ∀ t4, TapHost.flushInterfaceFrames t4 = .ok t1 → t4.log.Before final :=
    fun t4 hflush => (flushLoop_before hflush).trans hfinal
  -- the clock may have moved before the frames are flushed
  obtain ⟨hafter, hrest⟩ : t3.log.Before final ∧ ∀ m s, At env t3 m s →
      (do
        let m ← if 0 < turn.elapsedMs then tick env m turn.elapsedMs else pure m
        let m ← flushInterfaceFrames env m
        announce env m : Program TapMain).Ensures s (At env t1)
          (Halted env .ethernet R final) := by
    have helapsed : turn.calm.elapsedMs = turn.elapsedMs := rfl
    rw [helapsed] at hrun
    dsimp only at hrun ⊢
    split_ifs at hrun ⊢
    · obtain ⟨t4, htick, hflush⟩ := Exec.bind_eq_ok.mp hrun
      have hbefore := (before_of_logged (TapHost.tick_logged htick)).trans (hlast t4 hflush)
      refine ⟨hbefore, fun m s h3 => ?_⟩
      exact (tick_follows htick h3 (hlast t4 hflush)).bind fun m4 s4 h4 => hend t4 hflush m4 s4 h4
    · exact ⟨hlast t3 hrun, fun m s h3 => hend t3 hrun m s h3⟩
  have hbefore := (before_of_logged (TapHost.drainAppEvents_logged hevents)).trans hafter
  refine (drainTapFrames_follows hframes hR h hbefore).bind fun m2 s2 h2 => ?_
  exact (drainAppEvents_follows hevents h2 hafter).bind fun m3 s3 h3 => hrest m3 s3 h3

theorem rounds_follow {turns : List Turn}
    (hrun : Exec.run TapHost.turn t (turns.map Turn.calm) = .ok t1)
    (hR : ∀ turn ∈ turns, ∀ err, .error err ∈ turn.reads → Ends err → R err) (h : At env t m s)
    (hfinal : t1.log.Before final) :
    (Io.run (TapMain.turn env) m turns).Ensures s (At env t1) (Halted env .ethernet R final) := by
  rw [Exec.run_map] at hrun
  refine .run (fun t => t.log.Before final) (At env) ?_ ?_ hrun hfinal h
  · intro t turn t2 hstep h2
    exact (turn_before hstep).trans h2
  · intro turn hturn t t2 m s hstep hbefore h
    exact turn_follows hstep (hR turn hturn) h hbefore

theorem start_follows {mac : EthernetAddress} {config : IpHostConfig} {capture : Bool}
    (hrun : TapHost.start mac config capture = .ok t) (hfinal : t.log.Before final) :
    (start env mac config capture).Ensures Outside.start (At env t)
      (Halted env .ethernet R final) := by
  obtain ⟨t0, hnew, hrun⟩ := Exec.bind_eq_ok.mp hrun
  obtain ⟨t1, hconnect, hflush⟩ := Exec.bind_eq_ok.mp hrun
  obtain ⟨host, hhost, hok⟩ := Exec.bind_eq_ok.mp hnew
  obtain rfl := Except.ok.inj hok
  have hbefore1 := (flushLoop_before hflush).trans hfinal
  refine opening_steady _ capture fun s4 h4 => ?_
  have hcreated := Log.before_of_empty (if capture then some [] else none) final
  refine (h4.eprintln hcreated).bind fun _ s5 h5 => ?_
  refine .exec_bind hhost ?_
  refine (h5.spawnStdinThread hcreated).bind fun _ s6 h6 => ?_
  refine (h6.eprintln hcreated).bind fun _ s7 h7 => ?_
  refine (operate_follows hconnect ⟨rfl, rfl, h7⟩ hbefore1).bind fun m8 s8 h8 => ?_
  refine (flushInterfaceFrames_follows hflush h8 hfinal).bind fun m9 s9 h9 => ?_
  exact (h9.steady.eprintlns 3 hfinal).bind fun _ s10 h10 => .pure ⟨h9.interface, h9.host, h10⟩

/-- The reads of the rounds that end the program. -/
def FailedRead (turns : List Turn) (err : IoError) : Prop :=
  Ends err ∧ ∃ turn ∈ turns, .error err ∈ turn.reads

/-- The program does what the station does, until a call fails. -/
theorem main_follows {mac : EthernetAddress} {config : IpHostConfig} {capture : Bool}
    {turns : List Turn} {t0 : TapHost} (hstart : TapHost.start mac config capture = .ok t0)
    (hrun : Exec.run TapHost.turn t0 (turns.map Turn.calm) = .ok t) :
    (main env mac config capture turns).Ensures Outside.start (At env t)
      (Halted env .ethernet (FailedRead turns) t.log) := by
  have hbefore : t0.log.Before t.log :=
    Exec.run_back (fun t1 => t1.log.Before t.log)
      (fun _ _ _ hstep h1 => (turn_before hstep).trans h1) hrun (Log.Before.refl _)
  refine (start_follows hstart hbefore).bind fun m1 s1 h1 => ?_
  exact rounds_follow hrun (fun turn hturn err herr hends => ⟨hends, turn, hturn, herr⟩) h1
    (Log.Before.refl _)

end TapMain

end Minnow
