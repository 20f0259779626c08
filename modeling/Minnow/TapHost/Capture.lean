import Minnow.TapHost

set_option autoImplicit false

/-! # What a station writes and captures

Every round captures the frames that it reads, in their order, and behind them those that it writes
(`rounds_captured`). Nothing is captured twice, and nothing is left out.
-/

namespace Minnow

open IpHost

namespace TapHost

variable {t t1 t2 : TapHost} {op : HostOp} {packet : Bytes} {written written1 : List Bytes}
  {captured captured1 : List Bytes}

/-- What was written and captured between two states. -/
structure Logged (t t1 : TapHost) (written captured : List Bytes) : Prop where
  events : t.events <+: t1.events
  written : t1.written = t.written ++ written
  pcap : t1.pcap = t.pcap.map (· ++ captured)
  short : t.pcap ≠ none → ∀ packet ∈ captured, packet.length < 2 ^ 32

theorem Logged.refl (t : TapHost) : Logged t t [] [] where
  events := List.prefix_refl _
  written := (List.append_nil t.written).symm
  pcap := by
    cases t.pcap with
    | none => rfl
    | some packets => exact congrArg some (List.append_nil packets).symm
  short := fun _ _ hp => absurd hp List.not_mem_nil

theorem Logged.trans (h : Logged t t1 written captured) (h1 : Logged t1 t2 written1 captured1) :
    Logged t t2 (written ++ written1) (captured ++ captured1) where
  events := h.events.trans h1.events
  written := by rw [h1.written, h.written, List.append_assoc]
  pcap := by
    rw [h1.pcap, h.pcap, Option.map_map]
    congr 1
    funext packets
    exact List.append_assoc ..
  short := by
    intro hcapturing packet hpacket
    rcases List.mem_append.mp hpacket with hp | hp
    · exact h.short hcapturing packet hp
    · refine h1.short ?_ packet hp
      rw [h.pcap]
      simpa using hcapturing

/-- Where only other variables change, nothing is logged. -/
theorem Logged.of_same (hevents : t.events <+: t1.events) (hwritten : t1.written = t.written)
    (hpcap : t1.pcap = t.pcap) : Logged t t1 [] [] where
  events := hevents
  written := by rw [hwritten, List.append_nil]
  pcap := by rw [hpcap, ← (Logged.refl t).pcap]
  short := fun _ _ hp => absurd hp List.not_mem_nil

/-! ## The functions of a round -/

theorem dumpPacket_logged (h : t.dumpPacket packet = .ok t1) : Logged t t1 [] [packet] := by
  unfold dumpPacket at h
  cases hpcap : t.pcap with
  | none =>
      rw [hpcap] at h
      obtain rfl := Except.ok.inj h
      exact ⟨List.prefix_refl _, (List.append_nil _).symm, by rw [hpcap]; rfl,
        fun hsome => absurd hpcap hsome⟩
  | some packets =>
      rw [hpcap] at h
      obtain ⟨u, hshort, hok⟩ := Exec.bind_eq_ok.mp h
      obtain rfl := Except.ok.inj hok
      refine ⟨List.prefix_refl _, (List.append_nil _).symm, by rw [hpcap]; rfl, ?_⟩
      intro _ packet1 hp
      rw [List.mem_singleton.mp hp]
      exact Exec.assert_eq_ok.mp hshort

theorem operate_logged (h : t.operate op = .ok t1) : Logged t t1 [] [] := by
  obtain ⟨⟨host, output⟩, -, hsend⟩ := Exec.bind_eq_ok.mp h
  obtain ⟨interface, -, hok⟩ := Exec.bind_eq_ok.mp hsend
  obtain rfl := Except.ok.inj hok
  exact .of_same (List.prefix_append _ _) rfl rfl

theorem drainLoop_logged {budget : Nat} (h : drainLoop budget t = .ok t1) :
    Logged t t1 [] [] := by
  induction budget generalizing t with
  | zero => exact nomatch h
  | succ budget ih =>
      rw [drainLoop] at h
      cases hpopped : t.interface.popDatagram with
      | mk interface popped =>
          rw [hpopped] at h
          have hfirst : Logged t { t with interface := interface } [] [] :=
            .of_same (List.prefix_refl _) rfl rfl
          cases popped with
          | none =>
              obtain rfl := Except.ok.inj h
              exact hfirst
          | some datagram =>
              obtain ⟨t2, hoperate, hrest⟩ := Exec.bind_eq_ok.mp h
              exact (hfirst.trans (operate_logged hoperate)).trans (ih hrest)

theorem drainFrame_logged (h : t.drainFrame packet = .ok t1) : Logged t t1 [] [packet] := by
  obtain ⟨t2, hdump, h⟩ := Exec.bind_eq_ok.mp h
  obtain ⟨parsed, -, h⟩ := Exec.bind_eq_ok.mp h
  have hdumped := dumpPacket_logged hdump
  cases parsed with
  | error err =>
      obtain rfl := Except.ok.inj h
      exact hdumped
  | ok frame =>
      obtain ⟨interface, -, hdrain⟩ := Exec.bind_eq_ok.mp h
      have hreceived : Logged t2 { t2 with interface := interface } [] [] :=
        .of_same (List.prefix_refl _) rfl rfl
      exact (hdumped.trans hreceived).trans (drainLoop_logged hdrain)

theorem drainTapFrames_logged {frames : List Bytes} (h : t.drainTapFrames frames = .ok t1) :
    Logged t t1 [] frames := by
  induction frames generalizing t with
  | nil =>
      obtain rfl := Except.ok.inj h
      exact .refl t
  | cons frameBytes rest ih =>
      obtain ⟨t2, hfirst, hrest⟩ := Exec.run_cons_eq_ok.mp h
      exact (drainFrame_logged hfirst).trans (ih hrest)

theorem drainAppEvent_logged {event : AppEvent} (h : t.drainAppEvent event = .ok t1) :
    Logged t t1 [] [] := by
  cases event with
  | data bytes => exact operate_logged h
  | close => exact operate_logged h

theorem drainAppEvents_logged {events : List AppEvent} (h : t.drainAppEvents events = .ok t1) :
    Logged t t1 [] [] := by
  induction events generalizing t with
  | nil =>
      obtain rfl := Except.ok.inj h
      exact .refl t
  | cons event rest ih =>
      obtain ⟨t2, hfirst, hrest⟩ := Exec.run_cons_eq_ok.mp h
      exact (drainAppEvent_logged hfirst).trans (ih hrest)

theorem tick_logged {elapsedMs : Nat} (h : t.tick elapsedMs = .ok t1) : Logged t t1 [] [] := by
  have hfirst : Logged t { t with interface := t.interface.tick elapsedMs } [] [] :=
    .of_same (List.prefix_refl _) rfl rfl
  have hoperate : operate { t with interface := t.interface.tick elapsedMs } (.tick elapsedMs)
      = .ok t1 := h
  exact hfirst.trans (operate_logged hoperate)

/-- Whatever is written is captured. -/
theorem flushLoop_logged {budget : Nat} (h : flushLoop budget t = .ok t1) :
    ∃ sent, Logged t t1 sent sent := by
  induction budget generalizing t with
  | zero => exact nomatch h
  | succ budget ih =>
      rw [flushLoop] at h
      cases hpopped : t.interface.popFrame with
      | mk interface popped =>
          rw [hpopped] at h
          have hfirst : Logged t { t with interface := interface } [] [] :=
            .of_same (List.prefix_refl _) rfl rfl
          cases popped with
          | none =>
              obtain rfl := Except.ok.inj h
              exact ⟨[], hfirst⟩
          | some frame =>
              obtain ⟨t2, hdump, h⟩ := Exec.bind_eq_ok.mp h
              obtain ⟨t3, hwrite, hrest⟩ := Exec.bind_eq_ok.mp h
              obtain ⟨u, -, hok⟩ := Exec.bind_eq_ok.mp hwrite
              obtain rfl := Except.ok.inj hok
              have hdumped := hfirst.trans (dumpPacket_logged hdump)
              have hwritten : Logged t2 { t2 with written := t2.written ++ [frame.serialize] }
                  [frame.serialize] [] := { Logged.refl t2 with written := rfl }
              obtain ⟨sent, hsent⟩ := ih hrest
              exact ⟨frame.serialize :: sent, (hdumped.trans hwritten).trans hsent⟩

/-! ## Rounds -/

theorem turn_logged {turn : Turn} (h : t.turn turn = .ok t1) :
    ∃ sent, Logged t t1 sent (turn.frames ++ sent) := by
  obtain ⟨t2, hframes, h⟩ := Exec.bind_eq_ok.mp h
  obtain ⟨t3, hevents, h⟩ := Exec.bind_eq_ok.mp h
  obtain ⟨t4, htick, hflush⟩ : ∃ t4, Logged t3 t4 [] [] ∧ t4.flushInterfaceFrames = .ok t1 := by
    dsimp only at h
    split_ifs at h
    · obtain ⟨t4, htick, hflush⟩ := Exec.bind_eq_ok.mp h
      exact ⟨t4, tick_logged htick, hflush⟩
    · exact ⟨t3, .refl t3, h⟩
  obtain ⟨sent, hsent⟩ := flushLoop_logged hflush
  have hread := ((drainTapFrames_logged hframes).trans (drainAppEvents_logged hevents)).trans htick
  simp only [List.append_nil] at hread
  exact ⟨sent, hread.trans hsent⟩

/-- What a capture of the rounds holds, if `sents` was written in them. -/
def capturedIn (turns : List Turn) (sents : List (List Bytes)) : List Bytes :=
  (List.zipWith (fun turn sent => turn.frames ++ sent) turns sents).flatten

theorem turns_logged {turns : List Turn} (h : Exec.run turn t turns = .ok t1) :
    ∃ sents, sents.length = turns.length ∧
      Logged t t1 sents.flatten (capturedIn turns sents) := by
  induction turns generalizing t with
  | nil =>
      obtain rfl := Except.ok.inj h
      exact ⟨[], rfl, .refl t⟩
  | cons turn rest ih =>
      obtain ⟨t2, hfirst, hrest⟩ := Exec.run_cons_eq_ok.mp h
      obtain ⟨sent, hsent⟩ := turn_logged hfirst
      obtain ⟨sents, hlength, hsents⟩ := ih hrest
      exact ⟨sent :: sents, congrArg Nat.succ hlength, hsent.trans hsents⟩

theorem start_logged {mac : EthernetAddress} {config : IpHostConfig}
    (h : start mac config true = .ok t) : ∃ sent, t.written = sent ∧ t.pcap = some sent := by
  obtain ⟨t0, hnew, h⟩ := Exec.bind_eq_ok.mp h
  obtain ⟨t1, hconnect, hflush⟩ := Exec.bind_eq_ok.mp h
  obtain ⟨host, -, hok⟩ := Exec.bind_eq_ok.mp hnew
  obtain rfl := Except.ok.inj hok
  obtain ⟨sent, hsent⟩ := flushLoop_logged hflush
  have hlogged := (operate_logged hconnect).trans hsent
  exact ⟨sent, hlogged.written, hlogged.pcap⟩

/-- From the start on, a station captures what it writes at first, and then round by round the
frames that it reads and those that it writes. -/
theorem rounds_captured {mac : EthernetAddress} {config : IpHostConfig} {t0 : TapHost}
    {turns : List Turn} (hstart : start mac config true = .ok t0)
    (hrun : Exec.run turn t0 turns = .ok t) :
    ∃ sent0 sents, sents.length = turns.length ∧ t.written = sent0 ++ sents.flatten ∧
      t.pcap = some (sent0 ++ capturedIn turns sents) := by
  obtain ⟨sent0, hwritten, hpcap⟩ := start_logged hstart
  obtain ⟨sents, hlength, hlogged⟩ := turns_logged hrun
  refine ⟨sent0, sents, hlength, by rw [hlogged.written, hwritten], ?_⟩
  rw [hlogged.pcap, hpcap]
  rfl

end TapHost

end Minnow
