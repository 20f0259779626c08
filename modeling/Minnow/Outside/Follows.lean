import Minnow.Outside

set_option autoImplicit false

/-! # Programs that follow a log

What a program does while all its calls are answered is known beforehand: `Log` is what it prints,
writes and captures then. The outside `Follows` the log as long as no call fails. When one does, the
program is `Halted`: the failure is the answer to the last call, what the device has taken is a
beginning of what it would have taken, and the capture has the packets up to that call. There is one
lemma for each kind of call.
-/

namespace Minnow

/-- What a program prints, writes and captures if no call fails. -/
structure Log where
  events : List IpHostEvent
  written : List Bytes
  pcap : Option (List Bytes)

namespace Log

def print (log : Log) (events : List IpHostEvent) : Log :=
  { log with events := log.events ++ events }

def write (log : Log) (packet : Bytes) : Log := { log with written := log.written ++ [packet] }

def dump (log : Log) (packet : Bytes) : Log := { log with pcap := log.pcap.map (· ++ [packet]) }

/-- What is printed and written by now is a beginning of what it will be. -/
structure Before (log final : Log) : Prop where
  events : log.events <+: final.events
  written : log.written <+: final.written

theorem Before.refl (log : Log) : log.Before log := ⟨List.prefix_refl _, List.prefix_refl _⟩

theorem Before.trans {log log1 log2 : Log} (h : log.Before log1) (h1 : log1.Before log2) :
    log.Before log2 :=
  ⟨h.events.trans h1.events, h.written.trans h1.written⟩

theorem before_of_empty (pcap : Option (List Bytes)) (final : Log) : Before ⟨[], [], pcap⟩ final :=
  ⟨List.nil_prefix, List.nil_prefix⟩

theorem before_print (log : Log) (events : List IpHostEvent) : log.Before (log.print events) :=
  ⟨List.prefix_append _ _, List.prefix_refl _⟩

end Log

/-- The lists are the same, but perhaps for one more at the end of one of them. -/
inductive Near (l : List Bytes) : List Bytes → Prop where
  | same : Near l l
  | more (packet : Bytes) : Near l (l ++ [packet])
  | less {m : List Bytes} {packet : Bytes} (h : l = m ++ [packet]) : Near l m

/-- The packets that were captured are near to those that the device has given and taken. -/
def Log.Near (log : Log) (traffic : List Bytes) : Prop :=
  ∀ packets ∈ log.pcap, Minnow.Near packets traffic

namespace Outside

variable {env : Env} {linkType : PcapLinkType} {R : IoError → Prop} {log final : Log}
  {traffic : List Bytes} {s s1 : Outside} {packet : Bytes} {failure : Failure}

/-- What the device gives before a read would block or fail. -/
def delivered : List (Except IoError Bytes) → List Bytes
  | [] => []
  | .ok packet :: rest => packet :: delivered rest
  | .error err :: rest => if err.kind = .interrupted then delivered rest else []

/-- An error of a read that is passed on. -/
structure Ends (err : IoError) : Prop where
  wouldBlock : err.kind ≠ .wouldBlock
  interrupted : err.kind ≠ .interrupted

/-- The times are what the clock has said. -/
def Timed (env : Env) (stamped : List (Timestamp × Bytes)) : Prop :=
  ∀ x ∈ stamped, ∃ call, env.clock call = .ok x.1

/-- The failure is the answer to the last call that was made. -/
inductive Blamed (env : Env) (R : IoError → Prop) : List Call → Failure → Prop where
  | read {calls : List Call} {err : IoError} (h : R err) :
      Blamed env R (calls ++ [.read]) (.error err)
  | print {calls : List Call} {err : IoError} (h : env.terminal calls.length = some err) :
      Blamed env R (calls ++ [.print]) (.panic err)
  | flush {calls : List Call} {err : IoError} (h : env.terminal calls.length = some err) :
      Blamed env R (calls ++ [.flush]) (.error err)
  | thread {calls : List Call} {err : IoError} (h : env.thread calls.length = some err) :
      Blamed env R (calls ++ [.thread]) (.panic err)
  | device {calls : List Call} {err : IoError} (h : env.device calls.length = some err) :
      Blamed env R (calls ++ [.device]) (.error err)
  | create {calls : List Call} {err : IoError} (h : env.created calls.length = some err) :
      Blamed env R (calls ++ [.create]) (.error err)
  | clock {calls : List Call} {err : IoError} (h : env.clock calls.length = .error err) :
      Blamed env R (calls ++ [.dump]) (.error err)
  | disk {calls : List Call} {err : IoError} {answer count : Nat}
      (h : env.disk calls.length answer = some (count, err)) :
      Blamed env R (calls ++ [.dump]) (.error err)

/-- The writer has the packets of the capture. -/
structure Captures (env : Env) (linkType : PcapLinkType) (packets : List Bytes)
    (writer : PcapWriter) (stamped : List (Timestamp × Bytes)) : Prop where
  captured : Captured linkType stamped writer
  packets : stamped.map Prod.snd = packets
  timed : Timed env stamped

/-- No call has failed. -/
structure Follows (env : Env) (linkType : PcapLinkType) (log : Log) (traffic : List Bytes)
    (s : Outside) : Prop where
  events : s.events = log.events
  written : s.written = log.written
  traffic : s.traffic = traffic
  pcap : (s.pcap = none ∧ log.pcap = none) ∨ ∃ writer packets stamped, s.pcap = some writer ∧
    log.pcap = some packets ∧ Captures env linkType packets writer stamped

/-- A call has failed. -/
structure Halted (env : Env) (linkType : PcapLinkType) (R : IoError → Prop) (final : Log)
    (failure : Failure) (s : Outside) : Prop where
  blamed : Blamed env R s.calls failure
  events : s.events <+: final.events
  written : s.written <+: final.written
  captured : ∀ writer, s.pcap = some writer → ∃ stamped, PartlyCaptured linkType stamped writer ∧
    Timed env stamped ∧ Near (stamped.map Prod.snd) s.traffic

theorem Follows.made (h : Follows env linkType log traffic s) (call : Call) :
    Follows env linkType log traffic (s.made call) :=
  ⟨h.events, h.written, h.traffic, h.pcap⟩

/-- The packets of the capture are near to those that the device has given and taken. -/
theorem Follows.partly {writer : PcapWriter} (h : Follows env linkType log traffic s)
    (hnear : log.Near traffic) (hwriter : s.pcap = some writer) :
    ∃ stamped, PartlyCaptured linkType stamped writer ∧ Timed env stamped ∧
      Near (stamped.map Prod.snd) s.traffic := by
  rcases h.pcap with ⟨hnone, -⟩ | ⟨writer1, packets, stamped, hsome, hlog, hcaptures⟩
  · rw [hnone] at hwriter
    exact nomatch hwriter
  · rw [hsome, Option.some.injEq] at hwriter
    subst hwriter
    refine ⟨stamped, hcaptures.captured.partly, hcaptures.timed, ?_⟩
    rw [hcaptures.packets, h.traffic]
    exact hnear packets hlog

theorem Follows.halted (h : Follows env linkType log traffic s) (hnear : log.Near traffic)
    (hfinal : log.Before final) (hblamed : Blamed env R s.calls failure) :
    Halted env linkType R final failure s where
  blamed := hblamed
  events := h.events ▸ hfinal.events
  written := h.written ▸ hfinal.written
  captured := fun _ hwriter => h.partly hnear hwriter

/-! ## Calls -/

theorem ask_follows {call : Call} {answer : Nat → Option IoError} {fail : IoError → Failure}
    (h : Follows env linkType log traffic s) (hnear : log.Near traffic)
    (hfinal : log.Before final)
    (hblamed : ∀ err, answer s.calls.length = some err →
      Blamed env R (s.calls ++ [call]) (fail err)) :
    (ask call answer fail).Ensures s (fun _ => Follows env linkType log traffic)
      (Halted env linkType R final) := by
  unfold Io.Ensures ask
  cases hanswer : answer s.calls.length with
  | none => exact ⟨_, _, rfl, h.made call⟩
  | some err => exact ⟨_, _, rfl, (h.made call).halted hnear hfinal (hblamed err hanswer)⟩

theorem eprintln_follows (h : Follows env linkType log traffic s) (hnear : log.Near traffic)
    (hfinal : log.Before final) :
    (eprintln env).Ensures s (fun _ => Follows env linkType log traffic)
      (Halted env linkType R final) :=
  ask_follows h hnear hfinal fun _ hanswer => .print hanswer

theorem eprintlns_follows (lines : Nat) (h : Follows env linkType log traffic s)
    (hnear : log.Near traffic) (hfinal : log.Before final) :
    (eprintlns env lines).Ensures s (fun _ => Follows env linkType log traffic)
      (Halted env linkType R final) := by
  induction lines generalizing s with
  | zero => exact .pure h
  | succ lines ih => exact (eprintln_follows h hnear hfinal).bind fun _ s1 h1 => ih h1

theorem askDevice_follows (h : Follows env linkType log traffic s) (hnear : log.Near traffic)
    (hfinal : log.Before final) :
    (askDevice env).Ensures s (fun _ => Follows env linkType log traffic)
      (Halted env linkType R final) :=
  ask_follows h hnear hfinal fun _ hanswer => .device hanswer

theorem printEvent_follows (event : IpHostEvent) (h : Follows env linkType log traffic s)
    (hnear : log.Near traffic) (hfinal : log.Before final) :
    (printEvent env event).Ensures s (fun _ => Follows env linkType (log.print [event]) traffic)
      (Halted env linkType R final) := by
  have hrecord : ∀ s1, Follows env linkType log traffic s1 →
      Follows env linkType (log.print [event]) traffic
        { s1 with events := s1.events ++ [event] } := fun s1 h1 =>
    ⟨congrArg (· ++ [event]) h1.events, h1.written, h1.traffic, h1.pcap⟩
  have hline : (eprintln env).Ensures s (fun _ => Follows env linkType log traffic)
      (Halted env linkType R final) := eprintln_follows h hnear hfinal
  unfold printEvent
  cases event with
  | tcpPayload payload =>
      refine (ask_follows h hnear hfinal
        fun _ hanswer => .print hanswer).bind fun _ s1 h1 => ?_
      refine (ask_follows h1 hnear hfinal
        fun _ hanswer => .flush hanswer).bind fun _ s2 h2 => ?_
      exact .modify (hrecord s2 h2)
  | _ => exact hline.bind fun _ s1 h1 => .modify (hrecord s1 h1)

theorem printEvents_follows (events : List IpHostEvent) (h : Follows env linkType log traffic s)
    (hnear : log.Near traffic) (hfinal : (log.print events).Before final) :
    (printEvents env events).Ensures s (fun _ => Follows env linkType (log.print events) traffic)
      (Halted env linkType R final) := by
  induction events generalizing s log with
  | nil =>
      have hsame : log.print [] = log := by rw [Log.print, List.append_nil]
      rw [hsame]
      exact .pure h
  | cons event rest ih =>
      have hsame : (log.print [event]).print rest = log.print (event :: rest) := by
        rw [Log.print, Log.print, List.append_assoc]
        rfl
      rw [← hsame] at hfinal ⊢
      refine (printEvent_follows event h hnear
        ((log.before_print (event :: rest)).trans (hsame ▸ hfinal))).bind fun _ s1 h1 => ?_
      exact ih h1 hnear hfinal

/-- A packet goes to the end of the capture, with a time of the clock; or not, or only in part, if
the clock or the file fails. -/
theorem Captures.writePacket {packets : List Bytes} {writer : PcapWriter}
    {stamped : List (Timestamp × Bytes)} (h : Captures env linkType packets writer stamped)
    (hlen : packet.length < 2 ^ 32) (call : Nat) (disk : Nat → Option (Nat × IoError)) :
    ((writer.writePacket (env.clock call) disk packet).1 = none →
      ∃ stamped1, Captures env linkType (packets ++ [packet])
        (writer.writePacket (env.clock call) disk packet).2 stamped1) ∧
    ∃ stamped1, PartlyCaptured linkType stamped1
        (writer.writePacket (env.clock call) disk packet).2 ∧ Timed env stamped1 ∧
      (stamped1.map Prod.snd = packets ∨ stamped1.map Prod.snd = packets ++ [packet]) := by
  cases hclock : env.clock call with
  | error err =>
      exact ⟨(fun hnone => nomatch hnone), stamped, h.captured.partly, h.timed, Or.inl h.packets⟩
  | ok timestamp =>
      obtain ⟨hpartly, hwhole⟩ :=
        @Captured.writePacket linkType writer timestamp packet stamped disk h.captured hlen
      have htimed : Timed env (stamped ++ [(timestamp, packet)]) := by
        intro x hx
        rcases List.mem_append.mp hx with hx | hx
        · exact h.timed x hx
        · obtain rfl := List.mem_singleton.mp hx
          exact ⟨call, hclock⟩
      have hpackets : (stamped ++ [(timestamp, packet)]).map Prod.snd = packets ++ [packet] := by
        rw [List.map_append, h.packets]
        rfl
      exact ⟨fun hnone => ⟨_, hwhole hnone, hpackets, htimed⟩, _, hpartly, htimed, Or.inr hpackets⟩

/-- A packet is captured, unless the clock or the file fails. -/
theorem dumpPacket_follows (h : Follows env linkType log traffic s)
    (hshort : log.pcap ≠ none → packet.length < 2 ^ 32) (hnear : log.Near traffic)
    (hmore : (log.dump packet).Near traffic) (hfinal : log.Before final) :
    (dumpPacket env packet).Ensures s (fun _ => Follows env linkType (log.dump packet) traffic)
      (Halted env linkType R final) := by
  unfold Io.Ensures dumpPacket
  rcases h.pcap with ⟨hnone, hlog⟩ | ⟨writer, packets, stamped, hsome, hlog, hcaptures⟩
  · rw [hnone]
    refine ⟨_, _, rfl, ⟨h.events, h.written, h.traffic, Or.inl ⟨hnone, ?_⟩⟩⟩
    rw [Log.dump, hlog]
    rfl
  · have hlen := hshort (by rw [hlog]; exact Option.some_ne_none _)
    have hdumped : (log.dump packet).pcap = some (packets ++ [packet]) := by
      rw [Log.dump, hlog]
      rfl
    rw [hsome]
    dsimp only
    have hblamed : ∀ err, (writer.writePacket (env.clock s.calls.length)
        (env.disk s.calls.length) packet).1 = some err →
          Blamed env R (s.calls ++ [.dump]) (.error err) := by
      intro err hfailed
      rcases writePacket_failed hlen hfailed with hclock | ⟨answer, count, hdisk⟩
      · exact .clock hclock
      · exact .disk hdisk
    obtain ⟨hwhole, stamped1, hpartly, htimed, hpackets⟩ :=
      hcaptures.writePacket hlen s.calls.length (env.disk s.calls.length)
    cases hwrite :
      writer.writePacket (env.clock s.calls.length) (env.disk s.calls.length) packet with
    | mk failed writer1 =>
        rw [hwrite] at hwhole hpartly hblamed
        cases failed with
        | none =>
            obtain ⟨stamped2, hcaptures2⟩ := hwhole rfl
            exact ⟨_, _, rfl, ⟨h.events, h.written, h.traffic,
              Or.inr ⟨writer1, _, stamped2, rfl, hdumped, hcaptures2⟩⟩⟩
        | some err =>
            refine ⟨_, _, rfl,
              ⟨hblamed err rfl, h.events ▸ hfinal.events, h.written ▸ hfinal.written, ?_⟩⟩
            intro writer2 hwriter
            obtain rfl := Option.some.inj hwriter
            refine ⟨stamped1, hpartly, htimed, ?_⟩
            rcases hpackets with hpackets | hpackets
            · rw [hpackets]
              exact h.traffic ▸ hnear packets hlog
            · rw [hpackets]
              exact h.traffic ▸ hmore _ hdumped

/-- A packet that is not empty is written, unless the device fails. -/
theorem writeDevice_follows {message : String} (h : Follows env linkType log traffic s)
    (hne : packet ≠ []) (hnear : log.Near traffic) (hfinal : log.Before final) :
    (writeDevice env message packet).Ensures s
      (fun _ => Follows env linkType (log.write packet) (traffic ++ [packet]))
      (Halted env linkType R final) := by
  unfold writeDevice
  rw [if_neg hne]
  refine (askDevice_follows h hnear hfinal).bind fun _ s1 h1 => ?_
  exact .modify ⟨h1.events, congrArg (· ++ [packet]) h1.written,
    congrArg (· ++ [packet]) h1.traffic, h1.pcap⟩

/-! ## Between two packets -/

/-- No call has failed, and what was captured is what the device has given and taken. -/
structure Steady (env : Env) (linkType : PcapLinkType) (log : Log) (s : Outside) : Prop where
  follows : Follows env linkType log s.traffic s
  exact : ∀ packets ∈ log.pcap, packets = s.traffic

theorem Steady.near (h : Steady env linkType log s) : log.Near s.traffic := by
  intro packets hpackets
  rw [← h.exact packets hpackets]
  exact .same

theorem Follows.steady (h : Follows env linkType log traffic s)
    (hexact : ∀ packets ∈ log.pcap, packets = traffic) : Steady env linkType log s := by
  obtain rfl := h.traffic
  exact ⟨h, hexact⟩

theorem mem_dump {packets : List Bytes} (h : packets ∈ (log.dump packet).pcap) :
    ∃ packets1 ∈ log.pcap, packets = packets1 ++ [packet] := by
  obtain ⟨packets1, hpackets1, rfl⟩ := Option.map_eq_some_iff.mp h
  exact ⟨packets1, hpackets1, rfl⟩

namespace Steady

theorem made (h : Steady env linkType log s) (call : Call) :
    Steady env linkType log (s.made call) :=
  ⟨h.follows.made call, h.exact⟩

theorem ask {call : Call} {answer : Nat → Option IoError} {fail : IoError → Failure}
    (h : Steady env linkType log s) (hfinal : log.Before final)
    (hblamed : ∀ err, answer s.calls.length = some err →
      Blamed env R (s.calls ++ [call]) (fail err)) :
    (Outside.ask call answer fail).Ensures s (fun _ => Steady env linkType log)
      (Halted env linkType R final) :=
  (ask_follows h.follows h.near hfinal hblamed).mono (fun _ _ h1 => h1.steady h.exact)
    (fun _ _ h1 => h1)

theorem spawnStdinThread (h : Steady env linkType log s) (hfinal : log.Before final) :
    (Outside.spawnStdinThread env).Ensures s (fun _ => Steady env linkType log)
      (Halted env linkType R final) :=
  h.ask hfinal fun _ hanswer => .thread hanswer

theorem eprintln (h : Steady env linkType log s) (hfinal : log.Before final) :
    (Outside.eprintln env).Ensures s (fun _ => Steady env linkType log)
      (Halted env linkType R final) :=
  h.ask hfinal fun _ hanswer => .print hanswer

theorem eprintlns (lines : Nat) (h : Steady env linkType log s) (hfinal : log.Before final) :
    (Outside.eprintlns env lines).Ensures s (fun _ => Steady env linkType log)
      (Halted env linkType R final) :=
  (eprintlns_follows lines h.follows h.near hfinal).mono (fun _ _ h1 => h1.steady h.exact)
    (fun _ _ h1 => h1)

theorem printEvents {events : List IpHostEvent} (h : Steady env linkType log s)
    (hfinal : (log.print events).Before final) :
    (Outside.printEvents env events).Ensures s (fun _ => Steady env linkType (log.print events))
      (Halted env linkType R final) :=
  (printEvents_follows events h.follows h.near hfinal).mono
    (fun _ _ h1 => h1.steady h.exact) (fun _ _ h1 => h1)

theorem halted (h : Steady env linkType log s) (hfinal : log.Before final)
    (hblamed : Blamed env R s.calls failure) : Halted env linkType R final failure s :=
  h.follows.halted h.near hfinal hblamed

/-- A packet that the device has given is captured, and the program goes on. -/
theorem received_dumped {α : Type} {f : Unit → Program α} {Q : α → Outside → Prop}
    (h : Steady env linkType log s) (hshort : log.pcap ≠ none → packet.length < 2 ^ 32)
    (hfinal : log.Before final)
    (hf : ∀ s1, Steady env linkType (log.dump packet) s1 →
      (f ()).Ensures s1 Q (Halted env linkType R final)) :
    (received packet >>= fun _ => dumpPacket env packet >>= f).Ensures s Q
      (Halted env linkType R final) := by
  have hreceived : (received packet).Ensures s
      (fun _ => Follows env linkType log (s.traffic ++ [packet])) (Halted env linkType R final) :=
    .modify ⟨h.follows.events, h.follows.written, rfl, h.follows.pcap⟩
  have hexact : ∀ packets ∈ (log.dump packet).pcap, packets = s.traffic ++ [packet] := by
    intro packets hpackets
    obtain ⟨packets1, hpackets1, rfl⟩ := mem_dump hpackets
    rw [h.exact packets1 hpackets1]
  have hbefore : log.Near (s.traffic ++ [packet]) := by
    intro packets hpackets
    rw [← h.exact packets hpackets]
    exact .more packet
  have hafter : (log.dump packet).Near (s.traffic ++ [packet]) := by
    intro packets hpackets
    rw [hexact packets hpackets]
    exact .same
  refine hreceived.bind fun _ s1 h1 => ?_
  refine (dumpPacket_follows h1 hshort hbefore hafter hfinal).bind fun _ s2 h2 => ?_
  exact hf s2 (h2.steady hexact)

/-- A packet is captured and given to the device, and the program goes on. -/
theorem dumped_written {α : Type} {f : Unit → Program α} {Q : α → Outside → Prop}
    {message : String} (h : Steady env linkType log s)
    (hshort : log.pcap ≠ none → packet.length < 2 ^ 32) (hne : packet ≠ [])
    (hfinal : log.Before final)
    (hf : ∀ s1, Steady env linkType ((log.dump packet).write packet) s1 →
      (f ()).Ensures s1 Q (Halted env linkType R final)) :
    (dumpPacket env packet >>= fun _ => writeDevice env message packet >>= f).Ensures s Q
      (Halted env linkType R final) := by
  have hexact : ∀ packets ∈ (log.dump packet).pcap, packets = s.traffic ++ [packet] := by
    intro packets hpackets
    obtain ⟨packets1, hpackets1, rfl⟩ := mem_dump hpackets
    rw [h.exact packets1 hpackets1]
  have hafter : (log.dump packet).Near s.traffic :=
    fun packets hpackets => .less (hexact packets hpackets)
  refine (dumpPacket_follows h.follows hshort h.near hafter hfinal).bind fun _ s1 h1 => ?_
  refine (writeDevice_follows h1 hne hafter ⟨hfinal.events, hfinal.written⟩).bind
    fun _ s2 h2 => ?_
  exact hf s2 (h2.steady hexact)

end Steady

/-- Reading follows a run over what the device has given, if what is done with each packet does. -/
theorem drain_follows {α ρ : Type} {step : ρ → Bytes → Exec ρ} {take : α → Bytes → Program α}
    {reads : List (Except IoError Bytes)} {r r1 : ρ} {a : α} {E : Failure → Outside → Prop}
    (P : ρ → Prop) (Q : ρ → α → Outside → Prop)
    (hback : ∀ r packet r1, step r packet = .ok r1 → P r1 → P r)
    (hread : ∀ r a s, Q r a s → Q r a (s.made .read))
    (hstep : ∀ packet r r1 a s, step r packet = .ok r1 → P r1 → Q r a s →
      (take a packet).Ensures s (Q r1) E)
    (hfail : ∀ err, .error err ∈ reads → Ends err → ∀ r a s, P r → Q r a s →
      E (.error err) (s.made .read))
    (hrun : Exec.run step r (delivered reads) = .ok r1) (hP : P r1) (hQ : Q r a s) :
    (drain take a reads).Ensures s (Q r1) E := by
  induction reads generalizing r a s with
  | nil =>
      obtain rfl := Except.ok.inj hrun
      exact .modify_bind (.pure (hread r a s hQ))
  | cons answer rest ih =>
      have hrest : ∀ err, .error err ∈ rest → Ends err → ∀ r a s, P r → Q r a s →
          E (.error err) (s.made .read) :=
        fun err herr => hfail err (List.mem_cons_of_mem _ herr)
      have hmade := hread r a s hQ
      cases answer with
      | ok packet =>
          obtain ⟨r2, hfirst, hrun⟩ := Exec.run_cons_eq_ok.mp hrun
          have hbefore := Exec.run_back P hback hrun hP
          refine .modify_bind ?_
          refine (hstep packet r r2 a _ hfirst hbefore hmade).bind fun a2 s2 h2 => ?_
          exact ih hrest hrun h2
      | error err =>
          refine .modify_bind ?_
          rw [delivered] at hrun
          by_cases hinterrupted : err.kind = .interrupted
          · rw [if_pos hinterrupted] at hrun
            rw [hinterrupted]
            exact ih hrest hrun hmade
          · rw [if_neg hinterrupted] at hrun
            obtain rfl := Except.ok.inj hrun
            by_cases hblock : err.kind = .wouldBlock
            · rw [hblock]
              exact .pure hmade
            · have hends := hfail err List.mem_cons_self ⟨hblock, hinterrupted⟩ r a s hP hQ
              cases hkind : err.kind with
              | wouldBlock => exact absurd hkind hblock
              | interrupted => exact absurd hkind hinterrupted
              | _ => exact .throw hends

/-! ## Files -/

/-- The file that is left, whenever the program ends, is a beginning of the capture of what the
device has given and taken, with times of the clock. A buffer and a packet may be missing, and no
more than a packet if the writer is dropped and its last flush is answered. -/
def LeavesCapture (env : Env) (linkType : PcapLinkType) (s : Outside) : Prop :=
  ∀ writer, s.pcap = some writer → ∃ stamped, Timed env stamped ∧
    Near (stamped.map Prod.snd) s.traffic ∧
    fileLength (stamped.map Prod.snd) (stamped.length - 1)
      ≤ (writer.writer.dropped (none : Option (Nat × IoError))).length ∧
    ∀ file, writer.Leaves file → IsCapture linkType stamped file ∧
      fileLength (stamped.map Prod.snd) (stamped.length - 1) ≤ file.length + DEFAULT_BUF_SIZE

/-- The capture is that of all that the device has given and taken; a buffer of the file may be
missing. -/
def CapturesAll (env : Env) (linkType : PcapLinkType) (s : Outside) : Prop :=
  ∃ writer stamped, s.pcap = some writer ∧ Timed env stamped ∧ stamped.map Prod.snd = s.traffic ∧
    ∀ file, writer.Leaves file → IsCapture linkType stamped file ∧
      fileLength s.traffic s.traffic.length ≤ file.length + DEFAULT_BUF_SIZE

theorem leavesCapture_of_partly
    (h : ∀ writer, s.pcap = some writer → ∃ stamped, PartlyCaptured linkType stamped writer ∧
      Timed env stamped ∧ Near (stamped.map Prod.snd) s.traffic) :
    LeavesCapture env linkType s := by
  intro writer hwriter
  obtain ⟨stamped, hpartly, htimed, hnear⟩ := h writer hwriter
  exact ⟨stamped, htimed, hnear, hpartly.dropped, fun file hleaves => hpartly.leaves hleaves⟩

theorem Steady.leavesCapture (h : Steady env linkType log s) : LeavesCapture env linkType s :=
  leavesCapture_of_partly fun _ hwriter => h.follows.partly h.near hwriter

theorem Halted.leavesCapture (h : Halted env linkType R final failure s) :
    LeavesCapture env linkType s :=
  leavesCapture_of_partly h.captured

theorem Steady.capturesAll {packets : List Bytes} (h : Steady env linkType log s)
    (hlog : log.pcap = some packets) : s.traffic = packets ∧ CapturesAll env linkType s := by
  have htraffic := (h.exact packets hlog).symm
  refine ⟨htraffic, ?_⟩
  rcases h.follows.pcap with ⟨-, hnone⟩ | ⟨writer, packets1, stamped, hsome, hlog1, hcaptures⟩
  · rw [hnone] at hlog
    exact nomatch hlog
  · obtain rfl := h.exact packets1 hlog1
    refine ⟨writer, stamped, hsome, hcaptures.timed, hcaptures.packets, ?_⟩
    intro file hleaves
    have hfile := hcaptures.captured.leaves hleaves
    rw [← hcaptures.packets, List.length_map]
    exact hfile

/-- The file is created, unless that fails; its header stays in the buffer. -/
theorem createPcap_steady (capture : Bool) (h : Follows env linkType ⟨[], [], none⟩ [] s) :
    (createPcap env linkType capture).Ensures s
      (fun _ => Steady env linkType ⟨[], [], if capture then some [] else none⟩)
      (Halted env linkType R final) := by
  cases capture with
  | false => exact .pure (h.steady fun _ hpackets => nomatch hpackets)
  | true =>
      obtain ⟨writer, hcreate, hcaptured⟩ := create_captured linkType (env.disk s.calls.length)
      unfold Io.Ensures createPcap
      rw [if_pos rfl]
      dsimp only
      cases hanswer : env.created s.calls.length with
      | some err =>
          refine ⟨_, _, rfl, (h.made .create).halted (fun _ hpackets => nomatch hpackets)
            (Log.before_of_empty none final) ?_⟩
          exact .create hanswer
      | none =>
          rw [hcreate]
          have hcreated : Follows env linkType ⟨[], [], some []⟩ []
              { s.made .create with pcap := some writer } :=
            ⟨h.events, h.written, h.traffic, Or.inr ⟨writer, [], [], rfl, rfl, hcaptured, rfl,
              fun _ hx => absurd hx List.not_mem_nil⟩⟩
          refine ⟨_, _, rfl, hcreated.steady ?_⟩
          intro packets hpackets
          exact (Option.some.inj hpackets).symm

/-- Both programs print some lines, open their device and make it nonblocking, create the capture,
and go on. -/
theorem opening_steady {α : Type} {f : Unit → Program α} {Q : α → Outside → Prop} (lines : Nat)
    (capture : Bool)
    (hf : ∀ s, Steady env linkType ⟨[], [], if capture then some [] else none⟩ s →
      (f ()).Ensures s Q (Halted env linkType R final)) :
    (Outside.eprintlns env lines >>= fun _ => askDevice env >>= fun _ =>
      askDevice env >>= fun _ => createPcap env linkType capture >>= f).Ensures
        Outside.start Q (Halted env linkType R final) := by
  have hstart : Follows env linkType ⟨[], [], none⟩ [] Outside.start :=
    ⟨rfl, rfl, rfl, Or.inl ⟨rfl, rfl⟩⟩
  have hnear : Log.Near ⟨[], [], none⟩ [] := fun _ hpackets => nomatch hpackets
  have hempty := Log.before_of_empty none final
  refine (eprintlns_follows lines hstart hnear hempty).bind fun _ s1 h1 => ?_
  refine (askDevice_follows h1 hnear hempty).bind fun _ s2 h2 => ?_
  refine (askDevice_follows h2 hnear hempty).bind fun _ s3 h3 => ?_
  exact (createPcap_steady capture h3).bind fun _ s4 h4 => hf s4 h4

end Outside

end Minnow
