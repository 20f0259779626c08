import Minnow.NetworkInterface.Provenance
import Minnow.TapHost

set_option autoImplicit false

/-! # The steps of a round

What each function of the main loop does, on the assumption that all datagrams in the interface are
of one kind and so can be serialized. A round is the run of its steps (`turn_eq_run`).
-/

namespace Minnow

open IpHost NetworkInterface

namespace TapHost

variable {P Q : Bytes → Prop} {t t1 : TapHost} {host : IpHost} {output : IpHostOutput}
  {datagrams : List Ipv4Datagram} {op : HostOp} {packet : Bytes}

/-- All that waits in the interface, and all that was written, is of the kind. -/
structure Wired (P : Bytes → Prop) (t : TapHost) : Prop where
  traced : Traced P t.interface
  written : ∀ bytes ∈ t.written, ∃ frame : EthernetFrame, bytes = frame.serialize ∧
    Genuine P t.interface.ethernetAddress t.interface.ipAddress frame

theorem Wired.mono (hmono : ∀ bytes, P bytes → Q bytes) (h : Wired P t) : Wired Q t where
  traced := h.traced.mono hmono
  written := by
    intro bytes hbytes
    obtain ⟨frame, hframe, hgenuine⟩ := h.written bytes hbytes
    exact ⟨frame, hframe, hgenuine.mono hmono⟩

theorem Wired.keep (h : Wired P t) (htraced : Traced P t1.interface)
    (hsame : SameStation t.interface t1.interface) (hwritten : t1.written = t.written) :
    Wired P t1 where
  traced := htraced
  written := by
    rw [hwritten, hsame.ethernetAddress, hsame.ipAddress]
    exact h.written

/-! ## The host does something -/

theorem sendDatagrams_total {interface : NetworkInterface} (h : Traced P interface)
    (hknown : ∀ datagram ∈ datagrams, Known P datagram) :
    ∃ interface1, sendDatagrams interface datagrams = .ok interface1 ∧ Traced P interface1 ∧
      interface1.datagramsIn = interface.datagramsIn ∧ SameStation interface interface1 := by
  induction datagrams generalizing interface with
  | nil => exact ⟨interface, rfl, h, rfl, rfl, rfl⟩
  | cons datagram rest ih =>
      have hfirst := hknown datagram List.mem_cons_self
      obtain ⟨interface1, hsend⟩ := sendDatagram_of_known hfirst interface datagram.header.dst
      have hperformed := sendDatagram_performed hsend
      have hop : (InterfaceOp.sendDatagram datagram datagram.header.dst).Hands P := hfirst
      obtain ⟨interface2, hrest, h2, hin, hsame2⟩ := ih (h.performed hop hperformed)
        (fun d hd => hknown d (List.mem_cons_of_mem _ hd))
      refine ⟨interface2, ?_, h2, hin.trans (sendDatagram_sent hsend).datagramsIn,
        (sameStation_of_performed hperformed).trans hsame2⟩
      rw [sendDatagrams, hsend]
      exact hrest

/-- What an operation of the host leaves and changes. -/
structure Operated (P : Bytes → Prop) (t : TapHost) (host : IpHost) (output : IpHostOutput)
    (t1 : TapHost) : Prop where
  host_eq : t1.host = host
  events : t1.events = t.events ++ output.events
  interface : sendDatagrams t.interface output.datagrams = .ok t1.interface
  wired : Wired P t1
  inbound : t1.interface.datagramsIn = t.interface.datagramsIn
  station : SameStation t.interface t1.interface
  written : t1.written = t.written
  pcap : t1.pcap = t.pcap

theorem operate_total (h : Wired P t) (hrun : t.host.perform op = .ok (host, output))
    (hknown : ∀ datagram ∈ output.datagrams, Known P datagram) :
    ∃ t1, t.operate op = .ok t1 ∧ Operated P t host output t1 := by
  obtain ⟨interface, hsend, htraced, hin, hsame⟩ := sendDatagrams_total h.traced hknown
  refine ⟨{ t with
    interface := interface, host := host, events := t.events ++ output.events }, ?_, ?_⟩
  · unfold operate sendHostOutputToInterface
    rw [hrun, Exec.ok_bind]
    dsimp only
    rw [hsend]
    rfl
  · exact
      { host_eq := rfl
        events := rfl
        interface := hsend
        wired := h.keep htraced hsame rfl
        inbound := hin
        station := hsame
        written := rfl
        pcap := rfl }

/-! ## Dumping and writing -/

theorem dumpPacket_total (t : TapHost) (hlen : packet.length < 2 ^ 32) :
    t.dumpPacket packet = .ok { t with pcap := t.pcap.map (· ++ [packet]) } := by
  obtain ⟨interface, host, events, written, pcap⟩ := t
  cases pcap with
  | none => rfl
  | some packets =>
      unfold dumpPacket
      dsimp only
      rw [Exec.assert_pos hlen]
      rfl

theorem length_serialize (frame : EthernetFrame) :
    frame.serialize.length = 14 + frame.payload.length := by
  unfold EthernetFrame.serialize
  rw [List.length_append]
  rfl

theorem flushLoop_total {budget : Nat} (h : Wired P t)
    (hbudget : t.interface.framesOut.length < budget) :
    flushLoop budget t = .ok { t with
      interface := { t.interface with framesOut := [] }
      written := t.written ++ t.interface.framesOut.map EthernetFrame.serialize
      pcap := t.pcap.map (· ++ t.interface.framesOut.map EthernetFrame.serialize) } := by
  induction budget generalizing t with
  | zero => exact absurd hbudget (Nat.not_lt_zero _)
  | succ budget ih =>
      rw [flushLoop, popFrame]
      cases hframes : t.interface.framesOut with
      | nil =>
          obtain ⟨interface, host, events, written, pcap⟩ := t
          dsimp only at hframes ⊢
          obtain ⟨ethernetAddress, ipAddress, arpCache, pending, framesOut, datagramsIn⟩ :=
            interface
          obtain rfl : framesOut = [] := hframes
          cases pcap <;> simp
      | cons frame rest =>
          have hgenuine := h.traced.frames frame (by rw [hframes]; exact List.mem_cons_self)
          have hlen : frame.serialize.length < 2 ^ 32 := by
            have := hgenuine.short
            rw [length_serialize]
            omega
          have hne : frame.serialize ≠ [] := by
            apply List.ne_nil_of_length_pos
            rw [length_serialize]
            omega
          have htail : Wired P { t with
              interface := { t.interface with framesOut := rest }
              written := t.written ++ [frame.serialize]
              pcap := t.pcap.map (· ++ [frame.serialize]) } := by
            refine ⟨⟨h.traced.queue, ?_⟩, ?_⟩
            · intro waiting hwaiting
              exact h.traced.frames waiting (by rw [hframes]; exact List.mem_cons_of_mem _ hwaiting)
            · intro bytes hbytes
              rcases List.mem_append.mp hbytes with hbytes | hbytes
              · exact h.written bytes hbytes
              · obtain rfl := List.mem_singleton.mp hbytes
                exact ⟨frame, rfl, hgenuine⟩
          have hrest := ih htail (by
            rw [hframes, List.length_cons] at hbudget
            exact Nat.lt_of_succ_lt_succ hbudget)
          simp only [List.head?_cons, List.tail_cons]
          rw [dumpPacket_total _ hlen, Exec.ok_bind, writeFrame, Exec.assert_pos hne]
          refine Eq.trans hrest ?_
          simp only [List.map_cons, List.append_assoc, List.cons_append, List.nil_append,
            Option.map_map, Function.comp_def]

/-! ## Draining -/

theorem drainLoop_nil {budget : Nat} (h : t.interface.datagramsIn = []) :
    drainLoop (budget + 1) t = .ok t := by
  obtain ⟨⟨ethernetAddress, ipAddress, arpCache, pending, framesOut, datagramsIn⟩, host, events,
    written, pcap⟩ := t
  obtain rfl : datagramsIn = [] := h
  rfl

theorem drain_singleton {datagram : Ipv4Datagram} (h : t.interface.datagramsIn = [datagram])
    (hoperate : operate { t with interface := { t.interface with datagramsIn := [] } }
      (.receiveDatagram datagram) = .ok t1) (hquiet : t1.interface.datagramsIn = []) :
    t.drainInterfaceDatagrams = .ok t1 := by
  obtain ⟨⟨ethernetAddress, ipAddress, arpCache, pending, framesOut, datagramsIn⟩, host, events,
    written, pcap⟩ := t
  obtain rfl : datagramsIn = [datagram] := h
  have hstep := Exec.ok_bind t1 (drainLoop 1)
  rw [drainLoop_nil hquiet] at hstep
  refine Eq.trans ?_ hstep
  exact congrArg (fun first => first >>= drainLoop 1) hoperate

/-- The datagram that a frame brings to a station. -/
def inbound (mac : EthernetAddress) (frameBytes : Bytes) : Option Ipv4Datagram :=
  match EthernetFrame.parseBytes frameBytes with
  | .ok (.ok frame) =>
      if frame.isFor mac = true ∧ frame.header.ethertype = ETHERTYPE_IPV4 then
        match Ipv4Datagram.parseBytes frame.payload with
        | .ok (.ok datagram) => some datagram
        | _ => none
      else none
  | _ => none

theorem inbound_of_frame {mac : EthernetAddress} {frameBytes : Bytes} {frame : EthernetFrame}
    {datagram : Ipv4Datagram} (hparsed : EthernetFrame.parseBytes frameBytes = .ok (.ok frame)) :
    inbound mac frameBytes = some datagram ↔ frame.isFor mac = true ∧
      frame.header.ethertype = ETHERTYPE_IPV4 ∧
      Ipv4Datagram.parseBytes frame.payload = .ok (.ok datagram) := by
  unfold inbound
  rw [hparsed]
  dsimp only
  constructor
  · intro h
    split_ifs at h with hfor
    split at h
    · rename_i hdatagram
      obtain rfl := Option.some.inj h
      exact ⟨hfor.1, hfor.2, hdatagram⟩
    · exact nomatch h
  · rintro ⟨hfor, hipv4, hdatagram⟩
    rw [if_pos ⟨hfor, hipv4⟩, hdatagram]

/-- What is in a frame fits in a datagram. -/
theorem inbound_short {mac : EthernetAddress} {frameBytes : Bytes} {datagram : Ipv4Datagram}
    (h : inbound mac frameBytes = some datagram) : datagram.payload.length ≤ 65515 := by
  obtain ⟨frame, hparsed⟩ := EthernetFrame.parseBytes_total frameBytes
  cases frame with
  | error err =>
      rw [inbound, hparsed] at h
      exact absurd h (by simp)
  | ok frame =>
      obtain ⟨-, -, hdatagram⟩ := (inbound_of_frame hparsed).mp h
      exact payload_le_of_parse hdatagram

/-- What a step of the round does to the host. -/
def TapOp.hostOp (mac : EthernetAddress) : TapOp → Option HostOp
  | .connect => some .connect
  | .frame frameBytes => (inbound mac frameBytes).map .receiveDatagram
  | .app (.data bytes) => some (.write bytes)
  | .app .close => some .close
  | .tick elapsedMs => some (.tick elapsedMs)
  | .flush => none

/-- The frames that a step writes. -/
def TapOp.outgoing (t : TapHost) : TapOp → List Bytes
  | .flush => t.interface.framesOut.map EthernetFrame.serialize
  | _ => []

/-- What a step captures. -/
def TapOp.captured (t : TapHost) : TapOp → List Bytes
  | .frame frameBytes => [frameBytes]
  | op => op.outgoing t

/-- What the device reads fits in its buffer. -/
def TapOp.Fits : TapOp → Prop
  | .frame frameBytes => frameBytes.length ≤ 65535
  | _ => True

/-- The interface as it is when the host sends. -/
def TapOp.interface (t : TapHost) : TapOp → Exec NetworkInterface
  | .connect | .app _ => .ok t.interface
  | .tick elapsedMs => .ok (t.interface.tick elapsedMs)
  | .flush => .ok { t.interface with framesOut := [] }
  | .frame frameBytes => do
      match ← EthernetFrame.parseBytes frameBytes with
      | .ok parsed => do
          let interface ← t.interface.recvFrame parsed
          .ok { interface with datagramsIn := [] }
      | .error _ => .ok t.interface

/-- The host performs an operation, or none. -/
def perform? (host : IpHost) : Option HostOp → Exec (IpHost × IpHostOutput)
  | none => .ok (host, .empty)
  | some op => host.perform op

/-- What a step of the round changes. -/
structure Stepped (P : Bytes → Prop) (t : TapHost) (op : TapOp) (host : IpHost)
    (output : IpHostOutput) (t1 : TapHost) : Prop where
  host_eq : t1.host = host
  events : t1.events = t.events ++ output.events
  interface : (do sendDatagrams (← op.interface t) output.datagrams) = .ok t1.interface
  wired : Wired P t1
  quiet : t1.interface.datagramsIn = []
  station : SameStation t.interface t1.interface
  written : t1.written = t.written ++ op.outgoing t
  pcap : t1.pcap = t.pcap.map (· ++ op.captured t)
  flushed : op = .flush → t1.interface.framesOut = []

/-! ## One step -/

theorem map_append_nil (pcap : Option (List Bytes)) : pcap.map (· ++ []) = pcap := by
  cases pcap with
  | none => rfl
  | some packets => exact congrArg some (List.append_nil packets)

/-- What the host does is a step, if its interface was ready for it. -/
theorem Operated.stepped {tapOp : TapOp} {start : TapHost} (h : Operated P start host output t1)
    (hquiet : start.interface.datagramsIn = []) (hsame : SameStation t.interface start.interface)
    (hinterface : tapOp.interface t = .ok start.interface)
    (hevents : start.events = t.events) (hwritten : start.written = t.written)
    (hpcap : start.pcap = t.pcap.map (· ++ tapOp.captured t)) (hflush : tapOp ≠ .flush) :
    Stepped P t tapOp host output t1 where
  host_eq := h.host_eq
  events := by rw [h.events, hevents]
  interface := by rw [hinterface, Exec.ok_bind, h.interface]
  wired := h.wired
  quiet := h.inbound.trans hquiet
  station := hsame.trans h.station
  written := by
    have hnone : tapOp.outgoing t = [] := by
      cases tapOp with
      | flush => exact absurd rfl hflush
      | _ => rfl
    rw [h.written, hwritten, hnone, List.append_nil]
  pcap := h.pcap.trans hpcap
  flushed := fun hop => absurd hop hflush

theorem tick_total {elapsedMs : Nat} (h : Wired P t) (hquiet : t.interface.datagramsIn = [])
    (hrun : t.host.perform (.tick elapsedMs) = .ok (host, output))
    (hknown : ∀ datagram ∈ output.datagrams, Known P datagram) :
    ∃ t1, t.tick elapsedMs = .ok t1 ∧ Stepped P t (.tick elapsedMs) host output t1 := by
  have hop : (InterfaceOp.tick elapsedMs).Hands P := trivial
  have hperformed := perform_performed (show t.interface.perform (.tick elapsedMs) = _ from rfl)
  have hsame : SameStation t.interface (t.interface.tick elapsedMs) := ⟨rfl, rfl⟩
  have hwired : Wired P { t with interface := t.interface.tick elapsedMs } :=
    h.keep (h.traced.performed hop hperformed) hsame rfl
  obtain ⟨t1, hoperate, hoperated⟩ := operate_total hwired hrun hknown
  exact ⟨t1, hoperate, hoperated.stepped hquiet hsame rfl rfl rfl (map_append_nil t.pcap).symm
    (by simp)⟩

theorem flush_total (h : Wired P t) (hquiet : t.interface.datagramsIn = []) :
    ∃ t1, t.flushInterfaceFrames = .ok t1 ∧ Stepped P t .flush t.host .empty t1 := by
  refine ⟨_, flushLoop_total h (Nat.lt_succ_self _), ?_⟩
  exact
    { host_eq := rfl
      events := (List.append_nil t.events).symm
      interface := rfl
      wired := by
        refine ⟨⟨h.traced.queue, fun frame hf => absurd hf List.not_mem_nil⟩, ?_⟩
        intro bytes hbytes
        rcases List.mem_append.mp hbytes with hbytes | hbytes
        · exact h.written bytes hbytes
        · obtain ⟨frame, hframe, rfl⟩ := List.mem_map.mp hbytes
          exact ⟨frame, rfl, h.traced.frames frame hframe⟩
      quiet := hquiet
      station := ⟨rfl, rfl⟩
      written := rfl
      pcap := rfl
      flushed := fun _ => rfl }

/-- What a frame leaves in the interface, before the host is asked. -/
theorem recvFrame_inbound_eq {frame : EthernetFrame} {frameBytes : Bytes}
    (hparsed : EthernetFrame.parseBytes frameBytes = .ok (.ok frame))
    {interface interface1 : NetworkInterface} (hquiet : interface.datagramsIn = [])
    (hrecv : interface.recvFrame frame = .ok interface1) :
    interface1.datagramsIn = (inbound interface.ethernetAddress frameBytes).toList := by
  cases hbrought : inbound interface.ethernetAddress frameBytes with
  | none =>
      rcases recvFrame_cases hrecv with hsame | ⟨datagram, hfor, hipv4, hdatagram, -⟩
      · exact hsame.trans hquiet
      · rw [(inbound_of_frame hparsed).mpr ⟨hfor, hipv4, hdatagram⟩] at hbrought
        exact nomatch hbrought
  | some datagram =>
      obtain ⟨hfor, hipv4, hdatagram⟩ := (inbound_of_frame hparsed).mp hbrought
      rw [recvFrame_of_ipv4 hfor hipv4 hdatagram] at hrecv
      obtain rfl := Except.ok.inj hrecv
      show interface.datagramsIn ++ [datagram] = [datagram]
      rw [hquiet, List.nil_append]

theorem frame_total {frameBytes : Bytes} (h : Wired P t) (hquiet : t.interface.datagramsIn = [])
    (hlen : frameBytes.length ≤ 65535)
    (hrun : perform? t.host ((TapOp.frame frameBytes).hostOp t.interface.ethernetAddress)
      = .ok (host, output))
    (hknown : ∀ datagram ∈ output.datagrams, Known P datagram) :
    ∃ t1, t.drainFrame frameBytes = .ok t1 ∧ Stepped P t (.frame frameBytes) host output t1 := by
  obtain ⟨parsed, hparsed⟩ := EthernetFrame.parseBytes_total frameBytes
  have hdump := dumpPacket_total t (show frameBytes.length < 2 ^ 32 by omega)
  rw [drainFrame, hdump, Exec.ok_bind, hparsed, Exec.ok_bind]
  cases parsed with
  | error err =>
      have hnone : inbound t.interface.ethernetAddress frameBytes = none := by
        rw [inbound, hparsed]
      rw [TapOp.hostOp, hnone] at hrun
      obtain ⟨rfl, rfl⟩ := Prod.mk.inj (Except.ok.inj hrun)
      exact ⟨_, rfl,
        { host_eq := rfl
          events := (List.append_nil t.events).symm
          interface := by
            rw [TapOp.interface, hparsed]
            rfl
          wired := ⟨h.traced, h.written⟩
          quiet := hquiet
          station := ⟨rfl, rfl⟩
          written := (List.append_nil t.written).symm
          pcap := rfl
          flushed := fun hop => nomatch hop }⟩
  | ok frame =>
      dsimp only
      obtain ⟨interface, hrecv⟩ := h.traced.recvFrame_total frame
      have hop : (InterfaceOp.recvFrame frame).Hands P := trivial
      have hperformed :=
        perform_performed (show t.interface.perform (.recvFrame frame) = .ok interface from hrecv)
      have htraced := h.traced.performed hop hperformed
      have hinbound := recvFrame_inbound_eq hparsed hquiet hrecv
      have hsame := sameStation_of_performed hperformed
      have hready : (TapOp.frame frameBytes).interface t
          = .ok { interface with datagramsIn := [] } := by
        rw [TapOp.interface, hparsed, Exec.ok_bind]
        dsimp only
        rw [hrecv]
        rfl
      rw [hrecv, Exec.ok_bind]
      cases hbrought : inbound t.interface.ethernetAddress frameBytes with
      | none =>
          rw [hbrought] at hinbound
          rw [TapOp.hostOp, hbrought] at hrun
          obtain ⟨rfl, rfl⟩ := Prod.mk.inj (Except.ok.inj hrun)
          exact ⟨_, drainLoop_nil hinbound,
            { host_eq := rfl
              events := (List.append_nil t.events).symm
              interface := by
                rw [hready]
                exact congrArg
                  (fun datagrams => Except.ok { interface with datagramsIn := datagrams })
                  hinbound.symm
              wired := h.keep htraced hsame rfl
              quiet := hinbound
              station := hsame
              written := (List.append_nil t.written).symm
              pcap := rfl
              flushed := fun hop => nomatch hop }⟩
      | some datagram =>
          rw [hbrought] at hinbound
          rw [TapOp.hostOp, hbrought] at hrun
          have hreceive : t.host.perform (.receiveDatagram datagram) = .ok (host, output) := hrun
          have hdrained : Traced P { interface with datagramsIn := [] } :=
            ⟨htraced.queue, htraced.frames⟩
          have hwired : Wired P { t with
              interface := { interface with datagramsIn := [] }
              pcap := t.pcap.map (· ++ [frameBytes]) } :=
            h.keep hdrained ⟨hsame.ethernetAddress, hsame.ipAddress⟩ rfl
          obtain ⟨t1, hoperate, hoperated⟩ := operate_total hwired hreceive hknown
          refine ⟨t1, drain_singleton hinbound hoperate hoperated.inbound, ?_⟩
          exact hoperated.stepped rfl ⟨hsame.ethernetAddress, hsame.ipAddress⟩ hready rfl rfl rfl
            (fun hop => nomatch hop)

/-- A step returns, and does to the host what it says. -/
theorem step_total {tapOp : TapOp} (h : Wired P t) (hquiet : t.interface.datagramsIn = [])
    (hfits : tapOp.Fits)
    (hrun : perform? t.host (tapOp.hostOp t.interface.ethernetAddress) = .ok (host, output))
    (hknown : ∀ datagram ∈ output.datagrams, Known P datagram) :
    ∃ t1, t.step tapOp = .ok t1 ∧ Stepped P t tapOp host output t1 := by
  have hoperate : ∀ hostOp, t.host.perform hostOp = .ok (host, output) → tapOp ≠ .flush →
      tapOp.captured t = [] → tapOp.interface t = .ok t.interface →
      ∃ t1, t.operate hostOp = .ok t1 ∧ Stepped P t tapOp host output t1 := by
    intro hostOp hrun hflush hcaptured hinterface
    obtain ⟨t1, hoperate, hoperated⟩ := operate_total h hrun hknown
    refine ⟨t1, hoperate, hoperated.stepped hquiet ⟨rfl, rfl⟩ hinterface rfl rfl ?_ hflush⟩
    rw [hcaptured, map_append_nil]
  cases tapOp with
  | connect => exact hoperate .connect hrun (by simp) rfl rfl
  | frame frameBytes => exact frame_total h hquiet hfits hrun hknown
  | app event =>
      cases event with
      | data bytes => exact hoperate (.write bytes) hrun (by simp) rfl rfl
      | close => exact hoperate .close hrun (by simp) rfl rfl
  | tick elapsedMs => exact tick_total h hquiet hrun hknown
  | flush =>
      obtain ⟨rfl, rfl⟩ := Prod.mk.inj (Except.ok.inj hrun)
      exact flush_total h hquiet

/-- A round is the run of its steps. -/
theorem turn_eq_run (t : TapHost) (turn : Turn) : t.turn turn = Exec.run step t turn.ops := by
  rw [TapHost.turn, drainTapFrames, Turn.ops, Turn.work, Exec.run_append, Exec.run_append,
    Exec.run_append, Exec.run_map, bind_assoc, bind_assoc]
  refine bind_congr fun t => ?_
  rw [drainAppEvents, Exec.run_map]
  refine bind_congr fun t => ?_
  have hflush : ∀ t : TapHost, Exec.run step t [.flush] = t.flushInterfaceFrames :=
    fun t => Exec.run_singleton t TapOp.flush
  simp only [hflush]
  split_ifs
  · rw [Exec.run_singleton]
    rfl
  · rfl

end TapHost

end Minnow
