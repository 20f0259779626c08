import Minnow.IpHost.Dispatch

set_option autoImplicit false

/-! # Foreign traffic

Bytes are foreign to a host if they are no segment of its connection, at whatever level of the
parser chain that shows. `foreign_inert` compares two runs of a host: the second is the first
with foreign bytes received at arbitrary moments. The hosts end equal, and what the two runs
send and report about TCP is the same.
-/

namespace Minnow

namespace IpHost

open TcpConnection

/-- The bytes are no segment for the connection that this configuration describes. -/
def Foreign (config : IpHostConfig) (packet : Bytes) : Prop :=
  match Ipv4Datagram.parseBytes packet with
  | .ok (.ok datagram) =>
      datagram.header.dst ≠ config.localIp ∨
      datagram.header.protocol ≠ IPV4_PROTOCOL_TCP ∨
      datagram.header.src ≠ config.peerIp ∨
      match TcpSegment.parseIpv4Bytes datagram.header.src datagram.header.dst datagram.payload with
      | .ok (.ok segment) =>
          segment.header.srcPort ≠ config.peerPort ∨ segment.header.dstPort ≠ config.localPort
      | _ => True
  | _ => True

/-- The operations that can be put into a run. -/
def Injected (config : IpHostConfig) : HostOp → Prop
  | .receiveIpv4Bytes packet => Foreign config packet
  | _ => False

/-- A host and all it has returned. -/
structure Transcript where
  host : IpHost
  output : IpHostOutput

namespace Transcript

def start (host : IpHost) : Transcript where
  host := host
  output := .empty

def step (t : Transcript) (op : HostOp) : Exec Transcript := do
  let (host, output) ← t.host.perform op
  .ok { host := host, output := t.output.extend output }

def tcpDatagrams (t : Transcript) : List Ipv4Datagram :=
  t.output.datagrams.filter (fun datagram => datagram.header.protocol = IPV4_PROTOCOL_TCP)

def tcpEvents (t : Transcript) : List IpHostEvent :=
  t.output.events.filter IpHostEvent.isTcp

end Transcript

variable {host host1 : IpHost} {config : IpHostConfig} {op : HostOp} {output : IpHostOutput}
  {segments : List TcpSegment} {packet : Bytes}

/-- The host has the addresses and the ports of its configuration. -/
structure Configured (config : IpHostConfig) (host : IpHost) : Prop where
  config_eq : host.config = config
  localPort : host.connection.localPort = config.localPort
  peerPort : host.connection.peerPort = config.peerPort

theorem configured_new (hnew : IpHost.new config = .ok host) : Configured config host := by
  obtain ⟨connection, hconnection, hnew⟩ := Exec.bind_eq_ok.mp hnew
  obtain rfl := Except.ok.inj hnew
  unfold TcpConnection.new at hconnection
  obtain ⟨u1, -, hconnection⟩ := Exec.bind_eq_ok.mp hconnection
  obtain ⟨u2, -, hconnection⟩ := Exec.bind_eq_ok.mp hconnection
  obtain ⟨sender, -, hconnection⟩ := Exec.bind_eq_ok.mp hconnection
  obtain ⟨receiver, -, hconnection⟩ := Exec.bind_eq_ok.mp hconnection
  obtain rfl := Except.ok.inj hconnection
  exact ⟨rfl, rfl, rfl⟩

theorem Configured.perform (h : Configured config host)
    (hrun : host.perform op = .ok (host1, output)) : Configured config host1 := by
  have hconfig := (perform_config hrun).trans h.config_eq
  cases hop : op.connOp host with
  | none =>
      obtain ⟨rfl, -⟩ := perform_of_idle hop hrun
      exact h
  | some connOp =>
      rw [perform_of_connOp hop] at hrun
      obtain ⟨connection, segments, wrapped, hperform, -, rfl, -⟩ := dispatch_eq_ok.mp hrun
      obtain ⟨hlocal, hpeer⟩ := (perform_performed hperform).ports
      exact ⟨hconfig, hlocal.trans h.localPort, hpeer.trans h.peerPort⟩

/-- Foreign bytes do not reach the connection. -/
theorem Configured.connOp_of_foreign (h : Configured config host)
    (hforeign : Foreign config packet) : (HostOp.receiveIpv4Bytes packet).connOp host = none := by
  apply Option.map_eq_none_iff.mpr
  obtain ⟨result, hparsed, -⟩ := Ipv4Datagram.parseBytes_total packet
  simp only [HostOp.segment, hparsed]
  cases result with
  | error err => rfl
  | ok datagram =>
      dsimp only
      rw [Option.eq_none_iff_forall_ne_some]
      intro segment hsome
      obtain ⟨hdst, hprotocol, hsrc, hsegment, hport⟩ := segmentOf_eq_some.mp hsome
      rw [h.config_eq] at hdst hsrc
      -- every level of the chain says that the bytes are not foreign
      simp only [Foreign, hparsed] at hforeign
      rcases hforeign with hne | hne | hne | hne
      · exact hne hdst
      · exact hne hprotocol
      · exact hne hsrc
      · rw [hsegment] at hne
        rw [belongsToThisConnection_iff, h.localPort, h.peerPort] at hport
        exact hport hne

/-! ## Two runs side by side -/

/-- The hosts are equal, and so is what the two have sent and reported about TCP. -/
structure Alike (config : IpHostConfig) (t t1 : Transcript) : Prop where
  configured : Configured config t.host
  host : t1.host = t.host
  datagrams : t1.tcpDatagrams = t.tcpDatagrams
  events : t1.tcpEvents = t.tcpEvents

variable {t t1 t2 : Transcript}

theorem step_eq_ok : t.step op = .ok t1 ↔
    ∃ output, t.host.perform op = .ok (t1.host, output) ∧ t1.output = t.output.extend output := by
  unfold Transcript.step
  rw [Exec.bind_eq_ok]
  constructor
  · rintro ⟨⟨host1, output⟩, hperform, hok⟩
    obtain rfl := Except.ok.inj hok
    exact ⟨output, hperform, rfl⟩
  · rintro ⟨output, hperform, houtput⟩
    refine ⟨(t1.host, output), hperform, ?_⟩
    dsimp only
    rw [← houtput]

/-- Both perform the same operation. -/
theorem Alike.keep (h : Alike config t t1) (hstep : t.step op = .ok t2) :
    ∃ t3, t1.step op = .ok t3 ∧ Alike config t2 t3 := by
  obtain ⟨output, hperform, houtput⟩ := step_eq_ok.mp hstep
  refine ⟨{ host := t2.host, output := t1.output.extend output }, ?_, ?_⟩
  · apply step_eq_ok.mpr
    rw [h.host]
    exact ⟨output, hperform, rfl⟩
  · refine ⟨h.configured.perform hperform, rfl, ?_, ?_⟩
    · have hdatagrams := h.datagrams
      unfold Transcript.tcpDatagrams at hdatagrams ⊢
      rw [houtput]
      simp only [IpHostOutput.extend, List.filter_append, hdatagrams]
    · have hevents := h.events
      unfold Transcript.tcpEvents at hevents ⊢
      rw [houtput]
      simp only [IpHostOutput.extend, List.filter_append, hevents]

/-- The second receives foreign bytes. -/
theorem Alike.insert (h : Alike config t t1) (hop : Injected config op) :
    ∃ t2, t1.step op = .ok t2 ∧ Alike config t t2 := by
  cases op with
  | receiveIpv4Bytes packet =>
      have hidle : (HostOp.receiveIpv4Bytes packet).connOp t1.host = none := by
        rw [h.host]
        exact h.configured.connOp_of_foreign hop
      have hfits : (HostOp.receiveIpv4Bytes packet).Fits := trivial
      obtain ⟨output, hperform⟩ := perform_idle_total hfits hidle
      obtain ⟨-, hsilent⟩ := perform_of_idle hidle hperform
      refine ⟨{ host := t1.host, output := t1.output.extend output },
        step_eq_ok.mpr ⟨output, hperform, rfl⟩, h.configured, h.host, ?_, ?_⟩
      · rw [← h.datagrams]
        unfold Transcript.tcpDatagrams
        simp only [IpHostOutput.extend, List.filter_append, List.append_right_eq_self,
          List.filter_eq_nil_iff, decide_eq_true_eq]
        exact hsilent.datagrams
      · rw [← h.events]
        unfold Transcript.tcpEvents
        simp only [IpHostOutput.extend, List.filter_append, List.append_right_eq_self,
          List.filter_eq_nil_iff, Bool.not_eq_true]
        exact hsilent.events
  | connect => exact hop.elim
  | write data => exact hop.elim
  | close => exact hop.elim
  | tick elapsedMs => exact hop.elim
  | receiveDatagram datagram => exact hop.elim

/-- Foreign bytes put into a run leave no trace in the host or in what it sends and reports
about TCP, and do not stop it. -/
theorem foreign_inert {ops more : List HostOp} (hnew : IpHost.new config = .ok host)
    (hrun : Exec.run Transcript.step (.start host) ops = .ok t)
    (hpadded : Exec.Padded (Injected config) ops more) :
    ∃ t1, Exec.run Transcript.step (.start host) more = .ok t1 ∧
      t1.host = t.host ∧ t1.tcpDatagrams = t.tcpDatagrams ∧ t1.tcpEvents = t.tcpEvents := by
  have hstart : Alike config (.start host) (.start host) :=
    ⟨configured_new hnew, rfl, rfl, rfl⟩
  have halike : ∃ t1, Exec.run Transcript.step (.start host) more = .ok t1 ∧
      Alike config t t1 := by
    apply hpadded.run (Alike config) ?_ ?_ hstart hrun
    · intro s s1 op s2 hlike hstep
      exact hlike.keep hstep
    · intro s s1 op hlike hop
      exact hlike.insert hop
  obtain ⟨t1, hmore, h⟩ := halike
  exact ⟨t1, hmore, h.host, h.datagrams, h.events⟩

def pingedConfig : IpHostConfig := .tcpDemo ⟨10, 0, 0, 1⟩ ⟨10, 0, 0, 2⟩ 4000 80 ⟨0⟩

/-- An echo request from the peer. -/
def echoRequest : Bytes :=
  [69, 0, 0, 29, 0, 0, 64, 0, 64, 1, 38, 222, 10, 0, 0, 2, 10, 0, 0, 1, 8, 0, 205, 247, 0, 7, 0, 1,
    42]

/-- Between opening and writing, a truncated packet and an echo request, which is answered. -/
theorem foreign_inert_echo : ∃ host t t1, IpHost.new pingedConfig = .ok host ∧
    Exec.run Transcript.step (.start host) [.connect, .write [1, 2]] = .ok t ∧
    Exec.run Transcript.step (.start host)
      [.receiveIpv4Bytes [69, 0, 0], .connect, .receiveIpv4Bytes echoRequest, .write [1, 2]]
        = .ok t1 ∧
    t1.host = t.host ∧ t1.tcpDatagrams = t.tcpDatagrams ∧ t1.tcpEvents = t.tcpEvents := by
  have hshort : Injected pingedConfig (.receiveIpv4Bytes [69, 0, 0]) := trivial
  have hecho : Injected pingedConfig (.receiveIpv4Bytes echoRequest) := by
    have hserialize : Ipv4Datagram.serialize
        (Ipv4Datagram.newIcmp ⟨10, 0, 0, 2⟩ ⟨10, 0, 0, 1⟩ [8, 0, 205, 247, 0, 7, 0, 1, 42])
          = .ok echoRequest := by
      decide +kernel
    simp only [Injected, Foreign, Ipv4Datagram.parseBytes_serialize hserialize]
    exact Or.inr (Or.inl (by decide))
  obtain ⟨host, hnew, t, hrun, -⟩ : ∃ host, IpHost.new pingedConfig = .ok host ∧
      ∃ t, Exec.run Transcript.step (.start host) [.connect, .write [1, 2]] = .ok t ∧
        t.tcpDatagrams.length = 1 := by
    decide +kernel
  obtain ⟨t1, hmore, hsame⟩ := foreign_inert hnew hrun
    (.insert hshort (.keep (.insert hecho (.keep .nil))))
  exact ⟨host, t, t1, hnew, hrun, hmore, hsame⟩

end IpHost

end Minnow
