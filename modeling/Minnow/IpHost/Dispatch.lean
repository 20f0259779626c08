import Minnow.IpHost.Basic
import Minnow.TcpConnection.Operations

set_option autoImplicit false

/-! # What reaches the connection

Every operation of a host is an operation of its connection, whose segments it wraps into
datagrams, or does not reach the connection at all.

* `perform_of_connOp`: the first kind, as an equation.
* `perform_of_idle`, `perform_idle_total`: the second kind leaves the host as it is; at most an
  ICMP echo is answered.
-/

namespace Minnow

/-- The event reports what the connection has received or sent. -/
def IpHostEvent.isTcp : IpHostEvent → Bool
  | .incomingTcp _ | .outgoingTcp _ | .tcpPayload _ => true
  | _ => false

/-- The output concerns no TCP connection. -/
structure IpHostOutput.Silent (output : IpHostOutput) : Prop where
  events : ∀ event ∈ output.events, event.isTcp = false
  datagrams : ∀ datagram ∈ output.datagrams, datagram.header.protocol ≠ IPV4_PROTOCOL_TCP

theorem IpHostOutput.Silent.empty : IpHostOutput.Silent .empty :=
  ⟨fun _ h => absurd h List.not_mem_nil, fun _ h => absurd h List.not_mem_nil⟩

/-- One event that is not about TCP. -/
theorem IpHostOutput.Silent.of_event {event : IpHostEvent} (h : event.isTcp = false) :
    IpHostOutput.Silent { datagrams := [], events := [event] } := by
  refine ⟨?_, fun _ hd => absurd hd List.not_mem_nil⟩
  intro event1 hevent
  obtain rfl := List.mem_singleton.mp hevent
  exact h

namespace IpHost

open TcpConnection

/-! ## Runs of a host -/

inductive HostOp where
  | connect
  | write (data : Bytes)
  | close
  | tick (elapsedMs : Nat)
  | receiveDatagram (datagram : Ipv4Datagram)
  | receiveIpv4Bytes (packet : Bytes)
  deriving DecidableEq, Repr

def perform (host : IpHost) : HostOp → Exec (IpHost × IpHostOutput)
  | .connect => host.connect
  | .write data => do
      let (host, _, output) ← host.write data
      .ok (host, output)
  | .close => host.close
  | .tick elapsedMs => host.tick elapsedMs
  | .receiveDatagram datagram => host.receiveDatagram datagram
  | .receiveIpv4Bytes packet => host.receiveIpv4Bytes packet

/-- A host and the events it has reported. -/
structure Session where
  host : IpHost
  events : List IpHostEvent

def start (host : IpHost) : Session where
  host := host
  events := []

def Session.step (s : Session) (op : HostOp) : Exec Session := do
  let (host, output) ← s.host.perform op
  .ok { host := host, events := s.events ++ output.events }

/-- The segment that a datagram brings to the connection. -/
def segmentOf (host : IpHost) (datagram : Ipv4Datagram) : Option TcpSegment :=
  if datagram.header.dst = host.config.localIp ∧ datagram.header.protocol = IPV4_PROTOCOL_TCP ∧
      datagram.header.src = host.config.peerIp then
    match TcpSegment.parseIpv4Bytes datagram.header.src datagram.header.dst datagram.payload with
    | .ok (.ok segment) =>
        if host.connection.belongsToThisConnection segment then some segment else none
    | _ => none
  else none

def HostOp.segment (host : IpHost) : HostOp → Option TcpSegment
  | .receiveDatagram datagram => host.segmentOf datagram
  | .receiveIpv4Bytes packet =>
      match Ipv4Datagram.parseBytes packet with
      | .ok (.ok datagram) => host.segmentOf datagram
      | _ => none
  | _ => none

/-- The operation of the connection that an operation of the host is. -/
def HostOp.connOp (host : IpHost) : HostOp → Option ConnOp
  | .connect => some .flushSender
  | .write data => some (.write data)
  | .close => some .close
  | .tick elapsedMs => some (.tick elapsedMs)
  | op => (op.segment host).map .receiveSegment

/-- The segment that an operation of the connection brings. -/
def segment? : ConnOp → Option TcpSegment
  | .receiveSegment segment => some segment
  | _ => none

/-- What is reported before the connection sees the operation. -/
def incomingEvents : ConnOp → List IpHostEvent
  | .receiveSegment segment =>
      .incomingTcp segment ::
        if segment.payload.isEmpty then [] else [.tcpPayload segment.payload]
  | _ => []

/-- Hand an operation to the connection and wrap what it returns. -/
def dispatch (host : IpHost) (op : ConnOp) : Exec (IpHost × IpHostOutput) := do
  let (connection, segments) ← host.connection.perform op
  let output ← host.wrapTcpSegments segments
  .ok ({ host with connection := connection },
    IpHostOutput.extend { datagrams := [], events := incomingEvents op } output)

/-- What the host answers to a datagram that brings no segment. -/
def answer (host : IpHost) (datagram : Ipv4Datagram) : Exec IpHostOutput :=
  if datagram.header.dst ≠ host.config.localIp then .ok .empty
  else if datagram.header.protocol = IPV4_PROTOCOL_ICMP then
    receiveIcmp datagram.header.src datagram.header.dst datagram.payload
  else if datagram.header.protocol = IPV4_PROTOCOL_TCP ∧
      datagram.header.src = host.config.peerIp then do
    match ← TcpSegment.parseIpv4Bytes datagram.header.src datagram.header.dst datagram.payload with
    | .error err => .ok { datagrams := [], events := [.ignoredMalformedTcp err.debug] }
    | .ok _ => .ok .empty
  else .ok .empty

variable {host host1 : IpHost} {output : IpHostOutput} {segment : TcpSegment}
  {segments : List TcpSegment} {datagram : Ipv4Datagram} {op : HostOp} {connOp : ConnOp}

/-- The ports are the ones `receive_segment` looks at. -/
theorem belongsToThisConnection_iff {connection : TcpConnection} :
    connection.belongsToThisConnection segment = true ↔
      ¬ (segment.header.srcPort ≠ connection.peerPort ∨
        segment.header.dstPort ≠ connection.localPort) := by
  unfold belongsToThisConnection
  simp

/-- What it takes for a datagram to reach the connection. -/
theorem segmentOf_eq_some : host.segmentOf datagram = some segment ↔
    datagram.header.dst = host.config.localIp ∧
      datagram.header.protocol = IPV4_PROTOCOL_TCP ∧
      datagram.header.src = host.config.peerIp ∧
      TcpSegment.parseIpv4Bytes datagram.header.src datagram.header.dst datagram.payload
        = .ok (.ok segment) ∧
      host.connection.belongsToThisConnection segment = true := by
  unfold segmentOf
  by_cases hheader : datagram.header.dst = host.config.localIp ∧
      datagram.header.protocol = IPV4_PROTOCOL_TCP ∧ datagram.header.src = host.config.peerIp
  · rw [if_pos hheader]
    obtain ⟨hdst, hprotocol, hsrc⟩ := hheader
    simp only [hdst, hprotocol, hsrc, true_and]
    split
    · rename_i segment1 hparsed
      rw [hparsed]
      simp only [Except.ok.injEq]
      split_ifs with hport
      · rw [Option.some.injEq]
        exact ⟨fun heq => ⟨heq, heq ▸ hport⟩, fun hboth => hboth.1⟩
      · exact iff_of_false (by simp) (fun hboth => hport (hboth.1 ▸ hboth.2))
    · rename_i hrejected
      exact iff_of_false (by simp) (fun hboth => hrejected segment hboth.1)
  · rw [if_neg hheader]
    exact iff_of_false (by simp)
      (fun ⟨hdst, hprotocol, hsrc, _⟩ => hheader ⟨hdst, hprotocol, hsrc⟩)

/-! ## Datagrams -/

theorem receiveDatagram_of_segment (h : host.segmentOf datagram = some segment) :
    host.receiveDatagram datagram = host.dispatch (.receiveSegment segment) := by
  obtain ⟨hdst, hprotocol, hsrc, hparsed, hport⟩ := segmentOf_eq_some.mp h
  have hicmp : ¬ IPV4_PROTOCOL_TCP = IPV4_PROTOCOL_ICMP := by decide
  unfold receiveDatagram
  dsimp only
  rw [if_neg (by simp [hdst]), hprotocol, if_neg hicmp, if_pos ⟨rfl, hsrc⟩, receiveTcp, hparsed,
    Exec.ok_bind]
  dsimp only
  rw [if_neg (belongsToThisConnection_iff.mp hport)]
  rfl

/-- A datagram that brings no segment leaves the host as it is. -/
theorem receiveDatagram_of_idle (h : host.segmentOf datagram = none) :
    host.receiveDatagram datagram = (do
      let output ← host.answer datagram
      .ok (host, output)) := by
  -- both make the same tests in the same order
  unfold receiveDatagram answer
  dsimp only
  by_cases hdst : datagram.header.dst = host.config.localIp
  swap
  · rw [if_pos hdst, if_pos hdst]
    rfl
  have hlocal : ¬ datagram.header.dst ≠ host.config.localIp := not_not.mpr hdst
  rw [if_neg hlocal, if_neg hlocal]
  by_cases hicmp : datagram.header.protocol = IPV4_PROTOCOL_ICMP
  · rw [if_pos hicmp, if_pos hicmp]
  rw [if_neg hicmp, if_neg hicmp]
  by_cases htcp : datagram.header.protocol = IPV4_PROTOCOL_TCP ∧
      datagram.header.src = host.config.peerIp
  swap
  · rw [if_neg htcp, if_neg htcp]
    rfl
  rw [if_pos htcp, if_pos htcp, receiveTcp]
  cases hparsed : TcpSegment.parseIpv4Bytes datagram.header.src datagram.header.dst
      datagram.payload with
  | error fault => rfl
  | ok result =>
      cases result with
      | error err => rfl
      | ok segment =>
          -- only the ports can be wrong
          have hport : ¬ host.connection.belongsToThisConnection segment = true := by
            intro hport
            have hsome := segmentOf_eq_some.mpr ⟨hdst, htcp.1, htcp.2, hparsed, hport⟩
            rw [h] at hsome
            exact absurd hsome (by simp)
          have hports := not_not.mp (mt belongsToThisConnection_iff.mpr hport)
          simp only [Exec.ok_bind]
          rw [if_pos hports]

theorem receiveIcmp_silent {srcIp dstIp : Ipv4AddrBytes} {bytes : Bytes}
    (h : receiveIcmp srcIp dstIp bytes = .ok output) : output.Silent := by
  obtain ⟨parsed, -, h⟩ := Exec.bind_eq_ok.mp h
  cases parsed with
  | error err =>
      obtain rfl := Except.ok.inj h
      exact .of_event rfl
  | ok message =>
      dsimp only at h
      cases hreply : message.echoReplyFromRequest with
      | none =>
          rw [hreply] at h
          obtain rfl := Except.ok.inj h
          exact .empty
      | some reply =>
          -- the two echo events, and one ICMP datagram
          rw [hreply] at h
          obtain ⟨bytes, -, h⟩ := Exec.bind_eq_ok.mp h
          obtain rfl := Except.ok.inj h
          constructor
          · intro event hevent
            rcases List.mem_cons.mp hevent with rfl | hevent
            · rfl
            · obtain rfl := List.mem_singleton.mp hevent
              rfl
          · intro datagram hdatagram
            obtain rfl := List.mem_singleton.mp hdatagram
            exact (by decide : IPV4_PROTOCOL_ICMP ≠ IPV4_PROTOCOL_TCP)

theorem receiveIcmp_total {srcIp dstIp : Ipv4AddrBytes} {bytes : Bytes}
    (h : bytes.length ≤ 65535) : ∃ output, receiveIcmp srcIp dstIp bytes = .ok output := by
  obtain ⟨result, hparsed, hlength⟩ :=
    IcmpMessage.parseBytes_total (wordSum_lt_of_length (show bytes.length ≤ 131074 by omega))
  unfold receiveIcmp
  rw [hparsed, Exec.ok_bind]
  cases result with
  | error err => exact ⟨_, rfl⟩
  | ok message =>
      dsimp only
      cases hreply : message.echoReplyFromRequest with
      | none => exact ⟨_, rfl⟩
      | some reply =>
          -- the reply carries the payload of the request
          obtain ⟨-, -, rfl⟩ := IcmpMessage.echoReplyFromRequest_eq_some.mp hreply
          have hfits := hlength message rfl
          have hserializes : ∃ bytes1, IcmpMessage.serialize ⟨ICMP_ECHO_REPLY, 0,
              message.identifier, message.sequenceNumber, message.payload⟩ = .ok bytes1 :=
            IcmpMessage.serialize_total (by dsimp only; omega)
          obtain ⟨bytes1, hserialized⟩ := hserializes
          dsimp only
          rw [hserialized]
          exact ⟨_, rfl⟩

theorem answer_silent (h : host.answer datagram = .ok output) : output.Silent := by
  unfold answer at h
  split_ifs at h
  · obtain rfl := Except.ok.inj h
    exact .empty
  · exact receiveIcmp_silent h
  · -- TCP from the peer: bytes that do not parse are reported
    obtain ⟨parsed, -, h⟩ := Exec.bind_eq_ok.mp h
    cases parsed with
    | error err =>
        obtain rfl := Except.ok.inj h
        exact .of_event rfl
    | ok segment =>
        obtain rfl := Except.ok.inj h
        exact .empty
  · obtain rfl := Except.ok.inj h
    exact .empty

theorem answer_total (host : IpHost) (h : datagram.payload.length ≤ 65535) :
    ∃ output, host.answer datagram = .ok output := by
  unfold answer
  split_ifs
  · exact ⟨_, rfl⟩
  · exact receiveIcmp_total h
  · obtain ⟨result, hparsed, -⟩ :=
      TcpSegment.parseIpv4Bytes_total datagram.header.src datagram.header.dst h
    rw [hparsed, Exec.ok_bind]
    cases result <;> exact ⟨_, rfl⟩
  · exact ⟨_, rfl⟩

/-- Every segment that is wrapped is reported, in order. -/
theorem wrapTcpSegments_events (h : host.wrapTcpSegments segments = .ok output) :
    output.events = segments.map .outgoingTcp := by
  induction segments generalizing output with
  | nil =>
      obtain rfl := Except.ok.inj h
      rfl
  | cons segment rest ih =>
      obtain ⟨bytes, -, h⟩ := Exec.bind_eq_ok.mp h
      obtain ⟨output1, hrest, h⟩ := Exec.bind_eq_ok.mp h
      obtain rfl := Except.ok.inj h
      rw [List.map_cons, ih hrest]

/-! ## All operations -/

/-- A datagram given as a value has a payload that fits in one. -/
def HostOp.Fits : HostOp → Prop
  | .receiveDatagram datagram => datagram.payload.length ≤ 65535
  | _ => True

theorem HostOp.segment_eq (op : HostOp) (host : IpHost) :
    op.segment host = (op.connOp host).bind segment? := by
  cases op with
  | connect => rfl
  | write data => rfl
  | close => rfl
  | tick elapsedMs => rfl
  | receiveDatagram datagram =>
      show _ = (((HostOp.receiveDatagram datagram).segment host).map .receiveSegment).bind segment?
      cases (HostOp.receiveDatagram datagram).segment host <;> rfl
  | receiveIpv4Bytes packet =>
      show _ = (((HostOp.receiveIpv4Bytes packet).segment host).map .receiveSegment).bind segment?
      cases (HostOp.receiveIpv4Bytes packet).segment host <;> rfl

theorem HostOp.belongs (h : op.segment host = some segment) :
    host.connection.belongsToThisConnection segment = true := by
  have hdatagram : ∀ datagram, host.segmentOf datagram = some segment →
      host.connection.belongsToThisConnection segment = true := by
    intro datagram hsome
    obtain ⟨-, -, -, -, hport⟩ := segmentOf_eq_some.mp hsome
    exact hport
  cases op with
  | receiveDatagram datagram => exact hdatagram datagram h
  | receiveIpv4Bytes packet =>
      unfold HostOp.segment at h
      dsimp only at h
      split at h
      · exact hdatagram _ h
      · exact absurd h (by simp)
  | connect => exact absurd h (by simp [HostOp.segment])
  | write data => exact absurd h (by simp [HostOp.segment])
  | close => exact absurd h (by simp [HostOp.segment])
  | tick elapsedMs => exact absurd h (by simp [HostOp.segment])

theorem perform_of_connOp (h : op.connOp host = some connOp) :
    host.perform op = host.dispatch connOp := by
  cases op with
  | connect =>
      obtain rfl := Option.some.inj h
      rfl
  | write data =>
      obtain rfl := Option.some.inj h
      rw [perform, IpHost.write, dispatch, TcpConnection.perform]
      cases host.connection.write data with
      | error fault => rfl
      | ok result =>
          obtain ⟨connection, accepted, segments⟩ := result
          simp only [Exec.ok_bind]
          cases host.wrapTcpSegments segments <;> rfl
  | close =>
      obtain rfl := Option.some.inj h
      rfl
  | tick elapsedMs =>
      obtain rfl := Option.some.inj h
      rfl
  | receiveDatagram datagram =>
      obtain ⟨segment, hsegment, rfl⟩ := Option.map_eq_some_iff.mp h
      exact receiveDatagram_of_segment hsegment
  | receiveIpv4Bytes packet =>
      obtain ⟨segment, hsegment, rfl⟩ := Option.map_eq_some_iff.mp h
      obtain ⟨result, hparsed, -⟩ := Ipv4Datagram.parseBytes_total packet
      unfold HostOp.segment at hsegment
      rw [perform, receiveIpv4Bytes, hparsed, Exec.ok_bind]
      simp only [hparsed] at hsegment
      cases result with
      | error err => exact absurd hsegment (by simp)
      | ok datagram => exact receiveDatagram_of_segment hsegment

/-- What does not reach the connection comes from the network. -/
theorem HostOp.of_idle (h : op.connOp host = none) :
    (∃ datagram, op = .receiveDatagram datagram ∧ host.segmentOf datagram = none) ∨
      ∃ packet, op = .receiveIpv4Bytes packet ∧
        ∀ datagram, Ipv4Datagram.parseBytes packet = .ok (.ok datagram) →
          host.segmentOf datagram = none := by
  cases op with
  | connect => exact absurd h (by simp [HostOp.connOp])
  | write data => exact absurd h (by simp [HostOp.connOp])
  | close => exact absurd h (by simp [HostOp.connOp])
  | tick elapsedMs => exact absurd h (by simp [HostOp.connOp])
  | receiveDatagram datagram => exact Or.inl ⟨datagram, rfl, Option.map_eq_none_iff.mp h⟩
  | receiveIpv4Bytes packet =>
      refine Or.inr ⟨packet, rfl, ?_⟩
      intro datagram hparsed
      have hsegment := Option.map_eq_none_iff.mp h
      simpa only [HostOp.segment, hparsed] using hsegment

theorem perform_of_idle (h : op.connOp host = none) (hrun : host.perform op = .ok (host1, output)) :
    host1 = host ∧ output.Silent := by
  have hdatagram : ∀ datagram, host.segmentOf datagram = none →
      host.receiveDatagram datagram = .ok (host1, output) → host1 = host ∧ output.Silent := by
    intro datagram hnone hreceive
    rw [receiveDatagram_of_idle hnone] at hreceive
    obtain ⟨output1, hanswer, hok⟩ := Exec.bind_eq_ok.mp hreceive
    obtain ⟨rfl, rfl⟩ := Prod.mk.inj (Except.ok.inj hok)
    exact ⟨rfl, answer_silent hanswer⟩
  rcases HostOp.of_idle h with ⟨datagram, rfl, hnone⟩ | ⟨packet, rfl, hnone⟩
  · exact hdatagram datagram hnone hrun
  · obtain ⟨parsed, hparsed, hrun⟩ := Exec.bind_eq_ok.mp hrun
    cases parsed with
    | error err =>
        obtain ⟨rfl, rfl⟩ := Prod.mk.inj (Except.ok.inj hrun)
        exact ⟨rfl, .of_event rfl⟩
    | ok datagram => exact hdatagram datagram (hnone datagram hparsed) hrun

theorem perform_idle_total (hfits : op.Fits) (h : op.connOp host = none) :
    ∃ output, host.perform op = .ok (host, output) := by
  have hdatagram : ∀ datagram, datagram.payload.length ≤ 65535 →
      host.segmentOf datagram = none →
      ∃ output, host.receiveDatagram datagram = .ok (host, output) := by
    intro datagram hle hnone
    obtain ⟨output, hanswer⟩ := host.answer_total hle
    rw [receiveDatagram_of_idle hnone, hanswer]
    exact ⟨output, rfl⟩
  rcases HostOp.of_idle h with ⟨datagram, rfl, hnone⟩ | ⟨packet, rfl, hnone⟩
  · exact hdatagram datagram hfits hnone
  · obtain ⟨result, hparsed, hlength⟩ := Ipv4Datagram.parseBytes_total packet
    rw [perform, receiveIpv4Bytes, hparsed, Exec.ok_bind]
    cases result with
    | error err => exact ⟨_, rfl⟩
    | ok datagram =>
        -- the length field of the header bounds the payload
        have hpayload := hlength datagram rfl
        exact hdatagram datagram (by omega) (hnone datagram hparsed)

theorem dispatch_eq_ok : host.dispatch connOp = .ok (host1, output) ↔
    ∃ connection segments wrapped,
      host.connection.perform connOp = .ok (connection, segments) ∧
      host.wrapTcpSegments segments = .ok wrapped ∧
      host1 = { host with connection := connection } ∧
      output = IpHostOutput.extend { datagrams := [], events := incomingEvents connOp } wrapped := by
  unfold dispatch
  rw [Exec.bind_eq_ok]
  constructor
  · rintro ⟨⟨connection, segments⟩, hperform, h⟩
    obtain ⟨wrapped, hwrap, hok⟩ := Exec.bind_eq_ok.mp h
    obtain ⟨rfl, rfl⟩ := Prod.mk.inj (Except.ok.inj hok)
    exact ⟨connection, segments, wrapped, hperform, hwrap, rfl, rfl⟩
  · rintro ⟨connection, segments, wrapped, hperform, hwrap, rfl, rfl⟩
    exact ⟨(connection, segments), hperform, Exec.bind_eq_ok.mpr ⟨wrapped, hwrap, rfl⟩⟩

/-- No operation changes the configuration. -/
theorem perform_config (h : host.perform op = .ok (host1, output)) :
    host1.config = host.config := by
  cases hop : op.connOp host with
  | none =>
      obtain ⟨rfl, -⟩ := perform_of_idle hop h
      rfl
  | some connOp =>
      rw [perform_of_connOp hop] at h
      obtain ⟨connection, segments, wrapped, -, -, rfl, -⟩ := dispatch_eq_ok.mp h
      rfl

end IpHost

end Minnow
