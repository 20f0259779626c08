import Minnow.Internet.Refinement
import Minnow.NetworkInterface.Provenance

set_option autoImplicit false

/-! # What a host sends

Whatever arrives at a host whose counters are in range, it does not stop, and what it sends then is
from its own address and can be serialized (`Healthy.perform`).
-/

namespace Minnow

namespace IpHost

open TcpConnection Internet NetworkInterface

variable {host host1 : IpHost} {op : HostOp} {output : IpHostOutput} {segments : List TcpSegment}
  {datagram : Ipv4Datagram} {n limit : Nat}

/-- The bytes are a datagram from `ip`. -/
def FromHost (ip : Ipv4AddrBytes) (bytes : Bytes) : Prop :=
  ∃ datagram : Ipv4Datagram, datagram.header.src = ip ∧ datagram.serialize = .ok bytes

/-- The counters of the connection are in range, and its segments fit in a datagram. -/
structure Healthy (n : Nat) (host : IpHost) : Prop where
  bounded : Bounded n host.connection
  slim : Slim 65495 host.connection

/-! ## Addresses -/

theorem wrapTcpSegments_src (h : host.wrapTcpSegments segments = .ok output) :
    ∀ datagram ∈ output.datagrams, datagram.header.src = host.config.localIp := by
  induction segments generalizing output with
  | nil =>
      obtain rfl := Except.ok.inj h
      exact fun _ hd => absurd hd List.not_mem_nil
  | cons segment rest ih =>
      obtain ⟨tcpBytes, -, h⟩ := Exec.bind_eq_ok.mp h
      obtain ⟨output1, hrest, hok⟩ := Exec.bind_eq_ok.mp h
      obtain rfl := Except.ok.inj hok
      intro datagram hd
      rcases List.mem_cons.mp hd with rfl | hd
      · rfl
      · exact ih hrest datagram hd

/-- An echo reply is from the address that the request was for. -/
theorem receiveIcmp_src {srcIp dstIp : Ipv4AddrBytes} {bytes : Bytes}
    (h : receiveIcmp srcIp dstIp bytes = .ok output) :
    ∀ datagram ∈ output.datagrams, datagram.header.src = dstIp := by
  obtain ⟨parsed, -, h⟩ := Exec.bind_eq_ok.mp h
  cases parsed with
  | error err =>
      obtain rfl := Except.ok.inj h
      exact fun _ hd => absurd hd List.not_mem_nil
  | ok message =>
      dsimp only at h
      cases hreply : message.echoReplyFromRequest with
      | none =>
          rw [hreply] at h
          obtain rfl := Except.ok.inj h
          exact fun _ hd => absurd hd List.not_mem_nil
      | some reply =>
          rw [hreply] at h
          obtain ⟨replyBytes, -, hok⟩ := Exec.bind_eq_ok.mp h
          obtain rfl := Except.ok.inj hok
          intro datagram hd
          obtain rfl := List.mem_singleton.mp hd
          rfl

theorem answer_src (h : host.answer datagram = .ok output) :
    ∀ reply ∈ output.datagrams, reply.header.src = host.config.localIp := by
  unfold answer at h
  split_ifs at h with hother hicmp htcp
  · obtain rfl := Except.ok.inj h
    exact fun _ hd => absurd hd List.not_mem_nil
  · rw [← not_not.mp hother]
    exact receiveIcmp_src h
  · obtain ⟨parsed, -, h⟩ := Exec.bind_eq_ok.mp h
    cases parsed with
    | error err =>
        obtain rfl := Except.ok.inj h
        exact fun _ hd => absurd hd List.not_mem_nil
    | ok segment =>
        obtain rfl := Except.ok.inj h
        exact fun _ hd => absurd hd List.not_mem_nil
  · obtain rfl := Except.ok.inj h
    exact fun _ hd => absurd hd List.not_mem_nil

/-- Whatever a host sends is from its own address. -/
theorem perform_src (h : host.perform op = .ok (host1, output)) :
    ∀ datagram ∈ output.datagrams, datagram.header.src = host.config.localIp := by
  have hanswered : ∀ datagram, host.segmentOf datagram = none →
      host.receiveDatagram datagram = .ok (host1, output) →
      ∀ reply ∈ output.datagrams, reply.header.src = host.config.localIp := by
    intro datagram hnone hreceive
    rw [receiveDatagram_of_idle hnone] at hreceive
    obtain ⟨output1, hanswer, hok⟩ := Exec.bind_eq_ok.mp hreceive
    obtain ⟨-, rfl⟩ := Prod.mk.inj (Except.ok.inj hok)
    exact answer_src hanswer
  cases hop : op.connOp host with
  | some connOp =>
      rw [perform_of_connOp hop] at h
      obtain ⟨connection, segments, wrapped, -, hwrap, -, rfl⟩ := dispatch_eq_ok.mp h
      have hsrc := wrapTcpSegments_src hwrap
      exact hsrc
  | none =>
      rcases HostOp.of_idle hop with ⟨datagram, rfl, hnone⟩ | ⟨packet, rfl, hnone⟩
      · exact hanswered datagram hnone h
      · obtain ⟨parsed, hparsed, h⟩ := Exec.bind_eq_ok.mp h
        cases parsed with
        | error err =>
            obtain ⟨-, rfl⟩ := Prod.mk.inj (Except.ok.inj h)
            exact fun _ hd => absurd hd List.not_mem_nil
        | ok datagram => exact hanswered datagram (hnone datagram hparsed) h

/-! ## One operation -/

/-- The bytes that an operation writes. -/
def HostOp.written : HostOp → Nat
  | .write data => data.length
  | _ => 0

theorem HostOp.written_of_connOp {connOp : ConnOp} (h : op.connOp host = some connOp) :
    connOp.written = op.written ∧ ∀ len, connOp ≠ .read len := by
  refine ⟨?_, (HostOp.written_le h).2⟩
  cases op with
  | connect => exact Option.some.inj h ▸ rfl
  | write data => exact Option.some.inj h ▸ rfl
  | close => exact Option.some.inj h ▸ rfl
  | tick elapsedMs => exact Option.some.inj h ▸ rfl
  | receiveDatagram datagram =>
      obtain ⟨segment, -, rfl⟩ := Option.map_eq_some_iff.mp h
      rfl
  | receiveIpv4Bytes packet =>
      obtain ⟨segment, -, rfl⟩ := Option.map_eq_some_iff.mp h
      rfl

/-- An operation returns, whatever arrives; what is sent is from the host, and can be
serialized. -/
theorem Healthy.perform (h : Healthy n host) (hsendable : Sendable op)
    (hmax : n + op.written + 2 ≤ u64Max) :
    ∃ host1 output list, host.perform op = .ok (host1, output) ∧ Healthy (n + op.written) host1 ∧
      emitOutput output.datagrams = .ok list ∧
      ∀ datagram ∈ output.datagrams, Known (FromHost host.config.localIp) datagram := by
  obtain ⟨host1, output, list, hrun, h1, hemit⟩ : ∃ host1 output list,
      host.perform op = .ok (host1, output) ∧ Healthy (n + op.written) host1 ∧
        emitOutput output.datagrams = .ok list := by
    cases hop : op.connOp host with
    | none =>
        obtain ⟨output, list, hrun, hemit⟩ := idle_total hsendable hop
        obtain ⟨data, hinv, hle⟩ := h.bounded.sender
        exact ⟨host, output, list, hrun,
          ⟨{ h.bounded with sender := ⟨data, hinv, hle.trans (Nat.le_add_right _ _)⟩ }, h.slim⟩,
          hemit⟩
    | some connOp =>
        obtain ⟨hwritten, hread⟩ := HostOp.written_of_connOp hop
        obtain ⟨connection, segments, hperform, hbounded, -⟩ :=
          h.bounded.perform (by rw [hwritten]; exact hmax) hread
        obtain ⟨data, hinv, -⟩ := h.bounded.sender
        obtain ⟨hslim, hsmall⟩ :=
          (perform_performed hperform).slim ⟨⟨data, hinv⟩, h.bounded.repInv⟩ h.slim
        obtain ⟨output, list, hwrap, hemit⟩ := wrap_total hsmall
        rw [hwritten] at hbounded
        rw [perform_of_connOp hop]
        exact ⟨_, _, list,
          dispatch_eq_ok.mpr ⟨connection, segments, output, hperform, hwrap, rfl, rfl⟩,
          ⟨hbounded, hslim⟩, hemit⟩
  refine ⟨host1, output, list, hrun, h1, hemit, ?_⟩
  intro datagram hdatagram
  obtain ⟨bytes, -, hbytes⟩ := emitOutput_mem hemit hdatagram
  exact ⟨bytes, hbytes, datagram, perform_src hrun datagram hdatagram, hbytes⟩

/-- The demo configuration is accepted, and the host is healthy. -/
theorem healthy_tcpDemo (localIp peerIp : Ipv4AddrBytes) {localPort peerPort : UInt16}
    (isn : Wrap32) (hlocal : localPort ≠ 0) (hpeer : peerPort ≠ 0) :
    ∃ host, IpHost.new (.tcpDemo localIp peerIp localPort peerPort isn) = .ok host ∧
      Healthy 0 host ∧ host.config = .tcpDemo localIp peerIp localPort peerPort isn := by
  obtain ⟨host, hnew, hbounded⟩ := new_tcpDemo localIp peerIp isn hlocal hpeer
  refine ⟨host, hnew, ⟨hbounded, (slim_new hnew).mono (show 1000 ≤ 65495 by decide)⟩, ?_⟩
  obtain ⟨connection, -, hok⟩ := Exec.bind_eq_ok.mp hnew
  obtain rfl := Except.ok.inj hok
  rfl

end IpHost

end Minnow
