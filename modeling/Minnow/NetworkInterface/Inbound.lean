import Minnow.NetworkInterface.Basic
import Minnow.Library.Run

set_option autoImplicit false

/-! # The inbound queue

Only `recv_frame` fills it, with datagrams that were parsed; they are short enough to be sent
again. Sending neither reads the queue nor changes it, so it can be emptied before or after.
-/

namespace Minnow

namespace NetworkInterface

variable {iface iface1 : NetworkInterface} {datagram : Ipv4Datagram} {frame : EthernetFrame}
  {nextHop : Ipv4AddrBytes} {op : InterfaceOp}

/-! ## What fills it -/

/-- A frame adds what the parser makes of it. -/
theorem recvFrame_inbound (h : iface.recvFrame frame = .ok iface1) :
    ∃ datagrams, iface1.datagramsIn = iface.datagramsIn ++ datagrams ∧
      ∀ datagram ∈ datagrams, Ipv4Datagram.parseBytes frame.payload = .ok (.ok datagram) := by
  by_cases hbrings : ∃ message, iface.Brings frame message
  · obtain ⟨message, hmessage⟩ := hbrings
    refine ⟨[], ?_, fun _ hmem => absurd hmem List.not_mem_nil⟩
    rw [List.append_nil]
    cases learned_performed hmessage h with
    | learned _ _ _ => rfl
    | received hno => exact absurd hmessage (hno message)
  · obtain ⟨datagrams, rfl, hparsed⟩ := recvFrame_of_not_brings (not_exists.mp hbrings) h
    exact ⟨datagrams, rfl, hparsed⟩

/-- An interface that its operations produce. -/
def Reachable (iface : NetworkInterface) : Prop :=
  ∃ mac own ops, Exec.run perform (.new mac own) ops = .ok iface

theorem Reachable.perform (h : iface.Reachable) (op : InterfaceOp)
    (hop : iface.perform op = .ok iface1) : iface1.Reachable := by
  obtain ⟨mac, own, ops, hrun⟩ := h
  have hlast : Exec.run NetworkInterface.perform iface [op] = .ok iface1 :=
    Exec.run_cons_eq_ok.mpr ⟨iface1, hop, rfl⟩
  exact ⟨mac, own, ops ++ [op], Exec.run_append_eq_ok.mpr ⟨iface, hrun, hlast⟩⟩

/-- The inbound datagrams can be sent again. -/
def Fits (iface : NetworkInterface) : Prop :=
  ∀ datagram ∈ iface.datagramsIn, datagram.payload.length ≤ 65515

theorem fits_perform (h : iface.Fits) (hop : iface.perform op = .ok iface1) : iface1.Fits := by
  have htail : ∀ datagram ∈ iface.datagramsIn.tail, datagram.payload.length ≤ 65515 :=
    fun datagram hmem => h datagram (List.mem_of_mem_tail hmem)
  cases op with
  | recvFrame frame =>
      obtain ⟨datagrams, hinbound, hparsed⟩ := recvFrame_inbound hop
      intro datagram hmem
      rw [hinbound] at hmem
      rcases List.mem_append.mp hmem with hmem | hmem
      · exact h datagram hmem
      · obtain ⟨result, hresult, hle⟩ := Ipv4Datagram.parseBytes_total frame.payload
        rw [hparsed datagram hmem, Except.ok.injEq] at hresult
        have := hle datagram hresult.symm
        unfold IPV4_HEADER_MIN_LEN at this
        omega
  | sendDatagram datagram nextHop =>
      cases perform_performed hop with
      | emitted _ _ => exact h
      | requested _ _ _ => exact h
      | queued _ _ => exact h
  | tick elapsedMs =>
      obtain rfl := Except.ok.inj hop
      exact h
  | popFrame =>
      obtain rfl := Except.ok.inj hop
      exact h
  | popDatagram =>
      obtain rfl := Except.ok.inj hop
      exact htail

theorem Reachable.fits (h : iface.Reachable) : iface.Fits := by
  obtain ⟨mac, own, ops, hrun⟩ := h
  exact Exec.run_invariant Fits (fun _ _ _ => fits_perform)
    (fun datagram hmem => absurd hmem List.not_mem_nil) hrun

/-! ## What sending leaves alone -/

/-- The interface with an empty inbound queue. -/
def drained (iface : NetworkInterface) : NetworkInterface := { iface with datagramsIn := [] }

theorem sendDatagram_drained (h : iface.sendDatagram datagram nextHop = .ok iface1) :
    iface.drained.sendDatagram datagram nextHop = .ok iface1.drained := by
  cases hcached : iface.lookupEthernetAddress nextHop with
  | some mac =>
      have hdrained : iface.drained.lookupEthernetAddress nextHop = some mac := hcached
      rw [sendDatagram_of_cached hcached] at h
      rw [sendDatagram_of_cached hdrained]
      obtain ⟨frame, hframe, rfl⟩ := emitIpv4Frame_eq_ok.mp h
      exact emitIpv4Frame_eq_ok.mpr ⟨frame, hframe, rfl⟩
  | none =>
      have hdrained : iface.drained.lookupEthernetAddress nextHop = none := hcached
      have hentry : iface.drained.entry nextHop = iface.entry nextHop := rfl
      rw [sendDatagram_of_miss hcached] at h
      rw [sendDatagram_of_miss hdrained, hentry]
      split_ifs at h ⊢
      · obtain ⟨bytes, hbytes, hemit⟩ := Exec.bind_eq_ok.mp h
        obtain rfl := Except.ok.inj hemit
        exact Exec.bind_eq_ok.mpr ⟨bytes, hbytes, rfl⟩
      · obtain rfl := Except.ok.inj h
        rfl

/-- What sending a datagram keeps. -/
structure Sent (iface iface1 : NetworkInterface) : Prop where
  ethernetAddress : iface1.ethernetAddress = iface.ethernetAddress
  arpCache : iface1.arpCache = iface.arpCache
  datagramsIn : iface1.datagramsIn = iface.datagramsIn

theorem sendDatagram_sent (h : iface.sendDatagram datagram nextHop = .ok iface1) :
    Sent iface iface1 := by
  cases sendDatagram_performed h with
  | emitted _ _ => exact ⟨rfl, rfl, rfl⟩
  | requested _ _ _ => exact ⟨rfl, rfl, rfl⟩
  | queued _ _ => exact ⟨rfl, rfl, rfl⟩

theorem sendDatagram_total (iface : NetworkInterface) (nextHop : Ipv4AddrBytes)
    (h : datagram.payload.length ≤ 65515) :
    ∃ iface1, iface.sendDatagram datagram nextHop = .ok iface1 := by
  cases hcached : iface.lookupEthernetAddress nextHop with
  | some mac =>
      rw [sendDatagram_of_cached hcached]
      exact ⟨_, emitIpv4Frame_eq_ok.mpr ⟨_, ⟨_, Ipv4Datagram.serialize_eq h, rfl⟩, rfl⟩⟩
  | none =>
      rw [sendDatagram_of_miss hcached]
      split_ifs
      · obtain ⟨request, -, hemit⟩ := emitArpRequest_ok
          (iface.await nextHop ((iface.entry nextHop).push datagram).markRequestSent) nextHop
        exact ⟨_, hemit⟩
      · exact ⟨_, rfl⟩

end NetworkInterface

end Minnow
