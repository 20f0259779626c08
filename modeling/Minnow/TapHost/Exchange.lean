import Minnow.NetworkInterface.Exchange
import Minnow.TapHost.Steps

set_option autoImplicit false

/-! # A station resolves an address

The steps of one station in an exchange that begins with nothing known: the timer of the host
expires late enough for the interface to have forgotten all it knew, so the datagram waits and the
address is asked for; the peer answers; the datagram goes out, and reaches the host there.
-/

namespace Minnow

open IpHost NetworkInterface

namespace TapHost

variable {P : Bytes → Prop} {t t1 : TapHost} {host : IpHost} {output : IpHostOutput}
  {iface iface1 : NetworkInterface} {datagram : Ipv4Datagram} {datagrams : List Ipv4Datagram}
  {frame : EthernetFrame} {message : ArpMessage} {mac src dst : EthernetAddress} {elapsedMs : Nat}

/-- What goes to a known address goes out at once. -/
theorem sendDatagrams_cached
    (hcached : ∀ d ∈ datagrams, iface.lookupEthernetAddress d.header.dst = some mac)
    (h : sendDatagrams iface datagrams = .ok iface1) :
    ∃ frames, List.Forall₂ (Carries iface.ethernetAddress mac) datagrams frames ∧
      iface1 = iface.enqueue frames := by
  induction datagrams generalizing iface with
  | nil =>
      obtain rfl := Except.ok.inj h
      exact ⟨[], .nil, (enqueue_nil iface).symm⟩
  | cons datagram rest ih =>
      obtain ⟨iface2, hfirst, hrest⟩ := Exec.bind_eq_ok.mp h
      rw [sendDatagram_of_cached (hcached datagram List.mem_cons_self)] at hfirst
      obtain ⟨frame, hframe, rfl⟩ := emitIpv4Frame_eq_ok.mp hfirst
      obtain ⟨frames, hframes, rfl⟩ := ih
        (show ∀ d ∈ rest, (iface.enqueue [frame]).lookupEthernetAddress d.header.dst = some mac from
          fun d hd => hcached d (List.mem_cons_of_mem _ hd)) hrest
      exact ⟨frame :: frames, .cons hframe hframes, enqueue_enqueue iface [frame] frames⟩

/-! ## What a frame is to the host -/

theorem inbound_of_carriesArp (h : CarriesArp src dst message frame) :
    inbound mac frame.serialize = none := by
  obtain ⟨bytes, -, rfl⟩ := h
  cases hbrought : inbound mac (EthernetFrame.arp dst src bytes).serialize with
  | none => rfl
  | some datagram =>
      obtain ⟨-, hipv4, -⟩ :=
        (inbound_of_frame (EthernetFrame.parseBytes_serialize _)).mp hbrought
      exact absurd (show ETHERTYPE_ARP = ETHERTYPE_IPV4 from hipv4) (by decide)

theorem inbound_of_carries (h : Carries src mac datagram frame) :
    inbound mac frame.serialize = some datagram := by
  obtain ⟨bytes, hbytes, rfl⟩ := h
  exact (inbound_of_frame (EthernetFrame.parseBytes_serialize _)).mpr
    ⟨EthernetFrame.isFor_iff.mpr (Or.inl rfl), rfl, Ipv4Datagram.parseBytes_serialize hbytes⟩

/-! ## The steps -/

/-- The datagram waits, and the address is asked for. -/
theorem Stepped.asks (h : Stepped P t (.tick elapsedMs) host output t1)
    (hlate : ARP_CACHE_TTL_MS ≤ elapsedMs) (houtput : output.datagrams = [datagram]) :
    t1.interface.queue datagram.header.dst = [datagram] ∧
      ∃ request ∈ t1.interface.framesOut,
        CarriesArp t.interface.ethernetAddress EthernetAddress.BROADCAST
          (.request t.interface.ethernetAddress t.interface.ipAddress datagram.header.dst)
          request := by
  have hinterface := h.interface
  rw [TapOp.interface, Exec.ok_bind, houtput] at hinterface
  obtain ⟨iface, hsend, hok⟩ := Exec.bind_eq_ok.mp hinterface
  obtain rfl := Except.ok.inj hok
  obtain ⟨hmiss, hnone⟩ := @tick_forgets t.interface elapsedMs hlate datagram.header.dst
  have hasks := sendDatagram_asks hmiss hnone hsend
  exact hasks

/-- All frames are written. -/
theorem Stepped.flushes (h : Stepped P t .flush host .empty t1) :
    t1.interface = { t.interface with framesOut := [] } ∧
      ∀ frame ∈ t.interface.framesOut, frame.serialize ∈ t1.written := by
  constructor
  · exact (Except.ok.inj h.interface).symm
  · intro frame hframe
    rw [h.written]
    exact List.mem_append_right _ (List.mem_map_of_mem hframe)

theorem Stepped.received (h : Stepped P t (.frame frame.serialize) host output t1) :
    ∃ iface, t.interface.recvFrame frame = .ok iface ∧
      sendDatagrams { iface with datagramsIn := [] } output.datagrams = .ok t1.interface := by
  have hinterface := h.interface
  rw [TapOp.interface, EthernetFrame.parseBytes_serialize, Exec.ok_bind] at hinterface
  obtain ⟨iface1, hready, hsend⟩ := Exec.bind_eq_ok.mp hinterface
  obtain ⟨iface, hrecv, hok⟩ := Exec.bind_eq_ok.mp hready
  obtain rfl := Except.ok.inj hok
  exact ⟨iface, hrecv, hsend⟩

/-- An ARP message is learned from, lets out what waits, and is answered if it asks. -/
theorem Stepped.hears (h : Stepped P t (.frame frame.serialize) host .empty t1)
    (hbrings : t.interface.Brings frame message) :
    t1.interface.lookupEthernetAddress message.senderIpAddress
        = some message.senderEthernetAddress ∧
      (∀ waiting ∈ t.interface.queue message.senderIpAddress, ∃ sent ∈ t1.interface.framesOut,
        Carries t.interface.ethernetAddress message.senderEthernetAddress waiting sent) ∧
      (t.interface.Asks message → ∃ reply ∈ t1.interface.framesOut,
        CarriesArp t.interface.ethernetAddress message.senderEthernetAddress
          (.reply t.interface.ethernetAddress t.interface.ipAddress message.senderEthernetAddress
            message.senderIpAddress) reply) := by
  obtain ⟨iface, hrecv, hsend⟩ := h.received
  have hinterface : { iface with datagramsIn := [] } = t1.interface := Except.ok.inj hsend
  rw [← hinterface]
  obtain ⟨hlookup, hqueue⟩ := recvFrame_learns hbrings hrecv
  refine ⟨hlookup, hqueue, ?_⟩
  intro hasks
  obtain ⟨reply, hreply, hcarries⟩ := recvFrame_answers hbrings hasks hrecv
  exact ⟨reply, hreply, hcarries⟩

/-- What the host answers to a datagram goes out at once, if the address is known. -/
theorem Stepped.answers (h : Stepped P t (.frame frame.serialize) host output t1)
    (hcarries : Carries src t.interface.ethernetAddress datagram frame)
    (hcached : ∀ d ∈ output.datagrams, t.interface.lookupEthernetAddress d.header.dst = some mac) :
    ∃ frames, List.Forall₂ (Carries t.interface.ethernetAddress mac) output.datagrams frames ∧
      ∀ frame ∈ frames, frame ∈ t1.interface.framesOut := by
  obtain ⟨iface, hrecv, hsend⟩ := h.received
  obtain ⟨bytes, hbytes, rfl⟩ := hcarries
  rw [recvFrame_of_ipv4 (EthernetFrame.isFor_iff.mpr (Or.inl rfl)) rfl
    (Ipv4Datagram.parseBytes_serialize hbytes)] at hrecv
  obtain rfl := Except.ok.inj hrecv
  obtain ⟨frames, hframes, hinterface⟩ := sendDatagrams_cached
    (show ∀ d ∈ output.datagrams,
      ({ t.interface with datagramsIn := [] } : NetworkInterface).lookupEthernetAddress d.header.dst
        = some mac from hcached) hsend
  refine ⟨frames, hframes, ?_⟩
  intro frame hframe
  rw [hinterface]
  exact List.mem_append_right _ hframe

end TapHost

end Minnow
