import Minnow.NetworkInterface.Exchange
import Minnow.Router.Provenance

set_option autoImplicit false

/-! # A router asks for the next hop

Routing sends all inbound datagrams, several perhaps on the same interface and to the same next hop.
If the address of that is not known, and nothing waits for it or it has been asked for already, then
every datagram to it waits, and the question is on its way out (`route_asks`).
-/

namespace Minnow

namespace NetworkInterface

variable {out out1 : NetworkInterface} {datagram other : Ipv4Datagram} {ip nextHop : Ipv4AddrBytes}
  {frame : EthernetFrame}

/-- The frame asks for the address of `ip`. -/
def Question (out : NetworkInterface) (ip : Ipv4AddrBytes) (frame : EthernetFrame) : Prop :=
  CarriesArp out.ethernetAddress EthernetAddress.BROADCAST
    (.request out.ethernetAddress out.ipAddress ip) frame

/-- The address is not known, and it has been asked for if something waits for it. -/
structure Ready (ip : Ipv4AddrBytes) (out : NetworkInterface) : Prop where
  miss : out.lookupEthernetAddress ip = none
  asked : out.pending ip = none ∨ ∃ frame ∈ out.framesOut, out.Question ip frame

/-- The datagram waits for the address, which has been asked for. -/
structure Asked (ip : Ipv4AddrBytes) (datagram : Ipv4Datagram) (out : NetworkInterface) : Prop where
  miss : out.lookupEthernetAddress ip = none
  waits : datagram ∈ out.queue ip
  asked : ∃ frame ∈ out.framesOut, out.Question ip frame

theorem shouldSendArpRequest_of_none (h : out.pending ip = none) :
    (out.entry ip).shouldSendArpRequest = true := by
  rw [entry, h]
  rfl

theorem pending_await_ne {pending : PendingResolution} (h : ip ≠ nextHop) :
    (out.await nextHop pending).pending ip = out.pending ip :=
  Function.update_of_ne h ..

/-- Sending to another address, or to the same one, changes nothing about that. -/
theorem Ready.send (h : Ready ip out) (hsend : out.sendDatagram datagram nextHop = .ok out1) :
    Ready ip out1 := by
  cases sendDatagram_performed hsend with
  | emitted _ _ =>
      refine ⟨h.miss, h.asked.imp_right ?_⟩
      rintro ⟨question, hmem, hquestion⟩
      exact ⟨question, List.mem_append_left _ hmem, hquestion⟩
  | @requested _ _ request _ _ hrequest =>
      by_cases hip : ip = nextHop
      · subst hip
        exact ⟨h.miss, Or.inr ⟨request, List.mem_append_right _ List.mem_cons_self, hrequest⟩⟩
      · refine ⟨h.miss, h.asked.imp (fun hnone => (pending_await_ne hip).trans hnone) ?_⟩
        rintro ⟨question, hmem, hquestion⟩
        exact ⟨question, List.mem_append_left _ hmem, hquestion⟩
  | queued _ hdue =>
      by_cases hip : ip = nextHop
      · subst hip
        refine ⟨h.miss, Or.inr (h.asked.resolve_left ?_)⟩
        intro hnone
        rw [shouldSendArpRequest_of_none hnone] at hdue
        exact absurd hdue (by decide)
      · exact ⟨h.miss, h.asked.imp_left fun hnone => (pending_await_ne hip).trans hnone⟩

theorem Ready.asks (h : Ready ip out) (hsend : out.sendDatagram datagram ip = .ok out1) :
    Asked ip datagram out1 := by
  have hready := h.send hsend
  have hwaits : datagram ∈ out1.queue ip := by
    cases sendDatagram_performed hsend with
    | emitted hcached _ =>
        rw [h.miss] at hcached
        exact nomatch hcached
    | requested _ _ _ =>
        show datagram ∈ (out.await ip _).queue ip
        rw [queue_await]
        exact List.mem_append_right _ List.mem_cons_self
    | queued _ _ =>
        rw [queue_await]
        exact List.mem_append_right _ List.mem_cons_self
  refine ⟨hready.miss, hwaits, hready.asked.resolve_left ?_⟩
  intro hnone
  rw [queue_of_pending_none hnone] at hwaits
  exact absurd hwaits List.not_mem_nil

theorem Asked.send (h : Asked ip datagram out)
    (hsend : out.sendDatagram other nextHop = .ok out1) : Asked ip datagram out1 := by
  have hready := Ready.send ⟨h.miss, Or.inr h.asked⟩ hsend
  have hwaits : datagram ∈ out1.queue ip := by
    have hawait : ∀ pending : PendingResolution,
        pending.datagrams = out.queue nextHop ++ [other] →
        datagram ∈ (out.await nextHop pending).queue ip := by
      intro pending hdatagrams
      by_cases hip : ip = nextHop
      · subst hip
        rw [queue_await, hdatagrams]
        exact List.mem_append_left _ h.waits
      · rw [queue_congr (pending_await_ne hip)]
        exact h.waits
    cases sendDatagram_performed hsend with
    | emitted _ _ => exact h.waits
    | requested _ _ _ => exact hawait _ (entry_push_datagrams out nextHop other)
    | queued _ _ => exact hawait _ (entry_push_datagrams out nextHop other)
  refine ⟨hready.miss, hwaits, hready.asked.resolve_left ?_⟩
  intro hnone
  rw [queue_of_pending_none hnone] at hwaits
  exact absurd hwaits List.not_mem_nil

end NetworkInterface

namespace Router

open NetworkInterface (Ready Asked drained)

variable {router router1 : Router} {datagram : Ipv4Datagram} {sending : Sending}
  {sendings : List Sending} {interfaces interfaces1 : List NetworkInterface} {interfaceNum : Nat}
  {K : NetworkInterface → Prop}

/-- The interface with that number has the property. -/
def At (interfaces : List NetworkInterface) (interfaceNum : Nat) (K : NetworkInterface → Prop) :
    Prop :=
  ∃ out, interfaces[interfaceNum]? = some out ∧ K out

theorem At.send
    (hK : ∀ out out1 datagram nextHop, K out →
      NetworkInterface.sendDatagram out datagram nextHop = .ok out1 → K out1)
    (h : At interfaces interfaceNum K) (hsend : send interfaces sending = .ok interfaces1) :
    At interfaces1 interfaceNum K := by
  obtain ⟨out, hout, hkept⟩ := h
  obtain ⟨interface, interface1, hinterface, hone, rfl⟩ := send_eq_ok.mp hsend
  by_cases hnum : sending.interfaceNum = interfaceNum
  · subst hnum
    obtain rfl : interface = out := Option.some.inj (hinterface.symm.trans hout)
    exact ⟨interface1, List.getElem?_set_self (List.getElem?_eq_some_iff.mp hout).1,
      hK interface interface1 _ _ hkept hone⟩
  · exact ⟨out, by rw [List.getElem?_set_ne hnum, hout], hkept⟩

theorem mem_inbound {interface : NetworkInterface}
    (hinterface : router.interfaces[interfaceNum]? = some interface)
    (hmem : datagram ∈ interface.datagramsIn) : datagram ∈ router.inbound :=
  List.mem_flatten.mpr ⟨interface.datagramsIn,
    List.mem_map_of_mem (List.mem_of_getElem? hinterface), hmem⟩

/-- Of all datagrams that are sent, every one to the next hop waits then. -/
theorem sendAll_asks (h : sendAll interfaces sendings = .ok interfaces1) (hmem : sending ∈ sendings)
    (hready : At interfaces sending.interfaceNum (Ready sending.nextHop)) :
    At interfaces1 sending.interfaceNum (Asked sending.nextHop sending.datagram) := by
  obtain ⟨before, after, rfl⟩ := List.append_of_mem hmem
  obtain ⟨interfaces2, hbefore, hrest⟩ := Exec.run_append_eq_ok.mp h
  obtain ⟨interfaces3, hone, hafter⟩ := Exec.run_cons_eq_ok.mp hrest
  have hready2 : At interfaces2 sending.interfaceNum (Ready sending.nextHop) :=
    Exec.run_invariant (fun interfaces => At interfaces sending.interfaceNum (Ready sending.nextHop))
      (fun _ _ _ hat => At.send (fun _ _ _ _ hkept => hkept.send) hat) hready hbefore
  have hasked : At interfaces3 sending.interfaceNum (Asked sending.nextHop sending.datagram) := by
    obtain ⟨out, hout, hkept⟩ := hready2
    obtain ⟨interface, interface1, hinterface, hsend, rfl⟩ := send_eq_ok.mp hone
    obtain rfl : interface = out := Option.some.inj (hinterface.symm.trans hout)
    exact ⟨interface1, List.getElem?_set_self (List.getElem?_eq_some_iff.mp hout).1,
      hkept.asks hsend⟩
  exact Exec.run_invariant
    (fun interfaces => At interfaces sending.interfaceNum (Asked sending.nextHop sending.datagram))
    (fun _ _ _ hat => At.send (fun _ _ _ _ hkept => hkept.send) hat) hasked hafter

theorem At.drained (hK : ∀ out, K out.drained ↔ K out) :
    At (interfaces.map drained) interfaceNum K ↔ At interfaces interfaceNum K := by
  unfold At
  rw [List.getElem?_map]
  constructor
  · rintro ⟨out, hout, hkept⟩
    obtain ⟨interface, hinterface, rfl⟩ := Option.map_eq_some_iff.mp hout
    exact ⟨interface, hinterface, (hK interface).mp hkept⟩
  · rintro ⟨out, hout, hkept⟩
    exact ⟨out.drained, by rw [hout]; rfl, (hK out).mpr hkept⟩

/-- A datagram that is routed to an address that is not known waits there, and the address is asked
for. -/
theorem route_asks (hfits : ∀ interface ∈ router.interfaces, interface.Fits)
    (hroute : router.route = .ok router1) (hmem : datagram ∈ router.inbound)
    (hforward : router.forwarding datagram = some sending)
    (hready : At router.interfaces sending.interfaceNum (Ready sending.nextHop)) :
    At router1.interfaces sending.interfaceNum (Asked sending.nextHop sending.datagram) := by
  obtain ⟨router2, hroute2, hrouted, -⟩ := route_routed hfits
  rw [hroute, Except.ok.injEq] at hroute2
  subst hroute2
  have hsending : sending ∈ router.inbound.filterMap router.forwarding :=
    List.mem_filterMap.mpr ⟨datagram, hmem, hforward⟩
  -- the inbound queue has no part in it
  have hdrained : At (router.interfaces.map drained) sending.interfaceNum
      (Ready sending.nextHop) :=
    (At.drained fun _ => ⟨fun h => ⟨h.miss, h.asked⟩, fun h => ⟨h.miss, h.asked⟩⟩).mpr hready
  have hasked := sendAll_asks hrouted.sent hsending hdrained
  exact (At.drained fun _ =>
    ⟨fun h => ⟨h.miss, h.waits, h.asked⟩, fun h => ⟨h.miss, h.waits, h.asked⟩⟩).mp hasked

/-! ## What a router looks at -/

/-- The datagrams have the same destination and TTL: a router sends them the same way. -/
structure Alike (datagram other : Ipv4Datagram) : Prop where
  dst : other.header.dst = datagram.header.dst
  ttl : other.header.ttl = datagram.header.ttl

theorem Alike.hopped {other : Ipv4Datagram} (h : Alike datagram other) :
    Alike (hopped datagram) (hopped other) :=
  ⟨h.dst, congrArg (· - 1) h.ttl⟩

theorem Alike.hopped_iterate {other : Ipv4Datagram} (h : Alike datagram other) (hops : Nat) :
    Alike (Router.hopped^[hops] datagram) (Router.hopped^[hops] other) := by
  induction hops generalizing datagram other with
  | zero => exact h
  | succ hops ih => exact ih h.hopped

theorem Alike.forwarding {other : Ipv4Datagram} (h : Alike datagram other)
    (hforward : router.forwarding datagram = some sending) :
    router.forwarding other = some { sending with datagram := Router.hopped other } := by
  unfold Router.forwarding at hforward ⊢
  rw [h.ttl, h.dst]
  split_ifs at hforward ⊢ with httl
  obtain ⟨route, hroute, hsome⟩ := Option.bind_eq_some_iff.mp hforward
  split_ifs at hsome with hlt
  obtain rfl := Option.some.inj hsome
  rw [hroute, Option.bind_some, if_pos hlt]

/-! ## What stays -/

/-- The addresses of the interfaces. -/
def stations (router : Router) : List (EthernetAddress × Ipv4AddrBytes) :=
  router.interfaces.map fun interface => (interface.ethernetAddress, interface.ipAddress)

/-- The routers have the same routes and the same addresses. -/
structure SameTables (router router1 : Router) : Prop where
  routes : router1.routes = router.routes
  stations : router1.stations = router.stations

theorem SameTables.refl (router : Router) : SameTables router router := ⟨rfl, rfl⟩

theorem SameTables.trans {router2 : Router} (h : SameTables router router1)
    (h1 : SameTables router1 router2) : SameTables router router2 :=
  ⟨h1.routes.trans h.routes, h1.stations.trans h.stations⟩

theorem SameTables.forwarding (h : SameTables router router1) :
    router1.forwarding = router.forwarding := by
  apply forwarding_congr h.routes
  have hlength := congrArg List.length h.stations
  unfold Router.stations at hlength
  rwa [List.length_map, List.length_map] at hlength

theorem sameTables_set {interface interface1 : NetworkInterface}
    (hinterface : router.interfaces[interfaceNum]? = some interface)
    (hsame : NetworkInterface.SameStation interface interface1) :
    SameTables router { router with interfaces := router.interfaces.set interfaceNum interface1 } :=
  ⟨rfl, map_set_of_eq hinterface (Prod.ext hsame.ethernetAddress hsame.ipAddress)⟩

theorem sameTables_route (hroute : router.route = .ok router1) : SameTables router router1 := by
  refine route_invariant (SameTables router) ?_ (SameTables.refl router) hroute
  intro router2 router3 hsame hhandles
  have hpop : ∀ {interfaceNum : Nat} {interface : NetworkInterface},
      router2.interfaces[interfaceNum]? = some interface →
      SameTables router2 (router2.popInbound interfaceNum interface) :=
    fun hinterface => sameTables_set hinterface ⟨rfl, rfl⟩
  cases hhandles with
  | dropped hinterface _ => exact hsame.trans (hpop hinterface)
  | sent hinterface hqueue hforward hsend =>
      obtain ⟨out, out1, hout, hone, rfl⟩ := send_eq_ok.mp hsend
      have hperformed := NetworkInterface.sendDatagram_performed hone
      exact hsame.trans ((hpop hinterface).trans
        (sameTables_set hout (NetworkInterface.sameStation_of_performed hperformed)))

end Router

end Minnow
