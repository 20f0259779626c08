import Minnow.NetworkInterface.Inbound
import Minnow.Router.Basic

set_option autoImplicit false

/-! # Routing conserves datagrams

Where a datagram goes depends on the table of routes and on the number of interfaces, and sending
it leaves all inbound queues alone. So it does not matter that the loops of `route` take from one
interface while they send on another one, or on the same: the interfaces end up as if their
inbound datagrams had been collected first and then sent, in order.

* `routeOneDatagram_eq`: one datagram is sent once or not at all.
* `drainLoop_routed`, `drainAll_routed`: the loops send what they take.
* `route_conserves`: what `route` does to the interfaces.
-/

namespace Minnow

namespace Router

open NetworkInterface (drained)

/-- A call of `send_datagram`. -/
structure Sending where
  interfaceNum : Nat
  datagram : Ipv4Datagram
  nextHop : Ipv4AddrBytes
  deriving DecidableEq, Repr

/-- The datagram one hop further, with nothing but its TTL changed. -/
def hopped (datagram : Ipv4Datagram) : Ipv4Datagram :=
  { datagram with header := { datagram.header with ttl := datagram.header.ttl - 1 } }

/-- What becomes of an inbound datagram. -/
def forwarding (router : Router) (datagram : Ipv4Datagram) : Option Sending :=
  if 2 ≤ datagram.header.ttl then
    (longestPrefix router.routes datagram.header.dst).bind fun route =>
      if route.interfaceNum < router.interfaces.length then
        some ⟨route.interfaceNum, hopped datagram, route.nextHop.getD datagram.header.dst⟩
      else none
  else none

def send (interfaces : List NetworkInterface) (sending : Sending) :
    Exec (List NetworkInterface) :=
  match interfaces[sending.interfaceNum]? with
  | none => .error .slice
  | some interface => do
      let interface ← interface.sendDatagram sending.datagram sending.nextHop
      .ok (interfaces.set sending.interfaceNum interface)

def sendAll (interfaces : List NetworkInterface) (sendings : List Sending) :
    Exec (List NetworkInterface) :=
  Exec.run send interfaces sendings

def queues (router : Router) : List (List Ipv4Datagram) :=
  router.interfaces.map NetworkInterface.datagramsIn

/-- The inbound datagrams in order of interface number, and in their order on each interface. -/
def inbound (router : Router) : List Ipv4Datagram := router.queues.flatten

variable {router router1 router2 : Router} {datagram : Ipv4Datagram}
  {datagrams more : List Ipv4Datagram} {interfaces interfaces1 : List NetworkInterface}
  {sending : Sending} {sendings : List Sending}

/-! ## One datagram -/

theorem routeOneDatagram_eq (router : Router) (datagram : Ipv4Datagram) :
    router.routeOneDatagram datagram = (do
      let interfaces ← sendAll router.interfaces (router.forwarding datagram).toList
      .ok { router with interfaces := interfaces }) := by
  unfold routeOneDatagram forwarding
  by_cases httl : datagram.header.ttl ≤ 1
  · have hshort : ¬ 2 ≤ datagram.header.ttl := by
      rw [UInt8.le_iff_toNat_le] at httl ⊢
      exact Nat.not_le.mpr (Nat.lt_succ_of_le httl)
    rw [if_pos httl, if_neg hshort]
    rfl
  · have hlong : 2 ≤ datagram.header.ttl := by
      rw [UInt8.le_iff_toNat_le] at httl ⊢
      exact Nat.not_le.mp httl
    rw [if_neg httl, if_pos hlong]
    dsimp only
    rw [findRoute_eq, Exec.ok_bind]
    cases longestPrefix router.routes datagram.header.dst with
    | none => rfl
    | some route =>
        dsimp only
        rw [Option.bind_some]
        by_cases hnum : route.interfaceNum < router.interfaces.length
        · -- `interfaces.get_mut` finds the interface
          rw [if_pos hnum, Option.toList_some, sendAll, Exec.run_singleton, send,
            List.getElem?_eq_getElem hnum]
          dsimp only [hopped]
          generalize router.interfaces[route.interfaceNum].sendDatagram _ _ = sent
          cases sent with
          | error fault => rfl
          | ok interface => rfl
        · -- the route names an interface that does not exist
          rw [if_neg hnum, List.getElem?_eq_none (Nat.not_lt.mp hnum)]
          rfl

/-- Where a datagram goes does not depend on the state of the interfaces. -/
theorem forwarding_congr (hroutes : router1.routes = router.routes)
    (hcount : router1.interfaces.length = router.interfaces.length) :
    router1.forwarding = router.forwarding := by
  funext datagram
  rw [forwarding, forwarding, hroutes, hcount]

/-- A datagram that is sent has lost one from its TTL and nothing else. -/
theorem forwarding_eq_some (h : router.forwarding datagram = some sending) :
    2 ≤ datagram.header.ttl ∧ sending.datagram = hopped datagram ∧
      sending.interfaceNum < router.interfaces.length := by
  unfold forwarding at h
  split_ifs at h with httl
  obtain ⟨route, -, h⟩ := Option.bind_eq_some_iff.mp h
  split_ifs at h with hnum
  obtain rfl := Option.some.inj h
  exact ⟨httl, rfl, hnum⟩

theorem send_eq_ok : send interfaces sending = .ok interfaces1 ↔
    ∃ interface interface1, interfaces[sending.interfaceNum]? = some interface ∧
      interface.sendDatagram sending.datagram sending.nextHop = .ok interface1 ∧
      interfaces1 = interfaces.set sending.interfaceNum interface1 := by
  unfold send
  cases interfaces[sending.interfaceNum]? with
  | none => simp
  | some interface =>
      dsimp only
      rw [Exec.bind_eq_ok]
      constructor
      · rintro ⟨interface1, hsend, hok⟩
        exact ⟨interface, interface1, rfl, hsend, (Except.ok.inj hok).symm⟩
      · rintro ⟨interface2, interface1, hinterface, hsend, rfl⟩
        obtain rfl := Option.some.inj hinterface
        exact ⟨interface1, hsend, rfl⟩

/-- An entry that looks the same to `f` is put in its place. -/
theorem map_set_of_eq {α β : Type} {f : α → β} {l : List α} {i : Nat} {a b : α}
    (h : l[i]? = some a) (hf : f b = f a) : (l.set i b).map f = l.map f := by
  obtain ⟨hi, rfl⟩ := List.getElem?_eq_some_iff.mp h
  have hmap : i < (l.map f).length := by rwa [List.length_map]
  have hget : (l.map f)[i] = f l[i] := List.getElem_map f
  rw [List.map_set, hf, ← hget, List.set_getElem_self]

/-- Sending feeds no inbound queue. -/
theorem send_inbound (h : send interfaces sending = .ok interfaces1) :
    interfaces1.map NetworkInterface.datagramsIn
      = interfaces.map NetworkInterface.datagramsIn := by
  obtain ⟨interface, interface1, hinterface, hsend, rfl⟩ := send_eq_ok.mp h
  exact map_set_of_eq hinterface (NetworkInterface.sendDatagram_sent hsend).datagramsIn

/-- Sending does not look at the inbound queues. -/
theorem send_drained (h : send interfaces sending = .ok interfaces1) :
    send (interfaces.map drained) sending = .ok (interfaces1.map drained) := by
  obtain ⟨interface, interface1, hinterface, hsend, rfl⟩ := send_eq_ok.mp h
  refine send_eq_ok.mpr ⟨interface.drained, interface1.drained, ?_,
    NetworkInterface.sendDatagram_drained hsend, List.map_set⟩
  rw [List.getElem?_map, hinterface]
  rfl

theorem send_total (hfit : sending.datagram.payload.length ≤ 65515)
    (hnum : sending.interfaceNum < interfaces.length) :
    ∃ interfaces1, send interfaces sending = .ok interfaces1 := by
  obtain ⟨interface1, hsend⟩ :=
    interfaces[sending.interfaceNum].sendDatagram_total sending.nextHop hfit
  exact ⟨_, send_eq_ok.mpr ⟨_, interface1, List.getElem?_eq_getElem hnum, hsend, rfl⟩⟩

/-! ## The loops -/

/-- The second router is the first one after the datagrams were sent, their queues aside. -/
structure Routed (router : Router) (datagrams : List Ipv4Datagram) (router1 : Router) : Prop where
  routes : router1.routes = router.routes
  sent : sendAll (router.interfaces.map drained) (datagrams.filterMap router.forwarding)
    = .ok (router1.interfaces.map drained)

theorem Routed.count (h : Routed router datagrams router1) :
    router1.interfaces.length = router.interfaces.length := by
  have hlength := Exec.run_invariant
    (fun interfaces => interfaces.length = (router.interfaces.map drained).length)
    (fun interfaces sending interfaces1 hlength hsend => ?_) rfl h.sent
  · rwa [List.length_map, List.length_map] at hlength
  · obtain ⟨interface, interface1, -, -, rfl⟩ := send_eq_ok.mp hsend
    rwa [List.length_set]

theorem Routed.forwarding (h : Routed router datagrams router1) :
    router1.forwarding = router.forwarding :=
  forwarding_congr h.routes h.count

theorem Routed.of_queues (hroutes : router1.routes = router.routes)
    (h : router1.interfaces.map drained = router.interfaces.map drained) :
    Routed router [] router1 := by
  refine ⟨hroutes, ?_⟩
  rw [h]
  rfl

theorem Routed.append (h : Routed router datagrams router1) (h1 : Routed router1 more router2) :
    Routed router (datagrams ++ more) router2 := by
  refine ⟨h1.routes.trans h.routes, ?_⟩
  have hmore := h1.sent
  -- both halves look the datagrams up in the same table
  rw [h.forwarding] at hmore
  rw [List.filterMap_append]
  exact Exec.run_append_eq_ok.mpr ⟨_, h.sent, hmore⟩

theorem routeOneDatagram_routed (router : Router) (hfit : datagram.payload.length ≤ 65515) :
    ∃ router1, router.routeOneDatagram datagram = .ok router1 ∧
      Routed router [datagram] router1 ∧ router1.queues = router.queues := by
  rw [routeOneDatagram_eq]
  cases hforward : router.forwarding datagram with
  | none =>
      refine ⟨router, rfl, ⟨rfl, ?_⟩, rfl⟩
      rw [List.filterMap_cons_none hforward]
      rfl
  | some sending =>
      obtain ⟨-, hsame, hnum⟩ := forwarding_eq_some hforward
      have hsending : sending.datagram.payload.length ≤ 65515 := by rwa [hsame]
      obtain ⟨interfaces, hsend⟩ := send_total hsending hnum
      refine ⟨{ router with interfaces := interfaces }, ?_, ⟨rfl, ?_⟩, send_inbound hsend⟩
      · rw [Option.toList_some, sendAll, Exec.run_singleton, hsend]
        rfl
      · rw [List.filterMap_cons_some hforward, List.filterMap_nil, sendAll, Exec.run_singleton]
        exact send_drained hsend

/-- The router without the first datagram of a queue. -/
def popInbound (router : Router) (interfaceNum : Nat) (interface : NetworkInterface) : Router :=
  { router with interfaces := router.interfaces.set interfaceNum interface.popDatagram.1 }

section Loops

variable {interfaceNum budget : Nat} {interface : NetworkInterface}

theorem drainLoop_nil (hinterface : router.interfaces[interfaceNum]? = some interface)
    (hqueue : interface.datagramsIn = []) : drainLoop interfaceNum (budget + 1) router
      = .ok (router.popInbound interfaceNum interface) := by
  rw [drainLoop, hinterface]
  unfold popInbound NetworkInterface.popDatagram
  dsimp only
  rw [hqueue]
  rfl

theorem drainLoop_cons (hinterface : router.interfaces[interfaceNum]? = some interface)
    (hqueue : interface.datagramsIn = datagram :: datagrams) :
    drainLoop interfaceNum (budget + 1) router = (do
      let router ← (router.popInbound interfaceNum interface).routeOneDatagram datagram
      drainLoop interfaceNum budget router) := by
  rw [drainLoop, hinterface]
  unfold popInbound NetworkInterface.popDatagram
  dsimp only
  rw [hqueue]
  rfl

theorem popInbound_routed (hinterface : router.interfaces[interfaceNum]? = some interface) :
    Routed router [] (router.popInbound interfaceNum interface) :=
  .of_queues rfl (map_set_of_eq hinterface rfl)

theorem queues_popInbound : (router.popInbound interfaceNum interface).queues
    = router.queues.set interfaceNum interface.datagramsIn.tail :=
  List.map_set

theorem queues_eq_some : router.queues[interfaceNum]? = some datagrams ↔
    ∃ interface, router.interfaces[interfaceNum]? = some interface ∧
      interface.datagramsIn = datagrams := by
  rw [queues, List.getElem?_map, Option.map_eq_some_iff]

/-- The inner loop ends with the queue empty, and sends what was in it. -/
theorem drainLoop_routed (hqueue : router.queues[interfaceNum]? = some datagrams)
    (hfit : ∀ datagram ∈ datagrams, datagram.payload.length ≤ 65515)
    (hbudget : datagrams.length < budget) :
    ∃ router1, drainLoop interfaceNum budget router = .ok router1 ∧
      Routed router datagrams router1 ∧ router1.queues = router.queues.set interfaceNum [] := by
  induction datagrams generalizing router budget with
  | nil =>
      obtain ⟨budget, rfl⟩ : ∃ n, budget = n + 1 := ⟨budget - 1, by omega⟩
      obtain ⟨interface, hinterface, hempty⟩ := queues_eq_some.mp hqueue
      refine ⟨_, drainLoop_nil hinterface hempty, popInbound_routed hinterface, ?_⟩
      rw [queues_popInbound, hempty, List.tail_nil]
  | cons datagram rest ih =>
      -- one round takes the first datagram off the queue and puts none on it
      obtain ⟨budget, rfl⟩ : ∃ n, budget = n + 1 := ⟨budget - 1, by omega⟩
      obtain ⟨hfirst, hrest⟩ := List.forall_mem_cons.mp hfit
      obtain ⟨interface, hinterface, hcons⟩ := queues_eq_some.mp hqueue
      obtain ⟨router1, hone, hrouted, hqueues⟩ :=
        routeOneDatagram_routed (router.popInbound interfaceNum interface) hfirst
      rw [queues_popInbound, hcons, List.tail_cons] at hqueues
      have hnum : interfaceNum < router.queues.length := (List.getElem?_eq_some_iff.mp hqueue).1
      have hqueue1 : router1.queues[interfaceNum]? = some rest := by
        rw [hqueues, List.getElem?_set_self hnum]
      obtain ⟨router2, hloop, hmore, hqueues2⟩ := ih hqueue1 hrest (Nat.lt_of_succ_lt_succ hbudget)
      refine ⟨router2, ?_, ((popInbound_routed hinterface).append hrouted).append hmore, ?_⟩
      · rw [drainLoop_cons hinterface hcons, hone]
        exact hloop
      · rw [hqueues2, hqueues, List.set_set]

theorem drain_routed (hqueue : router.queues[interfaceNum]? = some datagrams)
    (hfit : ∀ datagram ∈ datagrams, datagram.payload.length ≤ 65515) :
    ∃ router1, router.drain interfaceNum = .ok router1 ∧ Routed router datagrams router1 ∧
      router1.queues = router.queues.set interfaceNum [] := by
  obtain ⟨interface, hinterface, hdatagrams⟩ := queues_eq_some.mp hqueue
  refine drainLoop_routed hqueue hfit ?_
  rw [hinterface, Option.elim_some, hdatagrams]
  exact Nat.lt_succ_self _

end Loops

/-- The outer loop. The queues in front of it are empty, also when more was sent on their
interfaces. -/
theorem drainAll_routed {front : Nat} {rest : List (List Ipv4Datagram)}
    (hqueues : router.queues = List.replicate front [] ++ rest)
    (hfit : ∀ datagrams ∈ rest, ∀ datagram ∈ datagrams, datagram.payload.length ≤ 65515) :
    ∃ router1, Exec.run drain router (List.range' front rest.length) = .ok router1 ∧
      Routed router rest.flatten router1 ∧
      router1.queues = List.replicate (front + rest.length) [] := by
  induction rest generalizing front router with
  | nil =>
      refine ⟨router, rfl, .of_queues rfl rfl, ?_⟩
      rw [hqueues, List.append_nil]
      rfl
  | cons datagrams rest ih =>
      obtain ⟨hfirst, hrest⟩ := List.forall_mem_cons.mp hfit
      have hqueue : router.queues[front]? = some datagrams := by
        rw [hqueues, List.getElem?_append_right (by simp)]
        simp
      obtain ⟨router1, hdrain, hrouted, hqueues1⟩ := drain_routed hqueue hfirst
      -- the queue joins the empty ones in front of it
      have hfront : router1.queues = List.replicate (front + 1) [] ++ rest := by
        rw [hqueues1, hqueues, List.set_append_right _ _ (by simp)]
        simp [List.replicate_succ']
      obtain ⟨router2, hrun, hmore, hqueues2⟩ := ih hfront hrest
      refine ⟨router2, ?_, hrouted.append hmore, ?_⟩
      · exact Exec.run_cons_eq_ok.mpr ⟨router1, hdrain, hrun⟩
      · rw [hqueues2, List.length_cons, Nat.add_assoc, Nat.add_comm 1]

/-! ## The router -/

theorem route_routed (hfit : ∀ interface ∈ router.interfaces, interface.Fits) :
    ∃ router1, router.route = .ok router1 ∧ Routed router router.inbound router1 ∧
      ∀ interface ∈ router1.interfaces, interface.datagramsIn = [] := by
  have hqueues : router.queues = List.replicate 0 [] ++ router.queues := rfl
  have hall : ∀ datagrams ∈ router.queues, ∀ datagram ∈ datagrams,
      datagram.payload.length ≤ 65515 := List.forall_mem_map.mpr hfit
  obtain ⟨router1, hroute, hrouted, hempty⟩ := drainAll_routed hqueues hall
  refine ⟨router1, ?_, hrouted, ?_⟩
  · rw [route, List.range_eq_range', ← hroute, queues, List.length_map]
  · intro interface hmem
    have hqueue : interface.datagramsIn ∈ router1.queues := List.mem_map_of_mem hmem
    rw [hempty] at hqueue
    exact List.eq_of_mem_replicate hqueue

theorem map_drained (h : ∀ interface ∈ interfaces, interface.datagramsIn = []) :
    interfaces.map drained = interfaces := by
  conv_rhs => rw [← List.map_id interfaces]
  apply List.map_congr_left
  intro interface hmem
  rw [drained, ← h interface hmem, id]

/-! ## Routers that their operations build -/

/-- The interfaces are ones that the operations of an interface produce. -/
def AllReachable (interfaces : List NetworkInterface) : Prop :=
  ∀ interface ∈ interfaces, interface.Reachable

def Built (router : Router) : Prop := AllReachable router.interfaces

theorem AllReachable.set {interfaceNum : Nat} {interface : NetworkInterface}
    (h : AllReachable interfaces) (hinterface : interface.Reachable) :
    AllReachable (interfaces.set interfaceNum interface) := by
  intro other hmem
  rcases List.mem_or_eq_of_mem_set hmem with hmem | rfl
  · exact h other hmem
  · exact hinterface

theorem AllReachable.send (h : AllReachable interfaces)
    (hsend : Router.send interfaces sending = .ok interfaces1) : AllReachable interfaces1 := by
  obtain ⟨interface, interface1, hinterface, hone, rfl⟩ := send_eq_ok.mp hsend
  have hreach := h interface (List.mem_of_getElem? hinterface)
  exact h.set (hreach.perform (.sendDatagram sending.datagram sending.nextHop) hone)

theorem routeOneDatagram_built (h : router.Built)
    (hok : router.routeOneDatagram datagram = .ok router1) : router1.Built := by
  rw [routeOneDatagram_eq] at hok
  obtain ⟨interfaces, hsend, hok⟩ := Exec.bind_eq_ok.mp hok
  obtain rfl := Except.ok.inj hok
  exact Exec.run_invariant AllReachable (fun _ _ _ => AllReachable.send) h hsend

theorem drainLoop_built {interfaceNum budget : Nat} (h : router.Built)
    (hok : drainLoop interfaceNum budget router = .ok router1) : router1.Built := by
  induction budget generalizing router with
  | zero => cases hok
  | succ budget ih =>
      cases hinterface : router.interfaces[interfaceNum]? with
      | none =>
          rw [drainLoop, hinterface] at hok
          cases hok
      | some interface =>
          have hreach := h interface (List.mem_of_getElem? hinterface)
          have hpop : (router.popInbound interfaceNum interface).Built :=
            AllReachable.set h (hreach.perform .popDatagram rfl)
          cases hqueue : interface.datagramsIn with
          | nil =>
              rw [drainLoop_nil hinterface hqueue] at hok
              obtain rfl := Except.ok.inj hok
              exact hpop
          | cons datagram rest =>
              rw [drainLoop_cons hinterface hqueue] at hok
              obtain ⟨router2, hone, hrest⟩ := Exec.bind_eq_ok.mp hok
              exact ih (routeOneDatagram_built hpop hone) hrest

theorem perform_built {op : RouterOp} (h : router.Built) (hok : router.perform op = .ok router1) :
    router1.Built := by
  cases op with
  | addInterface ethernetAddress ipAddress =>
      obtain rfl := Except.ok.inj hok
      intro interface hmem
      rcases List.mem_append.mp hmem with hmem | hmem
      · exact h interface hmem
      · obtain rfl := List.mem_singleton.mp hmem
        exact ⟨ethernetAddress, ipAddress, [], rfl⟩
  | addRoute routePrefix prefixLength nextHop interfaceNum =>
      unfold perform addRoute at hok
      dsimp only at hok
      split_ifs at hok with hle
      obtain rfl := Except.ok.inj hok
      exact h
  | interface interfaceNum op =>
      unfold perform at hok
      dsimp only at hok
      cases hinterface : router.interfaces[interfaceNum]? with
      | none =>
          rw [hinterface] at hok
          obtain rfl := Except.ok.inj hok
          exact h
      | some interface =>
          rw [hinterface] at hok
          obtain ⟨interface1, hop, hok⟩ := Exec.bind_eq_ok.mp hok
          obtain rfl := Except.ok.inj hok
          exact AllReachable.set h ((h interface (List.mem_of_getElem? hinterface)).perform op hop)
  | route =>
      exact Exec.run_invariant Built (fun _ _ _ h hdrain => drainLoop_built h hdrain) h hok

/-- So the hypothesis of the theorem below holds of every router there can be. -/
theorem run_built {ops : List RouterOp} (hrun : Exec.run perform new ops = .ok router) :
    router.Built :=
  Exec.run_invariant Built (fun _ _ _ => perform_built)
    (fun _ hmem => absurd hmem List.not_mem_nil) hrun

/-! ## Nothing is lost, nothing is sent twice -/

/-- Every inbound datagram is sent once, on the interface of the first longest prefix that covers
its destination, with one taken off its TTL, or not at all; none is left behind. -/
theorem route_conserves (h : router.Built) :
    ∃ interfaces,
      sendAll (router.interfaces.map drained) (router.inbound.filterMap router.forwarding)
        = .ok interfaces ∧
      router.route = .ok { router with interfaces := interfaces } ∧
      ∀ interface ∈ interfaces, interface.datagramsIn = [] := by
  obtain ⟨router1, hroute, hrouted, hempty⟩ :=
    route_routed fun interface hmem => (h interface hmem).fits
  have hsent := hrouted.sent
  -- emptying queues that are empty changes nothing
  rw [map_drained hempty] at hsent
  refine ⟨router1.interfaces, hsent, ?_, hempty⟩
  have hroutes := hrouted.routes
  obtain ⟨interfaces, routes, hle⟩ := router1
  obtain rfl : routes = router.routes := hroutes
  exact hroute

/-- A packet with options and a traffic class for a neighbour that is known, one that may not live
on, and one that leaves where it came in. -/
def sampleOps : List RouterOp :=
  [.addInterface ⟨2, 0, 0, 0, 0, 1⟩ ⟨10, 0, 0, 1⟩, .addInterface ⟨2, 0, 0, 0, 0, 2⟩ ⟨10, 1, 0, 1⟩,
    .addRoute ⟨0, 0, 0, 0⟩ 0 (some ⟨10, 1, 0, 9⟩) 1, .addRoute ⟨10, 0, 0, 0⟩ 24 none 0,
    .interface 0 (.recvFrame (EthernetFrame.ipv4 ⟨2, 0, 0, 0, 0, 1⟩ ⟨2, 0, 0, 0, 0, 99⟩
      [0x46, 40, 0, 25, 0, 1, 0x40, 0, 64, 6, 35, 72, 10, 0, 0, 100, 10, 1, 0, 9, 1, 1, 1, 0, 7])),
    .interface 0 (.recvFrame (EthernetFrame.ipv4 ⟨2, 0, 0, 0, 0, 1⟩ ⟨2, 0, 0, 0, 0, 99⟩
      [0x45, 0, 0, 21, 0, 1, 0x40, 0, 1, 6, 101, 117, 10, 0, 0, 100, 10, 1, 0, 9, 8])),
    .interface 0 (.recvFrame (EthernetFrame.ipv4 ⟨2, 0, 0, 0, 0, 1⟩ ⟨2, 0, 0, 0, 0, 99⟩
      [0x45, 0, 0, 21, 0, 2, 0x40, 0, 2, 6, 100, 119, 10, 0, 0, 100, 10, 0, 0, 7, 9])),
    .interface 1 (.recvFrame (EthernetFrame.arp ⟨2, 0, 0, 0, 0, 2⟩ ⟨2, 0, 0, 0, 0, 9⟩
      [0, 1, 8, 0, 6, 4, 0, 2, 2, 0, 0, 0, 0, 9, 10, 1, 0, 9, 2, 0, 0, 0, 0, 2, 10, 1, 0, 1]))]

theorem route_conserves_hairpin : ∃ router interfaces,
    Exec.run perform new sampleOps = .ok router ∧
      router.inbound.length = 3 ∧ (router.inbound.filterMap router.forwarding).length = 2 ∧
      sendAll (router.interfaces.map drained) (router.inbound.filterMap router.forwarding)
        = .ok interfaces ∧
      router.route = .ok { router with interfaces := interfaces } ∧
      ∀ interface ∈ interfaces, interface.datagramsIn = [] := by
  obtain ⟨router, hrun, hinbound, hsendings⟩ : ∃ router,
      Exec.run perform new sampleOps = .ok router ∧ router.inbound.length = 3 ∧
        (router.inbound.filterMap router.forwarding).length = 2 := by
    decide +kernel
  obtain ⟨interfaces, hsent, hroute, hempty⟩ := route_conserves (run_built hrun)
  exact ⟨router, interfaces, hrun, hinbound, hsendings, hsent, hroute, hempty⟩

end Router

end Minnow
