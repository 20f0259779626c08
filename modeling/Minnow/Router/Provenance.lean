import Minnow.NetworkInterface.Provenance
import Minnow.Router.Forwarding

set_option autoImplicit false

/-! # What a router holds

The loops of `route` take one datagram after the other from a queue and send it or drop it
(`Handles`), so what this keeps the whole call keeps (`route_invariant`). That is used for the kinds
of the datagrams in a router: if all that frames bring is of one kind, and is of the other after a
hop, then all that comes out is of the other.
-/

namespace Minnow

namespace Router

open NetworkInterface (Known Written Holds Genuine)

variable {Q S : Ipv4Datagram → Prop} {router router1 : Router} {datagram : Ipv4Datagram}
  {interface : NetworkInterface} {interfaces interfaces1 : List NetworkInterface}
  {interfaceNum : Nat} {op : RouterOp}

/-! ## One datagram after the other -/

/-- A datagram is taken from a queue, and sent or dropped. -/
inductive Handles (router : Router) : Router → Prop where
  | dropped {interfaceNum : Nat} {interface : NetworkInterface} {datagram : Ipv4Datagram}
      (hinterface : router.interfaces[interfaceNum]? = some interface)
      (hmem : datagram ∈ interface.datagramsIn) :
      Handles router (router.popInbound interfaceNum interface)
  | sent {interfaceNum : Nat} {interface : NetworkInterface} {datagram : Ipv4Datagram}
      {rest : List Ipv4Datagram} {sending : Sending} {interfaces : List NetworkInterface}
      (hinterface : router.interfaces[interfaceNum]? = some interface)
      (hqueue : interface.datagramsIn = datagram :: rest)
      (hforward : router.forwarding datagram = some sending)
      (hsend : send (router.popInbound interfaceNum interface).interfaces sending
        = .ok interfaces) :
      Handles router { router with interfaces := interfaces }

theorem popInbound_of_nil (hinterface : router.interfaces[interfaceNum]? = some interface)
    (hqueue : interface.datagramsIn = []) :
    router.popInbound interfaceNum interface = router := by
  have hsame : interface.popDatagram.1 = interface := by
    unfold NetworkInterface.popDatagram
    dsimp only
    rw [hqueue, List.tail_nil, ← hqueue]
  obtain ⟨hlt, hget⟩ := List.getElem?_eq_some_iff.mp hinterface
  have hset : router.interfaces.set interfaceNum interface = router.interfaces := by
    rw [← hget, List.set_getElem_self]
  unfold popInbound
  rw [hsame, hset]

theorem handles_of_routeOneDatagram {rest : List Ipv4Datagram}
    (hinterface : router.interfaces[interfaceNum]? = some interface)
    (hqueue : interface.datagramsIn = datagram :: rest)
    (h : (router.popInbound interfaceNum interface).routeOneDatagram datagram = .ok router1) :
    router.Handles router1 := by
  have hsame : (router.popInbound interfaceNum interface).forwarding = router.forwarding :=
    forwarding_congr rfl List.length_set
  rw [routeOneDatagram_eq, hsame] at h
  obtain ⟨interfaces, hsent, hok⟩ := Exec.bind_eq_ok.mp h
  obtain rfl := Except.ok.inj hok
  cases hforward : router.forwarding datagram with
  | none =>
      rw [hforward] at hsent
      obtain rfl := Except.ok.inj hsent
      exact .dropped hinterface (hqueue ▸ List.mem_cons_self)
  | some sending =>
      rw [hforward, Option.toList_some, sendAll, Exec.run_singleton] at hsent
      exact .sent hinterface hqueue hforward hsent

/-- What handling a datagram keeps, the inner loop keeps. -/
theorem drainLoop_invariant (Inv : Router → Prop)
    (hhandle : ∀ router router1, Inv router → router.Handles router1 → Inv router1)
    {budget : Nat} (h : Inv router) (hok : drainLoop interfaceNum budget router = .ok router1) :
    Inv router1 := by
  induction budget generalizing router with
  | zero => cases hok
  | succ budget ih =>
      cases hinterface : router.interfaces[interfaceNum]? with
      | none =>
          rw [drainLoop, hinterface] at hok
          cases hok
      | some interface =>
          cases hqueue : interface.datagramsIn with
          | nil =>
              rw [drainLoop_nil hinterface hqueue, popInbound_of_nil hinterface hqueue] at hok
              obtain rfl := Except.ok.inj hok
              exact h
          | cons datagram rest =>
              rw [drainLoop_cons hinterface hqueue] at hok
              obtain ⟨router2, hone, hrest⟩ := Exec.bind_eq_ok.mp hok
              exact ih (hhandle router router2 h
                (handles_of_routeOneDatagram hinterface hqueue hone)) hrest

/-- What handling a datagram keeps, routing keeps. -/
theorem route_invariant (Inv : Router → Prop)
    (hhandle : ∀ router router1, Inv router → router.Handles router1 → Inv router1)
    (h : Inv router) (hok : router.route = .ok router1) : Inv router1 :=
  Exec.run_invariant Inv (fun _ _ _ hinv hdrain => drainLoop_invariant Inv hhandle hinv hdrain) h
    hok

/-! ## The kind of what a router holds -/

/-- All that the interfaces hold is of its kind. -/
def HoldsAll (Q S : Ipv4Datagram → Prop) (router : Router) : Prop :=
  ∀ interface ∈ router.interfaces, interface.Holds Q S

/-- A datagram of the one kind is of the other after a hop. -/
def HopClosed (Q S : Ipv4Datagram → Prop) : Prop :=
  ∀ datagram, Q datagram → 2 ≤ datagram.header.ttl → S (hopped datagram)

/-- What the operation puts into an interface is of the kind. -/
def RouterOp.Puts (Q : Ipv4Datagram → Prop) : RouterOp → Prop
  | .interface _ op => op.Puts Q
  | _ => True

instance [DecidablePred Q] : (op : RouterOp) → Decidable (op.Puts Q)
  | .interface _ op => inferInstanceAs (Decidable (op.Puts Q))
  | .addInterface .. | .addRoute .. | .route => inferInstanceAs (Decidable True)

/-- What the operation puts into an interface of this router is of its kind. -/
def Gets (Q S : Ipv4Datagram → Prop) (router : Router) : RouterOp → Prop
  | .interface interfaceNum op =>
      ∀ interface ∈ router.interfaces[interfaceNum]?, interface.Gets Q S op
  | _ => True

/-- The operation passes the assertion of `add_route`. -/
def RouterOp.Sound : RouterOp → Prop
  | .addRoute _ prefixLength _ _ => prefixLength ≤ 32
  | _ => True

instance : (op : RouterOp) → Decidable op.Sound
  | .addRoute _ prefixLength _ _ => inferInstanceAs (Decidable (prefixLength ≤ 32))
  | .addInterface .. | .interface .. | .route => inferInstanceAs (Decidable True)

/-- The frame that an operation gives to an interface. -/
def RouterOp.frame? : RouterOp → Option EthernetFrame
  | .interface _ (.recvFrame frame) => some frame
  | _ => none

theorem RouterOp.frame?_eq_some {frame : EthernetFrame} : op.frame? = some frame ↔
    ∃ interfaceNum, op = .interface interfaceNum (.recvFrame frame) := by
  constructor
  · intro h
    unfold RouterOp.frame? at h
    split at h
    · rename_i interfaceNum given
      obtain rfl := Option.some.inj h
      exact ⟨interfaceNum, rfl⟩
    · exact nomatch h
  · rintro ⟨interfaceNum, rfl⟩
    rfl

/-- The frame that an operation takes out. -/
def outgoing (router : Router) : RouterOp → List EthernetFrame
  | .interface interfaceNum op =>
      router.interfaces[interfaceNum]?.elim [] fun interface => interface.outgoing op
  | _ => []

theorem RouterOp.Puts.mono {R : Ipv4Datagram → Prop} (hmono : ∀ datagram, Q datagram → R datagram)
    (h : op.Puts Q) : op.Puts R := by
  cases op with
  | interface interfaceNum op =>
      have hop : op.Puts Q := h
      exact hop.mono hmono
  | addInterface ethernetAddress ipAddress => trivial
  | addRoute routePrefix prefixLength nextHop interfaceNum => trivial
  | route => trivial

theorem RouterOp.Puts.gets (h : op.Puts Q) (router : Router) : router.Gets Q Q op := by
  cases op with
  | interface interfaceNum op =>
      have hop : op.Puts Q := h
      exact fun interface _ => hop.gets interface
  | addInterface ethernetAddress ipAddress => trivial
  | addRoute routePrefix prefixLength nextHop interfaceNum => trivial
  | route => trivial

theorem holdsAll_new (Q S : Ipv4Datagram → Prop) : new.HoldsAll Q S :=
  fun _ hmem => absurd hmem List.not_mem_nil

theorem HoldsAll.mono {R T : Ipv4Datagram → Prop} (hmono : ∀ datagram, Q datagram → R datagram)
    (hsent : ∀ datagram, S datagram → T datagram) (h : router.HoldsAll Q S) :
    router.HoldsAll R T :=
  fun interface hmem => (h interface hmem).mono hmono hsent

theorem HoldsAll.set (h : ∀ interface ∈ interfaces, interface.Holds Q S)
    (hinterface : interface.Holds Q S) :
    ∀ other ∈ interfaces.set interfaceNum interface, other.Holds Q S := by
  intro other hmem
  rcases List.mem_or_eq_of_mem_set hmem with hmem | rfl
  · exact h other hmem
  · exact hinterface

theorem HoldsAll.handles (hclosed : HopClosed Q S) (h : router.HoldsAll Q S)
    (hhandles : router.Handles router1) : router1.HoldsAll Q S := by
  have hpop : ∀ {interfaceNum : Nat} {interface : NetworkInterface},
      router.interfaces[interfaceNum]? = some interface →
      (router.popInbound interfaceNum interface).HoldsAll Q S := by
    intro interfaceNum interface hinterface
    have hmem := h interface (List.mem_of_getElem? hinterface)
    have hgets : interface.Gets Q S .popDatagram := trivial
    exact HoldsAll.set h (hmem.perform hgets rfl)
  cases hhandles with
  | dropped hinterface _ => exact hpop hinterface
  | @sent interfaceNum interface datagram rest sending interfaces hinterface hqueue hforward
      hsend =>
      obtain ⟨httl, hhopped, -⟩ := forwarding_eq_some hforward
      obtain ⟨out, out1, hout, hone, rfl⟩ := send_eq_ok.mp hsend
      have hknown := (h interface (List.mem_of_getElem? hinterface)).inbound datagram
        (hqueue ▸ List.mem_cons_self)
      obtain ⟨hfit, hkind⟩ := NetworkInterface.known_written.mp hknown
      have hgets : out.Gets Q S (.sendDatagram sending.datagram sending.nextHop) := by
        rw [hhopped]
        exact ⟨hfit, hclosed datagram hkind httl⟩
      exact HoldsAll.set (hpop hinterface)
        ((hpop hinterface out (List.mem_of_getElem? hout)).perform hgets hone)

/-- Every operation keeps the kinds of what the router holds, if what it routes is of the other kind
after a hop. -/
theorem HoldsAll.perform (hclosed : op = .route → HopClosed Q S) (h : router.HoldsAll Q S)
    (hgets : router.Gets Q S op) (hok : router.perform op = .ok router1) :
    router1.HoldsAll Q S := by
  cases op with
  | addInterface ethernetAddress ipAddress =>
      obtain rfl := Except.ok.inj hok
      intro interface hmem
      rcases List.mem_append.mp hmem with hmem | hmem
      · exact h interface hmem
      · obtain rfl := List.mem_singleton.mp hmem
        exact NetworkInterface.holds_new ..
  | addRoute routePrefix prefixLength nextHop interfaceNum =>
      unfold Router.perform addRoute at hok
      dsimp only at hok
      split_ifs at hok with hle
      obtain rfl := Except.ok.inj hok
      exact h
  | interface interfaceNum op =>
      unfold Router.perform at hok
      dsimp only at hok
      cases hinterface : router.interfaces[interfaceNum]? with
      | none =>
          rw [hinterface] at hok
          obtain rfl := Except.ok.inj hok
          exact h
      | some interface =>
          rw [hinterface] at hok
          obtain ⟨interface1, hop, hok⟩ := Exec.bind_eq_ok.mp hok
          obtain rfl := Except.ok.inj hok
          exact HoldsAll.set h
            ((h interface (List.mem_of_getElem? hinterface)).perform
              (hgets interface hinterface) hop)
  | route =>
      exact route_invariant (HoldsAll Q S)
        (fun _ _ hinv => HoldsAll.handles (hclosed rfl) hinv) h hok

/-- Nothing that a router is given stops it. -/
theorem HoldsAll.perform_total (h : router.HoldsAll Q S) (hgets : router.Gets Q S op)
    (hsound : op.Sound) : ∃ router1, router.perform op = .ok router1 := by
  cases op with
  | addInterface ethernetAddress ipAddress => exact ⟨_, rfl⟩
  | addRoute routePrefix prefixLength nextHop interfaceNum =>
      exact ⟨_, dif_pos (show prefixLength ≤ 32 from hsound)⟩
  | interface interfaceNum op =>
      unfold Router.perform
      dsimp only
      cases hinterface : router.interfaces[interfaceNum]? with
      | none => exact ⟨_, rfl⟩
      | some interface =>
          obtain ⟨interface1, hop⟩ :=
            (h interface (List.mem_of_getElem? hinterface)).perform_total (hgets interface hinterface)
          dsimp only
          rw [hop]
          exact ⟨_, rfl⟩
  | route =>
      have hfits : ∀ interface ∈ router.interfaces, interface.Fits :=
        fun interface hmem datagram hd =>
        (NetworkInterface.known_written.mp ((h interface hmem).inbound datagram hd)).1
      obtain ⟨router1, hroute, -⟩ := route_routed hfits
      exact ⟨router1, hroute⟩

theorem mem_outgoing {frame : EthernetFrame} : frame ∈ router.outgoing op ↔
    ∃ interfaceNum interface, op = .interface interfaceNum .popFrame ∧
      router.interfaces[interfaceNum]? = some interface ∧
      interface.framesOut.head? = some frame := by
  constructor
  · intro hframe
    cases op with
    | interface interfaceNum op =>
        unfold Router.outgoing at hframe
        dsimp only at hframe
        cases hinterface : router.interfaces[interfaceNum]? with
        | none =>
            rw [hinterface] at hframe
            exact absurd hframe List.not_mem_nil
        | some interface =>
            rw [hinterface] at hframe
            cases op with
            | popFrame =>
                exact ⟨interfaceNum, interface, rfl, hinterface, Option.mem_toList.mp hframe⟩
            | _ => exact absurd hframe List.not_mem_nil
    | _ => exact absurd hframe List.not_mem_nil
  · rintro ⟨interfaceNum, interface, rfl, hinterface, hfirst⟩
    unfold Router.outgoing
    dsimp only
    rw [hinterface]
    exact Option.mem_toList.mpr hfirst

/-- A frame that comes out is an ARP message of the interface, or brings a datagram of the kind. -/
theorem HoldsAll.outgoing (h : router.HoldsAll Q S) :
    ∀ frame ∈ router.outgoing op, ∃ mac ip, Genuine (Written S) mac ip frame := by
  intro frame hframe
  obtain ⟨interfaceNum, interface, -, hinterface, hfirst⟩ := mem_outgoing.mp hframe
  exact ⟨_, _, (h interface (List.mem_of_getElem? hinterface)).traced.frames frame
    (List.mem_of_mem_head? hfirst)⟩

end Router

end Minnow
