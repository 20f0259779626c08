import Minnow.Mesh.Lineage
import Minnow.NetworkInterface.Load
import Mathlib.Data.List.Perm.Subperm

set_option autoImplicit false

/-! # No storm

Routers may hand a packet round in circles, and every hop may take a question and an answer. But
each frame leads to so many others at most, so if links do not multiply frames, what comes from
outside bounds the number of frames that are ever put on a wire (`transmissions_le`): three for
every hop that the TTL of a packet allows, and one answer to a question.
-/

namespace Minnow

open NetworkInterface

namespace Router

variable {router router1 : Router} {datagram : Ipv4Datagram} {op : RouterOp}

noncomputable def load (router : Router) : Nat := (router.interfaces.map NetworkInterface.load).sum

/-- What an operation brings. -/
def RouterOp.income : RouterOp → Nat
  | .interface _ op => op.income
  | _ => 0

/-- The datagram that an operation hands to an interface. -/
def RouterOp.datagram? : RouterOp → Option Ipv4Datagram
  | .interface _ (.sendDatagram datagram _) => some datagram
  | _ => none

/-- A hop is paid for by what it takes off the TTL. -/
theorem datagramCost_hopped (httl : 2 ≤ datagram.header.ttl) :
    datagramCost (hopped datagram) + 3 = datagramCost datagram := by
  have hle : 2 ≤ datagram.header.ttl.toNat := httl
  have hhop : (hopped datagram).header.ttl.toNat + 1 = datagram.header.ttl.toNat :=
    toNat_sub_one_add_one httl
  unfold datagramCost
  omega

theorem load_popInbound {interfaceNum : Nat} {interface : NetworkInterface}
    (hinterface : router.interfaces[interfaceNum]? = some interface) :
    (router.popInbound interfaceNum interface).load
      + interface.datagramsIn.head?.elim 0 datagramCost = router.load := by
  have hset := sum_set NetworkInterface.load interface.popDatagram.1 hinterface
  have hpop := load_popDatagram interface
  unfold load popInbound
  dsimp only
  omega

/-- Sending a datagram costs what its arrival was charged. -/
theorem load_handles (h : router.Handles router1) : router1.load ≤ router.load := by
  cases h with
  | dropped hinterface _ =>
      rw [← load_popInbound hinterface]
      exact Nat.le_add_right _ _
  | @sent interfaceNum interface datagram rest sending interfaces hinterface hqueue hforward
      hsend =>
      obtain ⟨httl, hhopped, -⟩ := forwarding_eq_some hforward
      obtain ⟨out, out1, hout, hone, rfl⟩ := send_eq_ok.mp hsend
      have hpop := load_popInbound hinterface
      rw [hqueue, List.head?_cons, Option.elim_some] at hpop
      have hsent := load_sendDatagram hone
      rw [hhopped, datagramCost_hopped httl] at hsent
      have hset := sum_set NetworkInterface.load out1 hout
      unfold load at hpop ⊢
      dsimp only
      omega

/-- No operation of a router spends more than it brings. -/
theorem load_perform (h : router.perform op = .ok router1) :
    router1.load + framesCost (router.outgoing op) ≤ router.load + op.income := by
  cases op with
  | addInterface ethernetAddress ipAddress =>
      obtain rfl := Except.ok.inj h
      unfold addInterface load
      dsimp only
      rw [List.map_append, List.sum_append, List.map_singleton, List.sum_singleton, load_new]
      exact Nat.le_refl _
  | addRoute routePrefix prefixLength nextHop interfaceNum =>
      unfold perform addRoute at h
      dsimp only at h
      split_ifs at h with hle
      obtain rfl := Except.ok.inj h
      exact Nat.le_refl _
  | interface interfaceNum op =>
      unfold perform at h
      dsimp only at h
      cases hinterface : router.interfaces[interfaceNum]? with
      | none =>
          rw [hinterface] at h
          obtain rfl := Except.ok.inj h
          unfold outgoing
          dsimp only
          rw [hinterface]
          exact Nat.le_add_right _ _
      | some interface =>
          rw [hinterface] at h
          obtain ⟨interface1, hop, hok⟩ := Exec.bind_eq_ok.mp h
          obtain rfl := Except.ok.inj hok
          have hset := sum_set NetworkInterface.load interface1 hinterface
          have hone := NetworkInterface.load_perform hop
          unfold outgoing RouterOp.income load
          dsimp only
          rw [hinterface, Option.elim_some]
          omega
  | route =>
      exact route_invariant (fun other => other.load ≤ router.load)
        (fun _ _ hinv hhandles => (load_handles hhandles).trans hinv) (Nat.le_refl _) h

end Router

namespace Mesh

open Router

variable {ι : Type} {mesh mesh1 : Mesh ι} {move : ι × RouterOp} {moves : List (ι × RouterOp)}
  {frames taken inside outside : List EthernetFrame}

noncomputable def load [Fintype ι] (mesh : Mesh ι) : Nat := ∑ i, (mesh.router i).load

/-- The frames that were given to interfaces. -/
def received (moves : List (ι × RouterOp)) : List EthernetFrame :=
  moves.filterMap fun move => move.2.frame?

/-- The datagrams that owners of routers handed to interfaces. -/
def handed (moves : List (ι × RouterOp)) : List Ipv4Datagram :=
  moves.filterMap fun move => move.2.datagram?

/-- The frames that frames can lead to when they arrive. -/
def arrivalCost (frames : List EthernetFrame) : Nat := (frames.map frameCost).sum

/-- The frames that datagrams can lead to when they are handed over. -/
def handingCost (datagrams : List Ipv4Datagram) : Nat :=
  (datagrams.map fun datagram => datagramCost datagram + 3).sum

theorem framesCost_eq (frames : List EthernetFrame) :
    framesCost frames = arrivalCost frames + frames.length := by
  induction frames with
  | nil => rfl
  | cons frame frames ih =>
      unfold framesCost arrivalCost at ih ⊢
      rw [List.map_cons, List.sum_cons, List.map_cons, List.sum_cons, List.length_cons]
      omega

/-- An operation brings a frame, or a datagram, or nothing. -/
theorem income_eq (op : RouterOp) :
    op.income = arrivalCost op.frame?.toList + handingCost op.datagram?.toList := by
  cases op with
  | interface interfaceNum op =>
      cases op with
      | sendDatagram datagram nextHop => exact (Nat.zero_add _).symm
      | _ => rfl
  | _ => rfl

theorem income_sum (moves : List (ι × RouterOp)) :
    (moves.map fun move => move.2.income).sum
      = arrivalCost (received moves) + handingCost (handed moves) := by
  induction moves with
  | nil => rfl
  | cons move moves ih =>
      have hreceived : arrivalCost (received (move :: moves))
          = arrivalCost move.2.frame?.toList + arrivalCost (received moves) := by
        unfold received arrivalCost
        rw [List.filterMap_cons]
        cases move.2.frame? <;> simp
      have hhanded : handingCost (handed (move :: moves))
          = handingCost move.2.datagram?.toList + handingCost (handed moves) := by
        unfold handed handingCost
        rw [List.filterMap_cons]
        cases move.2.datagram? <;> simp
      rw [List.map_cons, List.sum_cons, ih, income_eq, hreceived, hhanded]
      omega

/-- Frames that are taken off the wires, and perhaps padded, cost no more than all on the wires. -/
theorem arrivalCost_taken {Q : Ipv4Datagram → Prop} (h : mesh.Inv Q)
    (hinside : List.Forall₂ Pads taken inside) (htaken : taken.Subperm mesh.wire) :
    arrivalCost inside ≤ arrivalCost mesh.wire := by
  obtain ⟨front, hperm, hsublist⟩ := htaken
  have hsame : arrivalCost inside = arrivalCost taken := by
    have hmem : ∀ frame ∈ taken, frame ∈ mesh.wire :=
      fun frame hframe => hsublist.subset (hperm.mem_iff.mpr hframe)
    clear hperm hsublist
    induction hinside with
    | nil => rfl
    | @cons sent frame taken inside hpads _ ih =>
        obtain ⟨mac, ip, hgenuine⟩ := h.wire sent (hmem sent List.mem_cons_self)
        have hone := hgenuine.frameCost_padded hpads.1 hpads.2
        have hrest := ih fun frame hframe => hmem frame (List.mem_cons_of_mem _ hframe)
        unfold arrivalCost at hrest ⊢
        rw [List.map_cons, List.map_cons, List.sum_cons, List.sum_cons, hone, hrest]
  have htotal : arrivalCost taken = arrivalCost front := (hperm.map frameCost).sum_eq.symm
  rw [hsame, htotal]
  exact (hsublist.map frameCost).sum_le_sum fun _ _ => Nat.zero_le _

variable [Fintype ι] [DecidableEq ι]

/-- What is on the wires and what the routers may still send grow by no more than what is
brought. -/
theorem load_step (h : mesh.step move = .ok mesh1) :
    mesh1.load + framesCost mesh1.wire ≤ mesh.load + framesCost mesh.wire + move.2.income := by
  obtain ⟨router1, hperform, rfl⟩ := step_eq_ok.mp h
  have hsum := sum_update Router.load mesh.router move.1 router1
  have hone := Router.load_perform hperform
  unfold load
  dsimp only
  rw [framesCost_append]
  omega

/-- If links do not multiply frames, the frames that were ever put on a wire, and those that the
routers may still send, are no more than what came from outside can lead to. -/
theorem transmissions_le (hrun : Exec.RunWhile (Admits fun _ => True) step start moves mesh)
    (hreceived : (received moves).Perm (inside ++ outside))
    (hinside : List.Forall₂ Pads taken inside) (htaken : taken.Subperm mesh.wire) :
    mesh.wire.length + mesh.load ≤ arrivalCost outside + handingCost (handed moves) := by
  have hinv : mesh.Inv fun _ => True := (inv_start _).run (fun _ _ _ => trivial) hrun
  have hspent := hrun.measure_le_sum (fun _ => True)
    (fun mesh => mesh.load + framesCost mesh.wire) (fun move => move.2.income)
    (fun _ _ _ _ _ hstep => ⟨trivial, load_step hstep⟩) trivial
  have hstart : (start : Mesh ι).load + framesCost (start : Mesh ι).wire = 0 := by
    have hnone : ∑ _i : ι, Router.new.load = 0 := Finset.sum_eq_zero fun _ _ => rfl
    exact hnone
  have hsplit : arrivalCost (received moves) = arrivalCost inside + arrivalCost outside := by
    rw [arrivalCost, (hreceived.map frameCost).sum_eq, List.map_append, List.sum_append]
    rfl
  have htotal := arrivalCost_taken hinv hinside htaken
  have hcount := framesCost_eq mesh.wire
  have hincome := income_sum moves
  omega

/-- The frames of the routers as they were delivered, one of them padded. -/
def demoInside : List EthernetFrame :=
  [EthernetFrame.arp EthernetAddress.BROADCAST (demoMac 2) demoRequest,
    EthernetFrame.arp (demoMac 2) (demoMac 3) demoReply,
    EthernetFrame.ipv4 (demoMac 3) (demoMac 2) (demoPacket 3 ++ [0, 0, 0]),
    demoFrame (demoMac 2) (demoMac 3) 2, demoFrame (demoMac 3) (demoMac 2) 1]

/-- The circle ends after five frames, and there could have been nine. -/
theorem transmissions_le_loop : ∃ mesh : Mesh (Fin 2), mesh.wire.length = 5 ∧
    arrivalCost [demoFrame (demoMac 1) (demoMac 0) 4] + handingCost (handed demoMoves) = 9 ∧
    mesh.wire.length + mesh.load
      ≤ arrivalCost [demoFrame (demoMac 1) (demoMac 0) 4] + handingCost (handed demoMoves) := by
  obtain ⟨mesh, hrun, hwire⟩ := demo_run
  have hreceived : (received demoMoves).Perm
      (demoInside ++ [demoFrame (demoMac 1) (demoMac 0) 4]) := by decide +kernel
  have hinside : List.Forall₂ Pads demoWire demoInside := by decide +kernel
  refine ⟨mesh, by rw [hwire]; rfl, by decide +kernel, ?_⟩
  exact transmissions_le (hrun.mono fun _ _ hadmits => hadmits.mono fun _ _ => trivial) hreceived
    hinside (hwire ▸ List.Subperm.refl _)

end Mesh

end Minnow
