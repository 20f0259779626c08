import Minnow.NetworkInterface.Basic
import Minnow.Library.Run
import Mathlib.Data.List.MinMax

set_option autoImplicit false

/-! # The router

`router.rs`: network interfaces and a table of routes. `route` empties the inbound queues, one
interface after the other, and sends every datagram on the interface of the longest prefix that
covers its destination.

`findRoute_eq`: the loop over the table finds the first of the longest matching routes.
-/

namespace Minnow

structure Route where
  routePrefix : Ipv4AddrBytes
  prefixLength : UInt8
  nextHop : Option Ipv4AddrBytes
  interfaceNum : Nat
  deriving DecidableEq, Repr

/-- `u32::from_be_bytes(ip.octets())`. -/
def Ipv4AddrBytes.toU32 (ip : Ipv4AddrBytes) : UInt32 := u32OfBytes ip.b0 ip.b1 ip.b2 ip.b3

def prefixMask (prefixLength : UInt8) : Exec UInt32 :=
  if prefixLength = 0 then .ok 0
  else if prefixLength ≤ 32 then .ok (0xffffffff <<< (32 - prefixLength).toUInt32)
  else .error .overflow

def Route.matches (route : Route) (destination : Ipv4AddrBytes) : Exec Bool := do
  let mask ← prefixMask route.prefixLength
  .ok (route.routePrefix.toU32 &&& mask == destination.toU32 &&& mask)

/-- The table holds what passed the assertion of `addRoute`. -/
structure Router where
  interfaces : List NetworkInterface
  routes : List Route
  prefixLength_le : ∀ route ∈ routes, route.prefixLength ≤ 32

namespace Router

def new : Router where
  interfaces := []
  routes := []
  prefixLength_le := fun _ h => absurd h List.not_mem_nil

def addInterface (router : Router) (interface : NetworkInterface) : Router × Nat :=
  ({ router with interfaces := router.interfaces ++ [interface] }, router.interfaces.length)

theorem prefixLength_le_append {routes : List Route} {route : Route}
    (h : ∀ route ∈ routes, route.prefixLength ≤ 32) (hroute : route.prefixLength ≤ 32) :
    ∀ r ∈ routes ++ [route], r.prefixLength ≤ 32 := by
  intro r hr
  rcases List.mem_append.mp hr with hr | hr
  · exact h r hr
  · obtain rfl := List.mem_singleton.mp hr
    exact hroute

def addRoute (router : Router) (routePrefix : Ipv4AddrBytes) (prefixLength : UInt8)
    (nextHop : Option Ipv4AddrBytes) (interfaceNum : Nat) : Exec Router :=
  if hle : prefixLength ≤ 32 then
    .ok { router with
      routes := router.routes ++ [⟨routePrefix, prefixLength, nextHop, interfaceNum⟩]
      prefixLength_le := prefixLength_le_append router.prefixLength_le hle }
  else .error .assertion

/-- The loop of `find_route`. -/
def findRouteFrom (destination : Ipv4AddrBytes) : Option Route → List Route → Exec (Option Route)
  | best, [] => .ok best
  | best, route :: rest => do
      let found ← route.matches destination
      if found && best.all (fun best => best.prefixLength < route.prefixLength) then
        findRouteFrom destination (some route) rest
      else findRouteFrom destination best rest

def findRoute (router : Router) (destination : Ipv4AddrBytes) : Exec (Option Route) :=
  findRouteFrom destination none router.routes

def routeOneDatagram (router : Router) (datagram : Ipv4Datagram) : Exec Router :=
  if datagram.header.ttl ≤ 1 then .ok router
  else do
    let destination := datagram.header.dst
    match ← router.findRoute destination with
    | none => .ok router
    | some route =>
        let nextHop := route.nextHop.getD destination
        match router.interfaces[route.interfaceNum]? with
        | none => .ok router
        | some interface => do
            let header := { datagram.header with ttl := datagram.header.ttl - 1 }
            let interface ← interface.sendDatagram { datagram with header := header } nextHop
            .ok { router with
              interfaces := router.interfaces.set route.interfaceNum interface }

/-- The inner loop of `route`, on an iteration budget. -/
def drainLoop (interfaceNum : Nat) : Nat → Router → Exec Router
  | 0, _ => .error .divergence
  | budget + 1, router =>
      match router.interfaces[interfaceNum]? with
      | none => .error .slice
      | some interface =>
          let (interface, popped) := interface.popDatagram
          let router := { router with interfaces := router.interfaces.set interfaceNum interface }
          match popped with
          | none => .ok router
          | some datagram => do
              let router ← router.routeOneDatagram datagram
              drainLoop interfaceNum budget router

/-- The budget is one round more than there are datagrams: the last one finds the queue empty. -/
def drain (router : Router) (interfaceNum : Nat) : Exec Router :=
  let queued :=
    router.interfaces[interfaceNum]?.elim 0 fun interface => interface.datagramsIn.length
  drainLoop interfaceNum (queued + 1) router

def route (router : Router) : Exec Router :=
  Exec.run drain router (List.range router.interfaces.length)

/-- What the owner of a router does with it; an interface is reached through `interface_mut`. -/
inductive RouterOp where
  | addInterface (ethernetAddress : EthernetAddress) (ipAddress : Ipv4AddrBytes)
  | addRoute (routePrefix : Ipv4AddrBytes) (prefixLength : UInt8)
      (nextHop : Option Ipv4AddrBytes) (interfaceNum : Nat)
  | interface (interfaceNum : Nat) (op : NetworkInterface.InterfaceOp)
  | route

def perform (router : Router) : RouterOp → Exec Router
  | .addInterface ethernetAddress ipAddress =>
      .ok (router.addInterface (.new ethernetAddress ipAddress)).1
  | .addRoute routePrefix prefixLength nextHop interfaceNum =>
      router.addRoute routePrefix prefixLength nextHop interfaceNum
  | .interface interfaceNum op =>
      match router.interfaces[interfaceNum]? with
      | none => .ok router
      | some interface => do
          let interface ← interface.perform op
          .ok { router with interfaces := router.interfaces.set interfaceNum interface }
  | .route => router.route

end Router

/-! ## The longest prefix -/

theorem and_allOnes_shiftLeft_inj {w : Nat} {x y : BitVec w} (k : Nat) :
    x &&& (BitVec.allOnes w <<< k) = y &&& (BitVec.allOnes w <<< k) ↔
      x.toNat / 2 ^ k = y.toNat / 2 ^ k := by
  have hbit : ∀ z : BitVec w, ∀ i < w, (z &&& (BitVec.allOnes w <<< k)).getLsbD i
      = (z.getLsbD i && !decide (i < k)) := by
    intro z i hi
    rw [BitVec.getLsbD_and, BitVec.getLsbD_shiftLeft, BitVec.getLsbD_allOnes]
    simp [hi, Nat.lt_of_le_of_lt (Nat.sub_le i k) hi]
  constructor
  · intro h
    apply Nat.eq_of_testBit_eq
    intro i
    rw [Nat.testBit_div_two_pow, Nat.testBit_div_two_pow, BitVec.testBit_toNat,
      BitVec.testBit_toNat]
    by_cases hi : i + k < w
    · have hsame := congrArg (fun z => z.getLsbD (i + k)) h
      rw [hbit x _ hi, hbit y _ hi] at hsame
      simpa using hsame
    · rw [BitVec.getLsbD_of_ge x _ (Nat.not_lt.mp hi), BitVec.getLsbD_of_ge y _ (Nat.not_lt.mp hi)]
  · intro h
    apply BitVec.eq_of_getLsbD_eq
    intro i hi
    rw [hbit x i hi, hbit y i hi]
    by_cases hk : i < k
    · simp [hk]
    · have hsame := congrArg (fun z => Nat.testBit z (i - k)) h
      rw [Nat.testBit_div_two_pow, Nat.testBit_div_two_pow, Nat.sub_add_cancel (Nat.not_lt.mp hk),
        BitVec.testBit_toNat, BitVec.testBit_toNat] at hsame
      rw [hsame]

/-- The addresses agree in as many of their first bits as the prefix is long. -/
def Route.Covers (route : Route) (destination : Ipv4AddrBytes) : Prop :=
  route.routePrefix.toU32.toNat / 2 ^ (32 - route.prefixLength.toNat)
    = destination.toU32.toNat / 2 ^ (32 - route.prefixLength.toNat)

instance (route : Route) (destination : Ipv4AddrBytes) : Decidable (route.Covers destination) :=
  inferInstanceAs (Decidable (_ = _))

theorem prefixMask_eq {prefixLength : UInt8} (h : prefixLength ≤ 32) :
    prefixMask prefixLength
      = .ok (.ofBitVec (BitVec.allOnes 32 <<< (32 - prefixLength.toNat))) := by
  unfold prefixMask
  by_cases hzero : prefixLength = 0
  · -- the code leaves out the shift by the whole width, which would overflow
    subst hzero
    rfl
  · have hle : prefixLength.toNat ≤ 32 := h
    have hpos : 0 < prefixLength.toNat :=
      Nat.pos_of_ne_zero fun hz => hzero (UInt8.toNat_inj.mp hz)
    rw [if_neg hzero, if_pos h, Except.ok.injEq]
    apply UInt32.toBitVec_inj.mp
    -- the shift is taken modulo the width of the word, which it does not reach
    have hshift : ((32 - prefixLength).toUInt32.toBitVec % 32#32).toNat
        = 32 - prefixLength.toNat := by
      show (32 - prefixLength).toUInt32.toNat % 32 = _
      rw [UInt8.toNat_toUInt32, UInt8.toNat_sub_of_le _ _ h]
      show (32 - prefixLength.toNat) % 32 = _
      omega
    show (0xffffffff : UInt32).toBitVec <<< ((32 - prefixLength).toUInt32.toBitVec % 32#32) = _
    rw [BitVec.shiftLeft_eq', hshift]
    rfl

theorem Route.matches_eq {route : Route} (h : route.prefixLength ≤ 32)
    (destination : Ipv4AddrBytes) :
    route.matches destination = .ok (decide (route.Covers destination)) := by
  rw [Route.matches, prefixMask_eq h, Exec.ok_bind, Except.ok.injEq, Bool.eq_iff_iff, beq_iff_eq,
    decide_eq_true_eq, ← UInt32.toBitVec_inj]
  exact and_allOnes_shiftLeft_inj _

namespace Router

variable {router : Router} {routes : List Route} {destination : Ipv4AddrBytes}

/-- The first of the longest routes that cover the destination. -/
def longestPrefix (routes : List Route) (destination : Ipv4AddrBytes) : Option Route :=
  (routes.filter fun route => decide (route.Covers destination)).argmax fun route =>
    route.prefixLength.toNat

/-- One round of the loop, for a route that covers the destination. -/
theorem argAux_eq (best : Option Route) (route : Route) :
    List.argAux (fun route best => best.prefixLength.toNat < route.prefixLength.toNat) best route
      = if best.all (fun best => best.prefixLength < route.prefixLength) then some route
        else best := by
  cases best with
  | none => rfl
  | some best =>
      rw [Option.all_some]
      by_cases hlonger : best.prefixLength.toNat < route.prefixLength.toNat
      · exact (if_pos hlonger).trans (if_pos (decide_eq_true hlonger)).symm
      · exact (if_neg hlonger).trans (if_neg (by rwa [decide_eq_true_eq])).symm

theorem findRouteFrom_eq (h : ∀ route ∈ routes, route.prefixLength ≤ 32) (best : Option Route) :
    findRouteFrom destination best routes = .ok
      ((routes.filter fun route => decide (route.Covers destination)).foldl
        (List.argAux fun route best => best.prefixLength.toNat < route.prefixLength.toNat)
        best) := by
  induction routes generalizing best with
  | nil => rfl
  | cons route rest ih =>
      obtain ⟨hroute, hrest⟩ := List.forall_mem_cons.mp h
      rw [findRouteFrom, Route.matches_eq hroute, Exec.ok_bind, List.filter_cons]
      by_cases hcovers : route.Covers destination
      · rw [decide_eq_true hcovers, Bool.true_and, if_pos rfl, List.foldl_cons, argAux_eq]
        split
        · exact ih hrest (some route)
        · exact ih hrest best
      · -- the route takes no part: the best one so far stays
        rw [decide_eq_false hcovers, Bool.false_and, if_neg Bool.false_ne_true,
          if_neg Bool.false_ne_true]
        exact ih hrest best

/-- The loop over the table finds the first of the longest routes. -/
theorem findRoute_eq (router : Router) (destination : Ipv4AddrBytes) :
    router.findRoute destination = .ok (longestPrefix router.routes destination) :=
  findRouteFrom_eq router.prefixLength_le none

end Router

end Minnow
