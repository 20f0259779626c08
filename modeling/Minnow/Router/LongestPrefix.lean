import Minnow.Library.FirstMax
import Minnow.Router.Basic

set_option autoImplicit false

/-! # The longest prefix, bit by bit

A route matches a destination when the first bits of its prefix, as many as the prefix is long,
are those of the destination. The code compares 32-bit words under a mask instead; whatever the
prefix holds behind its length plays no part.

* `Route.agrees_iff_covers`: the two are the same.
* `Router.longest_prefix_match`: a lookup finds the longest of the routes that match, and of
  several the one that was added first.
-/

namespace Minnow

/-- Bit `i` of an address, from the first bit of the first octet. -/
def Ipv4AddrBytes.bit (ip : Ipv4AddrBytes) (i : Nat) : Bool :=
  (ip.octets.getD (i / 8) 0).toNat.testBit (7 - i % 8)

/-- The first bits of the prefix, as many as it is long, are those of the destination. -/
def Route.Agrees (route : Route) (destination : Ipv4AddrBytes) : Prop :=
  ∀ i < route.prefixLength.toNat, route.routePrefix.bit i = destination.bit i

instance (route : Route) (destination : Ipv4AddrBytes) : Decidable (route.Agrees destination) :=
  inferInstanceAs (Decidable (∀ i < route.prefixLength.toNat, _))

/-! ## Bits of a word -/

theorem testBit_octet {high : Nat} {low : UInt8} (k : Nat) :
    (high * 2 ^ 8 + low.toNat).testBit k
      = if k < 8 then low.toNat.testBit k else high.testBit (k - 8) := by
  rw [Nat.mul_comm, Nat.testBit_two_pow_mul_add high low.toNat_lt]

/-- The first bit of an address is the highest of its word. -/
theorem Ipv4AddrBytes.bit_eq (ip : Ipv4AddrBytes) {i : Nat} (h : i < 32) :
    ip.bit i = ip.toU32.toNat.testBit (31 - i) := by
  rw [Ipv4AddrBytes.toU32, toNat_u32OfBytes, testBit_octet, testBit_octet, testBit_octet,
    Ipv4AddrBytes.bit]
  split_ifs with hlast hthird hsecond
  · rw [show i / 8 = 3 by omega, show 31 - i = 7 - i % 8 by omega]
    rfl
  · rw [show i / 8 = 2 by omega, show 31 - i - 8 = 7 - i % 8 by omega]
    rfl
  · rw [show i / 8 = 1 by omega, show 31 - i - 8 - 8 = 7 - i % 8 by omega]
    rfl
  · rw [show i / 8 = 0 by omega, show 31 - i - 8 - 8 - 8 = 7 - i % 8 by omega]
    rfl

/-- Equal under the mask is equal in the bits that the mask keeps. -/
theorem Route.agrees_iff_covers {route : Route} (h : route.prefixLength ≤ 32)
    (destination : Ipv4AddrBytes) : route.Agrees destination ↔ route.Covers destination := by
  have hlen : route.prefixLength.toNat ≤ 32 := h
  unfold Route.Agrees Route.Covers
  set n := route.prefixLength.toNat with hn
  constructor
  · intro hagrees
    apply Nat.eq_of_testBit_eq
    intro j
    rw [Nat.testBit_div_two_pow, Nat.testBit_div_two_pow]
    by_cases hj : j < n
    · -- bit `j` of the quotient is the bit of the prefix as far from its end
      have hbit := hagrees (n - 1 - j) (by omega)
      rw [Ipv4AddrBytes.bit_eq _ (by omega), Ipv4AddrBytes.bit_eq _ (by omega)] at hbit
      rwa [show 31 - (n - 1 - j) = j + (32 - n) by omega] at hbit
    · have hhigh : ∀ ip : Ipv4AddrBytes, ip.toU32.toNat.testBit (j + (32 - n)) = false := by
        intro ip
        apply Nat.testBit_lt_two_pow
        exact ip.toU32.toNat_lt.trans_le (Nat.pow_le_pow_right (by decide) (by omega))
      rw [hhigh, hhigh]
  · intro hcovers i hi
    have hbit := congrArg (fun z => Nat.testBit z (n - 1 - i)) hcovers
    rw [Nat.testBit_div_two_pow, Nat.testBit_div_two_pow,
      show n - 1 - i + (32 - n) = 31 - i by omega] at hbit
    rw [Ipv4AddrBytes.bit_eq _ (by omega), Ipv4AddrBytes.bit_eq _ (by omega)]
    exact hbit

namespace Router

variable {router router1 : Router}

/-- The lookup scans the routes that match for the longest. -/
theorem findRoute_eq_argmax (router : Router) (destination : Ipv4AddrBytes) :
    router.findRoute destination = .ok
      ((router.routes.filter fun route => decide (route.Agrees destination)).argmax
        fun route => route.prefixLength.toNat) := by
  have hsame : ∀ route ∈ router.routes,
      decide (route.Covers destination) = decide (route.Agrees destination) := by
    intro route hroute
    rw [decide_eq_decide]
    exact (Route.agrees_iff_covers (router.prefixLength_le route hroute) destination).symm
  rw [findRoute_eq, longestPrefix, List.filter_congr hsame]

theorem routes_addRoute {routePrefix : Ipv4AddrBytes} {prefixLength : UInt8}
    {nextHop : Option Ipv4AddrBytes} {interfaceNum : Nat}
    (h : router.addRoute routePrefix prefixLength nextHop interfaceNum = .ok router1) :
    router1.routes = router.routes ++ [⟨routePrefix, prefixLength, nextHop, interfaceNum⟩] := by
  unfold addRoute at h
  split_ifs at h
  obtain rfl := Except.ok.inj h
  rfl

/-- Whatever the table, the lookup returns. It finds nothing if and only if no route agrees with
the destination in its first bits, and otherwise the first of the longest that do. A route that is
added takes over if it agrees and is strictly longer than the one found before; if it does not
agree, or is not longer, the lookup finds what it found before. -/
theorem longest_prefix_match (router : Router) (destination : Ipv4AddrBytes) :
    (∃ found, router.findRoute destination = .ok found) ∧
    (router.findRoute destination = .ok none ↔
      ∀ route ∈ router.routes, ¬ route.Agrees destination) ∧
    (∀ route, router.findRoute destination = .ok (some route) ↔
      FirstMax (fun route => route.Agrees destination) (fun route => route.prefixLength.toNat)
        router.routes route) ∧
    ∀ (route : Route) (router1 : Router),
      router.addRoute route.routePrefix route.prefixLength route.nextHop route.interfaceNum
          = .ok router1 →
        ((¬ route.Agrees destination ∨ ∃ best, router.findRoute destination = .ok (some best) ∧
            route.prefixLength ≤ best.prefixLength) →
          router1.findRoute destination = router.findRoute destination) ∧
        (route.Agrees destination →
          (∀ best, router.findRoute destination = .ok (some best) →
            best.prefixLength < route.prefixLength) →
          router1.findRoute destination = .ok (some route)) := by
  refine ⟨⟨_, findRoute_eq_argmax router destination⟩, ?_, ?_, ?_⟩
  · rw [findRoute_eq_argmax, Except.ok.injEq]
    exact argmax_filter_eq_none
  · intro route
    rw [findRoute_eq_argmax, Except.ok.injEq]
    exact argmax_filter_eq_some
  · intro route router1 hadd
    rw [findRoute_eq_argmax, findRoute_eq_argmax, routes_addRoute hadd]
    constructor
    · intro hkeep
      -- a new last route wins only if it is strictly longer than the best one
      rw [argmax_filter_concat_of_le]
      intro hagrees
      obtain ⟨best, hbest, hle⟩ := hkeep.resolve_left (not_not.mpr hagrees)
      exact ⟨best, Except.ok.inj hbest, hle⟩
    · intro hagrees hlonger
      refine congrArg Except.ok (argmax_filter_concat_of_lt hagrees ?_)
      intro best hbest
      exact hlonger best (congrArg Except.ok hbest)

/-- A default route and two of eight bits, with bits set behind their length. -/
def overlapping : Router where
  interfaces := []
  routes := [⟨⟨0, 0, 0, 0⟩, 0, none, 0⟩, ⟨⟨10, 1, 2, 3⟩, 8, none, 1⟩, ⟨⟨10, 9, 9, 9⟩, 8, none, 2⟩]
  prefixLength_le := by decide

theorem longest_prefix_match_overlapping :
    overlapping.findRoute ⟨10, 200, 0, 1⟩ = .ok (some ⟨⟨10, 1, 2, 3⟩, 8, none, 1⟩) ∧
    ∃ router1, overlapping.addRoute ⟨10, 200, 0, 1⟩ 8 none 3 = .ok router1 ∧
      router1.findRoute ⟨10, 200, 0, 1⟩ = overlapping.findRoute ⟨10, 200, 0, 1⟩ := by
  obtain ⟨-, -, hfinds, hadded⟩ := longest_prefix_match overlapping ⟨10, 200, 0, 1⟩
  have hfirst : overlapping.findRoute ⟨10, 200, 0, 1⟩
      = .ok (some ⟨⟨10, 1, 2, 3⟩, 8, none, 1⟩) := by
    rw [hfinds]
    refine ⟨by decide, [⟨⟨0, 0, 0, 0⟩, 0, none, 0⟩], [⟨⟨10, 9, 9, 9⟩, 8, none, 2⟩], rfl, ?_, ?_⟩
    · decide
    · decide
  refine ⟨hfirst, _, rfl, ?_⟩
  exact (hadded ⟨⟨10, 200, 0, 1⟩, 8, none, 3⟩ _ rfl).1 (Or.inr ⟨_, hfirst, by decide⟩)

end Router

end Minnow
