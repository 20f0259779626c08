import Minnow.Lan.Safety
import Minnow.Routed.Refinement

set_option autoImplicit false

/-! # What holds across routers

Hosts that are routers apart go on whatever happens to their packets on the way (`routes_refine`),
and what their users write and read is what TCP promises (`routed_streams`).
-/

namespace Minnow

open TapHost Router

namespace Routed

variable {ι : Type} {mac : Side → EthernetAddress} {config : Side → IpHostConfig}
  {capture : Bool} {r0 r : Routed ι} {moves : List (RoutedMove ι)}

theorem inv_start (hpaired : Internet.Paired config) (h : start mac config capture = .ok r0) :
    Inv mac config r0 := by
  obtain ⟨lan, hlan, hok⟩ := Exec.bind_eq_ok.mp h
  obtain rfl := Except.ok.inj hok
  exact ⟨(Lan.inv_start hpaired hlan).2, Mesh.inv_start _⟩

variable [DecidableEq ι]

/-- No step of a station or a router stops, every datagram in a router or on a wire brings what the
hosts have sent, and what the stations do together is a run of two hosts that exchange datagrams. -/
theorem routes_refine (hpaired : Internet.Paired config)
    (hdistinct : (config .a).localIp ≠ (config .b).localIp)
    (hstart : start mac config capture = .ok r0)
    (hrun : Exec.RunWhile Allowed step r0 moves r) :
    (∀ move, r.Allowed move → ∃ r1, r.step move = .ok r1) ∧
      r.mesh.Inv (Faithful r.lan.internet) ∧
      (∀ side, Lan.Tracks r.lan.internet side (r.lan.tap side)) ∧
      ∃ hostMoves, Exec.RunWhile Internet.Allowed Internet.step r0.lan.internet hostMoves
        r.lan.internet := by
  obtain ⟨hinv, hosts⟩ := (inv_start hpaired hstart).run hpaired hdistinct hrun
  refine ⟨?_, hinv.mesh, hinv.lan.tracks, hosts⟩
  intro move hallowed
  obtain ⟨r1, hostMoves, hstep, -⟩ := hinv.step_total hpaired hdistinct hallowed
  exact ⟨r1, hstep⟩

/-- In every state that two stations and routers between them reach, the streams are what TCP
promises. -/
theorem routed_streams (hpaired : Internet.Paired config)
    (hdistinct : (config .a).localIp ≠ (config .b).localIp)
    (hstart : start mac config capture = .ok r0)
    (hrun : Exec.RunWhile Allowed step r0 moves r) (side : Side) :
    (r.lan.tap side).host = (r.lan.internet.station side).host ∧ r.lan.internet.Reliable side := by
  obtain ⟨hinv, -⟩ := (inv_start hpaired hstart).run hpaired hdistinct hrun
  exact ⟨(hinv.lan.tracks side).host, hinv.lan.whole.inv.reliable side⟩

/-! ## A run

A router with a wire to each station. The stations take it for each other, as someone has told them,
and the router has to ask for `b`. What `a` writes arrives padded, with one taken off its TTL. -/

/-- The interfaces of the router. -/
def demoRouterMac : Side → EthernetAddress
  | .a => ⟨2, 0, 0, 0, 0, 1⟩
  | .b => ⟨2, 0, 0, 0, 0, 2⟩

/-- The packet after a hop. -/
def demoHopped (packet : Bytes) : Bytes := (packet.set 8 63).set 10 39

/-- A frame of a station, to the router. -/
def demoUp (side : Side) (packet : Bytes) : EthernetFrame :=
  EthernetFrame.ipv4 (demoRouterMac side) (Lan.demoMac side) packet

/-- A frame of the router, to a station. -/
def demoDown (side : Side) (packet : Bytes) : EthernetFrame :=
  EthernetFrame.ipv4 (Lan.demoMac side) (demoRouterMac side) (demoHopped packet)

/-- The router has the address of the other station, somebody says. -/
def demoClaim (side : Side) (ip peerIp : Bytes) : Bytes :=
  (Lan.demoMac side).octets ++ (demoRouterMac side).octets ++ u16Bytes ETHERTYPE_ARP ++
    [0, 1, 8, 0, 6, 4, 0, 2] ++ (demoRouterMac side).octets ++ peerIp ++
    (Lan.demoMac side).octets ++ ip

/-- Who has the address of `b`, `a` asks. -/
def demoRequest : EthernetFrame :=
  EthernetFrame.arp EthernetAddress.BROADCAST (Lan.demoMac .a)
    ([0, 1, 8, 0, 6, 4, 0, 1] ++ (Lan.demoMac .a).octets ++ [10, 0, 0, 1] ++
      EthernetAddress.ZERO.octets ++ [10, 0, 0, 2])

/-- Who has the address of `b`, the router asks. -/
def demoQuestion : EthernetFrame :=
  EthernetFrame.arp EthernetAddress.BROADCAST (demoRouterMac .b)
    ([0, 1, 8, 0, 6, 4, 0, 1] ++ (demoRouterMac .b).octets ++ [10, 1, 0, 3] ++
      EthernetAddress.ZERO.octets ++ [10, 0, 0, 2])

def demoAnswer : EthernetFrame :=
  EthernetFrame.arp (demoRouterMac .b) (Lan.demoMac .b)
    ([0, 1, 8, 0, 6, 4, 0, 2] ++ (Lan.demoMac .b).octets ++ [10, 0, 0, 2] ++
      (demoRouterMac .b).octets ++ [10, 1, 0, 3])

def routerOp (op : RouterOp) : RoutedMove Unit := .router ((), op)

def demoMoves : List (RoutedMove Unit) :=
  [routerOp (.addInterface (demoRouterMac .a) ⟨10, 0, 0, 3⟩),
    routerOp (.addInterface (demoRouterMac .b) ⟨10, 1, 0, 3⟩),
    routerOp (.addRoute ⟨10, 0, 0, 1⟩ 32 none 0), routerOp (.addRoute ⟨10, 0, 0, 2⟩ 32 none 1),
    .station (.a, .connect),
    .station (.a, .frame (demoClaim .a [10, 0, 0, 1] [10, 0, 0, 2])), .station (.a, .flush),
    routerOp (.interface 0 (.recvFrame demoRequest)),
    routerOp (.interface 0 (.recvFrame (demoUp .a Internet.demoSyn))), routerOp .route,
    routerOp (.interface 1 .popFrame),
    .station (.b, .frame (demoQuestion.serialize)), .station (.b, .flush),
    routerOp (.interface 1 (.recvFrame demoAnswer)), routerOp (.interface 1 .popFrame),
    .station (.b, .frame (demoClaim .b [10, 0, 0, 2] [10, 0, 0, 1])),
    .station (.b, .frame (demoDown .b Internet.demoSyn).serialize), .station (.b, .flush),
    routerOp (.interface 1 (.recvFrame (demoUp .b Internet.demoSynAck))), routerOp .route,
    routerOp (.interface 0 .popFrame),
    .station (.a, .frame (demoDown .a Internet.demoSynAck).serialize),
    .station (.a, .app (.data [1, 2, 3])), .station (.a, .flush),
    routerOp (.interface 0 (.recvFrame (demoUp .a Internet.demoData))), routerOp .route,
    routerOp (.interface 1 .popFrame),
    .station (.b, .frame ((demoDown .b Internet.demoData).serialize ++ [0, 0, 0]))]

theorem demo_run : ∃ r0 r : Routed Unit, start Lan.demoMac Internet.demoConfig false = .ok r0 ∧
    Exec.RunWhile Allowed step r0 demoMoves r ∧
    (r.lan.tap .b).host.connection.receiver.output.contents = [1, 2, 3] := by
  obtain ⟨r0, hstart, r, hmoves, hcontents⟩ : ∃ r0 : Routed Unit,
      start Lan.demoMac Internet.demoConfig false = .ok r0 ∧
      ∃ r, Exec.run (Exec.guarded Allowed step) r0 demoMoves = .ok r ∧
        (r.lan.tap .b).host.connection.receiver.output.contents = [1, 2, 3] := by
    decide +kernel
  exact ⟨r0, r, hstart, Exec.RunWhile.of_guarded hmoves, hcontents⟩

theorem routes_refine_demo : ∃ r0 r : Routed Unit,
    start Lan.demoMac Internet.demoConfig false = .ok r0 ∧
    (∀ move, r.Allowed move → ∃ r1, r.step move = .ok r1) ∧
      r.mesh.Inv (Faithful r.lan.internet) ∧
      (∀ side, Lan.Tracks r.lan.internet side (r.lan.tap side)) ∧
      ∃ hostMoves, Exec.RunWhile Internet.Allowed Internet.step r0.lan.internet hostMoves
        r.lan.internet := by
  obtain ⟨r0, r, hstart, hrun, -⟩ := demo_run
  exact ⟨r0, r, hstart, routes_refine Internet.demo_paired (by decide) hstart hrun⟩

theorem routed_streams_demo : ∃ r0 r : Routed Unit,
    start Lan.demoMac Internet.demoConfig false = .ok r0 ∧
    (r.lan.tap .b).host.connection.receiver.output.contents = [1, 2, 3] ∧
    (r.lan.tap .a).host = (r.lan.internet.station .a).host ∧ r.lan.internet.Reliable .a := by
  obtain ⟨r0, r, hstart, hrun, hcontents⟩ := demo_run
  exact ⟨r0, r, hstart, hcontents, routed_streams Internet.demo_paired (by decide) hstart hrun .a⟩

end Routed

end Minnow
