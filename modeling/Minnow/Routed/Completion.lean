import Minnow.Lan.Completion
import Minnow.Routed.Exchange
import Minnow.Routed.Safety

set_option autoImplicit false

/-! # The transfer comes to its end across routers

Each host has its gate, which it takes for the other host, and from gate to gate the tables of the
routers lead. Then from every state that the stations and the routers reach, whatever is in the
caches and the queues, a round trip can be made of frames that they themselves write (`Inv.trip`):
each of its two packets crosses the routers, and every router on its way asks for the next one. So
both transfers can be completed exactly if each stream fits in the receiver at the other end
(`routed_completes_iff`).
-/

namespace Minnow

open IpHost TapHost Router NetworkInterface

namespace Routed

variable {ι : Type} {mac : Side → EthernetAddress} {config : Side → IpHostConfig}
  {gate : Side → Gate ι} {side : Side} {datagram : Ipv4Datagram} {packet : Network.Packet}
  {parcel : Parcel} {lan : Lan} {r r1 : Routed ι} {data : Side → Bytes}

/-! ## What the routers leave as it is -/

theorem hopped_iterate (hops : Nat) (datagram : Ipv4Datagram) :
    (hopped^[hops] datagram).payload = datagram.payload ∧
      ∀ host : IpHost, host.segmentOf (hopped^[hops] datagram) = host.segmentOf datagram := by
  induction hops generalizing datagram with
  | zero => exact ⟨rfl, fun _ => rfl⟩
  | succ hops ih => exact ih (hopped datagram)

/-- A datagram delivers the same after any number of hops. -/
theorem delivers_hopped (h : Lan.Delivers side datagram packet lan) (hops : Nat) :
    Lan.Delivers side (hopped^[hops] datagram) packet lan := by
  obtain ⟨hpayload, hsegment⟩ := hopped_iterate hops datagram
  refine ⟨(hsegment _).trans h.segment, h.sent, h.reach, ?_⟩
  rw [hpayload]
  exact h.short

theorem alike_of_ships {limit : Nat}
    (h : Internet.Ships limit (config side).peerIp datagram packet parcel) :
    Alike (probe config side) datagram := ⟨h.dst, h.ttl⟩

/-! ## A round trip -/

variable [DecidableEq ι]

/-- If something is outstanding that the peer admits, then the frames of one round trip acknowledge
at least one symbol. -/
theorem Inv.trip (hpaired : Internet.Paired config)
    (hdistinct : (config .a).localIp ≠ (config .b).localIp)
    (hsmall : ∀ side, (config side).senderConfig.maxPayloadSize ≤ 65481)
    (h : Inv mac config r) (hjoined : ∀ side, Joined config gate r.mesh side)
    (hout : (r.lan.internet.toWorld.endpoint side).connection.sender.outstanding ≠ [])
    (hadmits : r.lan.internet.toWorld.Admits side) :
    ∃ r1, Goes r r1 ∧ (r.lan.internet.toWorld.endpoint side).connection.sender.sndUna
        < (r1.lan.internet.toWorld.endpoint side).connection.sender.sndUna := by
  obtain ⟨list1, lan1, datagram, packet, answer, packets, w, htravels1, hbegun⟩ :=
    h.lan.begin hout hadmits
  have hgoes1 : Goes r { r with lan := lan1 } := goes_lan h.lan htravels1
  obtain ⟨hinv1, -⟩ := hgoes1.run hpaired hdistinct h
  obtain ⟨parcel, hparcel, hships⟩ := hbegun.waiting.ships
  obtain ⟨request, hrequest, hasks⟩ := hbegun.waiting.asked
  -- through the gate, and to the peer
  obtain ⟨r2, out2, hgoes2, hinternet2, hwritten2, hcarries2⟩ :=
    hinv1.enter hpaired hdistinct (hjoined side) hbegun.waiting.queue hrequest hasks
  obtain ⟨hinv2, -⟩ := hgoes2.run hpaired hdistinct hinv1
  have hjoined2 : ∀ other, Joined config gate r2.mesh other :=
    fun other => (hjoined other).congr (hgoes1.trans hgoes2).tables
  obtain ⟨r3, out3, hops3, hgoes3, hinternet3, hwire3, hcarries3, hknown3⟩ :=
    hinv2.cross hpaired hdistinct hjoined2 hwritten2 hcarries2 (alike_of_ships hships)
  obtain ⟨hinv3, -⟩ := hgoes3.run hpaired hdistinct hinv2
  have hinternet : r3.lan.internet = lan1.internet := hinternet3.trans hinternet2
  have hreach := hbegun.reach
  have hperform := hbegun.perform
  have hsent := hbegun.sent
  rw [← hinternet] at hreach hperform hsent hparcel
  -- the peer answers
  have hparcelPeer : parcel ∈ r3.lan.internet.sent side.peer.peer := by
    rw [side.peer_peer]
    exact hparcel
  have hdelivers3 := delivers_hopped
    (hinv3.lan.delivers hpaired (hsmall side) hparcelPeer hships hreach) hops3
  have hhonest3 := honest_segment hinv3.lan hwire3 hcarries3 hdelivers3
  obtain ⟨lan4, lan5, reply, parcel5, out5, hstep4, hstep5, hinvLan5, hworld5, -, hwritten5,
    hcarries5, hparcel5, hships5⟩ :=
    hinv3.lan.answered hcarries3 hdelivers3 hknown3 hperform hsent
  have hgoes4 := goes_station hhonest3 hstep4
  have hgoes5 := goes_station (honest_flush { r3 with lan := lan4 } side.peer) hstep5
  have hgoes := (((hgoes1.trans hgoes2).trans hgoes3).trans hgoes4).trans hgoes5
  obtain ⟨hinv5, -⟩ := hgoes.run hpaired hdistinct h
  -- and its answer gets back
  obtain ⟨r6, out6, hops6, hgoes6, hinternet6, hwire6, hcarries6, -⟩ :=
    hinv5.cross hpaired hdistinct (fun other => (hjoined other).congr hgoes.tables) hwritten5
      hcarries5 (alike_of_ships hships5)
  obtain ⟨hinv6, -⟩ := hgoes6.run hpaired hdistinct hinv5
  rw [side.peer_peer] at hcarries6
  have hworld6 : r6.lan.internet.toWorld = w := by
    rw [hinternet6]
    exact hworld5
  have hreach6 : (Internet.endpointOf (r6.lan.internet.station side)).InReach answer := by
    show (r6.lan.internet.toWorld.endpoint side).InReach answer
    rw [hworld6]
    exact hbegun.reachAnswer
  have hparcel6 : parcel5 ∈ r6.lan.internet.sent side.peer := by
    rw [hinternet6]
    exact hparcel5
  have hdelivers6 := delivers_hopped
    (hinv6.lan.delivers hpaired (hsmall side.peer) hparcel6 hships5 hreach6) hops6
  have hhonest6 := honest_segment hinv6.lan hwire6 hcarries6 hdelivers6
  obtain ⟨lan7, host7, output7, hstep7, -, -, hperform7, -⟩ :=
    hinv6.lan.carried hcarries6 hdelivers6
  rw [hworld6] at hperform7
  exact ⟨{ r6 with lan := lan7 }, (hgoes.trans hgoes6).trans (goes_station hhonest6 hstep7),
    hbegun.acked _ hperform7⟩

/-! ## Runs -/

/-- Both hosts have closed their streams, and the routers lead from one to the other. -/
structure Ending (mac : Side → EthernetAddress) (config : Side → IpHostConfig)
    (gate : Side → Gate ι) (data : Side → Bytes) (r : Routed ι) : Prop where
  inv : Inv mac config r
  closed : Lan.Ending mac config data r.lan
  joined : ∀ side, Joined config gate r.mesh side

theorem Ending.goes (hpaired : Internet.Paired config)
    (hdistinct : (config .a).localIp ≠ (config .b).localIp) (h : Ending mac config gate data r)
    (hgoes : Goes r r1) : Ending mac config gate data r1 := by
  obtain ⟨hinv, hostMoves, hhosts⟩ := hgoes.run hpaired hdistinct h.inv
  exact ⟨hinv, h.closed.hosts_run hinv.lan hhosts,
    fun side => (h.joined side).congr hgoes.tables⟩

/-- As long as not all of a stream is acknowledged, a round trip acknowledges more of it. -/
theorem Ending.advance (hpaired : Internet.Paired config)
    (hdistinct : (config .a).localIp ≠ (config .b).localIp)
    (hsmall : ∀ side, (config side).senderConfig.maxPayloadSize ≤ 65481)
    (hfits : (data side).length ≤ (config side.peer).receiverCapacity)
    (h : Ending mac config gate data r)
    (hlt : (r.lan.internet.toWorld.endpoint side).connection.sender.sndUna
      < (data side).length + 2) :
    ∃ list r1, Travels r list r1 ∧ Ending mac config gate data r1 ∧
      (r.lan.internet.toWorld.endpoint side).connection.sender.sndUna
        < (r1.lan.internet.toWorld.endpoint side).connection.sender.sndUna := by
  obtain ⟨hout, hadmits⟩ := h.closed.outstanding hpaired hfits hlt
  obtain ⟨r1, hgoes, hmore⟩ := h.inv.trip hpaired hdistinct hsmall h.joined hout hadmits
  obtain ⟨list, htravels⟩ := hgoes.travels
  exact ⟨list, r1, htravels, h.goes hpaired hdistinct hgoes, hmore⟩

/-- Round trips complete the transfer of a stream that fits. -/
theorem Ending.finish (hpaired : Internet.Paired config)
    (hdistinct : (config .a).localIp ≠ (config .b).localIp)
    (hsmall : ∀ side, (config side).senderConfig.maxPayloadSize ≤ 65481)
    (hfits : (data side).length ≤ (config side.peer).receiverCapacity)
    (h : Ending mac config gate data r) :
    ∃ list r1, Travels r list r1 ∧ Ending mac config gate data r1 ∧
      Network.Closing (data side) ((data side).length + 2)
        (r1.lan.internet.toWorld.endpoint side) := by
  obtain ⟨list, r1, htravels, hend, huna⟩ := Exec.exists_run_of_climb
    (Ending mac config gate data)
    (fun r => (r.lan.internet.toWorld.endpoint side).connection.sender.sndUna)
    ((data side).length + 2)
    (fun _ hr hlt => hr.advance hpaired hdistinct hsmall hfits hlt) h
  exact ⟨list, r1, htravels, hend, { hend.closed.closing side with una := huna }⟩

theorem reached_of_start (hpaired : Internet.Paired config)
    (hdistinct : (config .a).localIp ≠ (config .b).localIp) {capture : Bool} {r0 : Routed ι}
    {moves : List (RoutedMove ι)} (hstart : start mac config capture = .ok r0)
    (hrun : Exec.RunWhile Allowed step r0 moves r) :
    Inv mac config r ∧ Lan.Reached mac config r.lan := by
  obtain ⟨lan0, hlan0, hok⟩ := Exec.bind_eq_ok.mp hstart
  obtain rfl := Except.ok.inj hok
  obtain ⟨hhosts0, hinv0⟩ := Lan.inv_start hpaired hlan0
  obtain ⟨hinv, hostMoves, hhosts⟩ :=
    Inv.run hpaired hdistinct ⟨hinv0, Mesh.inv_start _⟩ hrun
  exact ⟨hinv, hinv.lan, lan0.internet, hostMoves, hhosts0, hhosts⟩

/-- If the tables lead from each host to the other one, then from every state that the stations and
the routers reach, frames that they write complete both transfers exactly if each stream fits in the
receiver of the peer. -/
theorem routed_completes_iff {capture : Bool} {r0 : Routed ι} {moves : List (RoutedMove ι)}
    (hpaired : Internet.Paired config) (hdistinct : (config .a).localIp ≠ (config .b).localIp)
    (hsmall : ∀ side, (config side).senderConfig.maxPayloadSize ≤ 65481)
    (hstart : start mac config capture = .ok r0)
    (hrun : Exec.RunWhile Allowed step r0 moves r) (hbridged : Bridged config r.mesh) :
    (∀ side, (r.lan.internet.station side).written.length
        ≤ (config side.peer).receiverCapacity) ↔
      ∃ more r1, Exec.RunWhile Honest step r more r1 ∧
        Lan.Complete (fun side => (r.lan.internet.station side).written) r1.lan := by
  obtain ⟨hinv, hreached⟩ := reached_of_start hpaired hdistinct hstart hrun
  obtain ⟨gate, hjoined⟩ := hbridged
  constructor
  · intro hfits
    -- both streams are closed
    obtain ⟨list1, lan1, htravels1, hend1⟩ := hreached.end
    have hgoes1 : Goes r { r with lan := lan1 } := goes_lan hinv.lan htravels1
    obtain ⟨hinv1, -⟩ := hgoes1.run hpaired hdistinct hinv
    have hending1 : Ending mac config gate _ { r with lan := lan1 } := ⟨hinv1, hend1, hjoined⟩
    -- one is completed after the other
    obtain ⟨list2, r2, htravels2, hend2, ha2⟩ :=
      hending1.finish hpaired hdistinct hsmall (hfits .a)
    obtain ⟨list3, r3, htravels3, hend3, hb3⟩ :=
      hend2.finish hpaired hdistinct hsmall (hfits .b)
    obtain ⟨-, hostMoves, hhosts3⟩ := hend2.inv.run hpaired hdistinct htravels3.allowed
    obtain ⟨-, ops, hworld3⟩ := hend2.closed.reached.hosts_run hend3.inv.lan hhosts3
    have ha3 := ha2.run hend2.inv.lan.whole.inv.world hworld3
    obtain ⟨list, htravels⟩ := hgoes1.travels
    refine ⟨_, r3, htravels.append (htravels2.append htravels3), ?_⟩
    apply hend3.closed.reached.complete
    intro side
    cases side with
    | a => exact ha3
    | b => exact hb3
  · rintro ⟨more, r1, hmore, hcomplete⟩
    obtain ⟨hinv1, hostMoves, hhosts⟩ := hinv.run hpaired hdistinct (Travels.allowed hmore)
    obtain ⟨hreached1, -⟩ := hreached.hosts_run hinv1.lan hhosts
    exact hreached1.fits_of_complete hpaired hcomplete

/-! ## Two routers in a row

Each host has a router, and these have a wire between them. All that the stations have sent is
lost. -/

def demoGate (side : Side) : Gate Side := ⟨side, 0, demoRouterMac side⟩

def demoTrunk : Side → EthernetAddress × Ipv4AddrBytes
  | .a => (⟨2, 0, 0, 0, 1, 1⟩, ⟨10, 1, 0, 1⟩)
  | .b => (⟨2, 0, 0, 0, 1, 2⟩, ⟨10, 1, 0, 2⟩)

/-- The router of a host, before it is asked anything. -/
def demoRouter (side : Side) : List (RoutedMove Side) :=
  [.addInterface (demoRouterMac side) (Internet.demoConfig side).peerIp,
    .addInterface (demoTrunk side).1 (demoTrunk side).2,
    .addRoute (Internet.demoConfig side).localIp 32 none 0,
    .addRoute (Internet.demoConfig side).peerIp 32 (some (demoTrunk side.peer).2) 1].map
    fun op => .router (side, op)

def demoLost : List (RoutedMove Side) :=
  demoRouter .a ++ demoRouter .b ++
    [.station (.a, .connect), .station (.a, .app (.data [1, 2, 3])), .station (.a, .flush),
      .station (.b, .app (.data [4])), .station (.b, .flush)]

/-- The way of the packets of a host: over the router of the other one. -/
def DemoJoined (mesh : Mesh Side) (side : Side) : Prop :=
  (mesh.router side).stations[0]?
      = some (demoRouterMac side, (Internet.demoConfig side).peerIp) ∧
    mesh.Way side (probe Internet.demoConfig side) [(side.peer, 1)] ∧
    ∃ sending ∈ (mesh.router side.peer).forwarding (hopped (probe Internet.demoConfig side)),
      sending.interfaceNum = 0 ∧ sending.nextHop = (Internet.demoConfig side).peerIp

instance (mesh : Mesh Side) (side : Side) : Decidable (DemoJoined mesh side) :=
  inferInstanceAs (Decidable (_ ∧ mesh.Way side _ [(side.peer, 1)] ∧ ∃ sending ∈ _, _ ∧ _))

theorem bridged_of_demoJoined {mesh : Mesh Side} (ha : DemoJoined mesh .a)
    (hb : DemoJoined mesh .b) : Bridged Internet.demoConfig mesh := by
  refine ⟨demoGate, fun side => ?_⟩
  cases side with
  | a => exact ⟨ha.1, [(.b, 1)], ha.2.1, rfl, ha.2.2⟩
  | b => exact ⟨hb.1, [(.a, 1)], hb.2.1, rfl, hb.2.2⟩

theorem routed_completes_iff_demo : ∃ r0 r : Routed Side,
    start Lan.demoMac Internet.demoConfig false = .ok r0 ∧
    (r.lan.internet.station .a).written = [1, 2, 3] ∧ (r.lan.internet.station .b).written = [4] ∧
    ∃ more r1, Exec.RunWhile Honest step r more r1 ∧
      Lan.Complete (fun side => (r.lan.internet.station side).written) r1.lan := by
  obtain ⟨r0, hstart, r, hmoves, ha, hb, hjoinedA, hjoinedB⟩ : ∃ r0 : Routed Side,
      start Lan.demoMac Internet.demoConfig false = .ok r0 ∧
      ∃ r, Exec.run (Exec.guarded Allowed step) r0 demoLost = .ok r ∧
        (r.lan.internet.station .a).written = [1, 2, 3] ∧
        (r.lan.internet.station .b).written = [4] ∧ DemoJoined r.mesh .a ∧
        DemoJoined r.mesh .b := by
    decide +kernel
  have hfits : ∀ side, (r.lan.internet.station side).written.length
      ≤ (Internet.demoConfig side.peer).receiverCapacity := by
    intro side
    cases side with
    | a =>
        rw [ha]
        decide
    | b =>
        rw [hb]
        decide
  have hsmall : ∀ side, (Internet.demoConfig side).senderConfig.maxPayloadSize ≤ 65481 := by
    intro side
    cases side <;> decide
  exact ⟨r0, r, hstart, ha, hb, (routed_completes_iff Internet.demo_paired (by decide) hsmall
    hstart (Exec.RunWhile.of_guarded hmoves) (bridged_of_demoJoined hjoinedA hjoinedB)).mp hfits⟩

end Routed

end Minnow
