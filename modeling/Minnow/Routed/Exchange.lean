import Minnow.Lan.Exchange
import Minnow.Mesh.Delivery
import Minnow.Routed.Refinement

set_option autoImplicit false

/-! # From a host to the other one, through the routers

What a station has written for its gate gets to the other station, if the tables of the routers lead
there: into the first router, along the way to the last one, and out of that, which asks for the
other station and is answered (`Inv.cross`). Nothing is used for that but frames that the stations
and the routers put on the wires, as they are.
-/

namespace Minnow

open IpHost TapHost Router NetworkInterface

namespace Routed

variable {ι : Type} {mac : Side → EthernetAddress} {config : Side → IpHostConfig} {lan lan1 : Lan}
  {side : Side} {frame : EthernetFrame} {message : ArpMessage} {datagram : Ipv4Datagram}
  {packet : Network.Packet} {src dst : EthernetAddress} {r r1 r2 : Routed ι} {mesh1 : Mesh ι}

/-! ## The gates -/

/-- The interface of a router that a host takes for the other host. -/
structure Gate (ι : Type) where
  router : ι
  interfaceNum : Nat
  mac : EthernetAddress

/-- A datagram of a host, as routers see it. -/
def probe (config : Side → IpHostConfig) (side : Side) : Ipv4Datagram :=
  .newTcp (config side).localIp (config side).peerIp []

/-- The gate of `side` has the address of the peer, and from there the tables lead a datagram for
the peer to the gate of the peer, and out of it. -/
structure Joined (config : Side → IpHostConfig) (gate : Side → Gate ι) (mesh : Mesh ι)
    (side : Side) : Prop where
  station : (mesh.router (gate side).router).stations[(gate side).interfaceNum]?
    = some ((gate side).mac, (config side).peerIp)
  way : ∃ way, mesh.Way (gate side).router (probe config side) way ∧
    (Mesh.wayEnd (gate side).router (gate side).interfaceNum way).1 = (gate side.peer).router ∧
    ∃ sending ∈ (mesh.router (gate side.peer).router).forwarding
        (hopped^[way.length] (probe config side)),
      sending.interfaceNum = (gate side.peer).interfaceNum ∧
        sending.nextHop = (config side).peerIp

/-- The routers lead from each host to the other one. -/
def Bridged (config : Side → IpHostConfig) (mesh : Mesh ι) : Prop :=
  ∃ gate : Side → Gate ι, ∀ side, Joined config gate mesh side

theorem Joined.congr {gate : Side → Gate ι} {mesh : Mesh ι}
    (hsame : ∀ i, SameTables (mesh.router i) (mesh1.router i)) (h : Joined config gate mesh side) :
    Joined config gate mesh1 side := by
  obtain ⟨way, hway, hend, sending, hforward, hout⟩ := h.way
  refine ⟨?_, way, hway.congr hsame, hend, sending, ?_, hout⟩
  · rw [(hsame _).stations]
    exact h.station
  · rw [(hsame _).forwarding]
    exact hforward

theorem Inv.anything (h : Inv mac config r) : r.mesh.Inv fun _ => True :=
  h.mesh.mono fun _ _ => trivial

/-! ## What may arrive -/

/-- What arrives was written by a station or a router, and nobody else gives a router anything. -/
def Honest (r : Routed ι) : RoutedMove ι → Prop
  | .station (side, op) => r.Allowed (.station (side, op)) ∧ ∀ frameBytes, op = .frame frameBytes →
      frameBytes ∈ (r.lan.tap side.peer).written ∨
        ∃ frame ∈ r.mesh.wire, frame.serialize = frameBytes
  | .router move => r.mesh.Inside (FromStation r.lan) move

theorem Honest.allowed {move : RoutedMove ι} (h : r.Honest move) : r.Allowed move := by
  cases move with
  | station move => exact h.1
  | router move =>
      have hgiven := h.2
      cases hframe : move.2.frame? with
      | none =>
          rw [hframe] at hgiven
          exact Or.inl ⟨h.1, Or.inr (hgiven.mono fun _ => False.elim)⟩
      | some frame =>
          rw [hframe] at hgiven
          rcases hgiven with hwire | hstation
          · exact Or.inl ⟨h.1, Or.inl ⟨frame, hframe, hwire⟩⟩
          · exact Or.inr ⟨frame, hframe, hstation⟩

theorem honest_flush (r : Routed ι) (side : Side) : r.Honest (.station (side, .flush)) :=
  ⟨⟨fun _ hop => absurd hop (by simp [Lan.hostOp, TapOp.hostOp]), trivial⟩, fun _ heq => nomatch heq⟩

theorem honest_arp (hwire : frame ∈ r.mesh.wire) (hcarries : CarriesArp src dst message frame) :
    r.Honest (.station (side, .frame frame.serialize)) := by
  obtain ⟨hnone, hop⟩ := @Lan.hostOp_of_carriesArp r.lan side _ _ _ _ hcarries
  refine ⟨⟨?_, ?_, ?_⟩, ?_⟩
  · intro op hsome
    rw [hop] at hsome
    exact nomatch hsome
  · rw [Lan.length_of_carriesArp hcarries]
    decide
  · intro datagram hsome
    rw [hnone] at hsome
    exact nomatch hsome
  · intro frameBytes heq
    obtain rfl := TapOp.frame.inj heq
    exact Or.inr ⟨frame, hwire, rfl⟩

theorem honest_segment (h : Lan.Inv mac config r.lan) (hwire : frame ∈ r.mesh.wire)
    (hcarries : Carries src (mac side) datagram frame)
    (hdelivers : Lan.Delivers side datagram packet r.lan) :
    r.Honest (.station (side, .frame frame.serialize)) := by
  obtain ⟨hop, -⟩ := h.hostOp_of_delivers hcarries hdelivers
  refine ⟨⟨?_, Lan.fits_of_carries hcarries hdelivers.short, ?_⟩, ?_⟩
  · intro op hsome
    rw [hop] at hsome
    obtain rfl := Option.some.inj hsome
    exact h.short side
  · intro brought hinbound segment hsegment
    rw [Option.mem_def, h.ethernetAddress, inbound_of_carries hcarries, Option.some.injEq] at hinbound
    subst hinbound
    rw [Option.mem_def, (h.tracks side).host, hdelivers.segment, Option.some.injEq] at hsegment
    obtain ⟨parcel, hparcel, hpacket⟩ := hdelivers.sent
    refine ⟨Or.inr ⟨frame, hwire, List.prefix_refl _⟩, fun _ => ?_⟩
    exact ⟨parcel, hparcel, packet, hpacket, hsegment, hdelivers.reach⟩
  · intro frameBytes heq
    obtain rfl := TapOp.frame.inj heq
    exact Or.inr ⟨frame, hwire, rfl⟩

/-! ## Runs -/

variable [DecidableEq ι]

/-- A run of frames that the stations and the routers write. -/
abbrev Travels (r : Routed ι) (list : List (RoutedMove ι)) (r1 : Routed ι) : Prop :=
  Exec.RunWhile Honest step r list r1

theorem Travels.allowed {list : List (RoutedMove ι)} (h : Travels r list r1) :
    Exec.RunWhile Allowed step r list r1 :=
  h.mono fun _ _ hhonest => hhonest.allowed

/-- By frames that the stations and the routers write, they get from one state to the other, and the
tables stay. -/
structure Goes (r r1 : Routed ι) : Prop where
  travels : ∃ list, Travels r list r1
  tables : ∀ i, SameTables (r.mesh.router i) (r1.mesh.router i)

theorem Goes.refl (r : Routed ι) : Goes r r := ⟨⟨[], .nil r⟩, fun _ => SameTables.refl _⟩

theorem Goes.trans (h : Goes r r1) (h1 : Goes r1 r2) : Goes r r2 := by
  obtain ⟨list, htravels⟩ := h.travels
  obtain ⟨more, hmore⟩ := h1.travels
  exact ⟨⟨list ++ more, htravels.append hmore⟩, fun i => (h.tables i).trans (h1.tables i)⟩

theorem Goes.run (hpaired : Internet.Paired config)
    (hdistinct : (config .a).localIp ≠ (config .b).localIp) (h : Inv mac config r)
    (hgoes : Goes r r1) : Inv mac config r1 ∧ ∃ hostMoves,
      Exec.RunWhile Internet.Allowed Internet.step r.lan.internet hostMoves r1.lan.internet := by
  obtain ⟨list, htravels⟩ := hgoes.travels
  exact h.run hpaired hdistinct htravels.allowed

/-- A step of a station. -/
theorem goes_station {move : Side × TapOp} (hhonest : r.Honest (.station move))
    (hstep : r.lan.step move = .ok lan1) : Goes r { r with lan := lan1 } := by
  have hrouted : r.step (.station move) = .ok { r with lan := lan1 } := by
    rw [step, hstep]
    rfl
  exact ⟨⟨[.station move], .cons hhonest hrouted (.nil _)⟩, fun _ => SameTables.refl _⟩

/-- A run of the routers. -/
theorem goes_leads (h : Mesh.Leads (FromStation r.lan) r.mesh mesh1) :
    Goes r { r with mesh := mesh1 } := by
  obtain ⟨⟨moves, hrun⟩, hsame⟩ := h
  refine ⟨⟨moves.map .router, ?_⟩, hsame⟩
  clear hsame
  obtain ⟨lan, mesh⟩ := r
  dsimp only at hrun ⊢
  induction hrun with
  | nil mesh => exact .nil _
  | @cons mesh mesh2 mesh1 move moves hinside hstep hrest ih =>
      have hrouted : (Routed.mk lan mesh).step (.router move) = .ok ⟨lan, mesh2⟩ := by
        rw [step]
        dsimp only
        rw [hstep]
        rfl
      exact .cons hinside hrouted ih

/-- What two stations on one wire can do, they can do beside routers. -/
theorem goes_lan {list : List (Side × TapOp)} (h : Lan.Inv mac config r.lan)
    (hrun : Exec.RunWhile Lan.Honest Lan.step r.lan list lan1) :
    Goes r { r with lan := lan1 } := by
  obtain ⟨lan, mesh⟩ := r
  dsimp only at h hrun ⊢
  induction hrun with
  | nil lan => exact Goes.refl _
  | @cons lan lan2 lan1 move moves hhonest hstep hrest ih =>
      have hstation : (Routed.mk lan mesh).Honest (.station move) := by
        obtain ⟨side, tapOp⟩ := move
        refine ⟨⟨hhonest.1.1, ?_⟩, fun frameBytes heq => Or.inl (hhonest.2 frameBytes heq)⟩
        cases tapOp with
        | frame frameBytes =>
            refine ⟨hhonest.1.2.1, fun datagram hinbound segment hsegment => ⟨?_, fun _ => ?_⟩⟩
            · exact Or.inl ⟨frameBytes, hhonest.2 frameBytes rfl, List.prefix_refl _⟩
            · exact Lan.authentic_of_arrives h hhonest.1.2.2 hinbound hsegment
        | _ => trivial
      have hfirst := goes_station hstation hstep
      exact hfirst.trans (ih (h.step_ok hhonest.1 hstep).1)

/-! ## Through the gate -/

theorem fromStation_of_written (hwritten : frame.serialize ∈ (lan.tap side).written) :
    FromStation lan frame := by
  cases side with
  | a => exact Or.inl ⟨frame.serialize, hwritten, List.prefix_refl _⟩
  | b => exact Or.inr ⟨frame.serialize, hwritten, List.prefix_refl _⟩

/-- An interface of the tables. -/
theorem exists_of_station {router : Router} {interfaceNum : Nat} {ip : Ipv4AddrBytes}
    (h : router.stations[interfaceNum]? = some (dst, ip)) :
    ∃ iface, router.interfaces[interfaceNum]? = some iface ∧ iface.ethernetAddress = dst ∧
      iface.ipAddress = ip := by
  rw [stations, List.getElem?_map] at h
  obtain ⟨iface, hiface, haddresses⟩ := Option.map_eq_some_iff.mp h
  exact ⟨iface, hiface, (Prod.mk.inj haddresses).1, (Prod.mk.inj haddresses).2⟩

/-- The gate tells its address to a station that asks, and lets out what waits for it. -/
theorem Inv.enter (hpaired : Internet.Paired config)
    (hdistinct : (config .a).localIp ≠ (config .b).localIp) (h : Inv mac config r)
    {gate : Side → Gate ι} (hjoined : Joined config gate r.mesh side)
    (hqueue : datagram ∈ (r.lan.tap side).interface.queue (config side).peerIp)
    (hwritten : frame.serialize ∈ (r.lan.tap side).written)
    (hasks : CarriesArp (mac side) EthernetAddress.BROADCAST
      (.request (mac side) (config side).localIp (config side).peerIp) frame) :
    ∃ r1, ∃ out : EthernetFrame, Goes r r1 ∧ r1.lan.internet = r.lan.internet ∧
      out.serialize ∈ (r1.lan.tap side).written ∧
      Carries (mac side) (gate side).mac datagram out := by
  -- the gate hears the question, and answers
  obtain ⟨iface, hiface, hmac, hip⟩ := exists_of_station hjoined.station
  rw [← hip] at hasks
  obtain ⟨mesh1, iface1, reply, hleads, -, -, -, hreply, hcarries⟩ :=
    Mesh.leads_answer (FromStation r.lan) h.anything hiface
      (Or.inr (fromStation_of_written hwritten)) hasks
  rw [hmac, hip] at hcarries
  have hgoes1 := goes_leads hleads
  obtain ⟨hinv1, -⟩ := hgoes1.run hpaired hdistinct h
  -- the station hears the answer
  have hhonest2 : Honest { r with mesh := mesh1 } (.station (side, .frame reply.serialize)) :=
    honest_arp hreply hcarries
  obtain ⟨lan2, hstep2, hinv2, hinternet2, -, -, hlets, -⟩ :=
    hinv1.lan.heard hcarries (Or.inl rfl)
  obtain ⟨out, hout, hcarried⟩ := hlets datagram hqueue
  have hgoes2 := goes_station hhonest2 hstep2
  obtain ⟨lan3, hstep3, -, hinternet3, -, -, hwritten3⟩ := hinv2.flush side
  have hgoes3 := goes_station (honest_flush { lan := lan2, mesh := mesh1 } side) hstep3
  refine ⟨_, out, (hgoes1.trans hgoes2).trans hgoes3, ?_, hwritten3 out hout, hcarried⟩
  exact hinternet3.trans hinternet2

/-- What a station has written for its gate gets to where the last router sends it, and waits there
for the address of the other station, which was asked for. -/
theorem Inv.approach (h : Inv mac config r) {gate : Side → Gate ι}
    (hjoined : Joined config gate r.mesh side) (hwritten : frame.serialize ∈ (r.lan.tap side).written)
    (hcarries : Carries (mac side) (gate side).mac datagram frame)
    (halike : Alike (probe config side) datagram) :
    ∃ mesh1 out question hops, Mesh.Leads (FromStation r.lan) r.mesh mesh1 ∧
      (mesh1.router (gate side.peer).router).interfaces[(gate side.peer).interfaceNum]?
        = some out ∧
      hopped^[hops] datagram ∈ out.queue (config side).peerIp ∧
      question ∈ mesh1.wire ∧ out.Question (config side).peerIp question := by
  obtain ⟨iface, hiface, hmac, -⟩ := exists_of_station hjoined.station
  rw [← hmac] at hcarries
  obtain ⟨mesh1, iface1, hleads1, hiface1, harrived⟩ :=
    Mesh.leads_take (FromStation r.lan) h.anything hiface
      (Or.inr (fromStation_of_written hwritten)) hcarries
  -- along the way
  obtain ⟨way, hway, hend, sending, hforward, hnum, hnext⟩ := hjoined.way
  have hinv1 := hleads1.inv h.anything
  obtain ⟨mesh2, last, hleads2, hlast, hdelivered⟩ :=
    Mesh.leads_way (FromStation r.lan) hinv1 hiface1 harrived
      ((hway.alike halike).congr hleads1.2)
  rw [hend] at hlast
  -- and out of the last router
  have hleads := hleads1.trans hleads2
  have hforward2 := (halike.hopped_iterate way.length).forwarding hforward
  rw [← (hleads.2 _).forwarding] at hforward2
  obtain ⟨mesh3, out, question, hleads3, hout, hwaits, hquestion, hasks, -⟩ :=
    Mesh.leads_ask (FromStation r.lan) (hleads2.inv hinv1) (mem_inbound hlast hdelivered) hforward2
  dsimp only at hout hwaits hasks
  rw [hnum] at hout
  rw [hnext] at hwaits hasks
  rw [← Function.iterate_succ_apply' hopped] at hwaits
  exact ⟨mesh3, out, question, way.length + 1, hleads.trans hleads3, hout, hwaits, hquestion, hasks⟩

/-- What a station has written for its gate gets to the other station, which then knows its own
gate. -/
theorem Inv.cross (hpaired : Internet.Paired config)
    (hdistinct : (config .a).localIp ≠ (config .b).localIp) (h : Inv mac config r)
    {gate : Side → Gate ι} (hjoined : ∀ side, Joined config gate r.mesh side)
    (hwritten : frame.serialize ∈ (r.lan.tap side).written)
    (hcarries : Carries (mac side) (gate side).mac datagram frame)
    (halike : Alike (probe config side) datagram) :
    ∃ r1 out hops, Goes r r1 ∧ r1.lan.internet = r.lan.internet ∧ out ∈ r1.mesh.wire ∧
      Carries (gate side.peer).mac (mac side.peer) (hopped^[hops] datagram) out ∧
      (r1.lan.tap side.peer).interface.lookupEthernetAddress (config side.peer).peerIp
        = some (gate side.peer).mac := by
  have hpeerIp : (config side).peerIp = (config side.peer).localIp := by
    have hips := hpaired.ips side.peer
    rw [side.peer_peer] at hips
    exact hips.symm
  obtain ⟨mesh1, out, question, hops, hleads1, hout, hwaits, hquestion, hasks⟩ :=
    h.approach (hjoined side) hwritten hcarries halike
  have hgoes1 := goes_leads hleads1
  obtain ⟨hinv1, -⟩ := hgoes1.run hpaired hdistinct h
  -- the last interface is the gate of the other station
  have hgate := ((hjoined side.peer).congr hgoes1.tables).station
  obtain ⟨out1, hout1, hmac, hip⟩ := exists_of_station hgate
  obtain rfl : out1 = out := Option.some.inj (hout1.symm.trans hout)
  unfold Question at hasks
  rw [hmac, hip] at hasks
  -- the station hears the question, and answers
  have hhonest2 : Honest { r with mesh := mesh1 }
      (.station (side.peer, .frame question.serialize)) := honest_arp hquestion hasks
  obtain ⟨lan2, hstep2, hinv2, hinternet2, -, hknown, -, hreplies⟩ :=
    (hinv1.lan.heard hasks (Or.inr rfl) : ∃ lan1, Lan.step _ (side.peer, _) = .ok lan1 ∧ _)
  obtain ⟨reply, hreply, hcarriesReply⟩ := hreplies ⟨rfl, hpeerIp⟩
  have hgoes2 := goes_station hhonest2 hstep2
  obtain ⟨lan3, hstep3, hinv3, hinternet3, -, hinterface3, hwritten3⟩ := hinv2.flush side.peer
  have hgoes3 := goes_station (honest_flush { lan := lan2, mesh := mesh1 } side.peer) hstep3
  -- the datagram is let out
  rw [hpeerIp] at hwaits
  rw [← hmac, ← hip] at hcarriesReply
  obtain ⟨mesh4, sent, hleads4, -, hsent, hcarried⟩ :=
    Mesh.leads_letOut (FromStation lan3) hinv1.anything hwaits hout
      (Or.inr (fromStation_of_written (hwritten3 reply hreply))) hcarriesReply
  have hgoes4 : Goes { lan := lan3, mesh := mesh1 } { lan := lan3, mesh := mesh4 } :=
    goes_leads hleads4
  rw [hmac] at hcarried
  refine ⟨_, sent, hops, ((hgoes1.trans hgoes2).trans hgoes3).trans hgoes4,
    hinternet3.trans hinternet2, hsent, hcarried, ?_⟩
  dsimp only
  rw [hinterface3]
  exact hknown

end Routed

end Minnow
