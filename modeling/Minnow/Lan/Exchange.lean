import Minnow.Internet.Shipping
import Minnow.Lan.Refinement
import Minnow.TapHost.Exchange

set_option autoImplicit false

/-! # The steps of a round trip on the wire

Frames of address resolution leave the hosts alone (`Inv.heard`), a frame with a segment brings it
to the connection (`Inv.carried`), and what the host answers goes out at once to an address that is
known (`Inv.answered`). A frame that the other station has written may arrive as it is.
-/

namespace Minnow

open IpHost TapHost NetworkInterface TcpConnection

namespace Lan

/-- Whatever arrives is what the other station has written. -/
def Honest (lan : Lan) (move : Side × TapOp) : Prop :=
  lan.Allowed move ∧
    ∀ frameBytes, move.2 = .frame frameBytes → frameBytes ∈ (lan.tap move.1.peer).written

variable {mac : Side → EthernetAddress} {config : Side → IpHostConfig} {lan lan1 : Lan}
  {side : Side} {tapOp : TapOp} {op : HostOp} {connOp : ConnOp} {host : IpHost}
  {output : IpHostOutput} {frame : EthernetFrame} {message : ArpMessage} {datagram : Ipv4Datagram}
  {parcel : Parcel} {packet : Network.Packet} {src dst : EthernetAddress} {move : Side × TapOp}

/-! ## Steps and hosts -/

/-- A step that asks nothing of the host leaves it alone. -/
theorem LanStepped.silent (h : LanStepped lan move host output lan1)
    (hnone : lan.hostOp move = none) : output = .empty ∧ lan1.internet = lan.internet := by
  constructor
  · have hperformed := h.performed
    rw [hnone] at hperformed
    exact (Prod.mk.inj (Except.ok.inj hperformed)).2.symm
  · have hhosts := h.hosts
    rw [moves, hnone] at hhosts
    exact (Except.ok.inj hhosts.run).symm

/-- A step that reaches the connection is a step of the network of segments, and what the host
returns are the segments that are sent. -/
theorem LanStepped.connection (hinv : Inv mac config lan)
    (h : LanStepped lan (side, tapOp) host output lan1) (hop : lan.hostOp (side, tapOp) = some op)
    (hconnOp : op.connOp (lan.internet.station side).host = some connOp) :
    lan.internet.toWorld.perform side connOp = .ok lan1.internet.toWorld ∧
      ∃ packets, lan1.internet.toWorld.sent side = lan.internet.toWorld.sent side ++ packets ∧
        List.Forall₂
          (fun datagram packet => ∃ parcel ∈ lan1.internet.sent side,
            Internet.Ships (config side).senderConfig.maxPayloadSize (config side).peerIp datagram
              packet parcel)
          output.datagrams packets := by
  have hhosts := h.hosts
  have hperformed := h.performed
  rw [moves, hop] at hhosts
  rw [hop] at hperformed
  have hrun : (lan.internet.station side).host.perform op = .ok (host, output) := by
    rw [← (hinv.tracks side).host]
    exact hperformed
  obtain ⟨hallowed, hstep⟩ := hhosts.singleton
  obtain ⟨w1, hstep1, -, hperform⟩ := Internet.step_of_connOp hinv.whole.inv hallowed hconnOp
  rw [hstep, Except.ok.injEq] at hstep1
  subst hstep1
  exact ⟨hperform, Internet.step_ships hinv.whole.inv hconnOp hstep hrun⟩

/-! ## Frames -/

theorem Inv.short (h : Inv mac config lan) (side : Side) :
    ((lan.internet.station side).written ++ []).length < 2 ^ 63 := by
  rw [List.append_nil]
  exact (h.whole.inv.world side).out.short

theorem honest_flush (lan : Lan) (side : Side) : lan.Honest (side, .flush) :=
  ⟨⟨fun _ hop => absurd hop (by simp [hostOp, TapOp.hostOp]), trivial⟩, fun _ heq => nomatch heq⟩

/-- What waits to be written is written. -/
theorem Inv.flush (h : Inv mac config lan) (side : Side) :
    ∃ lan1, lan.step (side, .flush) = .ok lan1 ∧ Inv mac config lan1 ∧
      lan1.internet = lan.internet ∧ lan1.tap side.peer = lan.tap side.peer ∧
      (lan1.tap side).interface = { (lan.tap side).interface with framesOut := [] } ∧
      ∀ frame ∈ (lan.tap side).interface.framesOut, frame.serialize ∈ (lan1.tap side).written := by
  obtain ⟨lan1, host, output, hstep, hinv, hstepped⟩ :=
    h.step_total (honest_flush lan side).1
  obtain ⟨rfl, hinternet⟩ := hstepped.silent rfl
  obtain ⟨hinterface, hwritten⟩ := hstepped.tap.flushes
  exact ⟨lan1, hstep, hinv, hinternet, hstepped.peer, hinterface, hwritten⟩

theorem length_of_carriesArp (h : CarriesArp src dst message frame) :
    frame.serialize.length = 42 := by
  obtain ⟨bytes, hbytes, rfl⟩ := h
  obtain ⟨u, -, hok⟩ := Exec.bind_eq_ok.mp hbytes
  obtain rfl := Except.ok.inj hok
  rfl

theorem hostOp_of_carriesArp (h : CarriesArp src dst message frame) :
    inbound (lan.tap side).interface.ethernetAddress frame.serialize = none ∧
      lan.hostOp (side, .frame frame.serialize) = none := by
  have hnone : inbound (lan.tap side).interface.ethernetAddress frame.serialize = none :=
    inbound_of_carriesArp h
  refine ⟨hnone, ?_⟩
  show (inbound (lan.tap side).interface.ethernetAddress frame.serialize).map _ = none
  rw [hnone]
  rfl

/-- What a station does with a frame of address resolution. -/
theorem Inv.heard (h : Inv mac config lan) (hcarries : CarriesArp src dst message frame)
    (hdst : dst = mac side ∨ dst = EthernetAddress.BROADCAST) :
    ∃ lan1, lan.step (side, .frame frame.serialize) = .ok lan1 ∧ Inv mac config lan1 ∧
      lan1.internet = lan.internet ∧ lan1.tap side.peer = lan.tap side.peer ∧
      (lan1.tap side).interface.lookupEthernetAddress message.senderIpAddress
        = some message.senderEthernetAddress ∧
      (∀ waiting ∈ (lan.tap side).interface.queue message.senderIpAddress,
        ∃ sent ∈ (lan1.tap side).interface.framesOut,
          Carries (mac side) message.senderEthernetAddress waiting sent) ∧
      (message.operation = .request ∧ message.targetIpAddress = (config side).localIp →
        ∃ reply ∈ (lan1.tap side).interface.framesOut,
          CarriesArp (mac side) message.senderEthernetAddress
            (.reply (mac side) (config side).localIp message.senderEthernetAddress
              message.senderIpAddress) reply) := by
  obtain ⟨-, hop⟩ := @hostOp_of_carriesArp lan side _ _ _ _ hcarries
  have hfits : (TapOp.frame frame.serialize).Fits := by
    show frame.serialize.length ≤ 65535
    rw [length_of_carriesArp hcarries]
    decide
  have hhosts : ∀ op, lan.hostOp (side, .frame frame.serialize) = some op →
      lan.internet.Allowed (side, op) := by
    intro op hsome
    rw [hop] at hsome
    exact nomatch hsome
  obtain ⟨lan1, host, output, hstep, hinv, hstepped⟩ := h.step_total_of_hosts hfits hhosts
  obtain ⟨rfl, hinternet⟩ := hstepped.silent hop
  have hbrings : (lan.tap side).interface.Brings frame message := by
    apply brings_of_carriesArp hcarries
    rw [h.ethernetAddress]
    exact hdst
  obtain ⟨hlookup, hqueue, hreply⟩ := hstepped.tap.hears hbrings
  rw [h.ethernetAddress] at hqueue
  rw [h.ethernetAddress, h.ipAddress] at hreply
  refine ⟨lan1, hstep, hinv, hinternet, hstepped.peer, hlookup, hqueue, ?_⟩
  intro hasks
  exact hreply ⟨hasks.1, by rw [h.ipAddress]; exact hasks.2⟩

/-- A frame of address resolution that the peer has written may arrive. -/
theorem honest_arp (hwritten : frame.serialize ∈ (lan.tap side.peer).written)
    (hcarries : CarriesArp src dst message frame) : lan.Honest (side, .frame frame.serialize) := by
  obtain ⟨hnone, hop⟩ := @hostOp_of_carriesArp lan side _ _ _ _ hcarries
  refine ⟨⟨?_, ?_, Or.inl ?_⟩, ?_⟩
  · intro op hsome
    rw [hop] at hsome
    exact nomatch hsome
  · rw [length_of_carriesArp hcarries]
    decide
  · intro datagram hsome
    rw [hnone] at hsome
    exact nomatch hsome
  · intro frameBytes heq
    obtain rfl := TapOp.frame.inj heq
    exact hwritten

/-- The datagram brings the station a segment that the peer has sent, and not too long ago. -/
structure Delivers (side : Side) (datagram : Ipv4Datagram) (packet : Network.Packet) (lan : Lan) :
    Prop where
  segment : (lan.internet.station side).host.segmentOf datagram = some packet.segment
  sent : ∃ parcel ∈ lan.internet.sent side.peer, packet ∈ parcel.packet
  reach : (Internet.endpointOf (lan.internet.station side)).InReach packet
  short : datagram.payload.length ≤ 65501

theorem Inv.hostOp_of_delivers (h : Inv mac config lan)
    (hcarries : Carries src (mac side) datagram frame)
    (hdelivers : Delivers side datagram packet lan) :
    lan.hostOp (side, .frame frame.serialize) = some (.receiveDatagram datagram) ∧
      (HostOp.receiveDatagram datagram).connOp (lan.internet.station side).host
        = some (.receiveSegment packet.segment) := by
  have hbrought : inbound (lan.tap side).interface.ethernetAddress frame.serialize
      = some datagram := by
    rw [h.ethernetAddress]
    exact inbound_of_carries hcarries
  constructor
  · show (inbound (lan.tap side).interface.ethernetAddress frame.serialize).map _ = _
    rw [hbrought]
    rfl
  · exact congrArg (Option.map ConnOp.receiveSegment) hdelivers.segment

theorem fits_of_carries (hcarries : Carries src dst datagram frame)
    (hshort : datagram.payload.length ≤ 65501) : frame.serialize.length ≤ 65535 := by
  obtain ⟨bytes, hbytes, rfl⟩ := hcarries
  rw [Ipv4Datagram.serialize_eq (by omega), Except.ok.injEq] at hbytes
  rw [length_serialize]
  show 14 + bytes.length ≤ 65535
  rw [← hbytes, Ipv4Datagram.length_packet]
  omega

/-- A frame with a segment, and the connection gets it. -/
theorem Inv.carried (h : Inv mac config lan) (hcarries : Carries src (mac side) datagram frame)
    (hdelivers : Delivers side datagram packet lan) :
    ∃ lan1 host output, lan.step (side, .frame frame.serialize) = .ok lan1 ∧
      Inv mac config lan1 ∧ LanStepped lan (side, .frame frame.serialize) host output lan1 ∧
      lan.internet.toWorld.perform side (.receiveSegment packet.segment)
        = .ok lan1.internet.toWorld ∧
      ∃ packets, lan1.internet.toWorld.sent side = lan.internet.toWorld.sent side ++ packets ∧
        List.Forall₂
          (fun datagram packet => ∃ parcel ∈ lan1.internet.sent side,
            Internet.Ships (config side).senderConfig.maxPayloadSize (config side).peerIp
              datagram packet parcel)
          output.datagrams packets := by
  obtain ⟨hop, hconnOp⟩ := h.hostOp_of_delivers hcarries hdelivers
  have hfits : (TapOp.frame frame.serialize).Fits := fits_of_carries hcarries hdelivers.short
  have hhosts : ∀ op, lan.hostOp (side, .frame frame.serialize) = some op →
      lan.internet.Allowed (side, op) := by
    intro op hsome
    rw [hop] at hsome
    obtain rfl := Option.some.inj hsome
    refine ⟨h.short side, le_trans hdelivers.short (by decide), ?_⟩
    intro segment hsegment
    obtain ⟨parcel, hparcel, hpacket⟩ := hdelivers.sent
    have hsame := hdelivers.segment.symm.trans hsegment
    exact ⟨parcel, hparcel, packet, hpacket, Option.some.inj hsame, hdelivers.reach⟩
  obtain ⟨lan1, host, output, hstep, hinv, hstepped⟩ := h.step_total_of_hosts hfits hhosts
  obtain ⟨hperform, hsent⟩ := hstepped.connection h hop hconnOp
  exact ⟨lan1, host, output, hstep, hinv, hstepped, hperform, hsent⟩

/-- The station answers a segment at once, if it knows where to. -/
theorem Inv.answered (h : Inv mac config lan) {gate : EthernetAddress}
    (hcarries : Carries src (mac side) datagram frame)
    (hdelivers : Delivers side datagram packet lan)
    (hknown : (lan.tap side).interface.lookupEthernetAddress (config side).peerIp = some gate)
    {answer : Network.Packet} {packets : List Network.Packet} {w : Network.World}
    (hperform : lan.internet.toWorld.perform side (.receiveSegment packet.segment) = .ok w)
    (hsent : w.sent side = lan.internet.toWorld.sent side ++ answer :: packets) :
    ∃ lan1 lan2 reply parcel, ∃ out : EthernetFrame,
      lan.step (side, .frame frame.serialize) = .ok lan1 ∧
      lan1.step (side, .flush) = .ok lan2 ∧ Inv mac config lan2 ∧
      lan2.internet.toWorld = w ∧ lan2.tap side.peer = lan.tap side.peer ∧
      out.serialize ∈ (lan2.tap side).written ∧ Carries (mac side) gate reply out ∧
      parcel ∈ lan2.internet.sent side ∧
      Internet.Ships (config side).senderConfig.maxPayloadSize (config side).peerIp reply answer
        parcel := by
  obtain ⟨lan1, host, output, hstep1, hinv1, hstepped1, hperform1, packets1, hpackets1,
    hships1⟩ := h.carried hcarries hdelivers
  have hworld1 : lan1.internet.toWorld = w := Except.ok.inj (hperform1.symm.trans hperform)
  rw [hworld1, hsent, List.append_cancel_left_eq] at hpackets1
  subst hpackets1
  obtain ⟨reply, replies, ⟨parcel, hparcel, hship⟩, hrest1, houtput1⟩ :=
    List.forall₂_cons_right_iff.mp hships1
  have hcached : ∀ d ∈ output.datagrams,
      (lan.tap side).interface.lookupEthernetAddress d.header.dst = some gate := by
    intro d hd
    obtain ⟨p, -, parcel2, -, hship2⟩ := hships1.exists_mem hd
    rw [hship2.dst]
    exact hknown
  have hcarriesTap : Carries src (lan.tap side).interface.ethernetAddress datagram frame := by
    rw [h.ethernetAddress]
    exact hcarries
  obtain ⟨frames, hframes, hout⟩ := hstepped1.tap.answers hcarriesTap hcached
  rw [houtput1] at hframes
  obtain ⟨first, others, hfirst, -, rfl⟩ := List.forall₂_cons_left_iff.mp hframes
  rw [h.ethernetAddress] at hfirst
  obtain ⟨lan2, hstep2, hinv2, hinternet2, hpeer2, -, hwritten2⟩ := hinv1.flush side
  refine ⟨lan1, lan2, reply, parcel, first, hstep1, hstep2, hinv2, ?_, ?_,
    hwritten2 first (hout first List.mem_cons_self), hfirst, ?_, hship⟩
  · rw [hinternet2]
    exact hworld1
  · rw [hpeer2, hstepped1.peer]
  · rw [hinternet2]
    exact hparcel

/-- A parcel of the peer brings its segment, in a short datagram. -/
theorem Inv.delivers (hpaired : Internet.Paired config) (h : Inv mac config lan) {limit : Nat}
    {ip : Ipv4AddrBytes} (hlimit : limit ≤ 65481) (hparcel : parcel ∈ lan.internet.sent side.peer)
    (hships : Internet.Ships limit ip datagram packet parcel)
    (hreach : (Internet.endpointOf (lan.internet.station side)).InReach packet) :
    Delivers side datagram packet lan := by
  refine ⟨h.whole.brings hpaired hparcel hships.packet hships.bytes, ⟨parcel, hparcel,
    hships.packet⟩, hreach, ?_⟩
  have hbytes := hships.bytes
  have hshort := hships.short
  rw [Ipv4Datagram.serialize_eq (Ipv4Datagram.payload_le_of_serialize hbytes),
    Except.ok.injEq] at hbytes
  rw [← hbytes, Ipv4Datagram.length_packet] at hshort
  omega

/-- A frame with a segment that the peer has written may arrive. -/
theorem Inv.honest_segment (h : Inv mac config lan)
    (hwritten : frame.serialize ∈ (lan.tap side.peer).written)
    (hcarries : Carries src (mac side) datagram frame)
    (hparcel : parcel ∈ lan.internet.sent side.peer)
    {limit : Nat} {ip : Ipv4AddrBytes} (hships : Internet.Ships limit ip datagram packet parcel)
    (hdelivers : Delivers side datagram packet lan) :
    lan.Honest (side, .frame frame.serialize) := by
  obtain ⟨hop, -⟩ := h.hostOp_of_delivers hcarries hdelivers
  have hfits := fits_of_carries hcarries hdelivers.short
  obtain ⟨bytes, hbytes, rfl⟩ := hcarries
  rw [hships.bytes, Except.ok.injEq] at hbytes
  subst hbytes
  refine ⟨⟨?_, hfits, Or.inr ⟨_, hwritten, List.prefix_refl _, ?_⟩⟩, ?_⟩
  · intro op hsome
    rw [hop] at hsome
    obtain rfl := Option.some.inj hsome
    exact h.short side
  · intro _
    refine ⟨parcel, hparcel, rfl, ?_⟩
    intro packet1 hpacket1
    obtain rfl := Option.mem_unique hpacket1 hships.packet
    exact hdelivers.reach
  · intro frameBytes heq
    obtain rfl := TapOp.frame.inj heq
    exact hwritten

end Lan

end Minnow
