import Minnow.Lan.Basic

set_option autoImplicit false

/-! # The wire is a network of datagrams

No step of a station that the assumptions allow stops, and what it does to the hosts is a run of
two hosts that exchange datagrams (`step_refines`): what leaves an interface is what the host has
sent, in whatever order and however late address resolution lets it, and what the interface makes
of a frame is what was put in.
-/

namespace Minnow

open IpHost TapHost NetworkInterface

namespace Lan

/-- The bytes are those of a datagram that the host has sent. -/
def Sent (w : Internet) (side : Side) (bytes : Bytes) : Prop :=
  ∃ parcel ∈ w.sent side, parcel.bytes = bytes

/-- The record of what the hosts have done is right about the station. -/
structure Tracks (w : Internet) (side : Side) (t : TapHost) : Prop where
  host : t.host = (w.station side).host
  events : t.events = (w.station side).events
  quiet : t.interface.datagramsIn = []
  wired : Wired (Sent w side) t

/-- What holds of the stations on a wire. -/
structure Inv (mac : Side → EthernetAddress) (config : Side → IpHostConfig) (lan : Lan) : Prop where
  whole : Internet.Whole config lan.internet
  tracks : ∀ side, Tracks lan.internet side (lan.tap side)
  ethernetAddress : ∀ side, (lan.tap side).interface.ethernetAddress = mac side
  ipAddress : ∀ side, (lan.tap side).interface.ipAddress = (config side).localIp

variable {mac : Side → EthernetAddress} {config : Side → IpHostConfig} {lan lan1 : Lan}
  {w w1 : Internet} {side : Side} {op : HostOp} {host : IpHost} {output : IpHostOutput}
  {frameBytes : Bytes}
  {datagram : Ipv4Datagram} {segment : TcpSegment} {move : Side × TapOp}

/-! ## What a step of the hosts sends -/

theorem sent_mono (hstep : w.step (side, op) = .ok w1) (other : Side) (bytes : Bytes)
    (h : Sent w other bytes) : Sent w1 other bytes := by
  obtain ⟨host1, output, list, -, -, rfl⟩ := Internet.step_eq_ok.mp hstep
  obtain ⟨parcel, hparcel, hbytes⟩ := h
  refine ⟨parcel, ?_, hbytes⟩
  rcases side.eq_or_eq_peer other with rfl | rfl
  · rw [Internet.emit_sent_self]
    exact List.mem_append_left _ hparcel
  · rw [Internet.emit_sent_peer]
    exact hparcel

/-- What the host returns is among what it has sent then. -/
theorem known_of_step (hstep : w.step (side, op) = .ok w1)
    (hrun : (w.station side).host.perform op = .ok (host, output)) :
    ∀ datagram ∈ output.datagrams, Known (Sent w1 side) datagram := by
  obtain ⟨host1, output1, list, hrun1, hemit, rfl⟩ := Internet.step_eq_ok.mp hstep
  rw [hrun, Except.ok.injEq] at hrun1
  obtain ⟨rfl, rfl⟩ := Prod.mk.inj hrun1
  intro datagram hdatagram
  obtain ⟨bytes, hbytes, hserialize⟩ := Internet.emitOutput_mem hemit hdatagram
  obtain ⟨parcel, hparcel, rfl⟩ := Internet.mem_parcels_of_mem hbytes
  refine ⟨parcel.bytes, hserialize, parcel, ?_, rfl⟩
  rw [Internet.emit_sent_self]
  exact List.mem_append_right _ hparcel

/-! ## What a frame brings -/

/-- A segment that a frame brings was sent by the other host, with its number. -/
theorem authentic_of_arrives (h : Inv mac config lan) (harrives : lan.Arrives side frameBytes)
    (hinbound : inbound (lan.tap side).interface.ethernetAddress frameBytes = some datagram)
    (hsegment : (lan.tap side).host.segmentOf datagram = some segment) :
    ∃ parcel ∈ lan.internet.sent side.peer, ∃ packet ∈ parcel.packet, packet.segment = segment ∧
      (Internet.endpointOf (lan.internet.station side)).InReach packet := by
  rcases harrives with hnone | ⟨bytes, hwritten, ⟨pad, rfl⟩, hrecent⟩
  · rw [hnone datagram hinbound] at hsegment
    exact nomatch hsegment
  obtain ⟨frame, rfl, hgenuine⟩ := (h.tracks side.peer).wired.written bytes hwritten
  obtain ⟨-, hipv4, hdatagram⟩ :=
    (inbound_of_frame (frame.parseBytes_serialize_append pad)).mp hinbound
  rcases hgenuine.kind with ⟨harp, -⟩ | ⟨-, hsent⟩
  · -- ARP frames bring no datagram
    rw [show frame.header.ethertype = ETHERTYPE_IPV4 from hipv4] at harp
    exact absurd harp (by decide)
  · have hpayload : frame.serialize.drop ETHERNET_HEADER_LEN = frame.payload := rfl
    rw [hpayload] at hrecent
    obtain ⟨parcel, hparcel, hbytes, hreach⟩ := hrecent hsent
    have hdatagram : Ipv4Datagram.parseBytes (parcel.bytes ++ pad) = .ok (.ok datagram) := by
      rw [hbytes]
      exact hdatagram
    obtain ⟨packet, hpacket, hsame⟩ :=
      Internet.segment_of_packed (h.whole.packed side.peer parcel hparcel) hdatagram hsegment
    exact ⟨parcel, hparcel, packet, hpacket, hsame, hreach packet hpacket⟩

/-- What a frame does to a host is what the network of datagrams may do, if the segments in it were
sent by the other host. -/
theorem Inv.hosts_allowed (h : Inv mac config lan)
    (hshort : ∀ op ∈ lan.hostOp move,
      ((lan.internet.station move.1).written ++
        Internet.acceptedBy (lan.tap move.1).host op).length < 2 ^ 63)
    (hauthentic : ∀ frameBytes datagram segment, move.2 = .frame frameBytes →
      inbound (lan.tap move.1).interface.ethernetAddress frameBytes = some datagram →
      (lan.tap move.1).host.segmentOf datagram = some segment →
      ∃ parcel ∈ lan.internet.sent move.1.peer, ∃ packet ∈ parcel.packet,
        packet.segment = segment ∧
        (Internet.endpointOf (lan.internet.station move.1)).InReach packet)
    (hop : lan.hostOp move = some op) : lan.internet.Allowed (move.1, op) := by
  obtain ⟨side, tapOp⟩ := move
  have hshort := hshort op hop
  rw [(h.tracks side).host] at hshort
  have hquiet : op.segment (lan.internet.station side).host = none → Internet.Sendable op →
      lan.internet.Allowed (side, op) := by
    intro hnone hsendable
    refine ⟨hshort, hsendable, ?_⟩
    intro segment hsegment
    rw [hnone] at hsegment
    exact nomatch hsegment
  cases tapOp with
  | connect =>
      obtain rfl := Option.some.inj hop
      exact hquiet rfl trivial
  | frame frameBytes =>
      obtain ⟨datagram, hinbound, rfl⟩ := Option.map_eq_some_iff.mp hop
      refine ⟨hshort, inbound_short hinbound, ?_⟩
      intro segment hsegment
      rw [← (h.tracks side).host] at hsegment
      exact hauthentic frameBytes datagram segment rfl hinbound hsegment
  | app event =>
      cases event with
      | data bytes =>
          obtain rfl := Option.some.inj hop
          exact hquiet rfl trivial
      | close =>
          obtain rfl := Option.some.inj hop
          exact hquiet rfl trivial
  | tick elapsedMs =>
      obtain rfl := Option.some.inj hop
      exact hquiet rfl trivial
  | flush => exact nomatch hop

theorem Allowed.hosts (h : Inv mac config lan) (hallowed : lan.Allowed move)
    (hop : lan.hostOp move = some op) : lan.internet.Allowed (move.1, op) := by
  refine h.hosts_allowed hallowed.1 ?_ hop
  intro frameBytes datagram segment hframe hinbound hsegment
  have hreads := hallowed.2
  rw [hframe] at hreads
  exact authentic_of_arrives h hreads.2 hinbound hsegment

/-! ## One step -/

/-- What the hosts do in a step of a station. -/
structure HostsStepped (w : Internet) (side : Side) (host : IpHost) (output : IpHostOutput)
    (w1 : Internet) : Prop where
  host_eq : (w1.station side).host = host
  events : (w1.station side).events = (w.station side).events ++ output.events
  peer : w1.station side.peer = w.station side.peer
  mono : ∀ other bytes, Sent w other bytes → Sent w1 other bytes
  known : ∀ datagram ∈ output.datagrams, Known (Sent w1 side) datagram

theorem hostsStepped_of_step (hstep : w.step (side, op) = .ok w1) :
    ∃ host output, (w.station side).host.perform op = .ok (host, output) ∧
      HostsStepped w side host output w1 := by
  obtain ⟨host, output, list, hrun, hemit, hw1⟩ := Internet.step_eq_ok.mp hstep
  refine ⟨host, output, hrun, ?_⟩
  exact
    { host_eq := by
        rw [hw1, Internet.emit_station_self]
        rfl
      events := by
        rw [hw1, Internet.emit_station_self]
        rfl
      peer := by rw [hw1, Internet.emit_station_peer]
      mono := sent_mono hstep
      known := known_of_step hstep hrun }

/-- The hosts do what the step of the station asks of them. -/
theorem Inv.hosts_total (h : Inv mac config lan)
    (hhosts : ∀ op, lan.hostOp move = some op → lan.internet.Allowed (move.1, op)) :
    ∃ w1 host output, Internet.Whole config w1 ∧
      Exec.RunWhile Internet.Allowed Internet.step lan.internet (lan.moves move) w1 ∧
      perform? (lan.tap move.1).host (lan.hostOp move) = .ok (host, output) ∧
      HostsStepped lan.internet move.1 host output w1 := by
  rw [(h.tracks move.1).host, moves]
  cases hop : lan.hostOp move with
  | none =>
      refine ⟨lan.internet, _, .empty, h.whole, .nil _, rfl, ?_⟩
      exact
        { host_eq := rfl
          events := (List.append_nil _).symm
          peer := rfl
          mono := fun _ _ hsent => hsent
          known := fun _ hd => absurd hd List.not_mem_nil }
  | some op =>
      have hhosts := hhosts op hop
      obtain ⟨w1, ops, hstep, hinv, -⟩ := Internet.step_refines h.whole.inv hhosts
      have hpacked := Internet.packed_step h.whole.inv.configured h.whole.packed hstep
      obtain ⟨host, output, hrun, hstepped⟩ := hostsStepped_of_step hstep
      exact ⟨w1, host, output, ⟨hinv, hpacked⟩, .cons hhosts hstep (.nil w1), hrun, hstepped⟩

/-- What a step of a station does. -/
structure LanStepped (lan : Lan) (move : Side × TapOp) (host : IpHost) (output : IpHostOutput)
    (lan1 : Lan) : Prop where
  performed : perform? (lan.tap move.1).host (lan.hostOp move) = .ok (host, output)
  tap : Stepped (Sent lan1.internet move.1) (lan.tap move.1) move.2 host output (lan1.tap move.1)
  peer : lan1.tap move.1.peer = lan.tap move.1.peer
  hosts : Exec.RunWhile Internet.Allowed Internet.step lan.internet (lan.moves move) lan1.internet

/-- A step of a station returns, and is a run of two hosts that exchange datagrams, if what the
frame brings may come. -/
theorem Inv.step_total_of_hosts (h : Inv mac config lan) (hfits : move.2.Fits)
    (hhosts : ∀ op, lan.hostOp move = some op → lan.internet.Allowed (move.1, op)) :
    ∃ lan1 host output, lan.step move = .ok lan1 ∧ Inv mac config lan1 ∧
      LanStepped lan move host output lan1 := by
  obtain ⟨w1, host, output, hwhole, hhosts, hrun, hstepped⟩ := h.hosts_total hhosts
  obtain ⟨side, tapOp⟩ := move
  have htracks := h.tracks side
  obtain ⟨t1, hstep, htap⟩ := TapHost.step_total (htracks.wired.mono (hstepped.mono side))
    htracks.quiet hfits hrun hstepped.known
  refine ⟨{ tap := Function.update lan.tap side t1, internet := w1 }, host, output, ?_, ?_, ?_⟩
  · rw [step]
    dsimp only
    rw [hstep, Exec.ok_bind, hhosts.run]
    rfl
  · refine ⟨hwhole, ?_, ?_, ?_⟩ <;> intro other <;> dsimp only <;>
      rcases side.eq_or_eq_peer other with rfl | rfl
    · rw [Function.update_self]
      exact
        { host := by rw [htap.host_eq, hstepped.host_eq]
          events := by rw [htap.events, hstepped.events, htracks.events]
          quiet := htap.quiet
          wired := htap.wired }
    · rw [Function.update_of_ne side.peer_ne]
      have hother := h.tracks side.peer
      exact
        { host := by rw [hother.host, hstepped.peer]
          events := by rw [hother.events, hstepped.peer]
          quiet := hother.quiet
          wired := hother.wired.mono (hstepped.mono side.peer) }
    · rw [Function.update_self, htap.station.ethernetAddress]
      exact h.ethernetAddress other
    · rw [Function.update_of_ne side.peer_ne]
      exact h.ethernetAddress side.peer
    · rw [Function.update_self, htap.station.ipAddress]
      exact h.ipAddress other
    · rw [Function.update_of_ne side.peer_ne]
      exact h.ipAddress side.peer
  · exact
      { performed := hrun
        tap := by
          dsimp only
          rw [Function.update_self]
          exact htap
        peer := Function.update_of_ne side.peer_ne ..
        hosts := hhosts }

theorem Inv.step_total (h : Inv mac config lan) (hallowed : lan.Allowed move) :
    ∃ lan1 host output, lan.step move = .ok lan1 ∧ Inv mac config lan1 ∧
      LanStepped lan move host output lan1 := by
  refine h.step_total_of_hosts ?_ fun op => hallowed.hosts h
  obtain ⟨side, tapOp⟩ := move
  cases tapOp with
  | frame frameBytes => exact hallowed.2.1
  | _ => trivial

theorem Inv.step_ok (h : Inv mac config lan) (hallowed : lan.Allowed move)
    (hstep : lan.step move = .ok lan1) : Inv mac config lan1 ∧
      Exec.RunWhile Internet.Allowed Internet.step lan.internet (lan.moves move) lan1.internet := by
  obtain ⟨lan2, host, output, hstep2, hinv, hstepped⟩ := h.step_total hallowed
  rw [hstep, Except.ok.injEq] at hstep2
  subst hstep2
  exact ⟨hinv, hstepped.hosts⟩

/-! ## Runs -/

theorem inv_start {capture : Bool}
    (hpaired : Internet.Paired config) (h : start mac config capture = .ok lan) :
    Internet.start config = .ok lan.internet ∧ Inv mac config lan := by
  obtain ⟨a, ha, h⟩ := Exec.bind_eq_ok.mp h
  obtain ⟨b, hb, h⟩ := Exec.bind_eq_ok.mp h
  obtain ⟨w, hstart, h⟩ := Exec.bind_eq_ok.mp h
  obtain rfl := Except.ok.inj h
  obtain ⟨hostA, hnewA, ha⟩ := Exec.bind_eq_ok.mp ha
  obtain ⟨hostB, hnewB, hb⟩ := Exec.bind_eq_ok.mp hb
  obtain rfl := Except.ok.inj ha
  obtain rfl := Except.ok.inj hb
  refine ⟨hstart, Internet.whole_start hpaired hstart, ?_, ?_, ?_⟩ <;> intro side
  swap
  · cases side <;> rfl
  swap
  · cases side <;> rfl
  rw [Internet.start, hnewA, Exec.ok_bind, hnewB, Exec.ok_bind] at hstart
  obtain rfl := Except.ok.inj hstart
  cases side <;>
    exact
      { host := rfl
        events := rfl
        quiet := rfl
        wired := ⟨traced_new .., fun _ hbytes => absurd hbytes List.not_mem_nil⟩ }

/-- A run of the stations is a run of the two hosts. -/
theorem Inv.run {list : List (Side × TapOp)} (h : Inv mac config lan)
    (hrun : Exec.RunWhile Allowed step lan list lan1) : Inv mac config lan1 ∧
      ∃ hostMoves, Exec.RunWhile Internet.Allowed Internet.step lan.internet hostMoves
        lan1.internet := by
  induction hrun with
  | nil lan => exact ⟨h, [], .nil _⟩
  | cons hallowed hstep _ ih =>
      obtain ⟨hinv, hfirst⟩ := h.step_ok hallowed hstep
      obtain ⟨hinv1, hostMoves, hrest⟩ := ih hinv
      exact ⟨hinv1, _, hfirst.append hrest⟩

end Lan

end Minnow
