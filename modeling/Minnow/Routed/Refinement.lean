import Minnow.Routed.Basic

set_option autoImplicit false

/-! # Routers are part of the network

A router changes the header of a packet, but nothing that a host looks at: the segment that a
datagram brings to a connection is the same after a hop. So all datagrams in the routers and on the
wires bring segments that the hosts have sent, and what the hosts do is what hosts do that exchange
datagrams (`Inv.step_total`).
-/

namespace Minnow

open IpHost TapHost Router NetworkInterface

namespace Routed

variable {ι : Type} {mac : Side → EthernetAddress} {config : Side → IpHostConfig} {lan lan1 : Lan}
  {w w1 : Internet} {side : Side} {host host1 : IpHost} {frameBytes : Bytes} {frame : EthernetFrame}
  {datagram : Ipv4Datagram} {segment : TcpSegment} {parcel : Parcel} {r r1 : Routed ι}

/-- A segment that the datagram brings to a connection was sent by the other host. -/
def Faithful (w : Internet) (datagram : Ipv4Datagram) : Prop :=
  ∀ side segment, (w.station side).host.segmentOf datagram = some segment →
    SentSegment w side segment

/-- What holds of the stations and the routers. -/
structure Inv (mac : Side → EthernetAddress) (config : Side → IpHostConfig) (r : Routed ι) :
    Prop where
  lan : Lan.Inv mac config r.lan
  mesh : r.mesh.Inv (Faithful r.lan.internet)

/-! ## What a host looks at -/

/-- Hosts with the same configuration take the same segments. -/
theorem segmentOf_congr {config : IpHostConfig} (h : Configured config host)
    (h1 : Configured config host1) (datagram : Ipv4Datagram) :
    host1.segmentOf datagram = host.segmentOf datagram := by
  unfold segmentOf TcpConnection.belongsToThisConnection
  rw [h.config_eq, h1.config_eq, h.localPort, h1.localPort, h.peerPort, h1.peerPort]

theorem hopClosed_faithful (w : Internet) : HopClosed (Faithful w) (Faithful w) :=
  fun _ h _ => h

/-! ## What the hosts have sent -/

theorem sent_subset_step {move : Side × HostOp} (hstep : w.step move = .ok w1) (side : Side) :
    w.sent side ⊆ w1.sent side := by
  obtain ⟨host1, output, list, -, -, rfl⟩ := Internet.step_eq_ok.mp hstep
  rcases move.1.eq_or_eq_peer side with rfl | rfl
  · rw [Internet.emit_sent_self]
    exact List.subset_append_left _ _
  · rw [Internet.emit_sent_peer]
    exact List.Subset.refl _

theorem sent_subset_run {moves : List (Side × HostOp)}
    (hrun : Exec.RunWhile Internet.Allowed Internet.step w moves w1) (side : Side) :
    w.sent side ⊆ w1.sent side :=
  hrun.invariant (fun w1 => w.sent side ⊆ w1.sent side)
    (fun _ _ _ hsubset _ hstep => List.Subset.trans hsubset (sent_subset_step hstep side))
    (List.Subset.refl _)

/-- What was faithful stays so. -/
theorem Faithful.mono (hconfigured : ∀ side, Configured (config side) (w.station side).host)
    (hconfigured1 : ∀ side, Configured (config side) (w1.station side).host)
    (hsent : ∀ side, w.sent side ⊆ w1.sent side) (h : Faithful w datagram) :
    Faithful w1 datagram := by
  intro side segment hsegment
  rw [segmentOf_congr (hconfigured side) (hconfigured1 side)] at hsegment
  obtain ⟨parcel, hparcel, packet, hpacket, hsame⟩ := h side segment hsegment
  exact ⟨parcel, hsent side.peer hparcel, packet, hpacket, hsame⟩

/-- What a host has sent is faithful: it is for the other host, and that one knows it. -/
theorem faithful_of_sent {pad : Bytes} (hpaired : Internet.Paired config)
    (hdistinct : (config .a).localIp ≠ (config .b).localIp) (h : Internet.Whole config w)
    (hparcel : parcel ∈ w.sent side)
    (hparsed : Ipv4Datagram.parseBytes (parcel.bytes ++ pad) = .ok (.ok datagram)) :
    Faithful w datagram := by
  intro other segment hsegment
  have hpacked := h.packed side parcel hparcel
  rcases side.eq_or_eq_peer other with rfl | rfl
  · -- nobody sends to himself
    rcases hpacked with ⟨packet, -, hwraps⟩ | ⟨-, sent, hserialize, hprotocol⟩
    · obtain ⟨wrapping, hwrapping, -, hdst, -⟩ := hwraps.parsed pad
      rw [hparsed, Except.ok.injEq, Except.ok.injEq] at hwrapping
      subst hwrapping
      have hlocal := (segmentOf_eq_some.mp hsegment).1
      rw [(h.inv.configured other).config_eq, hdst] at hlocal
      have hpeer := hpaired.ips other.peer
      rw [Side.peer_peer] at hpeer
      have hsame := hpeer.trans hlocal
      cases other with
      | a => exact absurd hsame.symm hdistinct
      | b => exact absurd hsame hdistinct
    · have hsame := Ipv4Datagram.parseBytes_serialize_append hserialize pad
      rw [hparsed, Except.ok.injEq, Except.ok.injEq] at hsame
      subst hsame
      exact absurd (segmentOf_eq_some.mp hsegment).2.1 hprotocol
  · obtain ⟨packet, hpacket, hsame⟩ := Internet.segment_of_packed hpacked hparsed hsegment
    exact ⟨parcel, by rwa [Side.peer_peer], packet, hpacket, hsame⟩

/-! ## What comes from a wire -/

/-- A datagram in a frame that a station has written is faithful. -/
theorem faithful_of_written (hpaired : Internet.Paired config)
    (hdistinct : (config .a).localIp ≠ (config .b).localIp) (h : Lan.Inv mac config lan)
    {bytes : Bytes} (hwritten : bytes ∈ (lan.tap side).written) (hbytes : bytes <+: frameBytes)
    (hparsed : EthernetFrame.parseBytes frameBytes = .ok (.ok frame))
    (hipv4 : frame.header.ethertype = ETHERTYPE_IPV4)
    (hdatagram : Ipv4Datagram.parseBytes frame.payload = .ok (.ok datagram)) :
    Faithful lan.internet datagram := by
  obtain ⟨sent, rfl, hgenuine⟩ := (h.tracks side).wired.written bytes hwritten
  obtain ⟨pad, rfl⟩ := hbytes
  rw [sent.parseBytes_serialize_append pad, Except.ok.injEq, Except.ok.injEq] at hparsed
  subst hparsed
  rcases hgenuine.kind with ⟨harp, -⟩ | ⟨-, parcel, hparcel, hsame⟩
  · rw [show sent.header.ethertype = ETHERTYPE_IPV4 from hipv4] at harp
    exact absurd harp (by decide)
  · have hpadded : Ipv4Datagram.parseBytes (parcel.bytes ++ pad) = .ok (.ok datagram) := by
      rw [hsame]
      exact hdatagram
    exact faithful_of_sent hpaired hdistinct h.whole hparcel hpadded

/-- A segment that a frame brings was sent by the other host, with its number. -/
theorem Inv.authentic (hpaired : Internet.Paired config)
    (hdistinct : (config .a).localIp ≠ (config .b).localIp) (h : Inv mac config r)
    (harrives : r.Arrives side frameBytes)
    (hinbound : inbound (r.lan.tap side).interface.ethernetAddress frameBytes = some datagram)
    (hsegment : (r.lan.tap side).host.segmentOf datagram = some segment) :
    Fresh r.lan.internet side segment := by
  obtain ⟨hwire, htimely⟩ := harrives datagram hinbound segment hsegment
  apply htimely
  obtain ⟨parsed, hparsed⟩ := EthernetFrame.parseBytes_total frameBytes
  cases parsed with
  | error err =>
      rw [TapHost.inbound, hparsed] at hinbound
      exact absurd hinbound (by simp)
  | ok frame =>
      obtain ⟨-, hipv4, hdatagram⟩ := (inbound_of_frame hparsed).mp hinbound
      have hfaithful : Faithful r.lan.internet datagram := by
        rcases hwire with ⟨bytes, hwritten, hbytes⟩ | ⟨sent, hsent, pad, rfl⟩
        · exact faithful_of_written hpaired hdistinct h.lan hwritten hbytes hparsed hipv4 hdatagram
        · rw [sent.parseBytes_serialize_append pad, Except.ok.injEq, Except.ok.injEq] at hparsed
          subst hparsed
          have honWire : r.mesh.OnWire { sent with payload := sent.payload ++ pad } :=
            ⟨sent, hsent, rfl, pad, rfl⟩
          exact h.mesh.brings honWire hipv4 hdatagram
      rw [(h.lan.tracks side).host] at hsegment
      exact hfaithful side segment hsegment

/-- What a router may be given brings segments that the hosts have sent. -/
theorem Inv.puts (hpaired : Internet.Paired config)
    (hdistinct : (config .a).localIp ≠ (config .b).localIp) (h : Inv mac config r)
    {move : ι × RouterOp} (hallowed : r.Allowed (.router move)) :
    r.mesh.Admits (Faithful r.lan.internet) move := by
  rcases hallowed with hadmits | ⟨frame, hframe, hstation⟩
  · apply hadmits.mono
    intro datagram hstray side segment hsegment
    rw [← (h.lan.tracks side).host, hstray side] at hsegment
    exact nomatch hsegment
  · obtain ⟨interfaceNum, hop⟩ := RouterOp.frame?_eq_some.mp hframe
    rw [Mesh.Admits, hop]
    refine ⟨trivial, Or.inr ?_⟩
    intro hipv4 datagram hdatagram
    rcases hstation with ⟨bytes, hwritten, hbytes⟩ | ⟨bytes, hwritten, hbytes⟩
    · exact faithful_of_written hpaired hdistinct h.lan hwritten hbytes frame.parseBytes_serialize
        hipv4 hdatagram
    · exact faithful_of_written hpaired hdistinct h.lan hwritten hbytes frame.parseBytes_serialize
        hipv4 hdatagram

/-! ## Runs -/

variable [DecidableEq ι]

/-- A step returns, and is a run of two hosts that exchange datagrams. -/
theorem Inv.step_total (hpaired : Internet.Paired config)
    (hdistinct : (config .a).localIp ≠ (config .b).localIp) (h : Inv mac config r)
    {move : RoutedMove ι} (hallowed : r.Allowed move) :
    ∃ r1 hostMoves, r.step move = .ok r1 ∧ Inv mac config r1 ∧
      Exec.RunWhile Internet.Allowed Internet.step r.lan.internet hostMoves r1.lan.internet := by
  cases move with
  | router move =>
      have hadmits := h.puts hpaired hdistinct hallowed
      obtain ⟨mesh1, hstep⟩ := h.mesh.step_total hadmits
      refine ⟨{ r with mesh := mesh1 }, [], ?_, ⟨h.lan, ?_⟩, .nil _⟩
      · rw [step, hstep]
        rfl
      · exact h.mesh.step (hopClosed_faithful _) (h.mesh.puts hadmits) hstep
  | station move =>
      have hfits : move.2.Fits := by
        obtain ⟨side, tapOp⟩ := move
        cases tapOp with
        | frame frameBytes => exact hallowed.2.1
        | _ => trivial
      have hhosts : ∀ op, r.lan.hostOp move = some op → r.lan.internet.Allowed (move.1, op) := by
        intro op
        refine h.lan.hosts_allowed hallowed.1 ?_
        intro frameBytes datagram segment hframe hinbound hsegment
        have hreads := hallowed.2
        rw [hframe] at hreads
        exact h.authentic hpaired hdistinct hreads.2 hinbound hsegment
      obtain ⟨lan1, host, output, hstep, hinv, hstepped⟩ := h.lan.step_total_of_hosts hfits hhosts
      refine ⟨{ r with lan := lan1 }, _, ?_, ⟨hinv, ?_⟩, hstepped.hosts⟩
      · rw [step, hstep]
        rfl
      · exact h.mesh.mono fun datagram hfaithful =>
          hfaithful.mono h.lan.whole.inv.configured hinv.whole.inv.configured
            (sent_subset_run hstepped.hosts)

/-- A run of the stations and the routers is a run of the two hosts. -/
theorem Inv.run (hpaired : Internet.Paired config)
    (hdistinct : (config .a).localIp ≠ (config .b).localIp) {moves : List (RoutedMove ι)}
    (h : Inv mac config r) (hrun : Exec.RunWhile Allowed step r moves r1) :
    Inv mac config r1 ∧ ∃ hostMoves,
      Exec.RunWhile Internet.Allowed Internet.step r.lan.internet hostMoves r1.lan.internet := by
  induction hrun with
  | nil r => exact ⟨h, [], .nil _⟩
  | cons hallowed hstep _ ih =>
      obtain ⟨r2, first, hstep2, hinv, hfirst⟩ := h.step_total hpaired hdistinct hallowed
      rw [hstep, Except.ok.injEq] at hstep2
      subst hstep2
      obtain ⟨hinv1, rest, hrest⟩ := ih hinv
      exact ⟨hinv1, first ++ rest, hfirst.append hrest⟩

end Routed

end Minnow
