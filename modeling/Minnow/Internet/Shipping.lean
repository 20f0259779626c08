import Minnow.Internet.Safety

set_option autoImplicit false

/-! # Which datagram carries which segment

The datagrams that an operation returns and the segments that it has sent belong together, one
by one, and so do what arrives and what was sent.
-/

namespace Minnow

open IpHost TcpConnection

namespace Internet

variable {w w1 : Internet} {side : Side} {host host1 : IpHost} {op : HostOp} {connOp : ConnOp}
  {output : IpHostOutput} {segment : TcpSegment} {segments : List TcpSegment} {bytes : Bytes}
  {list : List Bytes} {config : Side → IpHostConfig} {datagram : Ipv4Datagram} {parcel : Parcel}
  {packet : Network.Packet} {limit : Nat}

/-- The datagram was sent in a parcel with that segment. -/
structure Ships (limit : Nat) (dst : Ipv4AddrBytes) (datagram : Ipv4Datagram)
    (packet : Network.Packet) (parcel : Parcel) : Prop where
  bytes : datagram.serialize = .ok parcel.bytes
  packet : packet ∈ parcel.packet
  dst : datagram.header.dst = dst
  ttl : datagram.header.ttl = 64
  short : parcel.bytes.length ≤ limit + 40

theorem length_of_wraps {config : IpHostConfig} (h : Wraps config segment bytes) :
    bytes.length = segment.payload.length + 40 := by
  obtain ⟨tcpBytes, htcp, hbytes⟩ := h
  have hpayload := Ipv4Datagram.payload_le_of_serialize hbytes
  rw [Ipv4Datagram.serialize_eq hpayload, Except.ok.injEq] at hbytes
  have hlen : segment.payload.length ≤ 65515 := by
    obtain ⟨u, hassert, -⟩ := Exec.bind_eq_ok.mp htcp
    have hle := Exec.assert_eq_ok.mp hassert
    unfold TCP_HEADER_MIN_LEN at hle
    omega
  rw [segment.serializeIpv4_eq _ _ hlen, Except.ok.injEq] at htcp
  rw [← hbytes, Ipv4Datagram.length_packet]
  show 20 + tcpBytes.length = _
  rw [← htcp, TcpSegment.length_wire]
  omega

theorem ships_of_wrapped {ackno : Option Nat} {first : Nat}
    (hwrap : host.wrapTcpSegments segments = .ok output)
    (hemit : emitOutput output.datagrams = .ok list)
    (hsmall : ∀ s ∈ segments, s.payload.length ≤ limit) :
    List.Forall₂
      (fun datagram packet => ∃ parcel ∈ parcels list (Network.packets ackno first segments),
        Ships limit host.config.peerIp datagram packet parcel)
      output.datagrams (Network.packets ackno first segments) := by
  induction segments generalizing output list first with
  | nil =>
      obtain rfl := Except.ok.inj hwrap
      exact .nil
  | cons segment rest ih =>
      obtain ⟨tcpBytes, htcp, hwrap⟩ := Exec.bind_eq_ok.mp hwrap
      obtain ⟨output1, hrest, hok⟩ := Exec.bind_eq_ok.mp hwrap
      obtain rfl := Except.ok.inj hok
      obtain ⟨bytes, hbytes, hemit⟩ := Exec.bind_eq_ok.mp hemit
      obtain ⟨list1, hemit1, hok⟩ := Exec.bind_eq_ok.mp hemit
      obtain rfl := Except.ok.inj hok
      have hshort : bytes.length ≤ limit + 40 := by
        rw [length_of_wraps ⟨tcpBytes, htcp, hbytes⟩]
        exact Nat.add_le_add_right (hsmall segment List.mem_cons_self) 40
      refine .cons ⟨_, List.mem_cons_self, hbytes, rfl, rfl, rfl, hshort⟩ ?_
      refine (ih hrest hemit1 (fun s hs => hsmall s (List.mem_cons_of_mem _ hs))).imp ?_
      rintro datagram packet ⟨parcel, hparcel, hships⟩
      exact ⟨parcel, List.mem_cons_of_mem _ hparcel, hships⟩

/-- What an operation of the connection returns are the segments that it sends, in order. -/
theorem step_ships (h : Inv config w) (hop : op.connOp (w.station side).host = some connOp)
    (hstep : w.step (side, op) = .ok w1)
    (hrun : (w.station side).host.perform op = .ok (host1, output)) :
    ∃ packets, w1.toWorld.sent side = w.toWorld.sent side ++ packets ∧
      List.Forall₂
        (fun datagram packet => ∃ parcel ∈ w1.sent side,
          Ships (config side).senderConfig.maxPayloadSize (config side).peerIp datagram packet
            parcel)
        output.datagrams packets := by
  obtain ⟨host2, output2, list, hrun2, hemit, rfl⟩ := step_eq_ok.mp hstep
  rw [hrun, Except.ok.injEq] at hrun2
  obtain ⟨rfl, rfl⟩ := Prod.mk.inj hrun2
  rw [perform_of_connOp hop] at hrun
  obtain ⟨connection, segments, wrap, hperform, hwrap, rfl, rfl⟩ := dispatch_eq_ok.mp hrun
  have hconnInv : ConnInv (w.station side).host.connection := (h.world side).connInv
  obtain ⟨-, hsmall⟩ := (perform_performed hperform).slim hconnInv (h.slim side)
  have hworld := toWorld_of_dispatched
    (after (w.station side) op { (w.station side).host with connection := connection }
      (IpHostOutput.extend { datagrams := [], events := incomingEvents connOp } wrap))
    hop hwrap hemit
  refine ⟨_, (congrArg (fun world => world.sent side) hworld).trans Network.emit_sent_self, ?_⟩
  show List.Forall₂ _ wrap.datagrams _
  refine List.Forall₂.imp ?_ (ships_of_wrapped hwrap hemit hsmall)
  rintro datagram packet ⟨parcel, hparcel, hship⟩
  rw [(h.configured side).config_eq] at hship
  refine ⟨parcel, ?_, hship⟩
  rw [emit_sent_self, numbered, hop]
  dsimp only
  rw [outgoing_dispatched hwrap]
  exact List.mem_append_right _ hparcel

/-- A parcel with a segment brings that segment. -/
theorem Whole.brings (hpaired : Paired config) (h : Whole config w)
    (hparcel : parcel ∈ w.sent side.peer) (hpacket : packet ∈ parcel.packet)
    (hbytes : datagram.serialize = .ok parcel.bytes) :
    (w.station side).host.segmentOf datagram = some packet.segment := by
  have hsent : packet ∈ w.toWorld.sent side.peer :=
    List.mem_filterMap.mpr ⟨parcel, hparcel, hpacket⟩
  have hports := (h.inv.world side.peer).mineAddressed packet hsent
  have hsender := h.inv.configured side.peer
  have hreceiver := h.inv.configured side
  rcases h.packed side.peer parcel hparcel with ⟨packet1, hpacket1, hwraps⟩ | ⟨hnone, -⟩
  · obtain rfl := Option.mem_unique hpacket1 hpacket
    rw [← side.peer_peer] at hreceiver
    have hbrought := segment_of_wraps hpaired hreceiver hwraps
      ⟨hports.1.trans hsender.localPort, hports.2.trans hsender.peerPort⟩
    rw [side.peer_peer] at hbrought
    obtain ⟨datagram1, hparsed, hsegment⟩ := datagram_of_segment hbrought
    rw [Ipv4Datagram.parseBytes_serialize hbytes, Except.ok.injEq, Except.ok.injEq] at hparsed
    rw [hparsed]
    exact hsegment
  · rw [hnone] at hpacket
    exact nomatch hpacket

end Internet

end Minnow
