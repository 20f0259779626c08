import Minnow.Codec.Icmp
import Minnow.Codec.Tcp
import Minnow.Internet.Basic
import Minnow.IpHost.Safety

set_option autoImplicit false

/-! # Two hosts are two connections

Every step of the two hosts that the assumptions allow returns, and is a step of the network of
segments, or none where nothing reaches the connection (`step_refines`). So whatever holds of two
connections in every reachable state holds of two hosts that exchange bytes.

The way there is the way of a segment: it is wrapped (`wrapped`), serialized and numbered. That the
parsers take out what was put in, if bytes that were sent arrive, is left to `segment_of_wraps`.
-/

namespace Minnow

open IpHost TcpConnection

namespace Internet

variable {w w1 : Internet} {side : Side} {host host1 : IpHost} {op : HostOp} {connOp : ConnOp}
  {output : IpHostOutput} {segment : TcpSegment} {segments : List TcpSegment}
  {datagrams : List Ipv4Datagram} {bytes : Bytes} {list : List Bytes}
  {packets : List Network.Packet} {parcel : Parcel} {config : Side → IpHostConfig}

/-! ## What is serialized -/

theorem emitOutput_total (h : ∀ datagram ∈ datagrams, datagram.payload.length ≤ 65515) :
    ∃ list, emitOutput datagrams = .ok list := by
  induction datagrams with
  | nil => exact ⟨[], rfl⟩
  | cons datagram rest ih =>
      obtain ⟨list, hrest⟩ := ih (fun d hd => h d (List.mem_cons_of_mem _ hd))
      rw [emitOutput, Ipv4Datagram.serialize_eq (h datagram List.mem_cons_self), Exec.ok_bind,
        hrest]
      exact ⟨_, rfl⟩

theorem mem_emitOutput (h : emitOutput datagrams = .ok list) (hbytes : bytes ∈ list) :
    ∃ datagram ∈ datagrams, datagram.serialize = .ok bytes := by
  induction datagrams generalizing list with
  | nil =>
      obtain rfl := Except.ok.inj h
      exact absurd hbytes List.not_mem_nil
  | cons datagram rest ih =>
      obtain ⟨first, hfirst, h⟩ := Exec.bind_eq_ok.mp h
      obtain ⟨list1, hrest, hok⟩ := Exec.bind_eq_ok.mp h
      obtain rfl := Except.ok.inj hok
      rcases List.mem_cons.mp hbytes with rfl | hbytes
      · exact ⟨datagram, List.mem_cons_self, hfirst⟩
      · obtain ⟨datagram1, hmem, hserialize⟩ := ih hrest hbytes
        exact ⟨datagram1, List.mem_cons_of_mem _ hmem, hserialize⟩

theorem emitOutput_mem (h : emitOutput datagrams = .ok list) {datagram : Ipv4Datagram}
    (hdatagram : datagram ∈ datagrams) : ∃ bytes ∈ list, datagram.serialize = .ok bytes := by
  induction datagrams generalizing list with
  | nil => exact absurd hdatagram List.not_mem_nil
  | cons first rest ih =>
      obtain ⟨bytes, hfirst, h⟩ := Exec.bind_eq_ok.mp h
      obtain ⟨list1, hrest, hok⟩ := Exec.bind_eq_ok.mp h
      obtain rfl := Except.ok.inj hok
      rcases List.mem_cons.mp hdatagram with rfl | hdatagram
      · exact ⟨bytes, List.mem_cons_self, hfirst⟩
      · obtain ⟨bytes1, hbytes1, hserialize⟩ := ih hrest hdatagram
        exact ⟨bytes1, List.mem_cons_of_mem _ hbytes1, hserialize⟩

/-- The bytes are the segment, wrapped and serialized. -/
def Wraps (config : IpHostConfig) (segment : TcpSegment) (bytes : Bytes) : Prop :=
  ∃ tcpBytes, segment.serializeIpv4 config.localIp config.peerIp = .ok tcpBytes ∧
    (Ipv4Datagram.newTcp config.localIp config.peerIp tcpBytes).serialize = .ok bytes

/-- What a host sends for its connection are its segments, in order. -/
theorem wrapped (hwrap : host.wrapTcpSegments segments = .ok output)
    (hemit : emitOutput output.datagrams = .ok list) :
    List.Forall₂ (Wraps host.config) segments list := by
  induction segments generalizing output list with
  | nil =>
      obtain rfl := Except.ok.inj hwrap
      obtain rfl := Except.ok.inj hemit
      exact .nil
  | cons segment rest ih =>
      obtain ⟨tcpBytes, htcp, hwrap⟩ := Exec.bind_eq_ok.mp hwrap
      obtain ⟨output1, hrest, hok⟩ := Exec.bind_eq_ok.mp hwrap
      obtain rfl := Except.ok.inj hok
      obtain ⟨bytes, hbytes, hemit⟩ := Exec.bind_eq_ok.mp hemit
      obtain ⟨list1, hemit1, hok⟩ := Exec.bind_eq_ok.mp hemit
      obtain rfl := Except.ok.inj hok
      exact .cons ⟨tcpBytes, htcp, hbytes⟩ (ih hrest hemit1)

theorem wrap_total (h : ∀ s ∈ segments, s.payload.length ≤ 65495) :
    ∃ output list, host.wrapTcpSegments segments = .ok output ∧
      emitOutput output.datagrams = .ok list := by
  induction segments with
  | nil => exact ⟨_, _, rfl, rfl⟩
  | cons segment rest ih =>
      obtain ⟨output, list, hwrap, hemit⟩ := ih (fun s hs => h s (List.mem_cons_of_mem _ hs))
      have hsegment := h segment List.mem_cons_self
      obtain ⟨tcpBytes, htcp, hlen⟩ : ∃ tcpBytes,
          segment.serializeIpv4 host.config.localIp host.config.peerIp = .ok tcpBytes ∧
            tcpBytes.length ≤ 65515 := by
        refine ⟨_, segment.serializeIpv4_eq _ _ (by omega), ?_⟩
        rw [TcpSegment.length_wire]
        omega
      obtain ⟨bytes, hbytes⟩ : ∃ bytes, (Ipv4Datagram.newTcp host.config.localIp
          host.config.peerIp tcpBytes).serialize = .ok bytes :=
        ⟨_, Ipv4Datagram.serialize_eq hlen⟩
      refine ⟨
        { datagrams :=
            Ipv4Datagram.newTcp host.config.localIp host.config.peerIp tcpBytes :: output.datagrams
          events := .outgoingTcp segment :: output.events }, bytes :: list, ?_, ?_⟩
      · rw [wrapTcpSegments, htcp, Exec.ok_bind, hwrap]
        rfl
      · rw [emitOutput, hbytes, Exec.ok_bind, hemit]
        rfl

/-- An echo reply is as long as the request. -/
theorem receiveIcmp_payload {srcIp dstIp : Ipv4AddrBytes}
    (hlen : bytes.length ≤ 65515) (h : receiveIcmp srcIp dstIp bytes = .ok output) :
    ∀ datagram ∈ output.datagrams, datagram.payload.length ≤ 65515 := by
  obtain ⟨result, hparsed, hlength⟩ :=
    IcmpMessage.parseBytes_total (wordSum_lt_of_length (show bytes.length ≤ 131074 by omega))
  rw [receiveIcmp, hparsed, Exec.ok_bind] at h
  cases result with
  | error err =>
      obtain rfl := Except.ok.inj h
      exact fun _ hd => absurd hd List.not_mem_nil
  | ok message =>
      dsimp only at h
      cases hreply : message.echoReplyFromRequest with
      | none =>
          rw [hreply] at h
          obtain rfl := Except.ok.inj h
          exact fun _ hd => absurd hd List.not_mem_nil
      | some reply =>
          rw [hreply] at h
          obtain ⟨replyBytes, hserialize, hok⟩ := Exec.bind_eq_ok.mp h
          obtain rfl := Except.ok.inj hok
          obtain ⟨-, -, rfl⟩ := IcmpMessage.echoReplyFromRequest_eq_some.mp hreply
          have hfits := hlength message rfl
          have hbytes := IcmpMessage.length_serialize hserialize
          intro datagram hd
          obtain rfl := List.mem_singleton.mp hd
          show replyBytes.length ≤ 65515
          dsimp only at hbytes
          omega

theorem answer_payload {datagram : Ipv4Datagram} (hlen : datagram.payload.length ≤ 65515)
    (h : host.answer datagram = .ok output) :
    ∀ reply ∈ output.datagrams, reply.payload.length ≤ 65515 := by
  unfold answer at h
  split_ifs at h
  · obtain rfl := Except.ok.inj h
    exact fun _ hd => absurd hd List.not_mem_nil
  · exact receiveIcmp_payload hlen h
  · obtain ⟨parsed, -, h⟩ := Exec.bind_eq_ok.mp h
    cases parsed with
    | error err =>
        obtain rfl := Except.ok.inj h
        exact fun _ hd => absurd hd List.not_mem_nil
    | ok segment =>
        obtain rfl := Except.ok.inj h
        exact fun _ hd => absurd hd List.not_mem_nil
  · obtain rfl := Except.ok.inj h
    exact fun _ hd => absurd hd List.not_mem_nil

/-- What does not reach the connection is answered with datagrams that can be serialized. -/
theorem idle_total (hsendable : Sendable op) (hop : op.connOp host = none) :
    ∃ output list, host.perform op = .ok (host, output) ∧
      emitOutput output.datagrams = .ok list := by
  have hdatagram : ∀ datagram, datagram.payload.length ≤ 65515 →
      host.segmentOf datagram = none → ∃ output list,
        host.receiveDatagram datagram = .ok (host, output) ∧
        emitOutput output.datagrams = .ok list := by
    intro datagram hlen hnone
    obtain ⟨output, hanswer⟩ := host.answer_total (show datagram.payload.length ≤ 65535 by omega)
    obtain ⟨list, hemit⟩ := emitOutput_total (answer_payload hlen hanswer)
    rw [receiveDatagram_of_idle hnone, hanswer]
    exact ⟨output, list, rfl, hemit⟩
  rcases HostOp.of_idle hop with ⟨datagram, rfl, hnone⟩ | ⟨packet, rfl, hnone⟩
  · exact hdatagram datagram hsendable hnone
  · obtain ⟨result, hparsed, hlength⟩ := Ipv4Datagram.parseBytes_total packet
    rw [IpHost.perform, receiveIpv4Bytes, hparsed, Exec.ok_bind]
    cases result with
    | error err => exact ⟨_, [], rfl, rfl⟩
    | ok datagram =>
        have hpayload := hlength datagram rfl
        unfold IPV4_HEADER_MIN_LEN at hpayload
        exact hdatagram datagram (by omega) (hnone datagram hparsed)

/-! ## Numbering -/

theorem packet_of_parcels_nil (h : parcel ∈ parcels list []) :
    parcel.packet = none ∧ parcel.bytes ∈ list := by
  induction list with
  | nil => exact absurd h List.not_mem_nil
  | cons bytes rest ih =>
      rcases List.mem_cons.mp h with rfl | h
      · exact ⟨rfl, List.mem_cons_self⟩
      · obtain ⟨hnone, hmem⟩ := ih h
        exact ⟨hnone, List.mem_cons_of_mem _ hmem⟩

theorem filterMap_parcels_nil (list : List Bytes) :
    (parcels list []).filterMap Parcel.packet = [] := by
  apply List.filterMap_eq_nil_iff.mpr
  exact fun parcel hp => (packet_of_parcels_nil hp).1

/-- The parcels are the datagrams that were serialized. -/
theorem map_bytes_parcels (list : List Bytes) (packets : List Network.Packet) :
    (parcels list packets).map Parcel.bytes = list := by
  induction list generalizing packets with
  | nil => rfl
  | cons first rest ih =>
      cases packets with
      | nil => exact congrArg (first :: ·) (ih [])
      | cons packet packets => exact congrArg (first :: ·) (ih packets)

theorem mem_parcels_of_mem {packets : List Network.Packet} (h : bytes ∈ list) :
    ∃ parcel ∈ parcels list packets, parcel.bytes = bytes := by
  rw [← map_bytes_parcels list packets] at h
  exact List.mem_map.mp h

/-- With one datagram for each segment, every parcel carries the segment with its number. -/
theorem parcels_of_wrapped {config : IpHostConfig} {ackno : Option Nat} {first : Nat}
    (h : List.Forall₂ (Wraps config) segments list) :
    (parcels list (Network.packets ackno first segments)).filterMap Parcel.packet
        = Network.packets ackno first segments ∧
      ∀ parcel ∈ parcels list (Network.packets ackno first segments),
        ∃ packet ∈ parcel.packet, Wraps config packet.segment parcel.bytes := by
  induction h generalizing first with
  | nil => exact ⟨rfl, fun _ hp => absurd hp List.not_mem_nil⟩
  | @cons segment bytes segments list hwraps _ ih =>
      obtain ⟨hpackets, hparcels⟩ := @ih (first + segment.toSenderMessage.sequenceLength)
      constructor
      · exact congrArg (List.cons _) hpackets
      · intro parcel hp
        rcases List.mem_cons.mp hp with rfl | hp
        · exact ⟨_, rfl, hwraps⟩
        · exact hparcels parcel hp

/-- The events of an operation report the segments it sends, and those it was brought. -/
theorem outgoing_dispatched (hwrap : host.wrapTcpSegments segments = .ok output) :
    (IpHostOutput.extend { datagrams := [], events := incomingEvents connOp }
      output).events.filterMap IpHostEvent.outgoing? = segments := by
  have hincoming : (incomingEvents connOp).filterMap IpHostEvent.outgoing? = [] := by
    cases connOp with
    | receiveSegment segment =>
        rw [incomingEvents]
        split_ifs <;> rfl
    | flushSender => rfl
    | write data => rfl
    | close => rfl
    | tick elapsedMs => rfl
    | read len => rfl
  rw [IpHostOutput.extend, List.filterMap_append, hincoming, wrapTcpSegments_events hwrap,
    List.nil_append, List.filterMap_map]
  exact List.filterMap_some

/-! ## One step -/

/-- The steps of the network of segments that hosts take: they read nothing. -/
def WithoutReads (world : Network.World) (op : Network.NetOp) : Prop :=
  world.Allowed op ∧ ∀ side len, op ≠ .read side len

/-- What a host does to its connection is a step of the network of segments. -/
theorem Allowed.netOp (h : Allowed w (side, op))
    (hop : op.connOp (w.station side).host = some connOp) :
    ∃ netOp : Network.NetOp, netOp.side = side ∧ w.toWorld.connOp netOp = some connOp ∧
      WithoutReads w.toWorld netOp := by
  have hreceive : (op.segment (w.station side).host).map ConnOp.receiveSegment = some connOp →
      ∃ netOp : Network.NetOp, netOp.side = side ∧ w.toWorld.connOp netOp = some connOp ∧
        WithoutReads w.toWorld netOp := by
    intro hmap
    obtain ⟨segment, hsegment, rfl⟩ := Option.map_eq_some_iff.mp hmap
    obtain ⟨parcel, hparcel, packet, hpacket, rfl, hreach⟩ := h.authentic segment hsegment
    have hsent : packet ∈ w.toWorld.sent side.peer :=
      List.mem_filterMap.mpr ⟨parcel, hparcel, hpacket⟩
    obtain ⟨i, hi⟩ := List.getElem?_of_mem hsent
    refine ⟨.deliver side i, rfl, ?_, ?_, by simp⟩
    · rw [Network.World.connOp, hi]
      rfl
    · intro packet1 hpacket1
      rw [hi] at hpacket1
      obtain rfl := Option.mem_some_iff.mp hpacket1
      exact hreach
  cases op with
  | connect => exact ⟨.connect side, rfl, hop, trivial, by simp⟩
  | write data =>
      refine ⟨.write side data, rfl, hop, ?_, by simp⟩
      have hshort := h.short
      have hle : ((w.station side).host.connection.sender.write data).2 ≤ data.length :=
        ByteStream.push_snd_le _ _
      rw [acceptedBy, List.length_append, List.length_take, min_eq_left hle] at hshort
      exact hshort
  | close => exact ⟨.close side, rfl, hop, trivial, by simp⟩
  | tick elapsedMs => exact ⟨.tick side elapsedMs, rfl, hop, trivial, by simp⟩
  | receiveDatagram datagram => exact hreceive hop
  | receiveIpv4Bytes packet => exact hreceive hop

theorem toWorld_emit {station : Station} {more : List Parcel} :
    (w.emit side station more).toWorld =
      { endpoint := Function.update w.toWorld.endpoint side (endpointOf station)
        sent := Function.update w.toWorld.sent side
          (w.toWorld.sent side ++ more.filterMap Parcel.packet) } := by
  rw [toWorld, Network.World.mk.injEq]
  constructor
  · funext other
    rcases side.eq_or_eq_peer other with rfl | rfl
    · rw [emit_station_self, Function.update_self]
    · rw [emit_station_peer, Function.update_of_ne side.peer_ne]
      rfl
  · funext other
    rcases side.eq_or_eq_peer other with rfl | rfl
    · rw [emit_sent_self, Function.update_self, List.filterMap_append]
      rfl
    · rw [emit_sent_peer, Function.update_of_ne side.peer_ne]
      rfl

/-- What holds between two hosts. -/
structure Inv (config : Side → IpHostConfig) (w : Internet) : Prop where
  world : Network.WorldInv w.toWorld
  configured : ∀ side, Configured (config side) (w.station side).host
  payload : ∀ side, (config side).senderConfig.maxPayloadSize ≤ 65495
  slim : ∀ side,
    Slim (config side).senderConfig.maxPayloadSize (w.station side).host.connection

/-- What the host accepts is what its connection accepts, and it reads nothing. -/
theorem after_of_connOp (hop : op.connOp host = some connOp) :
    acceptedBy host op = Network.accepted host.connection connOp ∧
      Network.popped host.connection connOp = [] := by
  have hreceive : ∀ segment? : Option TcpSegment,
      segment?.map ConnOp.receiveSegment = some connOp →
      [] = Network.accepted host.connection connOp ∧
        Network.popped host.connection connOp = [] := by
    intro segment? hmap
    obtain ⟨segment, -, rfl⟩ := Option.map_eq_some_iff.mp hmap
    exact ⟨rfl, rfl⟩
  cases op with
  | connect =>
      obtain rfl := Option.some.inj hop
      exact ⟨rfl, rfl⟩
  | write data =>
      obtain rfl := Option.some.inj hop
      exact ⟨rfl, rfl⟩
  | close =>
      obtain rfl := Option.some.inj hop
      exact ⟨rfl, rfl⟩
  | tick elapsedMs =>
      obtain rfl := Option.some.inj hop
      exact ⟨rfl, rfl⟩
  | receiveDatagram datagram => exact hreceive _ hop
  | receiveIpv4Bytes packet => exact hreceive _ hop

theorem step_eq_ok : w.step (side, op) = .ok w1 ↔
    ∃ host1 output list, (w.station side).host.perform op = .ok (host1, output) ∧
      emitOutput output.datagrams = .ok list ∧
      w1 = w.emit side (after (w.station side) op host1 output)
        (parcels list (numbered (w.station side).host op (after (w.station side) op host1 output)
          output)) := by
  unfold step
  dsimp only
  rw [Exec.bind_eq_ok]
  constructor
  · rintro ⟨⟨host1, output⟩, hrun, h⟩
    obtain ⟨list, hemit, hok⟩ := Exec.bind_eq_ok.mp h
    exact ⟨host1, output, list, hrun, hemit, (Except.ok.inj hok).symm⟩
  · rintro ⟨host1, output, list, hrun, hemit, rfl⟩
    exact ⟨(host1, output), hrun, Exec.bind_eq_ok.mpr ⟨list, hemit, rfl⟩⟩

/-- A host has performed an operation, and the network of segments fits to that. -/
theorem Inv.emit {station : Station} {more : List Parcel} (h : Inv config w)
    (hrun : (w.station side).host.perform op = .ok (station.host, output))
    (hslim : Slim (config side).senderConfig.maxPayloadSize station.host.connection)
    (hworld : Network.WorldInv (w.emit side station more).toWorld) :
    Inv config (w.emit side station more) := by
  refine ⟨hworld, ?_, h.payload, ?_⟩
  · intro other
    rcases side.eq_or_eq_peer other with rfl | rfl
    · rw [emit_station_self]
      exact (h.configured other).perform hrun
    · rw [emit_station_peer]
      exact h.configured side.peer
  · intro other
    rcases side.eq_or_eq_peer other with rfl | rfl
    · rw [emit_station_self]
      exact hslim
    · rw [emit_station_peer]
      exact h.slim side.peer

/-- The numbered segments of an operation of the connection. -/
theorem toWorld_of_dispatched (station : Station)
    (hop : op.connOp (w.station side).host = some connOp)
    (hwrap : (w.station side).host.wrapTcpSegments segments = .ok output)
    (hemit : emitOutput output.datagrams = .ok list) :
    (w.emit side station (parcels list (numbered (w.station side).host op station
        (IpHostOutput.extend { datagrams := [], events := incomingEvents connOp } output)))).toWorld
      = w.toWorld.emit side (endpointOf station)
          (firstSeqno (w.station side).host.connection connOp) segments := by
  rw [toWorld_emit, numbered, hop]
  dsimp only
  rw [outgoing_dispatched hwrap, (parcels_of_wrapped (wrapped hwrap hemit)).1]
  rfl

theorem endpointOf_after {connection : TcpConnection}
    (hop : op.connOp (w.station side).host = some connOp) :
    endpointOf (after (w.station side) op
        { (w.station side).host with connection := connection } output)
      = (w.toWorld.endpoint side).after connOp connection := by
  obtain ⟨haccepted, hpopped⟩ := after_of_connOp hop
  rw [endpointOf, Network.Endpoint.after, Network.Endpoint.mk.injEq]
  refine ⟨rfl, ?_, hpopped.symm⟩
  rw [after, haccepted]
  rfl

/-- What reaches the connection is a step of the network of segments. -/
theorem step_of_connOp (h : Inv config w) (hallowed : Allowed w (side, op))
    (hop : op.connOp (w.station side).host = some connOp) :
    ∃ w1, w.step (side, op) = .ok w1 ∧ Inv config w1 ∧
      w.toWorld.perform side connOp = .ok w1.toWorld := by
  obtain ⟨netOp, hside, hconnOp, hnet, -⟩ := hallowed.netOp hop
  obtain ⟨world1, hstep, hworld1⟩ := h.world.step hnet
  rw [Network.World.step_eq, hconnOp, hside, Option.elim_some] at hstep
  obtain ⟨connection, segments, hconnection, rfl⟩ := Network.World.perform_eq_ok.mp hstep
  -- the host wraps what the connection returns
  have hconnInv : ConnInv (w.station side).host.connection := (h.world side).connInv
  obtain ⟨hslim, hpayload⟩ := (perform_performed hconnection).slim hconnInv (h.slim side)
  obtain ⟨output, list, hwrap, hemit⟩ := @wrap_total (w.station side).host segments
    (fun s hs => (hpayload s hs).trans (h.payload side))
  have hrun : (w.station side).host.perform op = .ok
      ({ (w.station side).host with connection := connection },
        IpHostOutput.extend { datagrams := [], events := incomingEvents connOp } output) := by
    rw [perform_of_connOp hop]
    exact dispatch_eq_ok.mpr ⟨connection, segments, output, hconnection, hwrap, rfl, rfl⟩
  have hworld := toWorld_of_dispatched (after (w.station side) op
    { (w.station side).host with connection := connection }
    (IpHostOutput.extend { datagrams := [], events := incomingEvents connOp } output))
    hop hwrap hemit
  rw [endpointOf_after hop] at hworld
  refine ⟨_, step_eq_ok.mpr ⟨_, _, _, hrun, hemit, rfl⟩, h.emit hrun hslim ?_, ?_⟩
  · rw [hworld]
    exact hworld1
  · rw [hworld]
    exact hstep

/-- What does not reach the connection changes nothing there. -/
theorem step_of_idle (h : Inv config w) (hallowed : Allowed w (side, op))
    (hop : op.connOp (w.station side).host = none) :
    ∃ w1, w.step (side, op) = .ok w1 ∧ Inv config w1 ∧ w1.toWorld = w.toWorld := by
  obtain ⟨output, list, hrun, hemit⟩ := idle_total hallowed.sendable hop
  have haccepted : acceptedBy (w.station side).host op = [] := by
    cases op with
    | write data => exact absurd hop (by simp [HostOp.connOp])
    | _ => rfl
  have hworld : (w.emit side (after (w.station side) op (w.station side).host output)
      (parcels list (numbered (w.station side).host op
        (after (w.station side) op (w.station side).host output) output))).toWorld
      = w.toWorld := by
    rw [toWorld_emit, numbered, hop]
    dsimp only
    rw [filterMap_parcels_nil, List.append_nil, Function.update_eq_self, endpointOf, after,
      haccepted, List.append_nil]
    exact congrArg (fun endpoint => Network.World.mk endpoint w.toWorld.sent)
      (Function.update_eq_self side w.toWorld.endpoint)
  refine ⟨_, step_eq_ok.mpr ⟨_, _, _, hrun, hemit, rfl⟩, h.emit hrun (h.slim side) ?_, hworld⟩
  rw [hworld]
  exact h.world

/-- A step of the two hosts returns, and is a run of the network of segments: of one step if it
reaches the connection, of none otherwise. -/
theorem step_refines {move : Side × HostOp} (h : Inv config w) (hallowed : Allowed w move) :
    ∃ w1 ops, w.step move = .ok w1 ∧ Inv config w1 ∧
      Exec.RunWhile WithoutReads Network.World.step w.toWorld ops w1.toWorld := by
  obtain ⟨side, op⟩ := move
  cases hop : op.connOp (w.station side).host with
  | some connOp =>
      obtain ⟨w1, hstep, hinv, hperform⟩ := step_of_connOp h hallowed hop
      obtain ⟨netOp, hside, hconnOp, hnet⟩ := hallowed.netOp hop
      have hworld : w.toWorld.step netOp = .ok w1.toWorld := by
        rw [Network.World.step_eq, hconnOp, hside]
        exact hperform
      exact ⟨w1, [netOp], hstep, hinv, .cons hnet hworld (.nil _)⟩
  | none =>
      obtain ⟨w1, hstep, hinv, hsame⟩ := step_of_idle h hallowed hop
      rw [← hsame]
      exact ⟨w1, [], hstep, hinv, .nil _⟩

/-! ## Runs -/

/-- The configuration of the connection of a host. -/
def connectionConfig (config : IpHostConfig) : TcpConnectionConfig where
  localPort := config.localPort
  peerPort := config.peerPort
  senderCapacity := config.senderCapacity
  receiverCapacity := config.receiverCapacity
  isn := config.isn
  senderConfig := config.senderConfig

theorem Paired.crossed (h : Paired config) :
    Network.Crossed (fun side => connectionConfig (config side)) := h.ports

theorem start_toWorld (h : start config = .ok w) :
    Network.start (fun side => connectionConfig (config side)) = .ok w.toWorld := by
  obtain ⟨a, ha, h⟩ := Exec.bind_eq_ok.mp h
  obtain ⟨b, hb, h⟩ := Exec.bind_eq_ok.mp h
  obtain rfl := Except.ok.inj h
  obtain ⟨connectionA, hconnectionA, ha⟩ := Exec.bind_eq_ok.mp ha
  obtain ⟨connectionB, hconnectionB, hb⟩ := Exec.bind_eq_ok.mp hb
  obtain rfl := Except.ok.inj ha
  obtain rfl := Except.ok.inj hb
  apply Exec.bind_eq_ok.mpr ⟨connectionA, hconnectionA, ?_⟩
  apply Exec.bind_eq_ok.mpr ⟨connectionB, hconnectionB, ?_⟩
  rw [toWorld, Except.ok.injEq, Network.World.mk.injEq]
  refine ⟨?_, rfl⟩
  funext side
  cases side <;> rfl

theorem slim_new {config : IpHostConfig} (hnew : IpHost.new config = .ok host) :
    Slim config.senderConfig.maxPayloadSize host.connection := by
  obtain ⟨connection, hconnection, hnew⟩ := Exec.bind_eq_ok.mp hnew
  obtain rfl := Except.ok.inj hnew
  obtain ⟨-, -, hsender, -⟩ := TcpConnection.new_eq_ok hconnection
  dsimp only at hsender ⊢
  constructor
  · apply TcpSender.sized_of_nil
    rw [TcpSender.new_eq_ok hsender]
  · rw [TcpSender.new_eq_ok hsender]

theorem inv_start (hpaired : Paired config) (h : start config = .ok w) : Inv config w := by
  refine ⟨Network.worldInv_start hpaired.crossed (start_toWorld h), ?_, hpaired.payload, ?_⟩
  · intro side
    obtain ⟨a, ha, h⟩ := Exec.bind_eq_ok.mp h
    obtain ⟨b, hb, h⟩ := Exec.bind_eq_ok.mp h
    obtain rfl := Except.ok.inj h
    cases side with
    | a => exact configured_new ha
    | b => exact configured_new hb
  · intro side
    obtain ⟨a, ha, h⟩ := Exec.bind_eq_ok.mp h
    obtain ⟨b, hb, h⟩ := Exec.bind_eq_ok.mp h
    obtain rfl := Except.ok.inj h
    cases side with
    | a => exact slim_new ha
    | b => exact slim_new hb

/-- A run of the two hosts is a run of the network of segments. -/
theorem run_refines {moves : List (Side × HostOp)} (h : Inv config w)
    (hrun : Exec.RunWhile Allowed step w moves w1) :
    ∃ ops, Exec.RunWhile WithoutReads Network.World.step w.toWorld ops w1.toWorld ∧
      Inv config w1 := by
  have hsimulated : ∃ ops world,
      Exec.RunWhile WithoutReads Network.World.step w.toWorld ops world ∧
        Inv config w1 ∧ world = w1.toWorld := by
    apply hrun.simulate (fun w world => Inv config w ∧ world = w.toWorld) ?_ ⟨h, rfl⟩
    rintro w move w1 world ⟨hinv, rfl⟩ hallowed hstep
    obtain ⟨w2, ops, hstep2, hinv2, hrun⟩ := step_refines hinv hallowed
    rw [hstep, Except.ok.injEq] at hstep2
    subst hstep2
    exact ⟨ops, w1.toWorld, hrun, hinv2, rfl⟩
  obtain ⟨ops, world, hworld, hinv, rfl⟩ := hsimulated
  exact ⟨ops, hworld, hinv⟩

/-- Whatever state two hosts can be in, their connections can be in over the network of
segments. -/
theorem connections_reachable (hpaired : Paired config) (h : Reachable config w) :
    Network.Reachable w.toWorld := by
  obtain ⟨w0, moves, hstart, hrun⟩ := h
  obtain ⟨ops, hworld, -⟩ := run_refines (inv_start hpaired hstart) hrun
  exact ⟨_, w0.toWorld, ops, hpaired.crossed, start_toWorld hstart,
    hworld.mono (fun _ _ hop => hop.1)⟩

end Internet

end Minnow
