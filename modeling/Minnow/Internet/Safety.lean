import Minnow.Internet.Refinement

set_option autoImplicit false

/-! # What holds between two hosts

Here the assumption on the network is about bytes: what arrives is what the other host has sent,
however often and in whatever order, or brings no segment to the connection. Serializing and
parsing keep that assumption (`Verbatim.allowed`), so what is known of two connections is known of
two hosts (`host_streams`).
-/

namespace Minnow

open IpHost TcpConnection

namespace Internet

/-- The bytes that arrive are bytes the other host has sent, not too long ago, or they do not
reach the connection. -/
def Arrives (w : Internet) (side : Side) : HostOp → Prop
  | .receiveIpv4Bytes bytes =>
      (HostOp.receiveIpv4Bytes bytes).segment (w.station side).host = none ∨
        ∃ parcel ∈ w.sent side.peer, parcel.bytes = bytes ∧
          ∀ packet ∈ parcel.packet, (endpointOf (w.station side)).InReach packet
  | .receiveDatagram _ => False
  | _ => True

instance (w : Internet) (side : Side) : (op : HostOp) → Decidable (w.Arrives side op)
  | .receiveIpv4Bytes _ => inferInstanceAs (Decidable (_ ∨ ∃ parcel ∈ w.sent side.peer, _))
  | .receiveDatagram _ => inferInstanceAs (Decidable False)
  | .connect | .write _ | .close | .tick _ => inferInstanceAs (Decidable True)

/-- The assumptions on the bytes. -/
def Verbatim (w : Internet) (move : Side × HostOp) : Prop :=
  ((w.station move.1).written ++ acceptedBy (w.station move.1).host move.2).length < 2 ^ 63 ∧
    w.Arrives move.1 move.2

instance (w : Internet) (move : Side × HostOp) : Decidable (w.Verbatim move) :=
  inferInstanceAs (Decidable (_ ∧ _))

variable {w w1 : Internet} {side : Side} {host : IpHost} {op : HostOp} {segment : TcpSegment}
  {bytes : Bytes} {parcel : Parcel} {config : Side → IpHostConfig}

/-! ## What was sent is what arrives -/

/-- The parcel is a wrapped segment, or a datagram of another protocol. -/
def Packed (config : IpHostConfig) (parcel : Parcel) : Prop :=
  (∃ packet ∈ parcel.packet, Wraps config packet.segment parcel.bytes) ∨
    parcel.packet = none ∧ ∃ datagram : Ipv4Datagram, datagram.serialize = .ok parcel.bytes ∧
      datagram.header.protocol ≠ IPV4_PROTOCOL_TCP

theorem packed_step (hconfigured : ∀ side, Configured (config side) (w.station side).host)
    (h : ∀ side, ∀ parcel ∈ w.sent side, Packed (config side) parcel) {move : Side × HostOp}
    (hstep : w.step move = .ok w1) :
    ∀ side, ∀ parcel ∈ w1.sent side, Packed (config side) parcel := by
  obtain ⟨side, op⟩ := move
  obtain ⟨host1, output, list, hrun, hemit, rfl⟩ := step_eq_ok.mp hstep
  intro other
  rcases side.eq_or_eq_peer other with rfl | rfl
  swap
  · rw [emit_sent_peer]
    exact h side.peer
  rw [emit_sent_self]
  intro parcel hp
  rcases List.mem_append.mp hp with hp | hp
  · exact h other parcel hp
  cases hop : op.connOp (w.station other).host with
  | some connOp =>
      rw [perform_of_connOp hop] at hrun
      obtain ⟨connection, segments, wrap, -, hwrap, -, rfl⟩ := dispatch_eq_ok.mp hrun
      rw [numbered, hop] at hp
      dsimp only at hp
      rw [outgoing_dispatched hwrap] at hp
      have hlist : emitOutput wrap.datagrams = .ok list := hemit
      obtain ⟨packet, hpacket, hwraps⟩ :=
        (parcels_of_wrapped (wrapped hwrap hlist)).2 parcel hp
      rw [(hconfigured other).config_eq] at hwraps
      exact Or.inl ⟨packet, hpacket, hwraps⟩
  | none =>
      obtain ⟨-, hsilent⟩ := perform_of_idle hop hrun
      rw [numbered, hop] at hp
      obtain ⟨hnone, hbytes⟩ := packet_of_parcels_nil hp
      obtain ⟨datagram, hdatagram, hserialize⟩ := mem_emitOutput hemit hbytes
      exact Or.inr ⟨hnone, datagram, hserialize, hsilent.datagrams datagram hdatagram⟩

/-- Bytes behind a wrapped segment are no part of it. -/
theorem Wraps.parsed {config : IpHostConfig} (h : Wraps config segment bytes) (pad : Bytes) :
    ∃ datagram, Ipv4Datagram.parseBytes (bytes ++ pad) = .ok (.ok datagram) ∧
      datagram.header.src = config.localIp ∧ datagram.header.dst = config.peerIp ∧
      datagram.header.protocol = IPV4_PROTOCOL_TCP ∧
      TcpSegment.parseIpv4Bytes config.localIp config.peerIp datagram.payload
        = .ok (.ok segment) := by
  obtain ⟨tcpBytes, htcp, hbytes⟩ := h
  refine ⟨_, Ipv4Datagram.parseBytes_serialize_append hbytes pad, rfl, rfl, rfl, ?_⟩
  show TcpSegment.parseIpv4Bytes config.localIp config.peerIp tcpBytes = _
  have hlen : segment.payload.length ≤ 65515 := by
    obtain ⟨u, hassert, -⟩ := Exec.bind_eq_ok.mp htcp
    have hle := Exec.assert_eq_ok.mp hassert
    unfold TCP_HEADER_MIN_LEN at hle
    omega
  obtain ⟨tcpBytes1, htcp1, hparse⟩ := TcpSegment.parse_serialize config.localIp config.peerIp hlen
  rw [htcp, Except.ok.injEq] at htcp1
  rw [htcp1]
  exact hparse

/-- The segment that bytes of the other host bring is the one that was wrapped, or none. -/
theorem segment_of_packed {config : IpHostConfig} {datagram : Ipv4Datagram} {pad : Bytes}
    (hpacked : Packed config parcel)
    (hdatagram : Ipv4Datagram.parseBytes (parcel.bytes ++ pad) = .ok (.ok datagram))
    (hsegment : host.segmentOf datagram = some segment) :
    ∃ packet ∈ parcel.packet, packet.segment = segment := by
  rcases hpacked with ⟨packet, hpacket, hwraps⟩ | ⟨-, other, hserialize, hprotocol⟩
  · obtain ⟨wrapping, hparsed, hsrc, hdst, -, htcp⟩ := hwraps.parsed pad
    rw [hdatagram, Except.ok.injEq, Except.ok.injEq] at hparsed
    subst hparsed
    obtain ⟨-, -, -, hparsed, -⟩ := segmentOf_eq_some.mp hsegment
    rw [hsrc, hdst, htcp, Except.ok.injEq, Except.ok.injEq] at hparsed
    exact ⟨packet, hpacket, hparsed⟩
  · have hparsed := Ipv4Datagram.parseBytes_serialize_append hserialize pad
    rw [hdatagram, Except.ok.injEq, Except.ok.injEq] at hparsed
    subst hparsed
    obtain ⟨-, htcp, -⟩ := segmentOf_eq_some.mp hsegment
    exact absurd htcp hprotocol

/-- A segment is brought by a datagram that is parsed. -/
theorem datagram_of_segment (h : (HostOp.receiveIpv4Bytes bytes).segment host = some segment) :
    ∃ datagram, Ipv4Datagram.parseBytes bytes = .ok (.ok datagram) ∧
      host.segmentOf datagram = some segment := by
  unfold HostOp.segment at h
  dsimp only at h
  split at h
  · rename_i datagram hparsed
    exact ⟨datagram, hparsed, h⟩
  · exact nomatch h

/-- Bytes that were sent bring segments that were sent. -/
theorem Verbatim.allowed {move : Side × HostOp} (h : w.Verbatim move)
    (hpacked : ∀ parcel ∈ w.sent move.1.peer, Packed (config move.1.peer) parcel) :
    w.Allowed move := by
  obtain ⟨side, op⟩ := move
  obtain ⟨hshort, harrives⟩ := h
  have hnone : op.segment (w.station side).host = none → Sendable op → w.Allowed (side, op) := by
    intro hnone hsendable
    refine ⟨hshort, hsendable, ?_⟩
    intro segment hsegment
    rw [hnone] at hsegment
    exact absurd hsegment (by simp)
  cases op with
  | receiveIpv4Bytes bytes =>
      rcases harrives with hforeign | ⟨parcel, hparcel, rfl, hreach⟩
      · exact hnone hforeign trivial
      · refine ⟨hshort, trivial, ?_⟩
        intro segment hsegment
        obtain ⟨datagram, hparsed, hsegment⟩ := datagram_of_segment hsegment
        rw [← List.append_nil parcel.bytes] at hparsed
        obtain ⟨packet, hpacket, hsame⟩ :=
          segment_of_packed (hpacked parcel hparcel) hparsed hsegment
        exact ⟨parcel, hparcel, packet, hpacket, hsame, hreach packet hpacket⟩
  | receiveDatagram datagram => exact harrives.elim
  | connect => exact hnone rfl trivial
  | write data => exact hnone rfl trivial
  | close => exact hnone rfl trivial
  | tick elapsedMs => exact hnone rfl trivial

/-! ## What is sent arrives -/

/-- A segment that a host has sent reaches the connection of the other host. -/
theorem segment_of_wraps (hpaired : Paired config)
    (hconfigured : Configured (config side.peer) host) (hwraps : Wraps (config side) segment bytes)
    (hports : segment.header.srcPort = (config side).localPort ∧
      segment.header.dstPort = (config side).peerPort) :
    (HostOp.receiveIpv4Bytes bytes).segment host = some segment := by
  obtain ⟨datagram, hparsed, hsrc, hdst, hprotocol, htcp⟩ := hwraps.parsed []
  rw [List.append_nil] at hparsed
  have hips := hpaired.ips side.peer
  have hlocal := hpaired.ports side.peer
  rw [side.peer_peer] at hips hlocal
  have hsegment : (HostOp.receiveIpv4Bytes bytes).segment host = host.segmentOf datagram := by
    simp only [HostOp.segment, hparsed]
  rw [hsegment]
  apply segmentOf_eq_some.mpr
  refine ⟨?_, hprotocol, ?_, ?_, ?_⟩
  · rw [hdst, hconfigured.config_eq, hips]
  · rw [hsrc, hconfigured.config_eq, hpaired.ips side]
  · rw [hsrc, hdst]
    exact htcp
  · apply belongsToThisConnection_iff.mpr
    rw [hports.1, hports.2, hconfigured.localPort, hconfigured.peerPort, hlocal,
      hpaired.ports side]
    simp

/-- What holds of two hosts whose packets arrive as they were sent. -/
structure Whole (config : Side → IpHostConfig) (w : Internet) : Prop where
  inv : Inv config w
  packed : ∀ side, ∀ parcel ∈ w.sent side, Packed (config side) parcel

theorem Whole.step_total {move : Side × HostOp} (h : Whole config w) (hverbatim : w.Verbatim move) :
    ∃ w1, w.step move = .ok w1 ∧ Whole config w1 := by
  obtain ⟨w1, ops, hstep, hinv, hrun⟩ :=
    step_refines h.inv (hverbatim.allowed (h.packed move.1.peer))
  exact ⟨w1, hstep, hinv, packed_step h.inv.configured h.packed hstep⟩

theorem Whole.reaches (hpaired : Paired config) (h : Whole config w) {packet : Network.Packet}
    (hpacket : packet ∈ w.toWorld.sent side.peer) :
    ∃ parcel ∈ w.sent side.peer, packet ∈ parcel.packet ∧
      (HostOp.receiveIpv4Bytes parcel.bytes).segment (w.station side).host
        = some packet.segment := by
  obtain ⟨parcel, hparcel, hnumber⟩ := List.mem_filterMap.mp hpacket
  refine ⟨parcel, hparcel, hnumber, ?_⟩
  have hports := (h.inv.world side.peer).mineAddressed packet hpacket
  have hsender := h.inv.configured side.peer
  rcases h.packed side.peer parcel hparcel with ⟨packet1, hpacket1, hwraps⟩ | ⟨hnone, -⟩
  · obtain rfl := Option.mem_unique hpacket1 hnumber
    have hconfigured := h.inv.configured side
    rw [← side.peer_peer] at hconfigured
    have hbrought := segment_of_wraps hpaired hconfigured hwraps
      ⟨hports.1.trans hsender.localPort, hports.2.trans hsender.peerPort⟩
    rwa [side.peer_peer] at hbrought
  · rw [hnone] at hnumber
    exact absurd hnumber (by simp)

/-- What one step of the network of segments does, the hosts can do with bytes. -/
theorem Whole.realizes (hpaired : Paired config) (h : Whole config w) {op : Network.NetOp}
    (hop : WithoutReads w.toWorld op) :
    ∃ moves w1, Exec.RunWhile Verbatim Internet.step w moves w1 ∧
      w.toWorld.step op = .ok w1.toWorld := by
  obtain ⟨hallowed, hread⟩ := hop
  -- a move that is the same operation of the connection leads to the same state
  have hmove : ∀ move : HostOp, w.Verbatim (op.side, move) →
      ∀ connOp, w.toWorld.connOp op = some connOp →
      move.connOp (w.station op.side).host = some connOp →
      ∃ moves w1, Exec.RunWhile Verbatim Internet.step w moves w1 ∧
        w.toWorld.step op = .ok w1.toWorld := by
    intro move hverbatim connOp hconnOp hhost
    obtain ⟨w1, hstep, -, hperform⟩ :=
      step_of_connOp h.inv (hverbatim.allowed (h.packed op.side.peer)) hhost
    refine ⟨[(op.side, move)], w1, .cons hverbatim hstep (.nil w1), ?_⟩
    rw [Network.World.step_eq, hconnOp]
    exact hperform
  have hsilent : ∀ side, ((w.station side).written ++ []).length < 2 ^ 63 := by
    intro side
    rw [List.append_nil]
    exact (h.inv.world side).out.short
  cases op with
  | connect side => exact hmove .connect ⟨hsilent side, trivial⟩ _ rfl rfl
  | close side => exact hmove .close ⟨hsilent side, trivial⟩ _ rfl rfl
  | tick side elapsedMs => exact hmove (.tick elapsedMs) ⟨hsilent side, trivial⟩ _ rfl rfl
  | read side len => exact absurd rfl (hread side len)
  | write side data =>
      refine hmove (.write data) ⟨?_, trivial⟩ _ rfl rfl
      have hle : ((w.station side).host.connection.sender.write data).2 ≤ data.length :=
        ByteStream.push_snd_le _ _
      show ((w.station side).written ++
        data.take ((w.station side).host.connection.sender.write data).2).length < 2 ^ 63
      rw [List.length_append, List.length_take, min_eq_left hle]
      exact hallowed
  | deliver side i =>
      cases hpacket : (w.toWorld.sent side.peer)[i]? with
      | none => exact ⟨[], w, .nil w, (Network.step_of_unsent hpacket).2⟩
      | some packet =>
          obtain ⟨parcel, hparcel, hnumber, hsegment⟩ :=
            h.reaches hpaired (List.mem_of_getElem? hpacket)
          refine hmove (.receiveIpv4Bytes parcel.bytes) ⟨hsilent side, Or.inr ?_⟩
            (.receiveSegment packet.segment) ?_ ?_
          · refine ⟨parcel, hparcel, rfl, ?_⟩
            intro packet1 hpacket1
            obtain rfl := Option.mem_unique hpacket1 hnumber
            exact hallowed packet1 hpacket
          · rw [Network.World.connOp, hpacket]
            rfl
          · exact congrArg (Option.map ConnOp.receiveSegment) hsegment

/-! ## Runs -/

variable {w0 : Internet} {moves : List (Side × HostOp)}

theorem whole_start (hpaired : Paired config) (h : start config = .ok w) : Whole config w := by
  refine ⟨inv_start hpaired h, ?_⟩
  obtain ⟨a, -, h⟩ := Exec.bind_eq_ok.mp h
  obtain ⟨b, -, h⟩ := Exec.bind_eq_ok.mp h
  obtain rfl := Except.ok.inj h
  exact fun side parcel hp => absurd hp List.not_mem_nil

theorem Whole.step_ok {move : Side × HostOp} (h : Whole config w) (hverbatim : w.Verbatim move)
    (hstep : w.step move = .ok w1) : Whole config w1 := by
  obtain ⟨w2, hstep2, hwhole⟩ := h.step_total hverbatim
  rw [hstep, Except.ok.injEq] at hstep2
  rw [hstep2]
  exact hwhole

theorem Whole.run (h : Whole config w) (hrun : Exec.RunWhile Verbatim step w moves w1) :
    Whole config w1 :=
  hrun.invariant _ (fun _ _ _ h hverbatim hstep => h.step_ok hverbatim hstep) h

/-- A run over bytes is a run over which the segments are authentic. -/
theorem Whole.allowed (h : Whole config w) (hrun : Exec.RunWhile Verbatim step w moves w1) :
    Exec.RunWhile Allowed step w moves w1 := by
  induction hrun with
  | nil w => exact .nil w
  | cons hverbatim hstep _ ih =>
      exact .cons (hverbatim.allowed (h.packed _)) hstep (ih (h.step_ok hverbatim hstep))

/-- Two hosts over bytes and two connections over segments reach the same states: no step of the
hosts stops, every run of theirs is one of the connections, and every run of the connections in
which nothing is read is one of the hosts. -/
theorem hosts_bisimulate (hpaired : Paired config) (hstart : start config = .ok w0) :
    (∀ moves w, Exec.RunWhile Verbatim step w0 moves w →
      (∀ move, w.Verbatim move → ∃ w1, w.step move = .ok w1) ∧
        ∃ ops, Exec.RunWhile WithoutReads Network.World.step w0.toWorld ops w.toWorld) ∧
      ∀ ops world, Exec.RunWhile WithoutReads Network.World.step w0.toWorld ops world →
        ∃ moves w, Exec.RunWhile Verbatim step w0 moves w ∧ w.toWorld = world := by
  have hwhole := whole_start hpaired hstart
  constructor
  · intro moves w hrun
    obtain ⟨ops, hworld, -⟩ := run_refines hwhole.inv (hwhole.allowed hrun)
    refine ⟨?_, ops, hworld⟩
    intro move hverbatim
    obtain ⟨w1, hstep, -⟩ := (hwhole.run hrun).step_total hverbatim
    exact ⟨w1, hstep⟩
  · intro ops world hrun
    have hsimulated : ∃ moves w, Exec.RunWhile Verbatim step w0 moves w ∧
        Whole config w ∧ w.toWorld = world := by
      apply hrun.simulate (fun world w => Whole config w ∧ w.toWorld = world) ?_ ⟨hwhole, rfl⟩
      rintro world op world1 w ⟨hwhole, rfl⟩ hop hstep
      obtain ⟨moves, w1, hrun, hworld⟩ := hwhole.realizes hpaired hop
      rw [hstep, Except.ok.injEq] at hworld
      exact ⟨moves, w1, hrun, hwhole.run hrun, hworld.symm⟩
    obtain ⟨moves, w, hrun, -, hworld⟩ := hsimulated
    exact ⟨moves, w, hrun, hworld⟩

/-- What `side` writes is what the other host assembles: a beginning of it, and all of it if the
reader has closed its stream or the writer has finished. Neither stream is in the error state, and
a host that is established is so with this peer. -/
structure Reliable (w : Internet) (side : Side) : Prop where
  delivered : (w.station side.peer).host.connection.receiver.output.contents
    <+: (w.station side).written
  complete : (w.station side.peer).host.connection.receiver.output.closed = true ∨
      (w.station side).host.connection.isFinished = true →
    (w.station side).host.connection.sender.outbound.closed = true ∧
      (w.station side.peer).host.connection.receiver.output.contents = (w.station side).written
  healthy : (w.station side).host.connection.sender.outbound.error = false
  intact : (w.station side).host.connection.receiver.output.error = false
  established : (w.station side).host.connection.isEstablished = true →
    (w.station side.peer).host.connection.receiver.isn
        = some (w.station side).host.connection.sender.isn ∧
      (w.station side).host.connection.receiver.isn
        = some (w.station side.peer).host.connection.sender.isn

theorem Inv.reliable (h : Inv config w) (side : Side) : w.Reliable side := by
  have hpair := h.world side
  have hassembled : (endpointOf (w.station side.peer)).assembled
      = (w.station side.peer).host.connection.receiver.output.contents := List.nil_append _
  refine ⟨?_, ?_, hpair.out.healthy, hpair.inc.intact, hpair.isns_of_established⟩
  · rw [← hassembled]
    exact hpair.out.assembled_eq ▸ List.take_prefix _ _
  · intro hended
    have hclosed : (w.station side.peer).host.connection.receiver.output.closed = true := by
      rcases hended with hclosed | hfinished
      · exact hclosed
      · exact hpair.closed_of_acked (hpair.una_of_finished hfinished)
    rw [← hassembled]
    exact hpair.out.complete hclosed

/-! ## A run

Side `a` opens, `b` gets bytes that are no datagram and the SYN twice, and three bytes arrive before
the acknowledgment that was sent before them. -/

def demoConfig : Side → IpHostConfig
  | .a => .tcpDemo ⟨10, 0, 0, 1⟩ ⟨10, 0, 0, 2⟩ 4000 80 ⟨4294967294⟩
  | .b => .tcpDemo ⟨10, 0, 0, 2⟩ ⟨10, 0, 0, 1⟩ 80 4000 ⟨7⟩

theorem demo_paired : Paired demoConfig := by
  refine ⟨?_, ?_, ?_⟩ <;> intro side <;> cases side <;> decide

/-- The SYN of `a`. -/
def demoSyn : Bytes :=
  [69, 0, 0, 40, 0, 0, 64, 0, 64, 6, 38, 206, 10, 0, 0, 1, 10, 0, 0, 2, 15, 160, 0, 80, 255, 255,
    255, 254, 0, 0, 0, 0, 80, 2, 255, 255, 139, 241, 0, 0]

/-- The SYN of `b`, which acknowledges the one of `a`. -/
def demoSynAck : Bytes :=
  [69, 0, 0, 40, 0, 0, 64, 0, 64, 6, 38, 206, 10, 0, 0, 2, 10, 0, 0, 1, 0, 80, 15, 160, 0, 0, 0, 7,
    255, 255, 255, 255, 80, 18, 255, 255, 139, 217, 0, 0]

def demoAck : Bytes :=
  [69, 0, 0, 40, 0, 0, 64, 0, 64, 6, 38, 206, 10, 0, 0, 1, 10, 0, 0, 2, 15, 160, 0, 80, 255, 255,
    255, 255, 0, 0, 0, 8, 80, 16, 255, 255, 139, 218, 0, 0]

def demoData : Bytes :=
  [69, 0, 0, 43, 0, 0, 64, 0, 64, 6, 38, 203, 10, 0, 0, 1, 10, 0, 0, 2, 15, 160, 0, 80, 255, 255,
    255, 255, 0, 0, 0, 8, 80, 16, 255, 255, 135, 213, 0, 0, 1, 2, 3]

def demoMoves : List (Side × HostOp) :=
  [(.a, .connect), (.b, .receiveIpv4Bytes [69, 0, 0]), (.b, .receiveIpv4Bytes demoSyn),
    (.b, .receiveIpv4Bytes demoSyn), (.a, .receiveIpv4Bytes demoSynAck), (.a, .write [1, 2, 3]),
    (.b, .receiveIpv4Bytes demoData), (.b, .receiveIpv4Bytes demoAck)]

/-- The moves are a run of the two hosts, so they are one of the two connections, and it can go
on with whatever `b` writes. -/
theorem hosts_bisimulate_demo : ∃ w0 w, start demoConfig = .ok w0 ∧
    Exec.RunWhile Verbatim step w0 demoMoves w ∧
    (w.station .b).host.connection.receiver.output.contents = [1, 2, 3] ∧
    (∃ w1, w.step (.b, .write [4, 5]) = .ok w1) ∧
    (∃ ops, Exec.RunWhile WithoutReads Network.World.step w0.toWorld ops w.toWorld) ∧
    ∀ ops world, Exec.RunWhile WithoutReads Network.World.step w0.toWorld ops world →
      ∃ moves w, Exec.RunWhile Verbatim step w0 moves w ∧ w.toWorld = world := by
  obtain ⟨w0, hstart, w, hmoves, hcontents, hverbatim⟩ : ∃ w0, start demoConfig = .ok w0 ∧
      ∃ w, Exec.run (Exec.guarded Verbatim step) w0 demoMoves = .ok w ∧
        (w.station .b).host.connection.receiver.output.contents = [1, 2, 3] ∧
        w.Verbatim (.b, .write [4, 5]) := by
    decide +kernel
  have hrun := Exec.RunWhile.of_guarded hmoves
  obtain ⟨hproject, hrealize⟩ := hosts_bisimulate demo_paired hstart
  obtain ⟨hgoes, hops⟩ := hproject demoMoves w hrun
  exact ⟨w0, w, hstart, hrun, hcontents, hgoes _ hverbatim, hops, hrealize⟩

/-- In every state that two hosts reach over bytes, the two streams are what TCP promises. -/
theorem host_streams (hpaired : Paired config) (hstart : start config = .ok w0)
    (hrun : Exec.RunWhile Verbatim step w0 moves w) (side : Side) : w.Reliable side :=
  ((whole_start hpaired hstart).run hrun).inv.reliable side

theorem host_streams_demo : ∃ w0 w, start demoConfig = .ok w0 ∧
    Exec.RunWhile Verbatim step w0 demoMoves w ∧
    (w.station .b).host.connection.receiver.output.contents = [1, 2, 3] ∧
    (w.station .b).host.connection.receiver.output.contents <+: (w.station .a).written := by
  obtain ⟨w0, hstart, w, hmoves, hcontents⟩ : ∃ w0, start demoConfig = .ok w0 ∧
      ∃ w, Exec.run (Exec.guarded Verbatim step) w0 demoMoves = .ok w ∧
        (w.station .b).host.connection.receiver.output.contents = [1, 2, 3] := by
    decide +kernel
  have hrun := Exec.RunWhile.of_guarded hmoves
  exact ⟨w0, w, hstart, hrun, hcontents,
    (host_streams demo_paired hstart hrun .a).delivered⟩

end Internet

end Minnow
