import Minnow.Lan.Exchange
import Minnow.Lan.Safety
import Minnow.Network.Room

set_option autoImplicit false

/-! # The transfer comes to its end on the wire

From every state that two stations reach, whatever was done to their caches, a round trip of one
side can be made of frames that the stations themselves write: its timer expires so late that its
interface has forgotten every address; what is sent again waits; the address is asked for and
told; the datagram goes out, and its answer back (`Inv.trip`). Round trips complete a transfer as
far as the reader has room. The hosts never read, so both transfers can be completed exactly if
each stream fits in the receiver at the other end (`completes_iff`).
-/

namespace Minnow

open IpHost TapHost NetworkInterface TcpConnection

namespace Lan

variable {mac : Side → EthernetAddress} {config : Side → IpHostConfig} {lan lan1 : Lan}
  {side : Side} {datagram : Ipv4Datagram} {parcel : Parcel} {packet : Network.Packet}
  {elapsedMs : Nat}

/-! ## A round trip -/

/-- A run of frames that the stations write. -/
abbrev Travels (lan : Lan) (list : List (Side × TapOp)) (lan1 : Lan) : Prop :=
  Exec.RunWhile Honest step lan list lan1

/-- What `side` sends again when its timer expires waits for the address of the peer, which was
asked for. -/
structure Waiting (mac : Side → EthernetAddress) (config : Side → IpHostConfig) (side : Side)
    (datagram : Ipv4Datagram) (packet : Network.Packet) (lan : Lan) : Prop where
  inv : Inv mac config lan
  ships : ∃ parcel ∈ lan.internet.sent side,
    Internet.Ships (config side).senderConfig.maxPayloadSize (config side).peerIp datagram packet
      parcel
  queue : datagram ∈ (lan.tap side).interface.queue (config side).peerIp
  asked : ∃ request : EthernetFrame, request.serialize ∈ (lan.tap side).written ∧
    CarriesArp (mac side) EthernetAddress.BROADCAST
      (.request (mac side) (config side).localIp (config side).peerIp) request

/-- What `side` sends again is on the wire, and the peer can answer. -/
structure OnWire (mac : Side → EthernetAddress) (config : Side → IpHostConfig) (side : Side)
    (datagram : Ipv4Datagram) (lan : Lan) : Prop where
  inv : Inv mac config lan
  written : ∃ frame : EthernetFrame, frame.serialize ∈ (lan.tap side).written ∧
    Carries (mac side) (mac side.peer) datagram frame
  known : (lan.tap side.peer).interface.lookupEthernetAddress (config side).localIp
    = some (mac side)

/-- The timer expires after the interface has forgotten everything. -/
theorem Inv.ask (h : Inv mac config lan) (hlate : ARP_CACHE_TTL_MS ≤ elapsedMs) {w : Network.World}
    (hstep : lan.internet.toWorld.step (.tick side elapsedMs) = .ok w)
    (hsent : w.sent side = lan.internet.toWorld.sent side ++ [packet]) :
    ∃ list lan1 datagram, Travels lan list lan1 ∧ lan1.internet.toWorld = w ∧
      Waiting mac config side datagram packet lan1 := by
  have hhonest : lan.Honest (side, .tick elapsedMs) := by
    refine ⟨⟨?_, trivial⟩, fun _ heq => nomatch heq⟩
    intro op hop
    obtain rfl := Option.some.inj hop
    exact h.short side
  obtain ⟨lan1, host, output, hlan1, hinv1, hstepped⟩ := h.step_total hhonest.1
  obtain ⟨hperform, packets, hpackets, hships⟩ := hstepped.connection h rfl rfl
  -- the only segment is the one that is sent again
  rw [Network.World.step_eq] at hstep
  have hworld : lan1.internet.toWorld = w := by
    have hsame := hperform.symm.trans hstep
    exact Except.ok.inj hsame
  rw [hworld, hsent, List.append_cancel_left_eq] at hpackets
  subst hpackets
  obtain ⟨datagram, rest, hship, hrest, houtput⟩ := List.forall₂_cons_right_iff.mp hships
  obtain rfl := List.forall₂_nil_right_iff.mp hrest
  obtain ⟨hqueue, request, hrequest, hcarries⟩ := hstepped.tap.asks hlate houtput
  obtain ⟨lan2, hlan2, hinv2, hinternet2, -, hinterface2, hwritten2⟩ := hinv1.flush side
  obtain ⟨parcel, hparcel, hships⟩ := hship
  rw [hships.dst] at hqueue hcarries
  rw [h.ethernetAddress, h.ipAddress] at hcarries
  refine ⟨_, lan2, datagram, .cons hhonest hlan1 (.cons (honest_flush lan1 side) hlan2 (.nil lan2)),
    ?_, hinv2, ?_, ?_, request, hwritten2 request hrequest, hcarries⟩
  · rw [hinternet2]
    exact hworld
  · rw [hinternet2]
    exact ⟨parcel, hparcel, hships⟩
  · rw [hinterface2]
    show datagram ∈ (lan1.tap side).interface.queue (config side).peerIp
    rw [hqueue]
    exact List.mem_cons_self

/-- The question reaches the peer, and its answer lets out what waits. -/
theorem Waiting.resolve (hpaired : Internet.Paired config)
    (h : Waiting mac config side datagram packet lan) :
    ∃ list lan1, Travels lan list lan1 ∧ lan1.internet = lan.internet ∧
      OnWire mac config side datagram lan1 := by
  have hpeerIp : (config side).peerIp = (config side.peer).localIp := by
    have hips := hpaired.ips side.peer
    rw [side.peer_peer] at hips
    exact hips.symm
  obtain ⟨request, hrequest, hcarriesRequest⟩ := h.asked
  -- the question
  have hatPeer : request.serialize ∈ (lan.tap side.peer.peer).written := by
    rw [side.peer_peer]
    exact hrequest
  have hhonest1 := honest_arp hatPeer hcarriesRequest
  obtain ⟨lan1, hstep1, hinv1, hinternet1, hside1, hknown1, -, hreply1⟩ :=
    (h.inv.heard hcarriesRequest (Or.inr rfl) : ∃ lan1, lan.step (side.peer, _) = .ok lan1 ∧ _)
  obtain ⟨reply, hreply, hcarriesReply⟩ := hreply1 ⟨rfl, hpeerIp⟩
  obtain ⟨lan2, hstep2, hinv2, hinternet2, hside2, hinterface2, hwritten2⟩ :=
    hinv1.flush side.peer
  rw [side.peer_peer] at hside1 hside2
  -- the answer
  have hhonest3 := honest_arp (hwritten2 reply hreply) hcarriesReply
  obtain ⟨lan3, hstep3, hinv3, hinternet3, hpeer3, -, hqueue3, -⟩ :=
    hinv2.heard hcarriesReply (Or.inl rfl)
  have hwaiting : datagram ∈ (lan2.tap side).interface.queue (config side.peer).localIp := by
    rw [hside2, hside1, ← hpeerIp]
    exact h.queue
  obtain ⟨sent, hsent, hcarries⟩ := hqueue3 datagram hwaiting
  obtain ⟨lan4, hstep4, hinv4, hinternet4, hpeer4, -, hwritten4⟩ := hinv3.flush side
  refine ⟨_, lan4, .cons hhonest1 hstep1 (.cons (honest_flush lan1 side.peer) hstep2
    (.cons hhonest3 hstep3 (.cons (honest_flush lan3 side) hstep4 (.nil lan4)))), ?_, hinv4,
    ⟨sent, hwritten4 sent hsent, hcarries⟩, ?_⟩
  · rw [hinternet4, hinternet3, hinternet2, hinternet1]
  · rw [hpeer4, hpeer3, hinterface2]
    exact hknown1

/-- What is on the wire arrives, and is answered. -/
theorem OnWire.deliver (hpaired : Internet.Paired config)
    (hsmall : ∀ side, (config side).senderConfig.maxPayloadSize ≤ 65481)
    (h : OnWire mac config side datagram lan) {answer : Network.Packet}
    {packets : List Network.Packet} {w : Network.World}
    (hparcel : parcel ∈ lan.internet.sent side)
    (hships : Internet.Ships (config side).senderConfig.maxPayloadSize (config side).peerIp datagram
      packet parcel)
    (hreach : (lan.internet.toWorld.endpoint side.peer).InReach packet)
    (hperform : lan.internet.toWorld.perform side.peer (.receiveSegment packet.segment) = .ok w)
    (hsent : w.sent side.peer = lan.internet.toWorld.sent side.peer ++ answer :: packets)
    (hreachAnswer : (w.endpoint side).InReach answer) :
    ∃ list lan1, Travels lan list lan1 ∧ Inv mac config lan1 ∧
      w.perform side (.receiveSegment answer.segment) = .ok lan1.internet.toWorld := by
  obtain ⟨frame, hwritten, hcarries⟩ := h.written
  -- the peer gets the segment, and answers
  have hatPeer : frame.serialize ∈ (lan.tap side.peer.peer).written := by
    rw [side.peer_peer]
    exact hwritten
  have hparcelPeer : parcel ∈ lan.internet.sent side.peer.peer := by
    rw [side.peer_peer]
    exact hparcel
  have hdelivers := h.inv.delivers hpaired (hsmall side) hparcelPeer hships hreach
  have hhonest1 := h.inv.honest_segment hatPeer hcarries hparcelPeer hships hdelivers
  have hknown : (lan.tap side.peer).interface.lookupEthernetAddress (config side.peer).peerIp
      = some (mac side) := by
    rw [← hpaired.ips side]
    exact h.known
  obtain ⟨lan1, lan2, reply, parcel1, out, hstep1, hstep2, hinv2, hworld2, -, hwritten2, hcarries2,
    hparcel2, hships2⟩ := h.inv.answered hcarries hdelivers hknown hperform hsent
  -- the answer arrives
  have hreach2 : (Internet.endpointOf (lan2.internet.station side)).InReach answer := by
    show (lan2.internet.toWorld.endpoint side).InReach answer
    rw [hworld2]
    exact hreachAnswer
  have hdelivers2 := hinv2.delivers hpaired (hsmall side.peer) hparcel2 hships2 hreach2
  have hhonest3 := hinv2.honest_segment hwritten2 hcarries2 hparcel2 hships2 hdelivers2
  obtain ⟨lan3, host3, output3, hstep3, hinv3, -, hperform3, -⟩ :=
    hinv2.carried hcarries2 hdelivers2
  refine ⟨_, lan3, .cons hhonest1 hstep1 (.cons (honest_flush lan1 side.peer) hstep2
    (.cons hhonest3 hstep3 (.nil lan3))), hinv3, ?_⟩
  rw [← hworld2]
  exact hperform3

/-- A round trip that has begun with what `side` sends again: the peer gets the packet and answers,
and with the answer more is acknowledged than `una`. -/
structure Begun (mac : Side → EthernetAddress) (config : Side → IpHostConfig) (side : Side)
    (una : Nat) (datagram : Ipv4Datagram) (packet answer : Network.Packet)
    (packets : List Network.Packet) (w : Network.World) (lan : Lan) : Prop where
  waiting : Waiting mac config side datagram packet lan
  reach : (lan.internet.toWorld.endpoint side.peer).InReach packet
  perform : lan.internet.toWorld.perform side.peer (.receiveSegment packet.segment) = .ok w
  sent : w.sent side.peer = lan.internet.toWorld.sent side.peer ++ answer :: packets
  reachAnswer : (w.endpoint side).InReach answer
  acked : ∀ w1, w.perform side (.receiveSegment answer.segment) = .ok w1 →
    una < (w1.endpoint side).connection.sender.sndUna

/-- If something is outstanding that the peer admits, then a round trip can begin. -/
theorem Inv.begin (h : Inv mac config lan)
    (hout : (lan.internet.toWorld.endpoint side).connection.sender.outstanding ≠ [])
    (hadmits : lan.internet.toWorld.Admits side) :
    ∃ list lan1 datagram packet answer packets w, Travels lan list lan1 ∧
      Begun mac config side (lan.internet.toWorld.endpoint side).connection.sender.sndUna datagram
        packet answer packets w lan1 := by
  have hworld := h.whole.inv.world
  obtain ⟨timeout, htimeout, hexpires⟩ :=
    Network.expires_of_outstanding (hworld side).out.inv hout
  obtain ⟨w1, w2, packet, answer, hstep1, hsent1, hsentPeer1, hreach1, hstep2, hinv2, hanswer,
    hreach2, k, hk, hmore⟩ :=
    hworld.exchange (hexpires (max timeout ARP_CACHE_TTL_MS) (le_max_left _ _)) hadmits
  obtain ⟨list, lan1, datagram, htravels, rfl, hwaiting⟩ :=
    h.ask (le_max_right timeout ARP_CACHE_TTL_MS) hstep1 hsent1
  have hpacket : (lan1.internet.toWorld.sent side.peer.peer)[
      (lan.internet.toWorld.sent side).length]? = some packet := by
    rw [side.peer_peer, hsent1, List.getElem?_append_right (le_refl _), Nat.sub_self]
    rfl
  rw [Network.step_of_sent hpacket] at hstep2
  obtain ⟨packets, hsent2⟩ := Network.sent_of_getElem hstep2 (by rw [hsentPeer1]; exact hanswer)
  refine ⟨list, lan1, datagram, packet, answer, packets, w2, htravels,
    hwaiting, hreach1, hstep2, hsent2, hreach2, ?_⟩
  intro w3 hperform
  obtain ⟨w4, haccept, hacked⟩ := hinv2.accept hanswer hreach2
  have hsame := haccept.symm.trans ((Network.step_of_sent hanswer).trans hperform)
  obtain rfl := Except.ok.inj hsame
  exact lt_of_lt_of_le hmore (hacked k hk)

/-- If something is outstanding that the peer admits, then the frames of one round trip acknowledge
at least one symbol. -/
theorem Inv.trip (hpaired : Internet.Paired config)
    (hsmall : ∀ side, (config side).senderConfig.maxPayloadSize ≤ 65481)
    (h : Inv mac config lan)
    (hout : (lan.internet.toWorld.endpoint side).connection.sender.outstanding ≠ [])
    (hadmits : lan.internet.toWorld.Admits side) :
    ∃ list lan1, Travels lan list lan1 ∧ Inv mac config lan1 ∧
      (lan.internet.toWorld.endpoint side).connection.sender.sndUna
        < (lan1.internet.toWorld.endpoint side).connection.sender.sndUna := by
  obtain ⟨list1, lan1, datagram, packet, answer, packets, w, htravels1, hbegun⟩ :=
    h.begin hout hadmits
  obtain ⟨parcel, hparcel, hships⟩ := hbegun.waiting.ships
  obtain ⟨list2, lan2, htravels2, hinternet2, honWire⟩ := hbegun.waiting.resolve hpaired
  have hreach := hbegun.reach
  have hperform := hbegun.perform
  have hsent := hbegun.sent
  rw [← hinternet2] at hreach hperform hsent hparcel
  obtain ⟨list3, lan3, htravels3, hinv3, hperform3⟩ :=
    honWire.deliver hpaired hsmall hparcel hships hreach hperform hsent hbegun.reachAnswer
  exact ⟨_, lan3, htravels1.append (htravels2.append htravels3), hinv3,
    hbegun.acked _ hperform3⟩

/-! ## Runs -/

/-- Stations in a state that they can be in. -/
structure Reached (mac : Side → EthernetAddress) (config : Side → IpHostConfig) (lan : Lan) :
    Prop where
  inv : Inv mac config lan
  hosts : Internet.Reachable config lan.internet

theorem Reached.hosts_run (h : Reached mac config lan) (hinv : Inv mac config lan1)
    {hostMoves : List (Side × HostOp)}
    (hhosts : Exec.RunWhile Internet.Allowed Internet.step lan.internet hostMoves lan1.internet) :
    Reached mac config lan1 ∧ ∃ ops, Exec.RunWhile Network.World.Allowed Network.World.step
      lan.internet.toWorld ops lan1.internet.toWorld := by
  obtain ⟨w0, moves, hstart, hmoves⟩ := h.hosts
  obtain ⟨ops, hworld, -⟩ := Internet.run_refines h.inv.whole.inv hhosts
  exact ⟨⟨hinv, w0, moves ++ hostMoves, hstart, hmoves.append hhosts⟩, ops,
    hworld.mono (fun _ _ hop => hop.1)⟩

theorem Reached.run {list : List (Side × TapOp)}
    (h : Reached mac config lan) (hrun : Exec.RunWhile Allowed step lan list lan1) :
    Reached mac config lan1 ∧ ∃ ops, Exec.RunWhile Network.World.Allowed Network.World.step
      lan.internet.toWorld ops lan1.internet.toWorld := by
  obtain ⟨hinv, hostMoves, hhosts⟩ := h.inv.run hrun
  exact h.hosts_run hinv hhosts

theorem Travels.allowed {list : List (Side × TapOp)} (h : Travels lan list lan1) :
    Exec.RunWhile Allowed step lan list lan1 := h.mono (fun _ _ hhonest => hhonest.1)

theorem reached_of_start {capture : Bool} {lan0 : Lan} {list : List (Side × TapOp)}
    (hpaired : Internet.Paired config) (hstart : start mac config capture = .ok lan0)
    (hrun : Exec.RunWhile Allowed step lan0 list lan) : Reached mac config lan := by
  obtain ⟨hhosts, hinv⟩ := inv_start hpaired hstart
  have hreached : Reached mac config lan0 := ⟨hinv, lan0.internet, [], hhosts, .nil _⟩
  exact (hreached.run hrun).1

/-- The receivers have the capacities they were configured with. -/
theorem Reached.capacity (hpaired : Internet.Paired config) (h : Reached mac config lan)
    (side : Side) : (lan.internet.toWorld.endpoint side).connection.receiver.output.capacity
      = (config side).receiverCapacity := by
  obtain ⟨w0, moves, hstart, hmoves⟩ := h.hosts
  have hinv := Internet.inv_start hpaired hstart
  obtain ⟨ops, hworld, -⟩ := Internet.run_refines hinv hmoves
  rw [Network.capacity_run hinv.world (hworld.mono (fun _ _ hop => hop.1))]
  exact Network.capacity_start (Internet.start_toWorld hstart) side

/-- Both hosts have closed their streams. -/
structure Ending (mac : Side → EthernetAddress) (config : Side → IpHostConfig)
    (data : Side → Bytes) (lan : Lan) : Prop where
  reached : Reached mac config lan
  closing : ∀ side, Network.Closing (data side) 0 (lan.internet.toWorld.endpoint side)

variable {data : Side → Bytes}

/-- Closing a stream is a step of the station. -/
theorem Inv.shut (h : Inv mac config lan) (side : Side) :
    ∃ lan1, Travels lan [(side, .app .close)] lan1 ∧
      lan.internet.toWorld.step (.close side) = .ok lan1.internet.toWorld := by
  have hhonest : lan.Honest (side, .app .close) := by
    refine ⟨⟨?_, trivial⟩, fun _ heq => nomatch heq⟩
    intro op hop
    obtain rfl := Option.some.inj hop
    exact h.short side
  obtain ⟨lan1, host, output, hstep, -, hstepped⟩ := h.step_total hhonest.1
  obtain ⟨hperform, -⟩ := hstepped.connection h rfl rfl
  refine ⟨lan1, .cons hhonest hstep (.nil lan1), ?_⟩
  rw [Network.World.step_eq]
  exact hperform

/-- Both streams can be closed. -/
theorem Reached.end (h : Reached mac config lan) :
    ∃ list lan1, Travels lan list lan1 ∧
      Ending mac config (fun side => (lan.internet.station side).written) lan1 := by
  obtain ⟨lan1, htravels1, hclose1⟩ := h.inv.shut .a
  obtain ⟨h1, -⟩ := h.run htravels1.allowed
  obtain ⟨lan2, htravels2, hclose2⟩ := h1.inv.shut .b
  obtain ⟨h2, -⟩ := h1.run htravels2.allowed
  refine ⟨_, lan2, htravels1.append htravels2, h2, ?_⟩
  obtain ⟨w1, hstep1, ha, hb⟩ := h.inv.whole.inv.world.closes .a
  rw [hclose1, Except.ok.injEq] at hstep1
  subst hstep1
  obtain ⟨w2, hstep2, hb2, -⟩ := h1.inv.whole.inv.world.closes .b
  rw [hclose2, Except.ok.injEq] at hstep2
  subst hstep2
  intro side
  cases side with
  | a => exact ha.step h1.inv.whole.inv.world hclose2
  | b =>
      rw [show lan1.internet.toWorld.endpoint .b = lan.internet.toWorld.endpoint .b from hb] at hb2
      exact hb2

theorem Ending.hosts_run (h : Ending mac config data lan) (hinv : Inv mac config lan1)
    {hostMoves : List (Side × HostOp)}
    (hhosts : Exec.RunWhile Internet.Allowed Internet.step lan.internet hostMoves lan1.internet) :
    Ending mac config data lan1 := by
  obtain ⟨h1, ops, hworld⟩ := h.reached.hosts_run hinv hhosts
  exact ⟨h1, fun side => (h.closing side).run h.reached.inv.whole.inv.world hworld⟩

theorem Ending.run {list : List (Side × TapOp)} (h : Ending mac config data lan)
    (htravels : Travels lan list lan1) : Ending mac config data lan1 := by
  obtain ⟨hinv, hostMoves, hhosts⟩ := h.reached.inv.run htravels.allowed
  exact h.hosts_run hinv hhosts

/-- As long as not all of a stream is acknowledged, something is outstanding that the peer has room
for. -/
theorem Ending.outstanding (hpaired : Internet.Paired config)
    (hfits : (data side).length ≤ (config side.peer).receiverCapacity)
    (h : Ending mac config data lan)
    (hlt : (lan.internet.toWorld.endpoint side).connection.sender.sndUna
      < (data side).length + 2) :
    (lan.internet.toWorld.endpoint side).connection.sender.outstanding ≠ [] ∧
      lan.internet.toWorld.Admits side := by
  have hreachable := Internet.connections_reachable hpaired h.reached.hosts
  have hrunning := Network.worldRunning_of_reachable hreachable
  have hclosing := h.closing side
  have hsender := (hrunning.inv side).out.inv
  rw [hclosing.written] at hsender
  refine ⟨hclosing.outstanding (hrunning.filled side hclosing.closed) hsender hlt, ?_⟩
  apply (hrunning.inv side).room_of_fits (Network.listening_of_reachable hreachable side.peer)
  · rfl
  · rw [hclosing.written, h.reached.capacity hpaired side.peer]
    exact hfits

/-- A round trip acknowledges more of the stream then. -/
theorem Ending.advance (hpaired : Internet.Paired config)
    (hsmall : ∀ side, (config side).senderConfig.maxPayloadSize ≤ 65481)
    (hfits : (data side).length ≤ (config side.peer).receiverCapacity)
    (h : Ending mac config data lan)
    (hlt : (lan.internet.toWorld.endpoint side).connection.sender.sndUna
      < (data side).length + 2) :
    ∃ list lan1, Travels lan list lan1 ∧ Ending mac config data lan1 ∧
      (lan.internet.toWorld.endpoint side).connection.sender.sndUna
        < (lan1.internet.toWorld.endpoint side).connection.sender.sndUna := by
  obtain ⟨hout, hadmits⟩ := h.outstanding hpaired hfits hlt
  obtain ⟨list, lan1, htravels, -, hmore⟩ := h.reached.inv.trip hpaired hsmall hout hadmits
  exact ⟨list, lan1, htravels, h.run htravels, hmore⟩

/-- Round trips complete the transfer of a stream that fits. -/
theorem Ending.finish (hpaired : Internet.Paired config)
    (hsmall : ∀ side, (config side).senderConfig.maxPayloadSize ≤ 65481)
    (hfits : (data side).length ≤ (config side.peer).receiverCapacity)
    (h : Ending mac config data lan) :
    ∃ list lan1, Travels lan list lan1 ∧ Ending mac config data lan1 ∧
      Network.Closing (data side) ((data side).length + 2)
        (lan1.internet.toWorld.endpoint side) := by
  obtain ⟨list, lan1, htravels, hend, huna⟩ := Exec.exists_run_of_climb (Ending mac config data)
    (fun lan => (lan.internet.toWorld.endpoint side).connection.sender.sndUna)
    ((data side).length + 2) (fun _ hlan hlt => hlan.advance hpaired hsmall hfits hlt) h
  exact ⟨list, lan1, htravels, hend, { hend.closing side with una := huna }⟩

/-! ## The end of both streams -/

/-- The two hosts have both transferred their streams `data`. -/
def Complete (data : Side → Bytes) (lan : Lan) : Prop :=
  ∀ side : Side, (lan.tap side).host.connection.isFinished = true ∧
    (lan.tap side.peer).host.connection.receiver.output.closed = true ∧
    (lan.tap side.peer).host.connection.receiver.output.contents = data side

theorem Reached.complete (h : Reached mac config lan) (hclosing : ∀ side,
    Network.Closing (data side) ((data side).length + 2) (lan.internet.toWorld.endpoint side)) :
    Complete data lan := by
  intro side
  have hfinished := (hclosing side).finished (h.inv.whole.inv.world side)
  rw [(h.inv.tracks side).host, (h.inv.tracks side.peer).host]
  exact hfinished

/-- What was never read fits in the receiver. -/
theorem Reached.fits_of_complete (hpaired : Internet.Paired config) (h : Reached mac config lan)
    (hcomplete : Complete data lan) (side : Side) :
    (data side).length ≤ (config side.peer).receiverCapacity := by
  have hcontents : (lan.tap side.peer).host.connection.receiver.output.contents = data side :=
    (hcomplete side).2.2
  rw [← hcontents, (h.inv.tracks side.peer).host, ← h.capacity hpaired side.peer]
  exact Network.Endpoint.length_assembled_le
    (show (lan.internet.toWorld.endpoint side.peer).read = [] from rfl)

/-- From every state that two stations reach, frames that they write complete both transfers
exactly if each stream fits in the receiver of the peer. -/
theorem completes_iff {capture : Bool} {lan0 : Lan} {list : List (Side × TapOp)}
    (hpaired : Internet.Paired config)
    (hsmall : ∀ side, (config side).senderConfig.maxPayloadSize ≤ 65481)
    (hstart : start mac config capture = .ok lan0)
    (hrun : Exec.RunWhile Allowed step lan0 list lan) :
    (∀ side, (lan.internet.station side).written.length ≤ (config side.peer).receiverCapacity) ↔
      ∃ more lan1, Exec.RunWhile Honest step lan more lan1 ∧
        Complete (fun side => (lan.internet.station side).written) lan1 := by
  have hreached := reached_of_start hpaired hstart hrun
  constructor
  · intro hfits
    obtain ⟨list1, lan1, htravels1, hend1⟩ := hreached.end
    obtain ⟨list2, lan2, htravels2, hend2, ha2⟩ := hend1.finish hpaired hsmall (hfits .a)
    obtain ⟨list3, lan3, htravels3, hend3, hb3⟩ := hend2.finish hpaired hsmall (hfits .b)
    obtain ⟨-, ops, hworld3⟩ := hend2.reached.run htravels3.allowed
    have ha3 := ha2.run hend2.reached.inv.whole.inv.world hworld3
    refine ⟨_, lan3, htravels1.append (htravels2.append htravels3), ?_⟩
    apply hend3.reached.complete
    intro side
    cases side with
    | a => exact ha3
    | b => exact hb3
  · rintro ⟨more, lan1, hmore, hcomplete⟩
    obtain ⟨hreached1, -⟩ := hreached.run (Travels.allowed hmore)
    exact hreached1.fits_of_complete hpaired hcomplete

/-- The FIN of `a` went astray, and `b` has not closed. -/
theorem completes_iff_demo : ∃ lan0 lan : Lan, start demoMac Internet.demoConfig true = .ok lan0 ∧
    (lan.internet.station .a).written = [1, 2, 3] ∧ (lan.internet.station .b).written = [] ∧
    ∃ more lan1, Exec.RunWhile Honest step lan more lan1 ∧
      Complete (fun side => (lan.internet.station side).written) lan1 := by
  obtain ⟨lan0, lan, hstart, hrun, -, ha, hb⟩ := demo_run
  have hfits : ∀ side, (lan.internet.station side).written.length
      ≤ (Internet.demoConfig side.peer).receiverCapacity := by
    intro side
    cases side with
    | a =>
        rw [ha]
        decide
    | b =>
        rw [hb]
        decide
  have hsmall : ∀ side, (Internet.demoConfig side).senderConfig.maxPayloadSize ≤ 65481 := by
    intro side
    cases side <;> decide
  exact ⟨lan0, lan, hstart, ha, hb,
    (completes_iff Internet.demo_paired hsmall hstart hrun).mp hfits⟩

end Lan

end Minnow
