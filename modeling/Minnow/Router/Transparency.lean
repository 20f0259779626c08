import Minnow.Codec.Ipv4
import Minnow.NetworkInterface.Journal
import Minnow.Router.Forwarding
import Mathlib.Tactic.IntervalCases

set_option autoImplicit false

/-! # What a forwarded packet looks like

The router does not pass on the bytes it received. The parser keeps the fields of an `Ipv4Header`
and the serializer writes a new header of twenty bytes around them, so options and the DSCP/ECN
byte are gone.

* `relayed_serialize`: the packet as it is written after one hop.
* `Relayed.transparent`: without options and DSCP/ECN, only the TTL and the checksum differ.
* `route_relays`: which frame carries it.
-/

namespace Minnow

namespace Router

open Ipv4Datagram
open NetworkInterface (drained)

variable {packet bytes : Bytes} {datagram : Ipv4Datagram}

/-! ## The bytes -/

/-- The bytes are the packet after one hop, under a header without options and DSCP/ECN. -/
structure Relayed (packet bytes : Bytes) : Prop where
  version : bytes.getD 0 0 = 0x45
  dscp : bytes.getD 1 0 = 0
  length : bytes.length = 20 + (totalLenOf packet - headerLenOf packet)
  totalLen : totalLenOf bytes = bytes.length
  ttl : (bytes.getD 8 0).toNat + 1 = (packet.getD 8 0).toNat
  checksum : complementSum (bytes.take 20) = 0
  header : ∀ k, 4 ≤ k → k < 20 → k ≠ 8 → k ≠ 10 → k ≠ 11 → bytes.getD k 0 = packet.getD k 0
  payload : bytes.drop 20 = (truncated packet).drop (headerLenOf packet)

/-- The bytes are those of the packet, but for one taken off the TTL and for the checksum. -/
structure Transparent (packet bytes : Bytes) : Prop where
  length : bytes.length = totalLenOf packet
  ttl : (bytes.getD 8 0).toNat + 1 = (packet.getD 8 0).toNat
  checksum : complementSum (bytes.take (headerLenOf packet)) = 0
  same : ∀ k < totalLenOf packet, k ≠ 8 → k ≠ 10 → k ≠ 11 → bytes.getD k 0 = packet.getD k 0

theorem toNat_sub_one_add_one {ttl : UInt8} (h : 2 ≤ ttl) : (ttl - 1).toNat + 1 = ttl.toNat := by
  have hle : 2 ≤ ttl.toNat := h
  have hone : (1 : UInt8) ≤ ttl := Nat.le_of_succ_le hle
  rw [UInt8.toNat_sub_of_le _ _ hone]
  show ttl.toNat - 1 + 1 = ttl.toNat
  omega

/-- The header that was read from the packet, one hop later. -/
def hoppedHeader (packet : Bytes) : Ipv4Header :=
  { headerOf packet with ttl := packet.getD 8 0 - 1 }

theorem headerBytes_hopped (packet : Bytes) (totalLen : Nat) (checksum : UInt16) :
    headerBytes (hoppedHeader packet) totalLen checksum
      = [0x45, 0] ++ u16Bytes (UInt16.ofNat totalLen) ++
        [packet.getD 4 0, packet.getD 5 0, packet.getD 6 0, packet.getD 7 0, packet.getD 8 0 - 1,
          packet.getD 9 0] ++ u16Bytes checksum ++
        [packet.getD 12 0, packet.getD 13 0, packet.getD 14 0, packet.getD 15 0,
          packet.getD 16 0, packet.getD 17 0, packet.getD 18 0, packet.getD 19 0] := by
  rw [headerBytes]
  simp only [hoppedHeader, headerOf, u16Bytes_u16OfBytes]
  rfl

theorem relayed_packet {payload : Bytes} (httl : 2 ≤ packet.getD 8 0)
    (hpayload : payload = (truncated packet).drop (headerLenOf packet))
    (hlen : payload.length = totalLenOf packet - headerLenOf packet)
    (hfit : payload.length ≤ 65515) :
    Relayed packet (headerBytes (hoppedHeader packet) (20 + payload.length)
      (complementSum (headerBytes (hoppedHeader packet) (20 + payload.length) 0)) ++ payload) := by
  have htotal : (UInt16.ofNat (20 + payload.length)).toNat = 20 + payload.length := by
    rw [UInt16.toNat_ofNat']
    exact Nat.mod_eq_of_lt (by omega)
  constructor
  · exact version_packet _ _ _ _
  · rfl
  · rw [length_packet, hlen]
  · rw [totalLenOf_packet, htotal, length_packet]
  · exact toNat_sub_one_add_one httl
  · rw [take_packet]
    exact complementSum_headerBytes (hoppedHeader packet) (20 + payload.length)
  · intro k hfour htwenty hne8 hne10 hne11
    rw [headerBytes_hopped]
    -- each of these bytes stands where the parser read it
    interval_cases k <;> first | contradiction | rfl
  · rw [← hpayload]
    exact List.drop_left' (length_headerBytes _ _ _)

theorem relayed_serialize (h : parseBytes packet = .ok (.ok datagram))
    (httl : 2 ≤ datagram.header.ttl) :
    ∃ bytes, (hopped datagram).serialize = .ok bytes ∧ Relayed packet bytes := by
  obtain ⟨haccepted, rfl⟩ := parseBytes_eq_ok.mp h
  have htotal : totalLenOf packet < 65536 := UInt16.toNat_lt _
  have hminLen := haccepted.minLen_le
  have hlen : ((truncated packet).drop (headerLenOf packet)).length
      = totalLenOf packet - headerLenOf packet := by
    rw [List.length_drop, haccepted.length_truncated]
  have hfit : (hopped ⟨headerOf packet,
      (truncated packet).drop (headerLenOf packet)⟩).payload.length ≤ 65515 := by
    show ((truncated packet).drop (headerLenOf packet)).length ≤ 65515
    omega
  exact ⟨_, serialize_eq hfit, relayed_packet httl rfl hlen hfit⟩

/-- Where the packet has nothing that a header has no field for, it is passed on unchanged. -/
theorem Relayed.transparent (h : Relayed packet bytes) (haccepted : Accepted packet)
    (hexpressible : Expressible packet) : Transparent packet bytes := by
  have hheaderLen := hexpressible.headerLen
  have hlength := haccepted.length_truncated
  have hpayload := h.payload
  rw [hheaderLen] at hpayload
  have htwenty : 20 ≤ totalLenOf packet := hheaderLen ▸ haccepted.headerLen_le
  have hlen : bytes.length = totalLenOf packet := by
    rw [h.length, hheaderLen]
    omega
  refine ⟨hlen, h.ttl, by rw [hheaderLen]; exact h.checksum, ?_⟩
  intro k hk hne8 hne10 hne11
  rcases Nat.lt_or_ge k 20 with hlt | hge
  · rcases Nat.lt_or_ge k 4 with hfour | hfour
    · -- version and header length, DSCP/ECN, and the two bytes of the total length
      have hwords : [bytes.getD 2 0, bytes.getD 3 0] = [packet.getD 2 0, packet.getD 3 0] := by
        have hsame : totalLenOf bytes = totalLenOf packet := h.totalLen.trans hlen
        rw [← u16Bytes_u16OfBytes, UInt16.toNat_inj.mp hsame, u16Bytes_u16OfBytes]
      obtain ⟨htwo, hthree⟩ := List.cons_eq_cons.mp hwords
      interval_cases k
      · rw [h.version, haccepted.byte_zero hheaderLen]
      · rw [h.dscp, hexpressible.dscp]
      · exact htwo
      · exact List.singleton_inj.mp hthree
    · exact h.header k hfour hlt hne8 hne10 hne11
  · -- behind the header both are the payload
    have hsame := congrArg (fun bytes => bytes[k - 20]?) hpayload
    rw [List.getElem?_drop, List.getElem?_drop, Nat.add_sub_cancel' hge, truncated,
      List.getElem?_take_of_lt hk] at hsame
    rw [List.getD_eq_getElem?_getD, List.getD_eq_getElem?_getD, hsame]

/-! ## The frames -/

/-- The datagram goes out on the interface at once. -/
def leaves (interfaceNum : Nat) (out : NetworkInterface) (sending : Sending) : Bool :=
  sending.interfaceNum == interfaceNum && (out.lookupEthernetAddress sending.nextHop).isSome

/-- The frame takes the datagram to the next hop. -/
def Emits (out : NetworkInterface) (sending : Sending) (frame : EthernetFrame) : Prop :=
  ∃ mac, out.lookupEthernetAddress sending.nextHop = some mac ∧
    NetworkInterface.Carries out.ethernetAddress mac sending.datagram frame

variable {interfaceNum : Nat} {out out1 : NetworkInterface} {sending : Sending}
  {sendings : List Sending} {interfaces interfaces1 : List NetworkInterface}
  {router router1 : Router} {frame : EthernetFrame} {frames : List EthernetFrame}
  {mac : EthernetAddress}

/-- What is IPv4 among the frames. -/
def ipv4Frames (frames : List EthernetFrame) : List EthernetFrame :=
  frames.filter fun frame => frame.header.ethertype = ETHERTYPE_IPV4

/-- One IPv4 frame goes out if the next hop is known, and none otherwise. -/
theorem sendDatagram_emits
    (h : out.sendDatagram sending.datagram sending.nextHop = .ok out1) :
    ∃ frames, out1.framesOut = out.framesOut ++ frames ∧
      List.Forall₂ (Emits out) ([sending].filter (leaves sending.interfaceNum out))
        (ipv4Frames frames) := by
  cases NetworkInterface.sendDatagram_performed h with
  | @emitted _ _ mac frame hcached hframe =>
      refine ⟨[frame], rfl, ?_⟩
      have hleaves : leaves sending.interfaceNum out sending = true := by
        rw [leaves, hcached, beq_self_eq_true]
        rfl
      rw [List.filter_cons_of_pos hleaves, ipv4Frames,
        NetworkInterface.filter_of_carries (.cons hframe .nil)]
      exact .cons ⟨mac, hcached, hframe⟩ .nil
  | @requested _ _ request hmiss hdue hrequest =>
      refine ⟨[request], rfl, ?_⟩
      have hstays : ¬ leaves sending.interfaceNum out sending = true := by
        rw [leaves, hmiss, Option.isSome_none, Bool.and_false]
        exact Bool.false_ne_true
      rw [List.filter_cons_of_neg hstays, ipv4Frames, NetworkInterface.filter_of_carriesArp]
      · exact .nil
      · intro frame hmem
        obtain rfl := List.mem_singleton.mp hmem
        exact ⟨_, _, hrequest⟩
  | queued hmiss hdue =>
      refine ⟨[], (List.append_nil _).symm, ?_⟩
      have hstays : ¬ leaves sending.interfaceNum out sending = true := by
        rw [leaves, hmiss, Option.isSome_none, Bool.and_false]
        exact Bool.false_ne_true
      rw [List.filter_cons_of_neg hstays]
      exact .nil

theorem leaves_congr (h : out1.arpCache = out.arpCache) :
    leaves interfaceNum out1 = leaves interfaceNum out := by
  funext sending
  unfold leaves NetworkInterface.lookupEthernetAddress
  rw [h]

theorem emits_congr (hmac : out1.ethernetAddress = out.ethernetAddress)
    (hcache : out1.arpCache = out.arpCache) : Emits out1 = Emits out := by
  funext sending frame
  unfold Emits NetworkInterface.lookupEthernetAddress
  rw [hmac, hcache]

/-- On each interface, the IPv4 frames that go out carry the datagrams that leave, in order. -/
theorem sendAll_emits (h : sendAll interfaces sendings = .ok interfaces1)
    (hout : interfaces[interfaceNum]? = some out) :
    ∃ out1 frames, interfaces1[interfaceNum]? = some out1 ∧
      out1.framesOut = out.framesOut ++ frames ∧
      List.Forall₂ (Emits out) (sendings.filter (leaves interfaceNum out)) (ipv4Frames frames) := by
  induction sendings generalizing interfaces out with
  | nil =>
      obtain rfl : interfaces = interfaces1 := Except.ok.inj h
      exact ⟨out, [], hout, (List.append_nil _).symm, .nil⟩
  | cons sending rest ih =>
      obtain ⟨interfaces2, hone, hrest⟩ := Exec.run_cons_eq_ok.mp h
      obtain ⟨interface, interface1, hinterface, hsend, rfl⟩ := send_eq_ok.mp hone
      by_cases hnum : sending.interfaceNum = interfaceNum
      · -- the datagram is for this interface
        subst hnum
        obtain rfl : out = interface := Option.some.inj (hout.symm.trans hinterface)
        obtain ⟨first, hfirst, hemits⟩ := sendDatagram_emits hsend
        have hsent := NetworkInterface.sendDatagram_sent hsend
        have hlt : sending.interfaceNum < interfaces.length :=
          (List.getElem?_eq_some_iff.mp hout).1
        obtain ⟨out1, frames, hout1, hframes, hmore⟩ := ih hrest (List.getElem?_set_self hlt)
        rw [leaves_congr hsent.arpCache, emits_congr hsent.ethernetAddress hsent.arpCache] at hmore
        refine ⟨out1, first ++ frames, hout1, ?_, ?_⟩
        · rw [hframes, hfirst, List.append_assoc]
        · rw [← List.singleton_append, List.filter_append, ipv4Frames, List.filter_append]
          exact List.rel_append hemits hmore
      · -- it is for another one
        have hother : (interfaces.set sending.interfaceNum interface1)[interfaceNum]? = some out := by
          rw [List.getElem?_set_ne hnum, hout]
        obtain ⟨out1, frames, hout1, hframes, hmore⟩ := ih hrest hother
        have hstays : ¬ leaves interfaceNum out sending = true := by
          rw [leaves, beq_eq_false_iff_ne.mpr hnum, Bool.false_and]
          exact Bool.false_ne_true
        rw [List.filter_cons_of_neg hstays]
        exact ⟨out1, frames, hout1, hframes, hmore⟩

/-- The partner of an entry stands where the entry stands. -/
theorem exists_partner {α β : Type} {R : α → β → Prop} {l more : List α} {a : α} {bs : List β}
    (h : List.Forall₂ R (l ++ a :: more) bs) :
    ∃ before b after, bs = before ++ b :: after ∧ before.length = l.length ∧ R a b := by
  induction l generalizing bs with
  | nil =>
      obtain ⟨b, after, hab, -, rfl⟩ := List.forall₂_cons_left_iff.mp h
      exact ⟨[], b, after, rfl, rfl, hab⟩
  | cons first l ih =>
      obtain ⟨b, rest, -, hrest, rfl⟩ := List.forall₂_cons_left_iff.mp h
      obtain ⟨before, partner, after, rfl, hlength, hpartner⟩ := ih hrest
      exact ⟨b :: before, partner, after, rfl, congrArg Nat.succ hlength, hpartner⟩

/-! ## From frame to frame -/

/-- An interface took the datagram out of the frame. -/
def Accepts (frame : EthernetFrame) (datagram : Ipv4Datagram) : Prop :=
  ∃ iface : NetworkInterface, iface.recvFrame frame
    = .ok { iface with datagramsIn := iface.datagramsIn ++ [datagram] }

theorem parseBytes_of_accepts (h : Accepts frame datagram) :
    parseBytes frame.payload = .ok (.ok datagram) := by
  obtain ⟨iface, hrecv⟩ := h
  obtain ⟨datagrams, hinbound, hparsed⟩ := NetworkInterface.recvFrame_inbound hrecv
  obtain rfl : [datagram] = datagrams := List.append_cancel_left hinbound
  exact hparsed datagram List.mem_cons_self

/-- A packet that is accepted and forwarded to a next hop whose address is known leaves in a frame
of its own, in its turn: with its payload, under a header without options and DSCP/ECN whose
other fields are the same but for the TTL, the total length and the checksum. -/
theorem route_relays {before after : List Ipv4Datagram} (h : router.Built)
    (haccepts : Accepts frame datagram) (hinbound : router.inbound = before ++ datagram :: after)
    (hforward : router.forwarding datagram = some sending)
    (hout : router.interfaces[sending.interfaceNum]? = some out)
    (hresolved : out.lookupEthernetAddress sending.nextHop = some mac) :
    ∃ router1 out1 earlier bytes later, router.route = .ok router1 ∧
      router1.interfaces[sending.interfaceNum]? = some out1 ∧
      NetworkInterface.newIpv4Frames out out1
        = earlier ++ EthernetFrame.ipv4 mac out.ethernetAddress bytes :: later ∧
      earlier.length = ((before.filterMap router.forwarding).filter
        (leaves sending.interfaceNum out)).length ∧
      Relayed frame.payload bytes ∧
      (Expressible frame.payload → Transparent frame.payload bytes) := by
  have hparsed := parseBytes_of_accepts haccepts
  obtain ⟨httl, hhopped, -⟩ := forwarding_eq_some hforward
  obtain ⟨bytes, hserialize, hrelayed⟩ := relayed_serialize hparsed httl
  obtain ⟨router1, hroute, hrouted, hempty⟩ :=
    route_routed fun interface hmem => (h interface hmem).fits
  have hsent := hrouted.sent
  rw [map_drained hempty, hinbound, List.filterMap_append,
    List.filterMap_cons_some hforward] at hsent
  have hdrained : (router.interfaces.map drained)[sending.interfaceNum]? = some out.drained := by
    rw [List.getElem?_map, hout]
    rfl
  have hleaves : leaves sending.interfaceNum out sending = true := by
    rw [leaves, hresolved, beq_self_eq_true]
    rfl
  obtain ⟨out1, frames, hout1, hframes, hemits⟩ := sendAll_emits hsent hdrained
  -- the queue that `drained` empties takes no part in sending
  have hsame : leaves sending.interfaceNum out.drained = leaves sending.interfaceNum out :=
    leaves_congr rfl
  have hsameEmits : Emits out.drained = Emits out := emits_congr rfl rfl
  rw [hsame, hsameEmits, List.filter_append, List.filter_cons_of_pos hleaves] at hemits
  -- the frame in the place of the datagram carries it
  obtain ⟨earlier, frame1, later, hsplit, hlength, mac1, hmac1, bytes1, hserialize1, rfl⟩ :=
    exists_partner hemits
  obtain rfl : mac = mac1 := Option.some.inj (hresolved.symm.trans hmac1)
  rw [hhopped, hserialize, Except.ok.injEq] at hserialize1
  subst hserialize1
  refine ⟨router1, out1, earlier, bytes, later, hroute, hout1, ?_, hlength, hrelayed, ?_⟩
  · have hnew : out1.framesOut = out.framesOut ++ frames := hframes
    rw [NetworkInterface.newIpv4Frames_of_framesOut hnew, ← hsplit]
    rfl
  · exact hrelayed.transparent (parseBytes_eq_ok.mp hparsed).1

/-- A packet with options. -/
def optionsPacket : Bytes :=
  [0x46, 0, 0, 25, 0, 1, 0x40, 0, 64, 6, 35, 112, 10, 0, 0, 100, 10, 1, 0, 9, 1, 1, 1, 0, 7]

/-- The datagram in it. -/
def optionsDatagram : Ipv4Datagram := ⟨headerOf optionsPacket, [7]⟩

/-- A packet with a traffic class. -/
def dscpPacket : Bytes :=
  [0x45, 40, 0, 21, 0, 1, 0x40, 0, 64, 6, 38, 77, 10, 0, 0, 100, 10, 1, 0, 9, 7]

def sampleFrame (packet : Bytes) : EthernetFrame :=
  EthernetFrame.ipv4 ⟨2, 0, 0, 0, 0, 1⟩ ⟨2, 0, 0, 0, 0, 99⟩ packet

/-- The packet arrives on one interface; the other one knows the next hop. -/
def sampleRelayOps (packet : Bytes) : List RouterOp :=
  [.addInterface ⟨2, 0, 0, 0, 0, 1⟩ ⟨10, 0, 0, 1⟩, .addInterface ⟨2, 0, 0, 0, 0, 2⟩ ⟨10, 1, 0, 1⟩,
    .addRoute ⟨10, 1, 0, 0⟩ 16 none 1,
    .interface 1 (.recvFrame (EthernetFrame.arp ⟨2, 0, 0, 0, 0, 2⟩ ⟨2, 0, 0, 0, 0, 9⟩
      [0, 1, 8, 0, 6, 4, 0, 2, 2, 0, 0, 0, 0, 9, 10, 1, 0, 9, 2, 0, 0, 0, 0, 2, 10, 1, 0, 1])),
    .interface 0 (.recvFrame (sampleFrame packet))]

theorem route_relays_options :
    ∃ router router1 out out1 bytes,
      Exec.run perform new (sampleRelayOps optionsPacket) = .ok router ∧
      router.route = .ok router1 ∧ router.interfaces[1]? = some out ∧
      router1.interfaces[1]? = some out1 ∧
      EthernetFrame.ipv4 ⟨2, 0, 0, 0, 0, 9⟩ out.ethernetAddress bytes
        ∈ NetworkInterface.newIpv4Frames out out1 ∧
      Relayed optionsPacket bytes := by
  have haccepts : Accepts (sampleFrame optionsPacket) optionsDatagram :=
    ⟨.new ⟨2, 0, 0, 0, 0, 1⟩ ⟨10, 0, 0, 1⟩,
      NetworkInterface.recvFrame_of_ipv4 (by decide) rfl (by decide +kernel)⟩
  obtain ⟨router, hrun, hinbound, hforward, hresolved⟩ : ∃ router,
      Exec.run perform new (sampleRelayOps optionsPacket) = .ok router ∧
        router.inbound = [] ++ optionsDatagram :: [] ∧
        router.forwarding optionsDatagram = some ⟨1, hopped optionsDatagram, ⟨10, 1, 0, 9⟩⟩ ∧
        (router.interfaces[1]?.bind fun out => out.lookupEthernetAddress ⟨10, 1, 0, 9⟩)
          = some ⟨2, 0, 0, 0, 0, 9⟩ := by
    decide +kernel
  obtain ⟨out, hout, hmac⟩ := Option.bind_eq_some_iff.mp hresolved
  obtain ⟨router1, out1, earlier, bytes, later, hroute, hout1, hframes, -, hrelayed, -⟩ :=
    route_relays (run_built hrun) haccepts hinbound hforward hout hmac
  refine ⟨router, router1, out, out1, bytes, hrun, hroute, hout, hout1, ?_, hrelayed⟩
  rw [hframes]
  exact List.mem_append_right _ List.mem_cons_self

/-- The frames that the other interface has to send after `route`. -/
def relayedFrames (packet : Bytes) : Exec (List EthernetFrame) := do
  let router ← Exec.run perform new (sampleRelayOps packet)
  let router ← router.route
  .ok (router.interfaces[1]?.elim [] NetworkInterface.framesOut)

/-- Both packets leave in the same form: the options are gone, and the traffic class. -/
theorem relay_not_transparent : ∃ bytes,
    relayedFrames optionsPacket
      = .ok [EthernetFrame.ipv4 ⟨2, 0, 0, 0, 0, 9⟩ ⟨2, 0, 0, 0, 0, 2⟩ bytes] ∧
    ¬ Transparent optionsPacket bytes ∧
    relayedFrames dscpPacket
      = .ok [EthernetFrame.ipv4 ⟨2, 0, 0, 0, 0, 9⟩ ⟨2, 0, 0, 0, 0, 2⟩ bytes] ∧
    ¬ Transparent dscpPacket bytes := by
  refine ⟨[0x45, 0, 0, 21, 0, 1, 0x40, 0, 63, 6, 39, 117, 10, 0, 0, 100, 10, 1, 0, 9, 7],
    by decide +kernel, ?_, by decide +kernel, ?_⟩
  · intro h
    exact absurd h.length (by decide)
  · intro h
    exact absurd (h.same 1 (by decide) (by decide) (by decide) (by decide)) (by decide)

end Router

end Minnow
