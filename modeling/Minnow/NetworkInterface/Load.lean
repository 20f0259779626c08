import Minnow.Codec.Link
import Minnow.Library.Potential
import Minnow.NetworkInterface.Provenance
import Mathlib.Algebra.Order.BigOperators.Group.Finset
import Mathlib.Data.Finite.Prod
import Mathlib.Data.Fintype.EquivFin

set_option autoImplicit false

/-! # What a frame can lead to

An upper bound on the frames that routers will send because of something: a datagram that arrives
with a TTL of `t` can be forwarded `t - 1` times, and each time it may take a question for an
address, the answer and a frame of its own. What waits in an interface is charged for what it has
in front of it, and no operation spends more than it brings (`load_perform`).
-/

namespace Minnow

noncomputable instance : Fintype Ipv4AddrBytes :=
  have hbyte : Finite UInt8 := Finite.of_injective UInt8.toFin fun a b h => UInt8.toFin_inj.mp h
  have htuple : Finite Ipv4AddrBytes :=
    Finite.of_injective (fun ip => (ip.b0, ip.b1, ip.b2, ip.b3)) fun a b h => by
      obtain ⟨h0, h1, h2, h3⟩ : a.b0 = b.b0 ∧ a.b1 = b.b1 ∧ a.b2 = b.b2 ∧ a.b3 = b.b3 := by
        simpa using h
      cases a
      cases b
      subst h0 h1 h2 h3
      rfl
  Fintype.ofFinite _

namespace NetworkInterface

variable {iface iface1 : NetworkInterface} {datagram : Ipv4Datagram} {datagrams : List Ipv4Datagram}
  {mac src dst : EthernetAddress} {ip : Ipv4AddrBytes} {frame : EthernetFrame}
  {frames replies : List EthernetFrame} {op : InterfaceOp} {message : ArpMessage}

/-- The frames a datagram can lead to once it has arrived. -/
def datagramCost (datagram : Ipv4Datagram) : Nat := 3 * (datagram.header.ttl.toNat - 1)

/-- The frames a frame can lead to when it arrives; a question leads to an answer. -/
def frameCost (frame : EthernetFrame) : Nat :=
  if frame.header.ethertype = ETHERTYPE_IPV4 then
    match Ipv4Datagram.parseBytes frame.payload with
    | .ok (.ok datagram) => datagramCost datagram
    | _ => 0
  else if frame.header.ethertype = ETHERTYPE_ARP then
    match ArpMessage.parseBytes frame.payload with
    | .ok (.ok message) => if message.operation = .request then 1 else 0
    | _ => 0
  else 0

/-- What is to be sent costs one more than what arrives. -/
def inboundCost (datagrams : List Ipv4Datagram) : Nat := (datagrams.map datagramCost).sum

def waitingCost (datagrams : List Ipv4Datagram) : Nat :=
  (datagrams.map fun datagram => datagramCost datagram + 1).sum

def framesCost (frames : List EthernetFrame) : Nat :=
  (frames.map fun frame => frameCost frame + 1).sum

/-- The datagrams of an entry. -/
def pendingCost (pending : Option PendingResolution) : Nat :=
  waitingCost (pending.elim [] PendingResolution.datagrams)

noncomputable def load (iface : NetworkInterface) : Nat :=
  inboundCost iface.datagramsIn + ∑ ip, pendingCost (iface.pending ip) +
    framesCost iface.framesOut

/-- What an operation brings. -/
def InterfaceOp.income : InterfaceOp → Nat
  | .sendDatagram datagram _ => datagramCost datagram + 3
  | .recvFrame frame => frameCost frame
  | _ => 0

@[simp] theorem inboundCost_append (datagrams more : List Ipv4Datagram) :
    inboundCost (datagrams ++ more) = inboundCost datagrams + inboundCost more := by
  rw [inboundCost, List.map_append, List.sum_append]
  rfl

@[simp] theorem waitingCost_append (datagrams more : List Ipv4Datagram) :
    waitingCost (datagrams ++ more) = waitingCost datagrams + waitingCost more := by
  rw [waitingCost, List.map_append, List.sum_append]
  rfl

@[simp] theorem framesCost_append (frames more : List EthernetFrame) :
    framesCost (frames ++ more) = framesCost frames + framesCost more := by
  rw [framesCost, List.map_append, List.sum_append]
  rfl

@[simp] theorem inboundCost_singleton (datagram : Ipv4Datagram) :
    inboundCost [datagram] = datagramCost datagram := rfl

@[simp] theorem waitingCost_singleton (datagram : Ipv4Datagram) :
    waitingCost [datagram] = datagramCost datagram + 1 := rfl

@[simp] theorem framesCost_singleton (frame : EthernetFrame) :
    framesCost [frame] = frameCost frame + 1 := rfl

/-! ## The cost of a frame -/

theorem frameCost_of_parse (hipv4 : frame.header.ethertype = ETHERTYPE_IPV4)
    (hparsed : Ipv4Datagram.parseBytes frame.payload = .ok (.ok datagram)) :
    frameCost frame = datagramCost datagram := by
  rw [frameCost, if_pos hipv4, hparsed]

theorem frameCost_of_message (harp : frame.header.ethertype = ETHERTYPE_ARP)
    (hparsed : ArpMessage.parseBytes frame.payload = .ok (.ok message)) :
    frameCost frame = if message.operation = .request then 1 else 0 := by
  have hother : ¬ ETHERTYPE_ARP = ETHERTYPE_IPV4 := by decide
  rw [frameCost, harp, if_neg hother, if_pos rfl, hparsed]

theorem frameCost_of_carries (h : Carries src dst datagram frame) :
    frameCost frame = datagramCost datagram := by
  obtain ⟨bytes, hbytes, rfl⟩ := h
  exact frameCost_of_parse rfl (Ipv4Datagram.parseBytes_serialize hbytes)

theorem frameCost_of_carriesArp (h : CarriesArp src dst message frame) :
    frameCost frame = if message.operation = .request then 1 else 0 := by
  obtain ⟨bytes, hbytes, rfl⟩ := h
  exact frameCost_of_message rfl (ArpMessage.parseBytes_serialize hbytes)

theorem framesCost_of_carries (h : List.Forall₂ (Carries src dst) datagrams frames) :
    framesCost frames = waitingCost datagrams := by
  induction h with
  | nil => rfl
  | cons hframe _ ih =>
      rw [framesCost, waitingCost, List.map_cons, List.map_cons, List.sum_cons, List.sum_cons,
        frameCost_of_carries hframe]
      exact congrArg _ ih

/-- Padding costs nothing. -/
theorem Genuine.frameCost_padded {Q : Ipv4Datagram → Prop} {sent : EthernetFrame}
    (h : Genuine (Written Q) mac ip sent) (hheader : frame.header = sent.header)
    (hpad : sent.payload <+: frame.payload) : frameCost frame = frameCost sent := by
  obtain ⟨pad, hpad⟩ := hpad
  rcases h.kind with ⟨harp, message, hmessage, -⟩ | ⟨hipv4, datagram, hserialize, -⟩
  · have hwire : message.wire = sent.payload := Except.ok.inj hmessage
    rw [frameCost_of_message harp (ArpMessage.parseBytes_serialize hmessage),
      frameCost_of_message (hheader ▸ harp)]
    rw [← hpad, ← hwire]
    exact message.parseBytes_wire_append pad
  · rw [frameCost_of_parse hipv4 (Ipv4Datagram.parseBytes_serialize hserialize),
      frameCost_of_parse (hheader ▸ hipv4)]
    rw [← hpad]
    exact Ipv4Datagram.parseBytes_serialize_append hserialize pad

/-! ## What an operation brings and spends -/

theorem load_new (mac : EthernetAddress) (ip : Ipv4AddrBytes) :
    (NetworkInterface.new mac ip).load = 0 := by
  have hnone : ∑ _ip : Ipv4AddrBytes, pendingCost none = 0 := Finset.sum_eq_zero fun _ _ => rfl
  show 0 + ∑ _ip : Ipv4AddrBytes, pendingCost none + 0 = 0
  rw [hnone]

@[simp] theorem load_enqueue (iface : NetworkInterface) (frames : List EthernetFrame) :
    (iface.enqueue frames).load = iface.load + framesCost frames := by
  unfold load enqueue
  dsimp only
  rw [framesCost_append]
  omega

theorem pendingCost_eq (iface : NetworkInterface) (ip : Ipv4AddrBytes) :
    pendingCost (iface.pending ip) = waitingCost (iface.queue ip) := rfl

/-- One datagram more waits. -/
theorem load_await {pending : PendingResolution}
    (hdatagrams : pending.datagrams = iface.queue ip ++ [datagram]) :
    (iface.await ip pending).load = iface.load + (datagramCost datagram + 1) := by
  have hsum := sum_update pendingCost iface.pending ip (some pending)
  have hpending : pendingCost (some pending)
      = pendingCost (iface.pending ip) + (datagramCost datagram + 1) := by
    show waitingCost pending.datagrams = _
    rw [hdatagrams, waitingCost_append, waitingCost_singleton, pendingCost_eq]
  unfold load await
  dsimp only
  omega

/-- What waited for the address is no longer there. -/
theorem load_learn (iface : NetworkInterface) (ip : Ipv4AddrBytes) (mac : EthernetAddress) :
    (iface.learn ip mac).load + waitingCost (iface.queue ip) = iface.load := by
  have hsum := sum_update pendingCost iface.pending ip none
  have hpending : pendingCost none = 0 := rfl
  have hqueue := pendingCost_eq iface ip
  unfold load learn
  dsimp only
  omega

theorem load_tick (iface : NetworkInterface) (elapsedMs : Nat) :
    (iface.tick elapsedMs).load ≤ iface.load := by
  have hle : ∀ ip, pendingCost ((iface.tick elapsedMs).pending ip)
      ≤ pendingCost (iface.pending ip) := by
    intro ip
    rw [pendingCost_eq, pendingCost_eq]
    rcases iface.queue_tick elapsedMs ip with hgone | hsame
    · rw [hgone]
      exact Nat.zero_le _
    · rw [hsame]
  have hsum := Finset.sum_le_sum fun ip (_ : ip ∈ Finset.univ) => hle ip
  exact Nat.add_le_add_right (Nat.add_le_add_left hsum _) _

theorem load_popDatagram (iface : NetworkInterface) :
    iface.load = iface.popDatagram.1.load
      + (iface.datagramsIn.head?.elim 0 datagramCost) := by
  unfold load popDatagram
  dsimp only
  cases hqueue : iface.datagramsIn with
  | nil => rfl
  | cons datagram rest =>
      rw [List.tail_cons, List.head?_cons, Option.elim_some, inboundCost, List.map_cons,
        List.sum_cons]
      unfold inboundCost
      omega

theorem load_popFrame (iface : NetworkInterface) :
    iface.load = iface.popFrame.1.load + framesCost iface.framesOut.head?.toList := by
  unfold load popFrame
  dsimp only
  cases hqueue : iface.framesOut with
  | nil => rfl
  | cons frame rest =>
      rw [List.tail_cons, List.head?_cons, Option.toList_some, framesCost_singleton, framesCost,
        List.map_cons, List.sum_cons]
      unfold framesCost
      omega

/-- A question costs what its answer does. -/
theorem replies_cost (hbrings : iface.Brings frame message) (h : iface.Replies message replies) :
    framesCost replies ≤ frameCost frame := by
  cases h with
  | silent hno => exact Nat.zero_le _
  | reply hasks hreply =>
      rw [framesCost_singleton, frameCost_of_carriesArp hreply,
        frameCost_of_message hbrings.2.1 hbrings.2.2, if_pos hasks.1]
      exact Nat.le_refl _

theorem load_recvFrame (h : iface.recvFrame frame = .ok iface1) :
    iface1.load ≤ iface.load + frameCost frame := by
  by_cases hbrings : ∃ message, iface.Brings frame message
  · obtain ⟨message, hbrings⟩ := hbrings
    cases learned_performed hbrings h with
    | received hno => exact absurd hbrings (hno message)
    | @learned _ message frames replies hbrings hframes hreplies =>
        have hlearn := load_learn iface message.senderIpAddress message.senderEthernetAddress
        have hreply := replies_cost hbrings hreplies
        have hcarried := framesCost_of_carries hframes
        rw [load_enqueue, framesCost_append]
        omega
  · -- at most one datagram comes in
    obtain ⟨datagrams, rfl, -⟩ := recvFrame_of_not_brings (not_exists.mp hbrings) h
    rcases recvFrame_cases h with hsame | ⟨datagram, -, hipv4, hparsed, hone⟩
    · have hnone : datagrams = [] := List.append_right_eq_self.mp hsame
      subst hnone
      rw [List.append_nil]
      exact Nat.le_add_right _ _
    · rw [hone, frameCost_of_parse hipv4 hparsed]
      unfold load
      dsimp only
      rw [inboundCost_append, inboundCost_singleton]
      omega

theorem load_sendDatagram {nextHop : Ipv4AddrBytes}
    (h : iface.sendDatagram datagram nextHop = .ok iface1) :
    iface1.load ≤ iface.load + (datagramCost datagram + 3) := by
  cases sendDatagram_performed h with
  | emitted hcached hframe =>
      rw [load_enqueue, framesCost_singleton, frameCost_of_carries hframe]
      omega
  | requested hmiss hdue hrequest =>
      have hawait : (iface.await nextHop ((iface.entry nextHop).push datagram).markRequestSent).load
          = _ := load_await (entry_push_datagrams iface nextHop datagram)
      have hquestion : (ArpMessage.request iface.ethernetAddress iface.ipAddress nextHop).operation
          = .request := rfl
      rw [load_enqueue, framesCost_singleton, frameCost_of_carriesArp hrequest, if_pos hquestion,
        hawait]
      omega
  | queued hmiss hdue =>
      rw [load_await (entry_push_datagrams iface nextHop datagram)]
      omega

/-- No operation of an interface spends more than it brings. -/
theorem load_perform (h : iface.perform op = .ok iface1) :
    iface1.load + framesCost (iface.outgoing op) ≤ iface.load + op.income := by
  cases op with
  | sendDatagram datagram nextHop => exact load_sendDatagram h
  | recvFrame frame => exact load_recvFrame h
  | tick elapsedMs =>
      obtain rfl := Except.ok.inj h
      exact load_tick iface elapsedMs
  | popFrame =>
      obtain rfl := Except.ok.inj h
      exact (load_popFrame iface).ge
  | popDatagram =>
      obtain rfl := Except.ok.inj h
      have hpop := load_popDatagram iface
      show iface.popDatagram.1.load + 0 ≤ iface.load + 0
      omega

end NetworkInterface

end Minnow
