import Minnow.NetworkInterface.Journal

set_option autoImplicit false

/-! # An interface and the time

The interface keeps ages, not times: what it does is compared with a clock that counts the ticked
milliseconds. A `Clock` records, for each next hop, when ARP requests for it went out, what was
heard of its address and when, every IPv4 frame emitted for it, and since when each datagram waits.

The next hops do not concern each other. What an operation does to one of them is said once, by
`step_effect`: one `Effect` on the `View` of that next hop.
-/

namespace Minnow

namespace NetworkInterface

/-! ## What is recorded -/

def InterfaceOp.elapsed : InterfaceOp → Nat
  | .tick elapsedMs => elapsedMs
  | _ => 0

/-- The sender's Ethernet address in a valid ARP message from `ip`, received in a frame for the
interface. -/
def InterfaceOp.tells (iface : NetworkInterface) (ip : Ipv4AddrBytes) :
    InterfaceOp → Option EthernetAddress
  | .recvFrame frame =>
      if frame.isFor iface.ethernetAddress = true ∧ frame.header.ethertype = ETHERTYPE_ARP then
        match ArpMessage.parseBytes frame.payload with
        | .ok (.ok message) =>
            if message.senderIpAddress = ip then some message.senderEthernetAddress else none
        | _ => none
      else none
  | _ => none

/-- The frame is an ARP request for the address of `ip`. -/
def asksFor (ip : Ipv4AddrBytes) (frame : EthernetFrame) : Bool :=
  frame.header.ethertype == ETHERTYPE_ARP &&
    match ArpMessage.parseBytes frame.payload with
    | .ok (.ok message) => message.operation == .request && message.targetIpAddress == ip
    | _ => false

/-- The ARP requests for `ip` that were put behind the frames waiting to be sent. -/
def newArpRequests (iface iface1 : NetworkInterface) (ip : Ipv4AddrBytes) : List EthernetFrame :=
  (iface1.framesOut.drop iface.framesOut.length).filter (asksFor ip)

/-- An IPv4 frame, when it was emitted, and what had last been heard of the address then. -/
structure Emission where
  frame : EthernetFrame
  time : Nat
  heard : Option (EthernetAddress × Nat)

/-- A datagram in a queue, and when it was passed to `sendDatagram`. -/
structure Waiting where
  datagram : Ipv4Datagram
  joined : Nat
  deriving DecidableEq

/-- What is recorded of a next hop. -/
structure Hop where
  requests : List Nat
  heard : Option (EthernetAddress × Nat)
  emitted : List Emission
  waiting : List Waiting
  dropped : List (Waiting × Nat)

namespace Hop

def start : Hop where
  requests := []
  heard := none
  emitted := []
  waiting := []
  dropped := []

/-- What a tick drops of those that wait. -/
def lapsed (iface1 : NetworkInterface) (ip : Ipv4AddrBytes) (waiting : List Waiting) :
    InterfaceOp → List Waiting
  | .tick _ => if iface1.pending ip = none then waiting else []
  | _ => []

/-- The record after an operation that took the interface to `iface1`, at the time `now`. -/
def record (hop : Hop) (iface iface1 : NetworkInterface) (now : Nat) (ip : Ipv4AddrBytes)
    (op : InterfaceOp) : Hop :=
  let heard := ((op.tells iface ip).map (fun mac => (mac, now))).or hop.heard
  { requests := hop.requests ++ (newArpRequests iface iface1 ip).map (fun _ => now)
    heard := heard
    emitted := hop.emitted ++
      (if op.hop = some ip then newIpv4Frames iface iface1 else []).map
        (fun frame => { frame := frame, time := now, heard := heard })
    waiting :=
      if iface1.pending ip = none then []
      else hop.waiting ++ (op.handed ip).map (fun datagram => { datagram := datagram, joined := now })
    dropped := hop.dropped ++ (lapsed iface1 ip hop.waiting op).map (fun waiting => (waiting, now)) }

end Hop

structure Clock where
  iface : NetworkInterface
  now : Nat
  hop : Ipv4AddrBytes → Hop

namespace Clock

def start (iface : NetworkInterface) : Clock where
  iface := iface
  now := 0
  hop := fun _ => .start

/-- The clock after an operation that took the interface to `iface1`. -/
def after (c : Clock) (op : InterfaceOp) (iface1 : NetworkInterface) : Clock where
  iface := iface1
  now := c.now + op.elapsed
  hop := fun ip => (c.hop ip).record c.iface iface1 (c.now + op.elapsed) ip op

def step (c : Clock) (op : InterfaceOp) : Exec Clock := do
  let iface ← c.iface.perform op
  .ok (c.after op iface)

end Clock

/-! ## One next hop -/

/-- What an interface knows of one next hop, with the record. -/
structure View where
  now : Nat
  cache : Option ArpCacheEntry
  pending : Option PendingResolution
  hop : Hop

def Clock.view (c : Clock) (ip : Ipv4AddrBytes) : View where
  now := c.now
  cache := c.iface.arpCache ip
  pending := c.iface.pending ip
  hop := c.hop ip

namespace View

def agedCache (cache : Option ArpCacheEntry) (elapsedMs : Nat) : Option ArpCacheEntry :=
  (cache.map (fun entry => { entry with ageMs := saturatingAdd entry.ageMs elapsedMs })).filter
    (fun entry => entry.ageMs < ARP_CACHE_TTL_MS)

def agedPending (pending : Option PendingResolution) (elapsedMs : Nat) :
    Option PendingResolution :=
  (pending.map (fun pending => pending.tick elapsedMs)).filter (fun pending => !pending.isExpired)

/-- Time passes; when the queue expires, everything in it is dropped. -/
def tick (v : View) (elapsedMs : Nat) : View where
  now := v.now + elapsedMs
  cache := agedCache v.cache elapsedMs
  pending := agedPending v.pending elapsedMs
  hop :=
    { v.hop with
      waiting := if agedPending v.pending elapsedMs = none then [] else v.hop.waiting
      dropped := v.hop.dropped ++
        (if agedPending v.pending elapsedMs = none then v.hop.waiting else []).map
          (fun waiting => (waiting, v.now + elapsedMs)) }

/-- A datagram joins the queue. -/
def join (v : View) (datagram : Ipv4Datagram) (pending : PendingResolution) : View :=
  { v with
    pending := some pending
    hop := { v.hop with waiting := v.hop.waiting ++ [{ datagram := datagram, joined := v.now }] } }

/-- An ARP request goes out. -/
def ask (v : View) : View :=
  { v with hop := { v.hop with requests := v.hop.requests ++ [v.now] } }

/-- IPv4 frames go out. -/
def emit (v : View) (frames : List EthernetFrame) : View :=
  { v with
    hop :=
      { v.hop with
        emitted := v.hop.emitted ++
          frames.map (fun frame => { frame := frame, time := v.now, heard := v.hop.heard }) } }

/-- The address is told, and the queue emptied. -/
def hear (v : View) (mac : EthernetAddress) : View :=
  { v with
    cache := some { ethernetAddress := mac, ageMs := 0 }
    pending := none
    hop := { v.hop with heard := some (mac, v.now), waiting := [] } }

/-- What an operation can do to a next hop. -/
inductive Effect (v : View) : View → Prop where
  | unchanged : Effect v v
  | emitted {entry : ArpCacheEntry} {frame : EthernetFrame} (hcache : v.cache = some entry)
      (hdst : frame.header.dst = entry.ethernetAddress) : Effect v (v.emit [frame])
  | requested {datagram : Ipv4Datagram} (hcache : v.cache = none)
      (hdue : (v.pending.getD .new).shouldSendArpRequest = true) :
      Effect v (v.join datagram ((v.pending.getD .new).push datagram).markRequestSent).ask
  | queued {datagram : Ipv4Datagram} (hcache : v.cache = none)
      (hdue : (v.pending.getD .new).shouldSendArpRequest = false) :
      Effect v (v.join datagram ((v.pending.getD .new).push datagram))
  | learned {mac : EthernetAddress} {frames : List EthernetFrame}
      (hdst : ∀ frame ∈ frames, frame.header.dst = mac) : Effect v ((v.hear mac).emit frames)
  | ticked (elapsedMs : Nat) : Effect v (v.tick elapsedMs)

/-- The address is not known while datagrams wait for it, and the record has the queue. -/
structure Sane (v : View) : Prop where
  disjoint : v.cache = none ∨ v.pending = none
  waiting : v.hop.waiting.map Waiting.datagram = v.pending.elim [] PendingResolution.datagrams

end View

variable {iface iface1 : NetworkInterface} {ip target : Ipv4AddrBytes} {op : InterfaceOp}
  {frame : EthernetFrame} {frames : List EthernetFrame} {datagram : Ipv4Datagram}
  {datagrams : List Ipv4Datagram} {mac dst : EthernetAddress} {message : ArpMessage}

/-! ## Frames that ask, and messages that tell -/

theorem newArpRequests_of_framesOut (h : iface1.framesOut = iface.framesOut ++ frames) :
    newArpRequests iface iface1 ip = frames.filter (asksFor ip) := by
  unfold newArpRequests
  rw [h, List.drop_left]

theorem asksFor_of_carriesArp (h : CarriesArp mac dst message frame) :
    asksFor ip frame = (message.operation == .request && message.targetIpAddress == ip) := by
  obtain ⟨bytes, hbytes, rfl⟩ := h
  have hparse := ArpMessage.parseBytes_serialize hbytes
  have htype : (EthernetFrame.arp dst mac bytes).header.ethertype = ETHERTYPE_ARP := rfl
  have hpayload : (EthernetFrame.arp dst mac bytes).payload = bytes := rfl
  unfold asksFor
  rw [htype, hpayload, hparse, beq_self_eq_true, Bool.true_and]

theorem filter_asksFor_of_carries (h : List.Forall₂ (Carries mac dst) datagrams frames) :
    frames.filter (asksFor ip) = [] := by
  induction h with
  | nil => rfl
  | cons hframe _ ih =>
      obtain ⟨bytes, -, rfl⟩ := hframe
      have htype : (ETHERTYPE_IPV4 == ETHERTYPE_ARP) = false := by decide
      have hipv4 : asksFor ip (EthernetFrame.ipv4 dst mac bytes) = false := by
        unfold asksFor
        show (ETHERTYPE_IPV4 == ETHERTYPE_ARP && _) = false
        rw [htype, Bool.false_and]
      rw [List.filter_cons_of_neg (by rw [hipv4]; exact Bool.false_ne_true), ih]

/-- An answer is not a request. -/
theorem Replies.filter_asksFor (h : iface.Replies message frames) :
    frames.filter (asksFor ip) = [] := by
  cases h with
  | silent hno => rfl
  | reply hasks hreply =>
      rw [List.filter_cons_of_neg, List.filter_nil]
      rw [asksFor_of_carriesArp hreply]
      exact Bool.false_ne_true

theorem dst_of_carries (h : List.Forall₂ (Carries mac dst) datagrams frames) :
    ∀ frame ∈ frames, frame.header.dst = dst := by
  induction h with
  | nil => exact fun frame hframe => absurd hframe List.not_mem_nil
  | cons hframe _ ih =>
      intro frame hmem
      rcases List.mem_cons.mp hmem with rfl | hmem
      · obtain ⟨bytes, -, rfl⟩ := hframe
        rfl
      · exact ih frame hmem

theorem tells_of_brings (h : iface.Brings frame message) :
    (InterfaceOp.recvFrame frame).tells iface ip =
      if message.senderIpAddress = ip then some message.senderEthernetAddress else none := by
  obtain ⟨hfor, htype, hparsed⟩ := h
  rw [InterfaceOp.tells, if_pos ⟨hfor, htype⟩, hparsed]

theorem tells_of_not_brings (h : ∀ message, ¬ iface.Brings frame message) :
    (InterfaceOp.recvFrame frame).tells iface ip = none := by
  rw [InterfaceOp.tells]
  split_ifs with harp
  · split
    · rename_i message hparsed
      exact absurd ⟨harp.1, harp.2, hparsed⟩ (h message)
    · rfl
  · rfl

/-! ## One step of one next hop -/

open View

/-- The record after an operation, put together from what the operation does to the next hop. -/
theorem Hop.record_eq {hop : Hop} {now : Nat} {told : Option EthernetAddress}
    {requests ipv4 : List EthernetFrame}
    (hrequests : newArpRequests iface iface1 ip = requests) (htold : op.tells iface ip = told)
    (hipv4 : (if op.hop = some ip then newIpv4Frames iface iface1 else []) = ipv4) :
    hop.record iface iface1 now ip op =
      { requests := hop.requests ++ requests.map (fun _ => now)
        heard := (told.map (fun mac => (mac, now))).or hop.heard
        emitted := hop.emitted ++ ipv4.map (fun frame =>
          { frame := frame, time := now, heard := (told.map (fun mac => (mac, now))).or hop.heard })
        waiting :=
          if iface1.pending ip = none then []
          else hop.waiting ++
            (op.handed ip).map (fun datagram => { datagram := datagram, joined := now })
        dropped := hop.dropped ++
          (lapsed iface1 ip hop.waiting op).map (fun waiting => (waiting, now)) } := by
  unfold record
  rw [hrequests, htold, hipv4]

variable {c c1 : Clock}

theorem View.Sane.waiting_nil {v : View} (h : Sane v) (hpending : v.pending = none) :
    v.hop.waiting = [] := by
  have hwaiting := h.waiting
  rw [hpending] at hwaiting
  exact List.map_eq_nil_iff.mp hwaiting

/-- An operation that leaves a next hop alone. -/
theorem effect_unchanged (h : Sane (c.view ip)) (hcache : iface1.arpCache ip = c.iface.arpCache ip)
    (hpending : iface1.pending ip = c.iface.pending ip)
    (hrequests : newArpRequests c.iface iface1 ip = []) (htold : op.tells c.iface ip = none)
    (hipv4 : (if op.hop = some ip then newIpv4Frames c.iface iface1 else []) = [])
    (hhanded : op.handed ip = []) (helapsed : op.elapsed = 0)
    (hlapsed : Hop.lapsed iface1 ip (c.hop ip).waiting op = []) :
    Effect (c.view ip) ((c.after op iface1).view ip) := by
  have hwaiting : (if iface1.pending ip = none then []
      else (c.hop ip).waiting) = (c.hop ip).waiting := by
    split_ifs with hnone
    · exact (h.waiting_nil (hpending.symm.trans hnone)).symm
    · rfl
  have hview : (c.after op iface1).view ip = c.view ip := by
    unfold Clock.view Clock.after
    dsimp only
    rw [Hop.record_eq hrequests htold hipv4, hhanded, hlapsed, helapsed, hcache, hpending]
    rw [hpending] at hwaiting
    simp only [List.map_nil, List.append_nil, Option.map_none, Option.none_or, hwaiting,
      Nat.add_zero]
  rw [hview]
  exact Effect.unchanged

/-- A datagram for another next hop. -/
theorem effect_other (h : Sane (c.view ip)) (hip : target ≠ ip)
    (hcache : iface1.arpCache ip = c.iface.arpCache ip)
    (hpending : iface1.pending ip = c.iface.pending ip)
    (hrequests : newArpRequests c.iface iface1 ip = []) :
    Effect (c.view ip) ((c.after (.sendDatagram datagram target) iface1).view ip) := by
  have hhop : ¬ (InterfaceOp.sendDatagram datagram target).hop = some ip := by
    intro hsome
    exact hip (Option.some.inj hsome)
  exact effect_unchanged h hcache hpending hrequests rfl (if_neg hhop) (if_neg hip) rfl rfl

/-- A datagram for an address that is known. -/
theorem effect_emitted (h : Sane (c.view ip))
    (hcached : c.iface.lookupEthernetAddress target = some mac)
    (hframe : Carries c.iface.ethernetAddress mac datagram frame) :
    Effect (c.view ip)
      ((c.after (.sendDatagram datagram target) (c.iface.enqueue [frame])).view ip) := by
  have hcarries : List.Forall₂ (Carries c.iface.ethernetAddress mac) [datagram] [frame] :=
    .cons hframe .nil
  have hrequests : newArpRequests c.iface (c.iface.enqueue [frame]) ip = [] := by
    rw [newArpRequests_of_framesOut rfl]
    exact filter_asksFor_of_carries hcarries
  have hframes : newIpv4Frames c.iface (c.iface.enqueue [frame]) = [frame] := by
    rw [newIpv4Frames_of_framesOut rfl]
    exact filter_of_carries hcarries
  by_cases hip : target = ip
  · subst hip
    obtain ⟨entry, hcache, rfl⟩ := Option.map_eq_some_iff.mp hcached
    -- nothing waits for an address that is known
    have hpending : c.iface.pending target = none :=
      h.disjoint.resolve_left (fun hnone => by
        have hsome : c.iface.arpCache target = none := hnone
        rw [hsome] at hcache
        cases hcache)
    have hview : (c.after (.sendDatagram datagram target) (c.iface.enqueue [frame])).view target
        = (c.view target).emit [frame] := by
      have hnil : (c.hop target).waiting = [] := h.waiting_nil hpending
      unfold Clock.view Clock.after emit
      dsimp only
      rw [Hop.record_eq hrequests rfl (if_pos rfl), hframes]
      have hafter : (c.iface.enqueue [frame]).pending target = none := hpending
      rw [if_pos hafter]
      simp only [Hop.lapsed, List.map_nil, List.append_nil]
      rw [← hnil]
      rfl
    rw [hview]
    exact Effect.emitted hcache (dst_of_carries hcarries frame List.mem_cons_self)
  · exact effect_other h hip rfl rfl hrequests

section Await

variable {pending : PendingResolution}

/-- A datagram joins the queue of its next hop, with or without a request. -/
theorem view_awaited (hframes : ∀ frame ∈ frames, asksFor target frame = true)
    (hipv4 : frames.filter (fun frame => frame.header.ethertype = ETHERTYPE_IPV4) = []) :
    (c.after (.sendDatagram datagram target) ((c.iface.await target pending).enqueue frames)).view
        target
      = { (c.view target).join datagram pending with
          hop :=
            { ((c.view target).join datagram pending).hop with
              requests := (c.hop target).requests ++ frames.map (fun _ => c.now) } } := by
  set iface1 := (c.iface.await target pending).enqueue frames with hiface1
  have hrequests : newArpRequests c.iface iface1 target = frames := by
    rw [newArpRequests_of_framesOut rfl]
    exact List.filter_eq_self.mpr hframes
  have hnew : newIpv4Frames c.iface iface1 = [] := by
    rw [newIpv4Frames_of_framesOut rfl]
    exact hipv4
  have hpending : iface1.pending target = some pending := Function.update_self ..
  have hsome : ¬ iface1.pending target = none := by
    rw [hpending]
    exact Option.some_ne_none pending
  have hhanded : (InterfaceOp.sendDatagram datagram target).handed target = [datagram] :=
    if_pos rfl
  unfold Clock.view Clock.after join
  dsimp only
  rw [Hop.record_eq hrequests rfl (if_pos rfl), hnew, if_neg hsome, hhanded, hpending]
  simp only [Hop.lapsed, List.map_nil, List.append_nil]
  rfl

theorem effect_requested {request : EthernetFrame} (h : Sane (c.view ip))
    (hmiss : c.iface.lookupEthernetAddress target = none)
    (hdue : (c.iface.entry target).shouldSendArpRequest = true)
    (hrequest : CarriesArp c.iface.ethernetAddress EthernetAddress.BROADCAST
      (.request c.iface.ethernetAddress c.iface.ipAddress target) request) :
    Effect (c.view ip) ((c.after (.sendDatagram datagram target)
      ((c.iface.await target ((c.iface.entry target).push datagram).markRequestSent).enqueue
        [request])).view ip) := by
  have hasks : ∀ ip, asksFor ip request = (target == ip) := by
    intro ip
    rw [asksFor_of_carriesArp hrequest]
    exact Bool.true_and _
  have hipv4 : [request].filter (fun frame => frame.header.ethertype = ETHERTYPE_IPV4) = [] := by
    apply filter_of_carriesArp
    intro frame hframe
    obtain rfl := List.mem_singleton.mp hframe
    exact ⟨_, _, hrequest⟩
  by_cases hip : target = ip
  · subst hip
    have hframes : ∀ frame ∈ [request], asksFor target frame = true := by
      intro frame hframe
      obtain rfl := List.mem_singleton.mp hframe
      rw [hasks, beq_self_eq_true]
    rw [view_awaited hframes hipv4]
    exact Effect.requested (Option.map_eq_none_iff.mp hmiss) hdue
  · have hothers : newArpRequests c.iface ((c.iface.await target
        ((c.iface.entry target).push datagram).markRequestSent).enqueue [request]) ip = [] := by
      rw [newArpRequests_of_framesOut rfl, List.filter_cons_of_neg, List.filter_nil]
      rw [hasks, beq_iff_eq]
      exact hip
    exact effect_other h hip rfl (Function.update_of_ne (Ne.symm hip) _ c.iface.pending) hothers

theorem effect_queued (h : Sane (c.view ip))
    (hmiss : c.iface.lookupEthernetAddress target = none)
    (hdue : (c.iface.entry target).shouldSendArpRequest = false) :
    Effect (c.view ip) ((c.after (.sendDatagram datagram target)
      (c.iface.await target ((c.iface.entry target).push datagram))).view ip) := by
  rw [← enqueue_nil (c.iface.await target ((c.iface.entry target).push datagram))]
  by_cases hip : target = ip
  · subst hip
    rw [view_awaited (fun frame hframe => absurd hframe List.not_mem_nil) rfl]
    simp only [List.map_nil, List.append_nil]
    exact Effect.queued (Option.map_eq_none_iff.mp hmiss) hdue
  · have hrequests : newArpRequests c.iface
        ((c.iface.await target ((c.iface.entry target).push datagram)).enqueue []) ip = [] := by
      rw [newArpRequests_of_framesOut rfl, List.filter_nil]
    exact effect_other h hip rfl (Function.update_of_ne (Ne.symm hip) _ c.iface.pending) hrequests

end Await

/-- An address is learned: the message is the last that was heard, and the queue is emitted. -/
theorem effect_learned {replies : List EthernetFrame} (h : Sane (c.view ip))
    (hbrings : c.iface.Brings frame message)
    (hframes : List.Forall₂ (Carries c.iface.ethernetAddress message.senderEthernetAddress)
      (c.iface.queue message.senderIpAddress) frames)
    (hreplies : c.iface.Replies message replies) :
    Effect (c.view ip) ((c.after (.recvFrame frame)
      ((c.iface.learn message.senderIpAddress message.senderEthernetAddress).enqueue
        (frames ++ replies))).view ip) := by
  set iface1 := (c.iface.learn message.senderIpAddress message.senderEthernetAddress).enqueue
    (frames ++ replies) with hiface1
  have hrequests : newArpRequests c.iface iface1 ip = [] := by
    rw [newArpRequests_of_framesOut rfl, List.filter_append, filter_asksFor_of_carries hframes,
      hreplies.filter_asksFor]
    rfl
  have hnew : newIpv4Frames c.iface iface1 = frames := by
    rw [newIpv4Frames_of_framesOut rfl, List.filter_append, filter_of_carries hframes,
      filter_of_carriesArp hreplies.carriesArp, List.append_nil]
  have htold : (InterfaceOp.recvFrame frame).tells c.iface ip = _ := tells_of_brings hbrings
  have hhop : (InterfaceOp.recvFrame frame).hop = some message.senderIpAddress := by
    obtain ⟨-, -, hparsed⟩ := hbrings
    simp only [InterfaceOp.hop, hparsed]
  by_cases hip : message.senderIpAddress = ip
  · -- the sender of the message
    rw [if_pos hip] at htold
    have hview : (c.after (.recvFrame frame) iface1).view ip
        = ((c.view ip).hear message.senderEthernetAddress).emit frames := by
      have hpending : iface1.pending ip = none := by
        rw [hiface1, ← hip]
        exact Function.update_self ..
      have hcache : iface1.arpCache ip
          = some { ethernetAddress := message.senderEthernetAddress, ageMs := 0 } := by
        rw [hiface1, ← hip]
        exact Function.update_self ..
      unfold Clock.view Clock.after hear emit
      dsimp only
      rw [Hop.record_eq hrequests htold (if_pos (hip ▸ hhop)), hnew, if_pos hpending, hpending,
        hcache]
      simp only [Hop.lapsed, List.map_nil, List.append_nil]
      rfl
    rw [hview]
    exact Effect.learned (dst_of_carries hframes)
  · -- somebody else
    rw [if_neg hip] at htold
    have hother : ¬ (InterfaceOp.recvFrame frame).hop = some ip := by
      rw [hhop, Option.some.injEq]
      exact hip
    exact effect_unchanged h (Function.update_of_ne (Ne.symm hip) _ c.iface.arpCache)
      (Function.update_of_ne (Ne.symm hip) _ c.iface.pending) hrequests htold (if_neg hother) rfl rfl
      rfl

theorem view_ticked (c : Clock) (ip : Ipv4AddrBytes) (elapsedMs : Nat) :
    (c.after (.tick elapsedMs) (c.iface.tick elapsedMs)).view ip
      = (c.view ip).tick elapsedMs := by
  have hframes : (c.iface.tick elapsedMs).framesOut = c.iface.framesOut ++ [] :=
    (List.append_nil _).symm
  have hrequests : newArpRequests c.iface (c.iface.tick elapsedMs) ip = [] :=
    newArpRequests_of_framesOut hframes
  have hipv4 : (if (InterfaceOp.tick elapsedMs).hop = some ip then
      newIpv4Frames c.iface (c.iface.tick elapsedMs) else []) = [] :=
    if_neg (Option.some_ne_none ip).symm
  unfold Clock.view Clock.after View.tick
  dsimp only
  rw [Hop.record_eq hrequests rfl hipv4]
  simp only [InterfaceOp.handed, List.map_nil, List.append_nil]
  rfl

/-- What one operation does to one next hop. -/
theorem step_effect (h : Sane (c.view ip)) (hstep : c.step op = .ok c1) :
    Effect (c.view ip) (c1.view ip) := by
  obtain ⟨iface1, hperform, hok⟩ := Exec.bind_eq_ok.mp hstep
  obtain rfl := Except.ok.inj hok
  -- operations that change the queues of the interface only
  have hsame : ∀ (op : InterfaceOp) (frames : List EthernetFrame) (datagrams : List Ipv4Datagram),
      op.tells c.iface ip = none → op.handed ip = [] → op.elapsed = 0 →
      (∀ iface waiting, Hop.lapsed iface ip waiting op = []) →
      (frames.drop c.iface.framesOut.length) = [] →
      Effect (c.view ip)
        ((c.after op { c.iface with framesOut := frames, datagramsIn := datagrams }).view ip) := by
    intro op frames datagrams htold hhanded helapsed hlapsed hdrop
    have hrequests : newArpRequests c.iface
        { c.iface with framesOut := frames, datagramsIn := datagrams } ip = [] := by
      rw [newArpRequests, hdrop, List.filter_nil]
    have hnew : newIpv4Frames c.iface
        { c.iface with framesOut := frames, datagramsIn := datagrams } = [] := by
      rw [newIpv4Frames, hdrop, List.filter_nil]
    exact effect_unchanged h rfl rfl hrequests htold (by rw [hnew, ite_self]) hhanded helapsed
      (hlapsed _ _)
  have hperformed := perform_performed hperform
  cases hperformed with
  | emitted hcached hframe => exact effect_emitted h hcached hframe
  | requested hmiss hdue hrequest => exact effect_requested h hmiss hdue hrequest
  | queued hmiss hdue => exact effect_queued h hmiss hdue
  | learned hbrings hframes hreplies => exact effect_learned h hbrings hframes hreplies
  | received hno =>
      exact hsame _ c.iface.framesOut _ (tells_of_not_brings hno) rfl rfl (fun _ _ => rfl)
        (List.drop_length ..)
  | ticked =>
      rw [view_ticked]
      exact Effect.ticked _
  | poppedFrame =>
      exact hsame _ c.iface.framesOut.tail c.iface.datagramsIn rfl rfl rfl (fun _ _ => rfl)
        (List.drop_eq_nil_of_le (by simp))
  | poppedDatagram =>
      exact hsame _ c.iface.framesOut _ rfl rfl rfl (fun _ _ => rfl) (List.drop_length ..)

end NetworkInterface

end Minnow
