import Minnow.ArpMessage
import Minnow.Ipv4Datagram
import Mathlib.Logic.Function.Basic

set_option autoImplicit false

/-! # A network interface

`network_interface.rs`: IPv4 datagrams over Ethernet, with ARP. The interface learns the
Ethernet address behind an IP address from every ARP message it receives; what is sent to an
address that is not known yet waits in a queue.

The two hash tables are partial functions: the code looks up, inserts and removes single
addresses and passes over all entries, each by itself. What an operation can do is said once,
by `perform_performed`.
-/

namespace Minnow

def ARP_CACHE_TTL_MS : Nat := 30000
def ARP_REQUEST_COOLDOWN_MS : Nat := 5000
def PENDING_DATAGRAM_TTL_MS : Nat := 5000

structure ArpCacheEntry where
  ethernetAddress : EthernetAddress
  ageMs : Nat
  deriving DecidableEq, Repr

structure PendingResolution where
  datagrams : List Ipv4Datagram
  ageMs : Nat
  requestAgeMs : Nat
  deriving DecidableEq, Repr

namespace PendingResolution

def new : PendingResolution where
  datagrams := []
  ageMs := 0
  requestAgeMs := ARP_REQUEST_COOLDOWN_MS

def shouldSendArpRequest (pending : PendingResolution) : Bool :=
  decide (ARP_REQUEST_COOLDOWN_MS ≤ pending.requestAgeMs)

def markRequestSent (pending : PendingResolution) : PendingResolution :=
  { pending with requestAgeMs := 0 }

def tick (pending : PendingResolution) (elapsedMs : Nat) : PendingResolution :=
  { pending with
    ageMs := saturatingAdd pending.ageMs elapsedMs
    requestAgeMs := saturatingAdd pending.requestAgeMs elapsedMs }

def isExpired (pending : PendingResolution) : Bool :=
  decide (PENDING_DATAGRAM_TTL_MS ≤ pending.ageMs)

/-- `datagrams.push_back(datagram)`. -/
def push (pending : PendingResolution) (datagram : Ipv4Datagram) : PendingResolution :=
  { pending with datagrams := pending.datagrams ++ [datagram] }

end PendingResolution

structure NetworkInterface where
  ethernetAddress : EthernetAddress
  ipAddress : Ipv4AddrBytes
  arpCache : Ipv4AddrBytes → Option ArpCacheEntry
  pending : Ipv4AddrBytes → Option PendingResolution
  framesOut : List EthernetFrame
  datagramsIn : List Ipv4Datagram

namespace NetworkInterface

def new (ethernetAddress : EthernetAddress) (ipAddress : Ipv4AddrBytes) : NetworkInterface where
  ethernetAddress := ethernetAddress
  ipAddress := ipAddress
  arpCache := fun _ => none
  pending := fun _ => none
  framesOut := []
  datagramsIn := []

def lookupEthernetAddress (iface : NetworkInterface) (ip : Ipv4AddrBytes) :
    Option EthernetAddress :=
  (iface.arpCache ip).map ArpCacheEntry.ethernetAddress

def popFrame (iface : NetworkInterface) : NetworkInterface × Option EthernetFrame :=
  ({ iface with framesOut := iface.framesOut.tail }, iface.framesOut.head?)

def popDatagram (iface : NetworkInterface) : NetworkInterface × Option Ipv4Datagram :=
  ({ iface with datagramsIn := iface.datagramsIn.tail }, iface.datagramsIn.head?)

def emitIpv4Frame (iface : NetworkInterface) (datagram : Ipv4Datagram) (dst : EthernetAddress) :
    Exec NetworkInterface := do
  let payload ← datagram.serialize
  let frame := EthernetFrame.ipv4 dst iface.ethernetAddress payload
  .ok { iface with framesOut := iface.framesOut ++ [frame] }

def emitArpRequest (iface : NetworkInterface) (targetIp : Ipv4AddrBytes) :
    Exec NetworkInterface := do
  let arp := ArpMessage.request iface.ethernetAddress iface.ipAddress targetIp
  let frame := EthernetFrame.arp EthernetAddress.BROADCAST iface.ethernetAddress (← arp.serialize)
  .ok { iface with framesOut := iface.framesOut ++ [frame] }

def emitArpReply (iface : NetworkInterface) (targetEthernetAddress : EthernetAddress)
    (targetIp : Ipv4AddrBytes) : Exec NetworkInterface := do
  let arp := ArpMessage.reply iface.ethernetAddress iface.ipAddress targetEthernetAddress targetIp
  let frame := EthernetFrame.arp targetEthernetAddress iface.ethernetAddress (← arp.serialize)
  .ok { iface with framesOut := iface.framesOut ++ [frame] }

/-- The loop of `learn_arp_mapping`. -/
def emitPending (iface : NetworkInterface) (ethernetAddress : EthernetAddress) :
    List Ipv4Datagram → Exec NetworkInterface
  | [] => .ok iface
  | datagram :: rest => do
      let iface ← iface.emitIpv4Frame datagram ethernetAddress
      iface.emitPending ethernetAddress rest

def learnArpMapping (iface : NetworkInterface) (ip : Ipv4AddrBytes)
    (ethernetAddress : EthernetAddress) : Exec NetworkInterface :=
  let iface :=
    { iface with
      arpCache := Function.update iface.arpCache ip
        (some { ethernetAddress := ethernetAddress, ageMs := 0 }) }
  match iface.pending ip with
  | some pending =>
      emitPending { iface with pending := Function.update iface.pending ip none } ethernetAddress
        pending.datagrams
  | none => .ok iface

def sendDatagram (iface : NetworkInterface) (datagram : Ipv4Datagram) (nextHop : Ipv4AddrBytes) :
    Exec NetworkInterface :=
  match iface.lookupEthernetAddress nextHop with
  | some ethernetAddress => iface.emitIpv4Frame datagram ethernetAddress
  | none =>
      let pending := ((iface.pending nextHop).getD .new).push datagram
      if pending.shouldSendArpRequest then
        emitArpRequest
          { iface with
            pending := Function.update iface.pending nextHop (some pending.markRequestSent) }
          nextHop
      else .ok { iface with pending := Function.update iface.pending nextHop (some pending) }

def recvFrame (iface : NetworkInterface) (frame : EthernetFrame) : Exec NetworkInterface :=
  if !frame.isFor iface.ethernetAddress then .ok iface
  else if frame.header.ethertype = ETHERTYPE_IPV4 then do
    match ← Ipv4Datagram.parseBytes frame.payload with
    | .ok datagram => .ok { iface with datagramsIn := iface.datagramsIn ++ [datagram] }
    | .error _ => .ok iface
  else if frame.header.ethertype = ETHERTYPE_ARP then do
    match ← ArpMessage.parseBytes frame.payload with
    | .ok message => do
        let iface ← iface.learnArpMapping message.senderIpAddress message.senderEthernetAddress
        if message.operation = .request ∧ message.targetIpAddress = iface.ipAddress then
          iface.emitArpReply message.senderEthernetAddress message.senderIpAddress
        else .ok iface
    | .error _ => .ok iface
  else .ok iface

def tick (iface : NetworkInterface) (elapsedMs : Nat) : NetworkInterface :=
  { iface with
    arpCache := fun ip =>
      ((iface.arpCache ip).map
        (fun entry => { entry with ageMs := saturatingAdd entry.ageMs elapsedMs })).filter
        (fun entry => entry.ageMs < ARP_CACHE_TTL_MS)
    pending := fun ip =>
      ((iface.pending ip).map (fun pending => pending.tick elapsedMs)).filter
        (fun pending => !pending.isExpired) }

inductive InterfaceOp where
  | sendDatagram (datagram : Ipv4Datagram) (nextHop : Ipv4AddrBytes)
  | recvFrame (frame : EthernetFrame)
  | tick (elapsedMs : Nat)
  | popFrame
  | popDatagram

def perform (iface : NetworkInterface) : InterfaceOp → Exec NetworkInterface
  | .sendDatagram datagram nextHop => iface.sendDatagram datagram nextHop
  | .recvFrame frame => iface.recvFrame frame
  | .tick elapsedMs => .ok (iface.tick elapsedMs)
  | .popFrame => .ok iface.popFrame.1
  | .popDatagram => .ok iface.popDatagram.1

/-- What `pending.entry(ip).or_insert_with(PendingResolution::new)` refers to. -/
def entry (iface : NetworkInterface) (ip : Ipv4AddrBytes) : PendingResolution :=
  (iface.pending ip).getD .new

/-- The datagrams that wait for the address of a next hop. -/
def queue (iface : NetworkInterface) (ip : Ipv4AddrBytes) : List Ipv4Datagram :=
  (iface.pending ip).elim [] PendingResolution.datagrams

/-! ## The frames that go out -/

/-- The frame carries the datagram. -/
def Carries (src dst : EthernetAddress) (datagram : Ipv4Datagram) (frame : EthernetFrame) : Prop :=
  ∃ bytes, datagram.serialize = .ok bytes ∧ frame = EthernetFrame.ipv4 dst src bytes

/-- The frame carries the ARP message. -/
def CarriesArp (src dst : EthernetAddress) (message : ArpMessage) (frame : EthernetFrame) : Prop :=
  ∃ bytes, message.serialize = .ok bytes ∧ frame = EthernetFrame.arp dst src bytes

/-- The interface with more frames to send. -/
def enqueue (iface : NetworkInterface) (frames : List EthernetFrame) : NetworkInterface :=
  { iface with framesOut := iface.framesOut ++ frames }

/-- The interface that knows the Ethernet address of `ip`. -/
def learn (iface : NetworkInterface) (ip : Ipv4AddrBytes) (mac : EthernetAddress) :
    NetworkInterface :=
  { iface with
    arpCache := Function.update iface.arpCache ip (some { ethernetAddress := mac, ageMs := 0 })
    pending := Function.update iface.pending ip none }

/-- The interface with another entry in the pending table. -/
def await (iface : NetworkInterface) (ip : Ipv4AddrBytes) (pending : PendingResolution) :
    NetworkInterface :=
  { iface with pending := Function.update iface.pending ip (some pending) }

variable {iface iface1 : NetworkInterface} {datagram : Ipv4Datagram} {datagrams : List Ipv4Datagram}
  {mac : EthernetAddress} {ip nextHop : Ipv4AddrBytes} {frame : EthernetFrame} {op : InterfaceOp}
  {message : ArpMessage}

@[simp] theorem enqueue_nil (iface : NetworkInterface) : iface.enqueue [] = iface := by
  unfold enqueue
  rw [List.append_nil]

@[simp] theorem enqueue_enqueue (iface : NetworkInterface) (frames more : List EthernetFrame) :
    (iface.enqueue frames).enqueue more = iface.enqueue (frames ++ more) := by
  unfold enqueue
  dsimp only
  rw [List.append_assoc]

theorem emitIpv4Frame_eq_ok : iface.emitIpv4Frame datagram mac = .ok iface1 ↔
    ∃ frame, Carries iface.ethernetAddress mac datagram frame ∧ iface1 = iface.enqueue [frame] := by
  unfold emitIpv4Frame
  rw [Exec.bind_eq_ok]
  constructor
  · rintro ⟨bytes, hbytes, hok⟩
    exact ⟨_, ⟨bytes, hbytes, rfl⟩, (Except.ok.inj hok).symm⟩
  · rintro ⟨frame, ⟨bytes, hbytes, rfl⟩, rfl⟩
    exact ⟨bytes, hbytes, rfl⟩

/-- The loop emits one frame for each datagram, in their order. -/
theorem emitPending_eq_ok : iface.emitPending mac datagrams = .ok iface1 ↔
    ∃ frames, List.Forall₂ (Carries iface.ethernetAddress mac) datagrams frames ∧
      iface1 = iface.enqueue frames := by
  induction datagrams generalizing iface with
  | nil =>
      constructor
      · intro h
        obtain rfl := Except.ok.inj h
        exact ⟨[], .nil, (enqueue_nil iface).symm⟩
      · rintro ⟨frames, hframes, rfl⟩
        obtain rfl := List.forall₂_nil_left_iff.mp hframes
        rw [enqueue_nil]
        rfl
  | cons datagram rest ih =>
      rw [emitPending, Exec.bind_eq_ok]
      constructor
      · rintro ⟨iface2, hemit, hrest⟩
        obtain ⟨frame, hframe, rfl⟩ := emitIpv4Frame_eq_ok.mp hemit
        obtain ⟨frames, hframes, rfl⟩ := ih.mp hrest
        exact ⟨frame :: frames, .cons hframe hframes, enqueue_enqueue iface [frame] frames⟩
      · rintro ⟨frames, hframes, rfl⟩
        cases hframes with
        | @cons _ frame _ frames hframe hframes =>
            exact ⟨_, emitIpv4Frame_eq_ok.mpr ⟨frame, hframe, rfl⟩,
              ih.mpr ⟨frames, hframes, (enqueue_enqueue iface [frame] frames).symm⟩⟩

theorem emitArpRequest_ok (iface : NetworkInterface) (ip : Ipv4AddrBytes) : ∃ frame,
    CarriesArp iface.ethernetAddress EthernetAddress.BROADCAST
      (.request iface.ethernetAddress iface.ipAddress ip) frame ∧
    iface.emitArpRequest ip = .ok (iface.enqueue [frame]) := by
  obtain ⟨bytes, hbytes⟩ :=
    (ArpMessage.request iface.ethernetAddress iface.ipAddress ip).serialize_total
  refine ⟨_, ⟨bytes, hbytes, rfl⟩, ?_⟩
  rw [emitArpRequest, hbytes]
  rfl

theorem emitArpReply_ok (iface : NetworkInterface) (mac : EthernetAddress) (ip : Ipv4AddrBytes) :
    ∃ frame, CarriesArp iface.ethernetAddress mac
      (.reply iface.ethernetAddress iface.ipAddress mac ip) frame ∧
    iface.emitArpReply mac ip = .ok (iface.enqueue [frame]) := by
  obtain ⟨bytes, hbytes⟩ :=
    (ArpMessage.reply iface.ethernetAddress iface.ipAddress mac ip).serialize_total
  refine ⟨_, ⟨bytes, hbytes, rfl⟩, ?_⟩
  rw [emitArpReply, hbytes]
  rfl

theorem learnArpMapping_eq_ok : iface.learnArpMapping ip mac = .ok iface1 ↔
    ∃ frames, List.Forall₂ (Carries iface.ethernetAddress mac) (iface.queue ip) frames ∧
      iface1 = (iface.learn ip mac).enqueue frames := by
  unfold learnArpMapping queue
  cases hpending : iface.pending ip with
  | none =>
      -- removing an entry that is not there changes nothing
      have hlearn : { iface with
          arpCache := Function.update iface.arpCache ip
            (some { ethernetAddress := mac, ageMs := 0 }) } = iface.learn ip mac := by
        have hsame : Function.update iface.pending ip none = iface.pending := by
          rw [← hpending, Function.update_eq_self]
        unfold learn
        rw [hsame]
      simp only [hpending, Option.elim_none, List.forall₂_nil_left_iff]
      rw [hlearn, Except.ok.injEq]
      constructor
      · rintro rfl
        exact ⟨[], rfl, (enqueue_nil _).symm⟩
      · rintro ⟨frames, rfl, rfl⟩
        exact (enqueue_nil _).symm
  | some pending =>
      simp only [hpending, Option.elim_some]
      exact emitPending_eq_ok

/-! ## What an operation can do -/

/-- The frame brings the ARP message to the interface. -/
def Brings (iface : NetworkInterface) (frame : EthernetFrame) (message : ArpMessage) : Prop :=
  frame.isFor iface.ethernetAddress = true ∧ frame.header.ethertype = ETHERTYPE_ARP ∧
    ArpMessage.parseBytes frame.payload = .ok (.ok message)

/-- The message asks for the address of the interface. -/
def Asks (iface : NetworkInterface) (message : ArpMessage) : Prop :=
  message.operation = .request ∧ message.targetIpAddress = iface.ipAddress

/-- What the interface answers to an ARP message. -/
inductive Replies (iface : NetworkInterface) (message : ArpMessage) : List EthernetFrame → Prop where
  | silent (hno : ¬ iface.Asks message) : Replies iface message []
  | reply {frame : EthernetFrame} (hasks : iface.Asks message)
      (hframe : CarriesArp iface.ethernetAddress message.senderEthernetAddress
        (.reply iface.ethernetAddress iface.ipAddress message.senderEthernetAddress
          message.senderIpAddress) frame) : Replies iface message [frame]

/-- What an operation does. -/
inductive Performed (iface : NetworkInterface) : InterfaceOp → NetworkInterface → Prop where
  | emitted {datagram : Ipv4Datagram} {nextHop : Ipv4AddrBytes} {mac : EthernetAddress}
      {frame : EthernetFrame} (hcached : iface.lookupEthernetAddress nextHop = some mac)
      (hframe : Carries iface.ethernetAddress mac datagram frame) :
      Performed iface (.sendDatagram datagram nextHop) (iface.enqueue [frame])
  | requested {datagram : Ipv4Datagram} {nextHop : Ipv4AddrBytes} {request : EthernetFrame}
      (hmiss : iface.lookupEthernetAddress nextHop = none)
      (hdue : (iface.entry nextHop).shouldSendArpRequest = true)
      (hrequest : CarriesArp iface.ethernetAddress EthernetAddress.BROADCAST
        (.request iface.ethernetAddress iface.ipAddress nextHop) request) :
      Performed iface (.sendDatagram datagram nextHop)
        ((iface.await nextHop ((iface.entry nextHop).push datagram).markRequestSent).enqueue
          [request])
  | queued {datagram : Ipv4Datagram} {nextHop : Ipv4AddrBytes}
      (hmiss : iface.lookupEthernetAddress nextHop = none)
      (hdue : (iface.entry nextHop).shouldSendArpRequest = false) :
      Performed iface (.sendDatagram datagram nextHop)
        (iface.await nextHop ((iface.entry nextHop).push datagram))
  | learned {frame : EthernetFrame} {message : ArpMessage} {frames replies : List EthernetFrame}
      (hbrings : iface.Brings frame message)
      (hframes : List.Forall₂ (Carries iface.ethernetAddress message.senderEthernetAddress)
        (iface.queue message.senderIpAddress) frames)
      (hreplies : iface.Replies message replies) :
      Performed iface (.recvFrame frame)
        ((iface.learn message.senderIpAddress message.senderEthernetAddress).enqueue
          (frames ++ replies))
  | received {frame : EthernetFrame} {datagrams : List Ipv4Datagram}
      (hno : ∀ message, ¬ iface.Brings frame message) :
      Performed iface (.recvFrame frame)
        { iface with datagramsIn := iface.datagramsIn ++ datagrams }
  | ticked {elapsedMs : Nat} : Performed iface (.tick elapsedMs) (iface.tick elapsedMs)
  | poppedFrame : Performed iface .popFrame { iface with framesOut := iface.framesOut.tail }
  | poppedDatagram :
      Performed iface .popDatagram { iface with datagramsIn := iface.datagramsIn.tail }

/-- A datagram for an address that is known. -/
theorem sendDatagram_of_cached (hcached : iface.lookupEthernetAddress nextHop = some mac) :
    iface.sendDatagram datagram nextHop = iface.emitIpv4Frame datagram mac := by
  rw [sendDatagram, hcached]

/-- A datagram for an address that is not known. -/
theorem sendDatagram_of_miss (hmiss : iface.lookupEthernetAddress nextHop = none) :
    iface.sendDatagram datagram nextHop =
      if (iface.entry nextHop).shouldSendArpRequest then
        (iface.await nextHop ((iface.entry nextHop).push datagram).markRequestSent).emitArpRequest
          nextHop
      else .ok (iface.await nextHop ((iface.entry nextHop).push datagram)) := by
  rw [sendDatagram, hmiss]
  rfl

theorem sendDatagram_performed (h : iface.sendDatagram datagram nextHop = .ok iface1) :
    Performed iface (.sendDatagram datagram nextHop) iface1 := by
  cases hcached : iface.lookupEthernetAddress nextHop with
  | some mac =>
      rw [sendDatagram_of_cached hcached] at h
      obtain ⟨frame, hframe, rfl⟩ := emitIpv4Frame_eq_ok.mp h
      exact .emitted hcached hframe
  | none =>
      rw [sendDatagram_of_miss hcached] at h
      split_ifs at h with hdue
      · obtain ⟨request, hrequest, hemit⟩ := emitArpRequest_ok
          (iface.await nextHop ((iface.entry nextHop).push datagram).markRequestSent) nextHop
        obtain rfl := Except.ok.inj (h.symm.trans hemit)
        exact .requested hcached hdue hrequest
      · obtain rfl := Except.ok.inj h
        exact .queued hcached (Bool.eq_false_iff.mpr hdue)

/-- A frame with an ARP message. -/
theorem recvFrame_of_brings (hbrings : iface.Brings frame message) :
    iface.recvFrame frame = (do
      let iface ← iface.learnArpMapping message.senderIpAddress message.senderEthernetAddress
      if message.operation = .request ∧ message.targetIpAddress = iface.ipAddress then
        iface.emitArpReply message.senderEthernetAddress message.senderIpAddress
      else .ok iface) := by
  obtain ⟨hfor, htype, hparsed⟩ := hbrings
  have hother : ¬ ETHERTYPE_ARP = ETHERTYPE_IPV4 := by decide
  rw [recvFrame, hfor, htype, if_neg (by simp), if_neg hother, if_pos rfl, hparsed]
  rfl

/-- A frame with a datagram. -/
theorem recvFrame_of_ipv4 (hfor : frame.isFor iface.ethernetAddress = true)
    (htype : frame.header.ethertype = ETHERTYPE_IPV4)
    (hparsed : Ipv4Datagram.parseBytes frame.payload = .ok (.ok datagram)) :
    iface.recvFrame frame
      = .ok { iface with datagramsIn := iface.datagramsIn ++ [datagram] } := by
  rw [recvFrame, hfor, htype, if_neg (by simp), if_pos rfl, hparsed]
  rfl

theorem learned_performed (hbrings : iface.Brings frame message)
    (h : iface.recvFrame frame = .ok iface1) : Performed iface (.recvFrame frame) iface1 := by
  rw [recvFrame_of_brings hbrings] at h
  obtain ⟨iface2, hlearn, h⟩ := Exec.bind_eq_ok.mp h
  obtain ⟨frames, hframes, rfl⟩ := learnArpMapping_eq_ok.mp hlearn
  split_ifs at h with hasks
  · obtain ⟨reply, hreply, hemit⟩ := emitArpReply_ok
      ((iface.learn message.senderIpAddress message.senderEthernetAddress).enqueue frames)
      message.senderEthernetAddress message.senderIpAddress
    rw [hemit, enqueue_enqueue] at h
    obtain rfl := Except.ok.inj h
    exact .learned hbrings hframes (.reply hasks hreply)
  · obtain rfl := Except.ok.inj h
    have hsilent := Performed.learned hbrings hframes (.silent hasks)
    rwa [List.append_nil] at hsilent

/-- A frame without an ARP message adds what the IPv4 parser makes of it, a datagram at most. -/
theorem recvFrame_of_not_brings (hno : ∀ message, ¬ iface.Brings frame message)
    (h : iface.recvFrame frame = .ok iface1) : ∃ datagrams,
      iface1 = { iface with datagramsIn := iface.datagramsIn ++ datagrams } ∧
      ∀ datagram ∈ datagrams, Ipv4Datagram.parseBytes frame.payload = .ok (.ok datagram) := by
  have hignored : ∃ datagrams,
      iface = { iface with datagramsIn := iface.datagramsIn ++ datagrams } ∧
      ∀ datagram ∈ datagrams, Ipv4Datagram.parseBytes frame.payload = .ok (.ok datagram) := by
    refine ⟨[], ?_, fun _ hmem => absurd hmem List.not_mem_nil⟩
    rw [List.append_nil]
  unfold recvFrame at h
  split_ifs at h with hfor hipv4 harp
  · -- for somebody else
    obtain rfl := Except.ok.inj h
    exact hignored
  · -- IPv4: a datagram that parses is taken, whatever its destination
    obtain ⟨parsed, hparsed, h⟩ := Exec.bind_eq_ok.mp h
    cases parsed with
    | error err =>
        obtain rfl := Except.ok.inj h
        exact hignored
    | ok datagram =>
        obtain rfl := Except.ok.inj h
        exact ⟨[datagram], rfl, List.forall_mem_singleton.mpr hparsed⟩
  · -- ARP: only a message that does not parse is left
    obtain ⟨parsed, hparsed, h⟩ := Exec.bind_eq_ok.mp h
    cases parsed with
    | error err =>
        obtain rfl := Except.ok.inj h
        exact hignored
    | ok message => exact absurd ⟨by simpa using hfor, harp, hparsed⟩ (hno message)
  · -- another ethertype
    obtain rfl := Except.ok.inj h
    exact hignored

theorem received_performed (hno : ∀ message, ¬ iface.Brings frame message)
    (h : iface.recvFrame frame = .ok iface1) : Performed iface (.recvFrame frame) iface1 := by
  obtain ⟨datagrams, rfl, -⟩ := recvFrame_of_not_brings hno h
  exact .received hno

theorem perform_performed (h : iface.perform op = .ok iface1) : Performed iface op iface1 := by
  cases op with
  | sendDatagram datagram nextHop => exact sendDatagram_performed h
  | recvFrame frame =>
      by_cases hbrings : ∃ message, iface.Brings frame message
      · obtain ⟨message, hmessage⟩ := hbrings
        exact learned_performed hmessage h
      · exact received_performed (not_exists.mp hbrings) h
  | tick elapsedMs =>
      obtain rfl := Except.ok.inj h
      exact .ticked
  | popFrame =>
      obtain rfl := Except.ok.inj h
      exact .poppedFrame
  | popDatagram =>
      obtain rfl := Except.ok.inj h
      exact .poppedDatagram

end NetworkInterface

end Minnow
