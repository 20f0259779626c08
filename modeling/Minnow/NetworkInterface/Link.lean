import Minnow.Library.Resolution
import Minnow.Library.Run
import Minnow.NetworkInterface.Basic

set_option autoImplicit false

/-! # Two interfaces on one link

Two new interfaces send datagrams to each other, and the frames they have queued are delivered
one by one, through the bytes on the wire. Each interface is a party of the abstract exchange
of `Library/Resolution.lean`: what it knows is its cache, what waits is its pending table, and
its frames encode the messages. The two levels make the same steps, so what holds of the
abstract exchange holds here: `resolution_delivers`.
-/

namespace Minnow

namespace NetworkInterface

open Resolution (Message Party Op sentBy)

/-- A side sends a datagram to the other, or its first frame is delivered. -/
def linkStep (iface : Side → NetworkInterface) : Op Ipv4Datagram → Exec (Side → NetworkInterface)
  | .send side datagram => do
      let sender ← (iface side).sendDatagram datagram (iface side.peer).ipAddress
      .ok (Function.update iface side sender)
  | .deliver side =>
      match (iface side).popFrame with
      | (_, none) => .ok iface
      | (sender, some frame) => do
          match ← EthernetFrame.parseBytes frame.serialize with
          | .ok frame => do
              let receiver ← (iface side.peer).recvFrame frame
              .ok (Function.update (Function.update iface side sender) side.peer receiver)
          | .error _ => .ok (Function.update iface side sender)

section Refinement

variable (mac : Side → EthernetAddress) (ip : Side → Ipv4AddrBytes) (side : Side)

/-- The frame is the message, as `side` sends it to its peer. -/
inductive Encodes : Message Ipv4Datagram → EthernetFrame → Prop where
  | data {datagram : Ipv4Datagram} {frame : EthernetFrame}
      (hframe : Carries (mac side) (mac side.peer) datagram frame) :
      Encodes (.data datagram) frame
  | request {frame : EthernetFrame}
      (hframe : CarriesArp (mac side) EthernetAddress.BROADCAST
        (.request (mac side) (ip side) (ip side.peer)) frame) : Encodes .request frame
  | reply {frame : EthernetFrame}
      (hframe : CarriesArp (mac side) (mac side.peer)
        (.reply (mac side) (ip side) (mac side.peer) (ip side.peer)) frame) : Encodes .reply frame

/-- The entry of the pending table in which these datagrams wait, while no time passes. -/
def Awaits (waiting : List Ipv4Datagram) (pending : Option PendingResolution) : Prop :=
  if waiting = [] then pending = none
  else ∃ entry ∈ pending, entry.datagrams = waiting ∧ entry.requestAgeMs = 0

/-- The interface of `side` is this party. -/
structure Refines (iface : NetworkInterface) (party : Party Ipv4Datagram) : Prop where
  ethernetAddress_eq : iface.ethernetAddress = mac side
  ipAddress_eq : iface.ipAddress = ip side
  cache : iface.lookupEthernetAddress (ip side.peer)
    = if party.known then some (mac side.peer) else none
  waiting : Awaits party.waiting (iface.pending (ip side.peer))
  others : ∀ a, a ≠ ip side.peer → iface.pending a = none
  frames : List.Forall₂ (Encodes mac ip side) party.outgoing iface.framesOut
  datagrams : iface.datagramsIn = party.received
  fits : ∀ datagram ∈ party.waiting, datagram.payload.length ≤ 65515

end Refinement

variable {mac : Side → EthernetAddress} {ip : Side → Ipv4AddrBytes} {side : Side}
  {iface iface1 : NetworkInterface} {party : Party Ipv4Datagram} {datagram : Ipv4Datagram}
  {datagrams : List Ipv4Datagram} {frame : EthernetFrame} {frames : List EthernetFrame}
  {message : Message Ipv4Datagram} {messages : List (Message Ipv4Datagram)}

theorem refines_new (mac : Side → EthernetAddress) (ip : Side → Ipv4AddrBytes) (side : Side) :
    Refines mac ip side (.new (mac side) (ip side)) .idle where
  ethernetAddress_eq := rfl
  ipAddress_eq := rfl
  cache := rfl
  waiting := by
    show if ([] : List Ipv4Datagram) = [] then _ else _
    rw [if_pos rfl]
    rfl
  others := fun a _ => rfl
  frames := .nil
  datagrams := rfl
  fits := fun datagram h => absurd h List.not_mem_nil

theorem carries_total (src dst : EthernetAddress) (h : datagram.payload.length ≤ 65515) :
    ∃ frame, Carries src dst datagram frame :=
  ⟨_, _, Ipv4Datagram.serialize_eq h, rfl⟩

theorem carries_all_total (src dst : EthernetAddress)
    (h : ∀ datagram ∈ datagrams, datagram.payload.length ≤ 65515) :
    ∃ frames, List.Forall₂ (Carries src dst) datagrams frames := by
  induction datagrams with
  | nil => exact ⟨[], .nil⟩
  | cons datagram rest ih =>
      obtain ⟨frame, hframe⟩ := carries_total src dst (h datagram List.mem_cons_self)
      obtain ⟨frames, hframes⟩ := ih (fun d hd => h d (List.mem_cons_of_mem _ hd))
      exact ⟨frame :: frames, .cons hframe hframes⟩

theorem encodes_data (h : List.Forall₂ (Carries (mac side) (mac side.peer)) datagrams frames) :
    List.Forall₂ (Encodes mac ip side) (datagrams.map .data) frames := by
  induction h with
  | nil => exact .nil
  | cons hframe _ ih => exact .cons (.data hframe) ih

/-! ## Sending -/

/-- More frames, and the messages they encode. -/
theorem Refines.enqueue (h : Refines mac ip side iface party)
    (hframes : List.Forall₂ (Encodes mac ip side) messages frames) :
    Refines mac ip side (iface.enqueue frames)
      { party with outgoing := party.outgoing ++ messages } :=
  { h with frames := List.rel_append h.frames hframes }

/-- A datagram waits behind the others. -/
theorem Refines.await {pending : PendingResolution} (h : Refines mac ip side iface party)
    (hpending : pending.datagrams = party.waiting ++ [datagram])
    (hage : pending.requestAgeMs = 0) (hfits : datagram.payload.length ≤ 65515) :
    Refines mac ip side (iface.await (ip side.peer) pending)
      { party with waiting := party.waiting ++ [datagram] } where
  ethernetAddress_eq := h.ethernetAddress_eq
  ipAddress_eq := h.ipAddress_eq
  cache := h.cache
  waiting := by
    have hentry : (iface.await (ip side.peer) pending).pending (ip side.peer) = some pending :=
      Function.update_self ..
    have hne : party.waiting ++ [datagram] ≠ [] :=
      List.append_ne_nil_of_right_ne_nil _ (List.cons_ne_nil _ _)
    rw [hentry, Awaits, if_neg hne]
    exact ⟨pending, rfl, hpending, hage⟩
  others := by
    intro a ha
    exact (Function.update_of_ne ha ..).trans (h.others a ha)
  frames := h.frames
  datagrams := h.datagrams
  fits := by
    intro d hd
    rcases List.mem_append.mp hd with hd | hd
    · exact h.fits d hd
    · rw [List.mem_singleton.mp hd]
      exact hfits

/-- The entry a new datagram joins: a new one, due for a request, or one that has asked. -/
theorem Refines.entry (h : Refines mac ip side iface party) :
    (iface.entry (ip side.peer)).datagrams = party.waiting ∧
      (party.waiting = [] → (iface.entry (ip side.peer)).shouldSendArpRequest = true) ∧
      (party.waiting ≠ [] → (iface.entry (ip side.peer)).requestAgeMs = 0) := by
  have hwaiting := h.waiting
  unfold Awaits at hwaiting
  unfold NetworkInterface.entry
  split_ifs at hwaiting with hnil
  · -- no entry: a new one is as old as the cooldown
    rw [hwaiting, hnil]
    exact ⟨rfl, fun _ => rfl, fun hne => absurd rfl hne⟩
  · obtain ⟨entry, hentry, hdatagrams, hage⟩ := hwaiting
    rw [Option.mem_def.mp hentry]
    exact ⟨hdatagrams, fun h0 => absurd h0 hnil, fun _ => hage⟩

theorem Refines.send (h : Refines mac ip side iface party)
    (hfits : datagram.payload.length ≤ 65515) : ∃ iface1,
      iface.sendDatagram datagram (ip side.peer) = .ok iface1 ∧
      Refines mac ip side iface1 (party.send datagram) := by
  unfold Party.send
  split_ifs with hknown hfirst
  · -- the address is known
    have hcached : iface.lookupEthernetAddress (ip side.peer) = some (mac side.peer) := by
      rw [h.cache, if_pos hknown]
    obtain ⟨frame, hframe⟩ := carries_total iface.ethernetAddress (mac side.peer) hfits
    refine ⟨iface.enqueue [frame], ?_, ?_⟩
    · rw [sendDatagram_of_cached hcached]
      exact emitIpv4Frame_eq_ok.mpr ⟨frame, hframe, rfl⟩
    · rw [h.ethernetAddress_eq] at hframe
      exact h.enqueue (.cons (.data hframe) .nil)
  · -- the first that waits: the request goes out with it
    have hmiss : iface.lookupEthernetAddress (ip side.peer) = none := by
      rw [h.cache, if_neg hknown]
    obtain ⟨hdatagrams, hdue, -⟩ := h.entry
    have hpush : ((iface.entry (ip side.peer)).push datagram).markRequestSent.datagrams
        = party.waiting ++ [datagram] := congrArg (· ++ [datagram]) hdatagrams
    have hawait := h.await hpush rfl hfits
    obtain ⟨request, hrequest, hemit⟩ := emitArpRequest_ok
      (iface.await (ip side.peer) ((iface.entry (ip side.peer)).push datagram).markRequestSent)
      (ip side.peer)
    rw [hawait.ethernetAddress_eq, hawait.ipAddress_eq] at hrequest
    refine ⟨_, ?_, hawait.enqueue (.cons (.request hrequest) .nil)⟩
    rw [sendDatagram_of_miss hmiss, if_pos (hdue hfirst)]
    exact hemit
  · -- no time has passed since the request, so there is no second one
    have hmiss : iface.lookupEthernetAddress (ip side.peer) = none := by
      rw [h.cache, if_neg hknown]
    obtain ⟨hdatagrams, -, hage⟩ := h.entry
    have hcool : ¬ (iface.entry (ip side.peer)).shouldSendArpRequest = true := by
      unfold PendingResolution.shouldSendArpRequest
      rw [hage hfirst]
      decide
    have hpush : ((iface.entry (ip side.peer)).push datagram).datagrams
        = party.waiting ++ [datagram] := congrArg (· ++ [datagram]) hdatagrams
    refine ⟨_, ?_, h.await hpush (hage hfirst) hfits⟩
    rw [sendDatagram_of_miss hmiss, if_neg hcool]

/-! ## Receiving -/

theorem Refines.queue (h : Refines mac ip side iface party) :
    iface.queue (ip side.peer) = party.waiting := by
  have hwaiting := h.waiting
  unfold Awaits at hwaiting
  unfold NetworkInterface.queue
  split_ifs at hwaiting with hnil
  · rw [hwaiting, hnil]
    rfl
  · obtain ⟨entry, hentry, hdatagrams, -⟩ := hwaiting
    rw [Option.mem_def.mp hentry]
    exact hdatagrams

/-- The address of the peer is learned, and what waits is sent. -/
theorem Refines.learn (h : Refines mac ip side iface party)
    (hframes : List.Forall₂ (Carries (mac side) (mac side.peer)) party.waiting frames) :
    Refines mac ip side ((iface.learn (ip side.peer) (mac side.peer)).enqueue frames)
      party.learn where
  ethernetAddress_eq := h.ethernetAddress_eq
  ipAddress_eq := h.ipAddress_eq
  cache := by
    have hentry : (iface.learn (ip side.peer) (mac side.peer)).arpCache (ip side.peer)
        = some { ethernetAddress := mac side.peer, ageMs := 0 } := Function.update_self ..
    show ((iface.learn (ip side.peer) (mac side.peer)).arpCache (ip side.peer)).map _ = _
    rw [hentry]
    rfl
  waiting := by
    have hentry : (iface.learn (ip side.peer) (mac side.peer)).pending (ip side.peer) = none :=
      Function.update_self ..
    show if ([] : List Ipv4Datagram) = [] then _ else _
    rw [if_pos rfl]
    exact hentry
  others := by
    intro a ha
    exact (Function.update_of_ne ha ..).trans (h.others a ha)
  frames := List.rel_append h.frames (encodes_data hframes)
  datagrams := h.datagrams
  fits := fun d hd => absurd hd List.not_mem_nil

/-- A message of the peer, in its frame. -/
theorem Refines.receive (h : Refines mac ip side iface party)
    (hmessage : Encodes mac ip side.peer message frame) : ∃ iface1,
      iface.recvFrame frame = .ok iface1 ∧
      Refines mac ip side iface1 (party.receive message) := by
  -- a request teaches the address just as a reply does
  have hlearn : ∃ frames, iface.learnArpMapping (ip side.peer) (mac side.peer)
        = .ok ((iface.learn (ip side.peer) (mac side.peer)).enqueue frames) ∧
      Refines mac ip side ((iface.learn (ip side.peer) (mac side.peer)).enqueue frames)
        party.learn := by
    obtain ⟨frames, hframes⟩ := carries_all_total (mac side) (mac side.peer) h.fits
    have hqueue := hframes
    rw [← h.queue, ← h.ethernetAddress_eq] at hqueue
    exact ⟨frames, learnArpMapping_eq_ok.mpr ⟨frames, hqueue, rfl⟩, h.learn hframes⟩
  cases hmessage with
  | @data datagram frame hframe =>
      obtain ⟨bytes, hbytes, rfl⟩ := hframe
      rw [Side.peer_peer]
      refine ⟨{ iface with datagramsIn := iface.datagramsIn ++ [datagram] }, ?_, ?_⟩
      · apply recvFrame_of_ipv4 ?_ rfl (Ipv4Datagram.parseBytes_serialize hbytes)
        rw [EthernetFrame.isFor_iff, h.ethernetAddress_eq]
        exact Or.inl rfl
      · exact { h with datagrams := congrArg (· ++ [datagram]) h.datagrams }
  | request hframe =>
      rw [Side.peer_peer] at hframe
      obtain ⟨bytes, hbytes, rfl⟩ := hframe
      obtain ⟨frames, hrun, hlearned⟩ := hlearn
      have hbrings : iface.Brings
          (EthernetFrame.arp EthernetAddress.BROADCAST (mac side.peer) bytes)
          (.request (mac side.peer) (ip side.peer) (ip side)) :=
        ⟨EthernetFrame.isFor_iff.mpr (Or.inr rfl), rfl, ArpMessage.parseBytes_serialize hbytes⟩
      obtain ⟨reply, hreply, hemit⟩ := emitArpReply_ok
        ((iface.learn (ip side.peer) (mac side.peer)).enqueue frames) (mac side.peer)
        (ip side.peer)
      rw [hlearned.ethernetAddress_eq, hlearned.ipAddress_eq] at hreply
      refine ⟨_, ?_, hlearned.enqueue (.cons (.reply hreply) .nil)⟩
      rw [recvFrame_of_brings hbrings]
      -- the request names the address of this side, so it is answered
      have hasks :
          ip side = ((iface.learn (ip side.peer) (mac side.peer)).enqueue frames).ipAddress :=
        hlearned.ipAddress_eq.symm
      show (iface.learnArpMapping (ip side.peer) (mac side.peer) >>= _) = _
      rw [hrun, Exec.ok_bind]
      exact (if_pos ⟨rfl, hasks⟩).trans hemit
  | reply hframe =>
      rw [Side.peer_peer] at hframe
      obtain ⟨bytes, hbytes, rfl⟩ := hframe
      obtain ⟨frames, hrun, hlearned⟩ := hlearn
      have hbrings : iface.Brings (EthernetFrame.arp (mac side) (mac side.peer) bytes)
          (.reply (mac side.peer) (ip side.peer) (mac side) (ip side)) := by
        refine ⟨?_, rfl, ArpMessage.parseBytes_serialize hbytes⟩
        rw [EthernetFrame.isFor_iff, h.ethernetAddress_eq]
        exact Or.inl rfl
      refine ⟨_, ?_, hlearned⟩
      rw [recvFrame_of_brings hbrings]
      show (iface.learnArpMapping (ip side.peer) (mac side.peer) >>= _) = _
      rw [hrun, Exec.ok_bind]
      exact if_neg (fun hasks => absurd hasks.1 (by simp [ArpMessage.reply]))

/-! ## Both sides -/

variable {ifaces : Side → NetworkInterface} {parties : Side → Party Ipv4Datagram}
  {op : Op Ipv4Datagram} {ops : List (Op Ipv4Datagram)}

/-- Every datagram that is handed over fits in a frame. -/
def Fitting (ops : List (Op Ipv4Datagram)) : Prop :=
  ∀ side, ∀ datagram ∈ sentBy ops side, datagram.payload.length ≤ 65515

theorem refines_update {other : NetworkInterface} {party1 : Party Ipv4Datagram}
    (h : ∀ side, Refines mac ip side (ifaces side) (parties side))
    (hone : Refines mac ip side other party1) (s : Side) :
    Refines mac ip s (Function.update ifaces side other s)
      (Function.update parties side party1 s) := by
  by_cases hs : s = side
  · subst hs
    rw [Function.update_self, Function.update_self]
    exact hone
  · rw [Function.update_of_ne hs, Function.update_of_ne hs]
    exact h s

/-- A message leaves the queue with its frame. -/
theorem Refines.pop {rest : List (Message Ipv4Datagram)} {more : List EthernetFrame}
    (h : Refines mac ip side iface party) (hrest : List.Forall₂ (Encodes mac ip side) rest more) :
    Refines mac ip side { iface with framesOut := more } { party with outgoing := rest } :=
  { h with frames := hrest }

/-- One step of the link is one step of the exchange. -/
theorem linkStep_refines (h : ∀ side, Refines mac ip side (ifaces side) (parties side))
    (hfits : ∀ side, ∀ datagram ∈ op.sent side, datagram.payload.length ≤ 65515) :
    ∃ ifaces1, linkStep ifaces op = .ok ifaces1 ∧
      ∀ side, Refines mac ip side (ifaces1 side) (Resolution.step parties op side) := by
  cases op with
  | send side datagram =>
      have hfit : datagram.payload.length ≤ 65515 := by
        apply hfits side
        rw [Op.sent, if_pos rfl]
        exact List.mem_cons_self
      obtain ⟨sender, hsend, hrefines⟩ := (h side).send hfit
      refine ⟨Function.update ifaces side sender, ?_, refines_update h hrefines⟩
      rw [linkStep, (h side.peer).ipAddress_eq, hsend]
      rfl
  | deliver side =>
      have hframes := (h side).frames
      cases hout : (parties side).outgoing with
      | nil =>
          rw [hout, List.forall₂_nil_left_iff] at hframes
          refine ⟨ifaces, ?_, ?_⟩
          · -- nothing to deliver
            simp only [linkStep, popFrame, hframes, List.head?_nil]
          · rw [Resolution.step_deliver_nil hout]
            exact h
      | cons message rest =>
          rw [hout] at hframes
          obtain ⟨frame, more, hframe, hmore, hqueue⟩ := List.forall₂_cons_left_iff.mp hframes
          -- the sender loses the frame, the peer gets what its bytes say
          have hsender := (h side).pop hmore
          have hpeer := h side.peer
          rw [← Side.peer_peer side] at hframe
          obtain ⟨receiver, hreceive, hreceiver⟩ := hpeer.receive hframe
          refine ⟨Function.update (Function.update ifaces side
            { ifaces side with framesOut := more }) side.peer receiver, ?_, ?_⟩
          · simp only [linkStep, popFrame, hqueue, List.head?_cons, List.tail_cons,
              frame.parseBytes_serialize, Exec.ok_bind, hreceive]
          · rw [Resolution.step_deliver_cons hout]
            exact refines_update (refines_update h hsender) hreceiver

theorem run_refines {given : Side → List Ipv4Datagram}
    (h : ∀ side, Refines mac ip side (ifaces side) (parties side))
    (hinv : Resolution.Inv parties given) (hfits : Fitting ops) : ∃ ifaces1 parties1,
      Exec.run linkStep ifaces ops = .ok ifaces1 ∧
      (∀ side, Refines mac ip side (ifaces1 side) (parties1 side)) ∧
      Resolution.Inv parties1 (fun side => given side ++ sentBy ops side) := by
  induction ops generalizing ifaces parties given with
  | nil =>
      refine ⟨ifaces, parties, rfl, h, ?_⟩
      have hnone : (fun side => given side ++ sentBy ([] : List (Op Ipv4Datagram)) side) = given :=
        funext (fun side => List.append_nil _)
      rw [hnone]
      exact hinv
  | cons op rest ih =>
      have hone : ∀ side, ∀ datagram ∈ op.sent side, datagram.payload.length ≤ 65515 :=
        fun side datagram hd => hfits side datagram (List.mem_append_left _ hd)
      have hrest : Fitting rest :=
        fun side datagram hd => hfits side datagram (List.mem_append_right _ hd)
      obtain ⟨ifaces2, hstep, h2⟩ := linkStep_refines h hone
      have hinv2 : Resolution.Inv (Resolution.step parties op)
          (fun side => given side ++ op.sent side) := hinv.step
      obtain ⟨ifaces1, parties1, hrun, h1, hinv1⟩ := ih h2 hinv2 hrest
      refine ⟨ifaces1, parties1, Exec.run_cons_eq_ok.mpr ⟨ifaces2, hstep, hrun⟩, h1, ?_⟩
      have hsplit : (fun side => given side ++ sentBy (op :: rest) side)
          = fun side => given side ++ op.sent side ++ sentBy rest side :=
        funext (fun side => (List.append_assoc ..).symm)
      rw [hsplit]
      exact hinv1

/-- Two new interfaces, whatever their addresses: no interleaving of sending and delivering stops
them, and once no frame is queued on either side, each has received what the other was given to
send, in order and unchanged, nothing is pending, and if anything was sent at all each has the
true address of the other in its cache. -/
theorem resolution_delivers (mac : Side → EthernetAddress) (ip : Side → Ipv4AddrBytes)
    (ops : List (Op Ipv4Datagram)) (hfits : Fitting ops) : ∃ ifaces,
      Exec.run linkStep (fun side => .new (mac side) (ip side)) ops = .ok ifaces ∧
      ((∀ side, (ifaces side).framesOut = []) → ∀ side,
        (ifaces side.peer).datagramsIn = sentBy ops side ∧
        (∀ a, (ifaces side).pending a = none) ∧
        ((∃ other, sentBy ops other ≠ []) →
          (ifaces side).lookupEthernetAddress (ip side.peer) = some (mac side.peer))) := by
  have hstart : ∀ side, Refines mac ip side (.new (mac side) (ip side)) .idle :=
    refines_new mac ip
  have hidle : Resolution.Inv (fun _ => (Party.idle : Party Ipv4Datagram)) (fun _ => []) :=
    fun _ => Resolution.half_idle
  obtain ⟨ifaces, parties, hrun, h, hinv⟩ := run_refines hstart hidle hfits
  refine ⟨ifaces, hrun, ?_⟩
  intro hempty side
  have hquiet : ∀ side, (parties side).outgoing = [] := by
    intro side
    have hframes := (h side).frames
    rw [hempty side] at hframes
    exact List.forall₂_nil_right_iff.mp hframes
  obtain ⟨hreceived, hwaiting, hknown⟩ := hinv.delivered_of_quiet hquiet side
  refine ⟨?_, ?_, ?_⟩
  · rw [(h side.peer).datagrams]
    exact hreceived
  · intro a
    by_cases ha : a = ip side.peer
    · have hentry := (h side).waiting
      rw [Awaits, if_pos hwaiting] at hentry
      rw [ha]
      exact hentry
    · exact (h side).others a ha
  · intro hsent
    rw [(h side).cache, if_pos (hknown hsent)]

def sampleMac : Side → EthernetAddress := Side.pair ⟨2, 0, 0, 0, 0, 1⟩ ⟨2, 0, 0, 0, 0, 2⟩

def sampleIp : Side → Ipv4AddrBytes := Side.pair ⟨10, 0, 0, 1⟩ ⟨10, 0, 0, 2⟩

/-- Both ask at once, and a datagram is sent before and after the answers. -/
def sampleCrossing : List (Op Ipv4Datagram) :=
  [.send .a (.newTcp ⟨10, 0, 0, 1⟩ ⟨10, 0, 0, 2⟩ [1]),
    .send .b (.newTcp ⟨10, 0, 0, 2⟩ ⟨10, 0, 0, 1⟩ [2]), .deliver .a, .deliver .b,
    .send .a (.newTcp ⟨10, 0, 0, 1⟩ ⟨10, 0, 0, 2⟩ [3]), .deliver .a, .deliver .a, .deliver .b,
    .deliver .b, .deliver .a]

theorem resolution_delivers_crossing : ∃ ifaces,
    Exec.run linkStep (fun side => .new (sampleMac side) (sampleIp side)) sampleCrossing
      = .ok ifaces ∧
    (∀ side, (ifaces side).framesOut = []) ∧
    ∀ side, (ifaces side.peer).datagramsIn = sentBy sampleCrossing side ∧
      (∀ a, (ifaces side).pending a = none) ∧
      ((∃ other, sentBy sampleCrossing other ≠ []) →
        (ifaces side).lookupEthernetAddress (sampleIp side.peer) = some (sampleMac side.peer)) := by
  have hfits : Fitting sampleCrossing := by
    intro side datagram hd
    cases side <;> simp [sampleCrossing, sentBy, Op.sent, Ipv4Datagram.newTcp, Ipv4Datagram.new] at hd
    · rcases hd with rfl | rfl <;> decide
    · subst hd
      decide
  have hquiet : (Exec.run linkStep (fun side => .new (sampleMac side) (sampleIp side))
      sampleCrossing).toOption.any
        (fun ifaces => (ifaces .a).framesOut == [] && (ifaces .b).framesOut == []) = true := by
    decide +kernel
  obtain ⟨ifaces, hrun, hdelivered⟩ := resolution_delivers sampleMac sampleIp sampleCrossing hfits
  simp only [hrun, Except.toOption, Option.any_some, Bool.and_eq_true, beq_iff_eq] at hquiet
  have hempty : ∀ side, (ifaces side).framesOut = [] := by
    intro side
    cases side
    · exact hquiet.1
    · exact hquiet.2
  exact ⟨ifaces, hrun, hempty, hdelivered hempty⟩

end NetworkInterface

end Minnow
