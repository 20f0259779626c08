import Minnow.NetworkInterface.Provenance

set_option autoImplicit false

/-! # An interface resolves an address

What an interface does in an exchange that begins with nothing known: late enough it has forgotten
all it knew, so a datagram waits and the address is asked for; a question for the own address is
answered; and with the answer the datagram goes out.
-/

namespace Minnow

namespace NetworkInterface

variable {iface iface1 : NetworkInterface} {datagram : Ipv4Datagram} {ip : Ipv4AddrBytes}
  {mac : EthernetAddress} {elapsedMs : Nat}

theorem saturatingAdd_ge {a b bound : Nat} (h : bound ≤ b) (hbound : bound ≤ u64Max) :
    bound ≤ saturatingAdd a b := by
  unfold saturatingAdd
  omega

/-- After the longest lifetime nothing is known, and nothing waits. -/
theorem tick_forgets (h : ARP_CACHE_TTL_MS ≤ elapsedMs) (ip : Ipv4AddrBytes) :
    (iface.tick elapsedMs).lookupEthernetAddress ip = none ∧
      (iface.tick elapsedMs).pending ip = none := by
  have hpending : PENDING_DATAGRAM_TTL_MS ≤ elapsedMs := le_trans (by decide) h
  constructor
  · unfold lookupEthernetAddress tick
    dsimp only
    rw [Option.map_eq_none_iff]
    cases iface.arpCache ip with
    | none => rfl
    | some entry =>
        have hold : ARP_CACHE_TTL_MS ≤ saturatingAdd entry.ageMs elapsedMs :=
          saturatingAdd_ge h (by decide)
        rw [Option.map_some, Option.filter_some, if_neg (by simpa using hold)]
  · unfold tick
    dsimp only
    cases iface.pending ip with
    | none => rfl
    | some pending =>
        have hold : PENDING_DATAGRAM_TTL_MS ≤ saturatingAdd pending.ageMs elapsedMs :=
          saturatingAdd_ge hpending (by decide)
        have hexpired : (pending.tick elapsedMs).isExpired = true := decide_eq_true hold
        rw [Option.map_some, Option.filter_some, hexpired]
        rfl

/-- The first datagram for an unknown address waits, and the address is asked for. -/
theorem sendDatagram_asks (hmiss : iface.lookupEthernetAddress ip = none)
    (hnone : iface.pending ip = none) (h : iface.sendDatagram datagram ip = .ok iface1) :
    iface1.queue ip = [datagram] ∧ ∃ request ∈ iface1.framesOut,
      CarriesArp iface.ethernetAddress EthernetAddress.BROADCAST
        (.request iface.ethernetAddress iface.ipAddress ip) request := by
  have hentry : iface.entry ip = .new := by
    rw [entry, hnone]
    rfl
  cases sendDatagram_performed h with
  | emitted hcached _ =>
      rw [hmiss] at hcached
      exact nomatch hcached
  | @requested _ _ request _ _ hrequest =>
      refine ⟨?_, request, List.mem_append_right _ List.mem_cons_self, hrequest⟩
      show (iface.await ip _).queue ip = _
      rw [queue_await, hentry]
      rfl
  | queued _ hdue =>
      rw [hentry] at hdue
      exact nomatch hdue

theorem learned_of_brings {frame : EthernetFrame} {message : ArpMessage}
    (hbrings : iface.Brings frame message) (h : iface.recvFrame frame = .ok iface1) :
    ∃ frames replies,
      List.Forall₂ (Carries iface.ethernetAddress message.senderEthernetAddress)
        (iface.queue message.senderIpAddress) frames ∧
      iface.Replies message replies ∧
      iface1 = (iface.learn message.senderIpAddress message.senderEthernetAddress).enqueue
        (frames ++ replies) := by
  cases learned_performed hbrings h with
  | received hno => exact absurd hbrings (hno message)
  | @learned _ message1 frames replies hbrings1 hframes hreplies =>
      obtain rfl : message1 = message := by
        have hparsed := hbrings1.2.2
        rw [hbrings.2.2, Except.ok.injEq, Except.ok.injEq] at hparsed
        exact hparsed.symm
      exact ⟨frames, replies, hframes, hreplies, rfl⟩

/-- Whoever hears an ARP message knows its sender, and sends what waits. -/
theorem recvFrame_learns {frame : EthernetFrame} {message : ArpMessage}
    (hbrings : iface.Brings frame message) (h : iface.recvFrame frame = .ok iface1) :
    iface1.lookupEthernetAddress message.senderIpAddress = some message.senderEthernetAddress ∧
      ∀ waiting ∈ iface.queue message.senderIpAddress, ∃ sent ∈ iface1.framesOut,
        Carries iface.ethernetAddress message.senderEthernetAddress waiting sent := by
  obtain ⟨frames, replies, hframes, -, rfl⟩ := learned_of_brings hbrings h
  constructor
  · show (Function.update iface.arpCache message.senderIpAddress _ _).map _ = _
    rw [Function.update_self]
    rfl
  · intro waiting hwaiting
    obtain ⟨sent, hsent, hcarries⟩ := hframes.exists_mem hwaiting
    exact ⟨sent, List.mem_append_right _ (List.mem_append_left _ hsent), hcarries⟩

/-- A question for its own address is answered. -/
theorem recvFrame_answers {frame : EthernetFrame} {message : ArpMessage}
    (hbrings : iface.Brings frame message) (hasks : iface.Asks message)
    (h : iface.recvFrame frame = .ok iface1) :
    ∃ reply ∈ iface1.framesOut, CarriesArp iface.ethernetAddress message.senderEthernetAddress
      (.reply iface.ethernetAddress iface.ipAddress message.senderEthernetAddress
        message.senderIpAddress) reply := by
  obtain ⟨frames, replies, -, hreplies, rfl⟩ := learned_of_brings hbrings h
  cases hreplies with
  | silent hno => exact absurd hasks hno
  | @reply reply _ hreply =>
      refine ⟨reply, ?_, hreply⟩
      exact List.mem_append_right _ (List.mem_append_right _ List.mem_cons_self)

theorem brings_of_carriesArp {src dst : EthernetAddress} {frame : EthernetFrame}
    {message : ArpMessage} (h : CarriesArp src dst message frame)
    (hdst : dst = iface.ethernetAddress ∨ dst = EthernetAddress.BROADCAST) :
    iface.Brings frame message := by
  obtain ⟨bytes, hbytes, rfl⟩ := h
  exact ⟨EthernetFrame.isFor_iff.mpr hdst, rfl, ArpMessage.parseBytes_serialize hbytes⟩

end NetworkInterface

end Minnow
