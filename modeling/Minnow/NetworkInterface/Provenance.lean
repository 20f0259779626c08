import Minnow.NetworkInterface.Inbound
import Minnow.NetworkInterface.Journal

set_option autoImplicit false

/-! # Where frames come from

Whatever frames arrive, an interface puts out ARP messages about itself and the datagrams that it
was handed, each in a frame of its own and under its own address, and nothing else. The kind of the
datagrams that are handed over is a parameter: `Traced` says that all that waits in the interface
is of that kind.
-/

namespace Minnow

namespace NetworkInterface

variable {P Q : Bytes → Prop} {iface iface1 : NetworkInterface} {datagram : Ipv4Datagram}
  {datagrams : List Ipv4Datagram} {mac dst : EthernetAddress} {ip nextHop : Ipv4AddrBytes}
  {frame : EthernetFrame} {frames : List EthernetFrame} {op : InterfaceOp} {message : ArpMessage}

/-- The datagram is serialized as bytes of the kind. -/
def Known (P : Bytes → Prop) (datagram : Ipv4Datagram) : Prop :=
  ∃ bytes, datagram.serialize = .ok bytes ∧ P bytes

/-- The message is about its sender. -/
def Own (mac : EthernetAddress) (ip : Ipv4AddrBytes) (message : ArpMessage) : Prop :=
  message.senderEthernetAddress = mac ∧ message.senderIpAddress = ip

/-- The frame is from the station `mac`, and is an ARP message about it or brings bytes of the
kind. -/
structure Genuine (P : Bytes → Prop) (mac : EthernetAddress) (ip : Ipv4AddrBytes)
    (frame : EthernetFrame) : Prop where
  src : frame.header.src = mac
  short : frame.payload.length ≤ 65535
  kind : (frame.header.ethertype = ETHERTYPE_ARP ∧
      ∃ message : ArpMessage, message.serialize = .ok frame.payload ∧ Own mac ip message) ∨
    frame.header.ethertype = ETHERTYPE_IPV4 ∧ P frame.payload

/-- All that waits in the interface is of the kind. -/
structure Traced (P : Bytes → Prop) (iface : NetworkInterface) : Prop where
  queue : ∀ ip, ∀ datagram ∈ iface.queue ip, Known P datagram
  frames : ∀ frame ∈ iface.framesOut, Genuine P iface.ethernetAddress iface.ipAddress frame

/-- The operation hands over datagrams of the kind. -/
def InterfaceOp.Hands (P : Bytes → Prop) : InterfaceOp → Prop
  | .sendDatagram datagram _ => Known P datagram
  | _ => True

theorem Known.mono (hmono : ∀ bytes, P bytes → Q bytes) (h : Known P datagram) :
    Known Q datagram := by
  obtain ⟨bytes, hbytes, hkind⟩ := h
  exact ⟨bytes, hbytes, hmono bytes hkind⟩

theorem Genuine.mono (hmono : ∀ bytes, P bytes → Q bytes) (h : Genuine P mac ip frame) :
    Genuine Q mac ip frame where
  src := h.src
  short := h.short
  kind := h.kind.imp_right (fun hipv4 => ⟨hipv4.1, hmono _ hipv4.2⟩)

theorem Traced.mono (hmono : ∀ bytes, P bytes → Q bytes) (h : Traced P iface) :
    Traced Q iface where
  queue := fun ip datagram hd => (h.queue ip datagram hd).mono hmono
  frames := fun frame hf => (h.frames frame hf).mono hmono

theorem traced_new (P : Bytes → Prop) (mac : EthernetAddress) (ip : Ipv4AddrBytes) :
    Traced P (.new mac ip) where
  queue := fun _ _ hd => absurd hd List.not_mem_nil
  frames := fun _ hf => absurd hf List.not_mem_nil

/-! ## The frames of one operation -/

/-- What is in a packet fits in a packet. -/
theorem payload_le_of_parse {bytes : Bytes}
    (h : Ipv4Datagram.parseBytes bytes = .ok (.ok datagram)) :
    datagram.payload.length ≤ 65515 := by
  obtain ⟨result, hresult, hle⟩ := Ipv4Datagram.parseBytes_total bytes
  rw [h, Except.ok.injEq] at hresult
  have hshort := hle datagram hresult.symm
  unfold IPV4_HEADER_MIN_LEN at hshort
  omega

theorem length_of_serialize {bytes : Bytes} (h : datagram.serialize = .ok bytes) :
    bytes.length ≤ 65535 := by
  have hpayload := Ipv4Datagram.payload_le_of_serialize h
  rw [Ipv4Datagram.serialize_eq hpayload, Except.ok.injEq] at h
  rw [← h, Ipv4Datagram.length_packet]
  omega

theorem Carries.genuine (h : Carries mac dst datagram frame) (hknown : Known P datagram) :
    Genuine P mac ip frame := by
  obtain ⟨bytes, hbytes, rfl⟩ := h
  obtain ⟨bytes1, hbytes1, hkind⟩ := hknown
  rw [hbytes, Except.ok.injEq] at hbytes1
  subst hbytes1
  exact ⟨rfl, length_of_serialize hbytes, Or.inr ⟨rfl, hkind⟩⟩

theorem CarriesArp.genuine (h : CarriesArp mac dst message frame) (hown : Own mac ip message) :
    Genuine P mac ip frame := by
  obtain ⟨bytes, hbytes, rfl⟩ := h
  refine ⟨rfl, ?_, Or.inl ⟨rfl, message, hbytes, hown⟩⟩
  obtain ⟨u, -, hok⟩ := Exec.bind_eq_ok.mp hbytes
  obtain rfl := Except.ok.inj hok
  show 28 ≤ 65535
  omega

theorem genuine_of_carries (h : List.Forall₂ (Carries mac dst) datagrams frames)
    (hknown : ∀ datagram ∈ datagrams, Known P datagram) :
    ∀ frame ∈ frames, Genuine P mac ip frame := by
  intro frame hf
  obtain ⟨datagram, hdatagram, hcarries⟩ := h.flip.exists_mem hf
  exact Carries.genuine hcarries (hknown datagram hdatagram)

/-- A queue that waited keeps its datagrams, or is gone. -/
theorem queue_tick (iface : NetworkInterface) (elapsedMs : Nat) (ip : Ipv4AddrBytes) :
    (iface.tick elapsedMs).queue ip = [] ∨ (iface.tick elapsedMs).queue ip = iface.queue ip := by
  unfold queue tick
  dsimp only
  cases iface.pending ip with
  | none => exact Or.inl rfl
  | some pending =>
      rw [Option.map_some, Option.filter_some]
      split_ifs
      · exact Or.inr rfl
      · exact Or.inl rfl

theorem Traced.await {pending : PendingResolution} (h : Traced P iface)
    (hdatagrams : pending.datagrams = iface.queue nextHop ++ [datagram])
    (hknown : Known P datagram) :
    Traced P (iface.await nextHop pending) := by
  refine ⟨?_, h.frames⟩
  intro ip waiting hwaiting
  by_cases hip : ip = nextHop
  · subst hip
    rw [queue_await, hdatagrams] at hwaiting
    rcases List.mem_append.mp hwaiting with hwaiting | hwaiting
    · exact h.queue ip waiting hwaiting
    · obtain rfl := List.mem_singleton.mp hwaiting
      exact hknown
  · have hsame : (iface.await nextHop pending).queue ip = iface.queue ip :=
      queue_congr (Function.update_of_ne hip ..)
    rw [hsame] at hwaiting
    exact h.queue ip waiting hwaiting

theorem Traced.enqueue (h : Traced P iface)
    (hframes : ∀ frame ∈ frames, Genuine P iface.ethernetAddress iface.ipAddress frame) :
    Traced P (iface.enqueue frames) := by
  refine ⟨h.queue, ?_⟩
  intro frame hf
  rcases List.mem_append.mp hf with hf | hf
  · exact h.frames frame hf
  · exact hframes frame hf

/-- The two interfaces have the same addresses. -/
structure SameStation (iface iface1 : NetworkInterface) : Prop where
  ethernetAddress : iface1.ethernetAddress = iface.ethernetAddress
  ipAddress : iface1.ipAddress = iface.ipAddress

theorem SameStation.trans {iface2 : NetworkInterface} (h : SameStation iface iface1)
    (h1 : SameStation iface1 iface2) : SameStation iface iface2 :=
  ⟨h1.ethernetAddress.trans h.ethernetAddress, h1.ipAddress.trans h.ipAddress⟩

theorem sameStation_of_performed (h : iface.Performed op iface1) : SameStation iface iface1 := by
  cases h <;> exact ⟨rfl, rfl⟩

/-- What every operation keeps, given what is handed over. -/
theorem Traced.performed (h : Traced P iface) (hop : op.Hands P) (hp : iface.Performed op iface1) :
    Traced P iface1 := by
  cases hp with
  | emitted hcached hframe =>
      apply h.enqueue
      intro frame hf
      obtain rfl := List.mem_singleton.mp hf
      exact hframe.genuine hop
  | @requested datagram nextHop request hmiss hdue hrequest =>
      have hdatagrams : ((iface.entry nextHop).push datagram).markRequestSent.datagrams
          = iface.queue nextHop ++ [datagram] := entry_push_datagrams ..
      apply (h.await hdatagrams hop).enqueue
      intro frame hf
      obtain rfl := List.mem_singleton.mp hf
      exact hrequest.genuine ⟨rfl, rfl⟩
  | queued hmiss hdue => exact h.await (entry_push_datagrams ..) hop
  | @learned frame message frames replies hbrings hframes hreplies =>
      have hlearned : Traced P
          (iface.learn message.senderIpAddress message.senderEthernetAddress) := by
        refine ⟨?_, h.frames⟩
        intro ip waiting hwaiting
        by_cases hip : ip = message.senderIpAddress
        · have hnone : (iface.learn message.senderIpAddress
              message.senderEthernetAddress).queue ip = [] := by
            apply queue_of_pending_none
            rw [hip]
            exact Function.update_self ..
          rw [hnone] at hwaiting
          exact absurd hwaiting List.not_mem_nil
        · have hsame : (iface.learn message.senderIpAddress
              message.senderEthernetAddress).queue ip = iface.queue ip :=
            queue_congr (Function.update_of_ne hip ..)
          rw [hsame] at hwaiting
          exact h.queue ip waiting hwaiting
      apply hlearned.enqueue
      intro frame hf
      rcases List.mem_append.mp hf with hf | hf
      · exact genuine_of_carries hframes (h.queue _) frame hf
      · cases hreplies with
        | silent _ => exact absurd hf List.not_mem_nil
        | reply _ hreply =>
            obtain rfl := List.mem_singleton.mp hf
            exact hreply.genuine ⟨rfl, rfl⟩
  | received hno => exact ⟨h.queue, h.frames⟩
  | @ticked elapsedMs =>
      refine ⟨?_, h.frames⟩
      intro ip waiting hwaiting
      rcases iface.queue_tick elapsedMs ip with hgone | hsame
      · rw [hgone] at hwaiting
        exact absurd hwaiting List.not_mem_nil
      · rw [hsame] at hwaiting
        exact h.queue ip waiting hwaiting
  | poppedFrame => exact ⟨h.queue, fun frame hf => h.frames frame (List.mem_of_mem_tail hf)⟩
  | poppedDatagram => exact ⟨h.queue, h.frames⟩

/-! ## Totality -/

theorem emitPending_total (hknown : ∀ datagram ∈ datagrams, Known P datagram) :
    ∃ frames, List.Forall₂ (Carries mac dst) datagrams frames := by
  induction datagrams with
  | nil => exact ⟨[], .nil⟩
  | cons datagram rest ih =>
      obtain ⟨bytes, hbytes, -⟩ := hknown datagram List.mem_cons_self
      obtain ⟨frames, hframes⟩ := ih (fun d hd => hknown d (List.mem_cons_of_mem _ hd))
      exact ⟨_, .cons ⟨bytes, hbytes, rfl⟩ hframes⟩

/-- No frame stops the interface. -/
theorem Traced.recvFrame_total (h : Traced P iface) (frame : EthernetFrame) :
    ∃ iface1, iface.recvFrame frame = .ok iface1 := by
  by_cases hbrings : ∃ message, iface.Brings frame message
  · obtain ⟨message, hbrings⟩ := hbrings
    obtain ⟨frames, hframes⟩ := @emitPending_total P _ iface.ethernetAddress
      message.senderEthernetAddress (h.queue message.senderIpAddress)
    rw [recvFrame_of_brings hbrings, learnArpMapping_eq_ok.mpr ⟨frames, hframes, rfl⟩, Exec.ok_bind]
    split_ifs
    · obtain ⟨reply, -, hemit⟩ := emitArpReply_ok
        ((iface.learn message.senderIpAddress message.senderEthernetAddress).enqueue frames)
        message.senderEthernetAddress message.senderIpAddress
      exact ⟨_, hemit⟩
    · exact ⟨_, rfl⟩
  · -- neither parser stops
    unfold recvFrame
    split_ifs
    · exact ⟨_, rfl⟩
    · obtain ⟨result, hparsed, -⟩ := Ipv4Datagram.parseBytes_total frame.payload
      rw [hparsed]
      cases result <;> exact ⟨_, rfl⟩
    · rename_i hfor _ harp
      obtain ⟨result, hparsed⟩ := ArpMessage.parseBytes_total frame.payload
      cases result with
      | error err =>
          rw [hparsed]
          exact ⟨_, rfl⟩
      | ok message =>
          exact absurd ⟨message, by simpa using hfor, harp, hparsed⟩ hbrings
    · exact ⟨_, rfl⟩

theorem sendDatagram_of_known (hknown : Known P datagram) (iface : NetworkInterface)
    (nextHop : Ipv4AddrBytes) : ∃ iface1, iface.sendDatagram datagram nextHop = .ok iface1 := by
  obtain ⟨bytes, hbytes, -⟩ := hknown
  exact iface.sendDatagram_total nextHop (Ipv4Datagram.payload_le_of_serialize hbytes)

/-- A frame puts one datagram in the inbound queue, or none. -/
theorem recvFrame_cases (h : iface.recvFrame frame = .ok iface1) :
    iface1.datagramsIn = iface.datagramsIn ∨ ∃ datagram,
      frame.isFor iface.ethernetAddress = true ∧ frame.header.ethertype = ETHERTYPE_IPV4 ∧
        Ipv4Datagram.parseBytes frame.payload = .ok (.ok datagram) ∧
        iface1 = { iface with datagramsIn := iface.datagramsIn ++ [datagram] } := by
  by_cases hbrings : ∃ message, iface.Brings frame message
  · obtain ⟨message, hbrings⟩ := hbrings
    left
    cases learned_performed hbrings h with
    | learned _ _ _ => rfl
    | received hno => exact absurd hbrings (hno message)
  · unfold recvFrame at h
    split_ifs at h with hfor hipv4 harp
    · obtain rfl := Except.ok.inj h
      exact Or.inl rfl
    · obtain ⟨parsed, hparsed, h⟩ := Exec.bind_eq_ok.mp h
      cases parsed with
      | error err =>
          obtain rfl := Except.ok.inj h
          exact Or.inl rfl
      | ok datagram =>
          obtain rfl := Except.ok.inj h
          exact Or.inr ⟨datagram, by simpa using hfor, hipv4, hparsed, rfl⟩
    · obtain ⟨parsed, hparsed, h⟩ := Exec.bind_eq_ok.mp h
      cases parsed with
      | error err =>
          obtain rfl := Except.ok.inj h
          exact Or.inl rfl
      | ok message => exact absurd ⟨message, by simpa using hfor, harp, hparsed⟩ hbrings
    · obtain rfl := Except.ok.inj h
      exact Or.inl rfl

/-! ## The kind of the datagrams

Kinds of datagrams instead of bytes: `S` is that of the datagrams to be sent, and `Q` that of the
datagrams which frames have brought. -/

section Kinds

variable {Q S : Ipv4Datagram → Prop}

/-- The bytes are those of a datagram of the kind. -/
def Written (Q : Ipv4Datagram → Prop) (bytes : Bytes) : Prop :=
  ∃ datagram : Ipv4Datagram, datagram.serialize = .ok bytes ∧ Q datagram

theorem known_written : Known (Written Q) datagram ↔
    datagram.payload.length ≤ 65515 ∧ Q datagram := by
  constructor
  · rintro ⟨bytes, hbytes, other, hother, hkind⟩
    have hparsed := Ipv4Datagram.parseBytes_serialize hother
    rw [Ipv4Datagram.parseBytes_serialize hbytes, Except.ok.injEq, Except.ok.injEq] at hparsed
    subst hparsed
    exact ⟨Ipv4Datagram.payload_le_of_serialize hbytes, hkind⟩
  · rintro ⟨hfit, hkind⟩
    exact ⟨_, Ipv4Datagram.serialize_eq hfit, datagram, Ipv4Datagram.serialize_eq hfit, hkind⟩

/-- All that waits in the interface is of its kind, to be taken out or to be sent. -/
structure Holds (Q S : Ipv4Datagram → Prop) (iface : NetworkInterface) : Prop where
  traced : Traced (Written S) iface
  inbound : ∀ datagram ∈ iface.datagramsIn, Known (Written Q) datagram

/-- The frame that an operation takes out. -/
def outgoing (iface : NetworkInterface) : InterfaceOp → List EthernetFrame
  | .popFrame => iface.framesOut.head?.toList
  | _ => []

/-- What the operation puts in is of the kind. -/
def InterfaceOp.Puts (Q : Ipv4Datagram → Prop) : InterfaceOp → Prop
  | .sendDatagram datagram _ => datagram.payload.length ≤ 65515 ∧ Q datagram
  | .recvFrame frame => frame.header.ethertype = ETHERTYPE_IPV4 →
      ∀ datagram, Ipv4Datagram.parseBytes frame.payload = .ok (.ok datagram) → Q datagram
  | _ => True

instance [DecidablePred Q] : (op : InterfaceOp) → Decidable (op.Puts Q)
  | .sendDatagram _ _ => inferInstanceAs (Decidable (_ ∧ _))
  | .recvFrame frame =>
      match hparsed : Ipv4Datagram.parseBytes frame.payload with
      | .ok (.ok datagram) =>
          decidable_of_iff (frame.header.ethertype = ETHERTYPE_IPV4 → Q datagram)
            ⟨fun h hipv4 other hother => by
              rw [hparsed, Except.ok.injEq, Except.ok.injEq] at hother
              exact hother ▸ h hipv4, fun h hipv4 => h hipv4 datagram hparsed⟩
      | .ok (.error _) => isTrue fun _ other hother => by
          rw [hparsed, Except.ok.injEq] at hother
          exact absurd hother (by simp)
      | .error _ => isTrue fun _ other hother => by
          rw [hparsed] at hother
          exact absurd hother (by simp)
  | .tick _ | .popFrame | .popDatagram => inferInstanceAs (Decidable True)

/-- The interface takes the datagram out of the frame. -/
structure Takes (iface : NetworkInterface) (frame : EthernetFrame) (datagram : Ipv4Datagram) :
    Prop where
  isFor : frame.isFor iface.ethernetAddress = true
  ipv4 : frame.header.ethertype = ETHERTYPE_IPV4
  parsed : Ipv4Datagram.parseBytes frame.payload = .ok (.ok datagram)

/-- What the operation puts into this interface is of its kind. -/
def Gets (Q S : Ipv4Datagram → Prop) (iface : NetworkInterface) : InterfaceOp → Prop
  | .sendDatagram datagram _ => datagram.payload.length ≤ 65515 ∧ S datagram
  | .recvFrame frame => ∀ datagram, iface.Takes frame datagram → Q datagram
  | _ => True

theorem written_mono {R : Ipv4Datagram → Prop} (hmono : ∀ datagram, Q datagram → R datagram)
    (bytes : Bytes) (h : Written Q bytes) : Written R bytes := by
  obtain ⟨datagram, hserialize, hkind⟩ := h
  exact ⟨datagram, hserialize, hmono datagram hkind⟩

theorem Holds.mono {R T : Ipv4Datagram → Prop} (hmono : ∀ datagram, Q datagram → R datagram)
    (hsent : ∀ datagram, S datagram → T datagram) (h : Holds Q S iface) : Holds R T iface where
  traced := h.traced.mono (written_mono hsent)
  inbound := fun datagram hd => (h.inbound datagram hd).mono (written_mono hmono)

theorem holds_new (Q S : Ipv4Datagram → Prop) (mac : EthernetAddress) (ip : Ipv4AddrBytes) :
    Holds Q S (.new mac ip) where
  traced := traced_new ..
  inbound := fun _ hd => absurd hd List.not_mem_nil

theorem InterfaceOp.Puts.mono {R : Ipv4Datagram → Prop} (hmono : ∀ datagram, Q datagram → R datagram)
    (h : op.Puts Q) : op.Puts R := by
  cases op with
  | sendDatagram datagram nextHop => exact ⟨h.1, hmono datagram h.2⟩
  | recvFrame frame =>
      intro hipv4 datagram hparsed
      exact hmono datagram (h hipv4 datagram hparsed)
  | tick elapsedMs => trivial
  | popFrame => trivial
  | popDatagram => trivial

theorem InterfaceOp.Puts.gets (h : op.Puts Q) (iface : NetworkInterface) : iface.Gets Q Q op := by
  cases op with
  | sendDatagram datagram nextHop => exact h
  | recvFrame frame => exact fun datagram htakes => h htakes.ipv4 datagram htakes.parsed
  | tick elapsedMs => trivial
  | popFrame => trivial
  | popDatagram => trivial

theorem Gets.hands (h : iface.Gets Q S op) : op.Hands (Written S) := by
  cases op with
  | sendDatagram datagram nextHop => exact known_written.mpr h
  | _ => trivial

theorem Holds.perform (h : iface.Holds Q S) (hgets : iface.Gets Q S op)
    (hop : iface.perform op = .ok iface1) : iface1.Holds Q S := by
  refine ⟨h.traced.performed hgets.hands (perform_performed hop), ?_⟩
  cases op with
  | sendDatagram datagram nextHop =>
      rw [(sendDatagram_sent hop).datagramsIn]
      exact h.inbound
  | recvFrame frame =>
      rcases recvFrame_cases hop with hsame | ⟨datagram, hfor, hipv4, hparsed, rfl⟩
      · rw [hsame]
        exact h.inbound
      · intro waiting hwaiting
        rcases List.mem_append.mp hwaiting with hwaiting | hwaiting
        · exact h.inbound waiting hwaiting
        · obtain rfl := List.mem_singleton.mp hwaiting
          exact known_written.mpr
            ⟨payload_le_of_parse hparsed, hgets waiting ⟨hfor, hipv4, hparsed⟩⟩
  | tick elapsedMs =>
      obtain rfl := Except.ok.inj hop
      exact h.inbound
  | popFrame =>
      obtain rfl := Except.ok.inj hop
      exact h.inbound
  | popDatagram =>
      obtain rfl := Except.ok.inj hop
      exact fun waiting hwaiting => h.inbound waiting (List.mem_of_mem_tail hwaiting)

theorem Holds.perform_total (h : iface.Holds Q S) (hgets : iface.Gets Q S op) :
    ∃ iface1, iface.perform op = .ok iface1 := by
  cases op with
  | sendDatagram datagram nextHop => exact iface.sendDatagram_total nextHop hgets.1
  | recvFrame frame => exact h.traced.recvFrame_total frame
  | tick elapsedMs => exact ⟨_, rfl⟩
  | popFrame => exact ⟨_, rfl⟩
  | popDatagram => exact ⟨_, rfl⟩

end Kinds

end NetworkInterface

end Minnow
