import Minnow.Internet.Refinement
import Minnow.NetworkInterface.Provenance
import Minnow.TunHost

set_option autoImplicit false

/-! # The steps of a round on a TUN device

Each function of the main loop does one operation of the host, writes what it returns, and captures
what it read before what it wrote (`step_eq_ok`). A round is the run of its steps (`turn_eq_run`).
-/

namespace Minnow

open IpHost Internet

namespace TunHost

variable {t t1 : TunHost} {op : TunOp} {hostOp : HostOp} {datagrams : List Ipv4Datagram}
  {packet : Bytes}

/-- The packets are written, and dumped behind those that were read. -/
def sending (t : TunHost) (read list : List Bytes) : TunHost :=
  { t with
    written := t.written ++ list
    pcap := t.pcap.map (· ++ (read ++ list)) }

theorem sending_nil (t : TunHost) : t.sending [] [] = t := by
  obtain ⟨host, events, written, pcap⟩ := t
  cases pcap <;> simp [sending]

theorem sending_sending (t : TunHost) (read list more : List Bytes) :
    (t.sending read list).sending [] more = t.sending read (list ++ more) := by
  obtain ⟨host, events, written, pcap⟩ := t
  cases pcap <;> simp [sending]

theorem dumpPacket_of_short (t : TunHost) (hlen : packet.length < 2 ^ 32) :
    t.dumpPacket packet = .ok (t.sending [packet] []) := by
  obtain ⟨host, events, written, pcap⟩ := t
  cases pcap with
  | none => simp [dumpPacket, sending]
  | some packets =>
      unfold dumpPacket
      dsimp only
      rw [Exec.assert_pos hlen, Exec.ok_bind]
      simp [sending]

/-- A datagram that can be serialized is dumped and written. -/
theorem writes_serialized {datagram : Ipv4Datagram} (h : datagram.serialize = .ok packet) :
    packet.length < 2 ^ 32 ∧ packet ≠ [] := by
  have hlong := NetworkInterface.length_of_serialize h
  have hpayload := Ipv4Datagram.payload_le_of_serialize h
  rw [Ipv4Datagram.serialize_eq hpayload, Except.ok.injEq] at h
  have hlen : packet.length = 20 + datagram.payload.length := by
    rw [← h, Ipv4Datagram.length_packet]
  exact ⟨by omega, List.ne_nil_of_length_pos (by omega)⟩

theorem emitDatagrams_eq_ok : t.emitDatagrams datagrams = .ok t1 ↔
    ∃ list, Minnow.emitOutput datagrams = .ok list ∧ t1 = t.sending [] list := by
  induction datagrams generalizing t with
  | nil =>
      constructor
      · intro h
        obtain rfl := Except.ok.inj h
        exact ⟨[], rfl, t.sending_nil.symm⟩
      · rintro ⟨list, hlist, rfl⟩
        obtain rfl := Except.ok.inj hlist
        rw [sending_nil]
        rfl
  | cons datagram rest ih =>
      have hfirst : ∀ packet, datagram.serialize = .ok packet →
          (do
            let t ← t.dumpPacket packet
            let t ← t.writePacket packet
            emitDatagrams t rest) = emitDatagrams (t.sending [] [packet]) rest := by
        intro packet hpacket
        obtain ⟨hshort, hne⟩ := writes_serialized hpacket
        rw [dumpPacket_of_short t hshort, Exec.ok_bind, writePacket, Exec.assert_pos hne]
        simp only [Exec.ok_bind, sending, List.append_nil, List.nil_append]
      constructor
      · intro h
        obtain ⟨packet, hpacket, h⟩ := Exec.bind_eq_ok.mp h
        rw [hfirst packet hpacket] at h
        obtain ⟨list, hlist, rfl⟩ := ih.mp h
        refine ⟨packet :: list, ?_, sending_sending t [] [packet] list⟩
        rw [Minnow.emitOutput, hpacket, Exec.ok_bind, hlist]
        rfl
      · rintro ⟨list, hlist, rfl⟩
        obtain ⟨packet, hpacket, h⟩ := Exec.bind_eq_ok.mp hlist
        obtain ⟨list1, hlist1, hok⟩ := Exec.bind_eq_ok.mp h
        obtain rfl := Except.ok.inj hok
        rw [emitDatagrams, hpacket, Exec.ok_bind, hfirst packet hpacket, ih]
        exact ⟨list1, hlist1, (sending_sending t [] [packet] list1).symm⟩

/-- The host does something, and what it returns is emitted. -/
structure Operated (t : TunHost) (op : HostOp) (read list : List Bytes) (t1 : TunHost) :
    Prop where
  performed : ∃ output, t.host.perform op = .ok (t1.host, output) ∧
    Minnow.emitOutput output.datagrams = .ok list ∧ t1.events = t.events ++ output.events
  written : t1.written = t.written ++ list
  pcap : t1.pcap = t.pcap.map (· ++ (read ++ list))

theorem operate_eq_ok {read : List Bytes} :
    (t.sending read []).operate hostOp = .ok t1 ↔ ∃ list, Operated t hostOp read list t1 := by
  constructor
  · intro h
    obtain ⟨⟨host, output⟩, hrun, h⟩ := Exec.bind_eq_ok.mp h
    obtain ⟨list, hlist, rfl⟩ := emitDatagrams_eq_ok.mp h
    refine ⟨list, ⟨output, hrun, hlist, rfl⟩, ?_, ?_⟩
    · simp [sending]
    · cases hpcap : t.pcap <;> simp [sending, hpcap]
  · rintro ⟨list, ⟨output, hrun, hlist, hevents⟩, hwritten, hpcap⟩
    refine Exec.bind_eq_ok.mpr ⟨(t1.host, output), hrun, ?_⟩
    refine emitDatagrams_eq_ok.mpr ⟨list, hlist, ?_⟩
    obtain ⟨host1, events1, written1, pcap1⟩ := t1
    obtain rfl : events1 = t.events ++ output.events := hevents
    obtain rfl : written1 = t.written ++ list := hwritten
    obtain rfl : pcap1 = t.pcap.map (· ++ (read ++ list)) := hpcap
    cases hpcap : t.pcap <;> simp [sending, hpcap]

/-- The packet that a step reads. -/
def TunOp.read : TunOp → List Bytes
  | .packet bytes => [bytes]
  | _ => []

/-- What the device reads fits in its buffer. -/
def TunOp.Fits : TunOp → Prop
  | .packet bytes => bytes.length ≤ 65535
  | _ => True

instance : (op : TunOp) → Decidable op.Fits
  | .packet _ => inferInstanceAs (Decidable (_ ≤ _))
  | .connect | .app _ | .tick _ => inferInstanceAs (Decidable True)

/-- A step is an operation of the host; what it read is captured before what it writes. -/
theorem step_eq_ok (hfits : op.Fits) :
    t.step op = .ok t1 ↔ ∃ list, Operated t op.hostOp op.read list t1 := by
  have hidle : ∀ hostOp, t.operate hostOp = .ok t1 ↔ ∃ list, Operated t hostOp [] list t1 := by
    intro hostOp
    have hiff := @operate_eq_ok t t1 hostOp []
    rw [sending_nil] at hiff
    exact hiff
  cases op with
  | connect => exact hidle .connect
  | app event =>
      cases event with
      | data bytes => exact hidle (.write bytes)
      | close => exact hidle .close
  | tick elapsedMs => exact hidle (.tick elapsedMs)
  | packet bytes =>
      have hlen : bytes.length ≤ 65535 := hfits
      show t.drainPacket bytes = .ok t1 ↔ _
      rw [drainPacket, dumpPacket_of_short t (by omega), Exec.ok_bind]
      exact operate_eq_ok

/-- A round is the run of its steps. -/
theorem turn_eq_run (t : TunHost) (turn : Turn) : t.turn turn = Exec.run step t turn.ops := by
  rw [TunHost.turn, drainTunPackets, Turn.ops, Exec.run_append, Exec.run_append, Exec.run_map,
    bind_assoc]
  refine bind_congr fun t => ?_
  rw [drainAppEvents, Exec.run_map]
  refine bind_congr fun t => ?_
  split_ifs
  · exact (@Exec.run_singleton _ _ TunHost.step t (TunOp.tick turn.elapsedMs)).symm
  · rfl

end TunHost

end Minnow
