import Minnow.TcpSender.Steps
import Minnow.Library.Run

set_option autoImplicit false

/-! # Runs of the sender

A run is any sequence of writes, closes, pushes, feedback from the peer (also RST) and ticks.
The log keeps what the results about a run speak of: the bytes the outbound stream has
accepted, the new segments, and every segment handed to `transmit`.

* `sender_fidelity`: every segment, new or repeated, is the part of the sequence space at
  its start; the new ones cover it without a gap, in order, up to FIN.
* `nothing_forgotten`: what is not acknowledged is outstanding or still buffered.
* `run_total`: a run does not stop abnormally before the sequence numbers run out.
-/

namespace Minnow

namespace TcpSender

open OutstandingSegment ByteStream TcpSenderMessage

inductive SenderOp where
  | write (bytes : Bytes)
  | close
  | push
  | receive (message : TcpReceiverMessage)
  | tick (elapsedMs : Nat)

/-- A sender with the history of its use. -/
structure Log where
  sender : TcpSender
  accepted : Bytes
  fresh : List OutstandingSegment
  sent : List OutstandingSegment

namespace Log

def start (sender : TcpSender) : Log :=
  { sender := sender, accepted := [], fresh := [], sent := [] }

/-- New segments take the sequence numbers from `sndNxt` on; what a tick transmits starts at
`sndUna`. -/
def step (log : Log) : SenderOp → Exec Log
  | .write bytes =>
      .ok
        { log with
          sender := (log.sender.write bytes).1
          accepted := log.accepted ++ bytes.take (log.sender.write bytes).2 }
  | .close => .ok { log with sender := log.sender.close }
  | .push => do
      let (sender, messages) ← log.sender.push
      .ok
        { log with
          sender := sender
          fresh := log.fresh ++ stamp log.sender.sndNxt messages
          sent := log.sent ++ stamp log.sender.sndNxt messages }
  | .receive message => do
      let sender ← log.sender.receive message
      .ok { log with sender := sender }
  | .tick elapsedMs => do
      let (sender, messages) ← log.sender.tick elapsedMs
      .ok { log with sender := sender, sent := log.sent ++ stamp log.sender.sndUna messages }

/-- The sequence space as far as it is determined. -/
def space (log : Log) : List SeqSymbol := seqSpace log.accepted log.sender.outbound.closed

/-- The invariant of a run of a sender with the initial sequence number `isn`. -/
structure LogInv (isn : Wrap32) (log : Log) : Prop where
  inv : Inv log.accepted log.sender
  isn_eq : log.sender.isn = isn
  fresh : Queue 0 log.fresh log.sender.sndNxt
  fresh_genuine : ∀ segment ∈ log.fresh,
    segment.Genuine log.accepted log.sender.outbound.closed isn
  sent_genuine : ∀ segment ∈ log.sent,
    segment.Genuine log.accepted log.sender.outbound.closed isn ∧
      0 < segment.sequenceLength ∧
      segment.absoluteStart + segment.sequenceLength ≤ log.sender.sndNxt

variable {isn : Wrap32} {log log1 : Log} {ops : List SenderOp} {capacity : Nat}
  {config : TcpSenderConfig} {sender : TcpSender} {data : Bytes}

theorem logInv_start (hnew : TcpSender.new capacity isn config = .ok sender) :
    LogInv isn (start sender) := by
  obtain ⟨hinv, hisn, hnxt, -⟩ := new_ok hnew
  exact
    { inv := hinv
      isn_eq := hisn
      fresh := hnxt.symm
      fresh_genuine := fun _ hs => absurd hs List.not_mem_nil
      sent_genuine := fun _ hs => absurd hs List.not_mem_nil }

/-- A step that transmits nothing: the sequence space may grow, `sndNxt` stays. -/
theorem LogInv.silent {sender1 : TcpSender} {accepted : Bytes} (h : LogInv isn log)
    (hinv : Inv accepted sender1) (hisn : sender1.isn = log.sender.isn)
    (hnxt : sender1.sndNxt = log.sender.sndNxt)
    (hpre : log.space <+: seqSpace accepted sender1.outbound.closed) :
    LogInv isn { log with sender := sender1, accepted := accepted } where
  inv := hinv
  isn_eq := hisn.trans h.isn_eq
  fresh := by
    show Queue 0 log.fresh sender1.sndNxt
    rw [hnxt]
    exact h.fresh
  fresh_genuine := fun segment hs => (h.fresh_genuine segment hs).mono hpre
  sent_genuine := by
    intro segment hs
    obtain ⟨hgenuine, hpos, hend⟩ := h.sent_genuine segment hs
    exact ⟨hgenuine.mono hpre, hpos, le_of_le_of_eq hend hnxt.symm⟩

theorem LogInv.push {sender1 : TcpSender} {messages : List TcpSenderMessage} {window : Nat}
    (h : LogInv isn log) (hp : Pushed log.accepted window log.sender messages sender1) :
    LogInv isn
      { log with
        sender := sender1
        fresh := log.fresh ++ stamp log.sender.sndNxt messages
        sent := log.sent ++ stamp log.sender.sndNxt messages } := by
  have hqueue := hp.queue h.inv
  have hisn : sender1.isn = isn := by
    rw [hp.frame]
    exact h.isn_eq
  -- a push takes bytes from the stream, but neither closes it nor changes what was accepted
  obtain ⟨bytes, hdrained⟩ := hp.drained
  have hclosed : sender1.outbound.closed = log.sender.outbound.closed := hdrained.closed
  have hnew : ∀ segment ∈ stamp log.sender.sndNxt messages,
      segment.Genuine log.accepted sender1.outbound.closed isn := by
    intro segment hs
    rw [hclosed, ← h.isn_eq]
    exact (hp.genuine segment hs).1
  refine
    { inv := hp.inv
      isn_eq := hisn
      fresh := h.fresh.append hqueue
      fresh_genuine := ?_
      sent_genuine := ?_ }
  · intro segment hs
    rcases List.mem_append.mp hs with hs | hs
    · show segment.Genuine log.accepted sender1.outbound.closed isn
      rw [hclosed]
      exact h.fresh_genuine segment hs
    · exact hnew segment hs
  · intro segment hs
    rcases List.mem_append.mp hs with hs | hs
    · obtain ⟨hgenuine, hpos, hend⟩ := h.sent_genuine segment hs
      refine ⟨?_, hpos, le_trans hend hqueue.le⟩
      show segment.Genuine log.accepted sender1.outbound.closed isn
      rw [hclosed]
      exact hgenuine
    · obtain ⟨-, hpos, hend⟩ := hqueue.mem hs
      exact ⟨hnew segment hs, hpos, hend⟩

theorem LogInv.tick {sender1 : TcpSender} {messages : List TcpSenderMessage}
    (h : LogInv isn log) (ht : Ticked log.accepted log.sender sender1)
    (hmessages : messages = [] ∨ ∃ front rest, log.sender.outstanding = front :: rest ∧
      messages = [front.message]) :
    LogInv isn
      { log with
        sender := sender1
        sent := log.sent ++ stamp log.sender.sndUna messages } := by
  have hsilent : LogInv isn { log with sender := sender1, accepted := log.accepted } := by
    refine h.silent ht.inv (by rw [ht.frame]) (by rw [ht.frame]) ?_
    rw [ht.frame]
    exact List.prefix_refl _
  refine { hsilent with sent_genuine := ?_ }
  intro segment hs
  rcases List.mem_append.mp hs with hs | hs
  · exact hsilent.sent_genuine segment hs
  · -- the segment that was repeated is the front of the queue
    rcases hmessages with rfl | ⟨front, rest, hfront, rfl⟩
    · exact absurd hs List.not_mem_nil
    · have hmem : front ∈ log.sender.outstanding := by
        rw [hfront]
        exact List.mem_cons_self
      have hfrontEq : segment = front := by
        rw [stamp, stamp, List.mem_singleton] at hs
        rw [hs, ← h.inv.front_start hfront]
      obtain ⟨-, hpos, hend⟩ := h.inv.queue.mem hmem
      rw [hfrontEq]
      refine ⟨?_, hpos, ?_⟩
      · show front.Genuine log.accepted sender1.outbound.closed isn
        rw [ht.frame, ← h.isn_eq]
        exact h.inv.genuine front hmem
      · show _ ≤ sender1.sndNxt
        rw [ht.frame]
        exact hend

/-- What one operation does: it keeps the invariant, or a push has run out of sequence
numbers. -/
theorem step_spec (h : LogInv isn log) (op : SenderOp) :
    (∃ log1, log.step op = .ok log1 ∧ LogInv isn log1) ∨
      (op = .push ∧ u64Max < log.accepted.length + 2 ∧ ∃ fault, log.step op = .error fault) := by
  cases op with
  | write bytes =>
      exact Or.inl ⟨_, rfl, h.silent (h.inv.write bytes) rfl rfl (prefix_write _ _ _)⟩
  | close => exact Or.inl ⟨_, rfl, h.silent h.inv.close rfl rfl (prefix_close _ _)⟩
  | push =>
      rcases push_spec h.inv with ⟨sender1, messages, hrun, hp⟩ | ⟨hover, hrun⟩
      · refine Or.inl ⟨_, ?_, h.push hp⟩
        rw [step, hrun]
        rfl
      · refine Or.inr ⟨rfl, hover, .expectation, ?_⟩
        rw [step, hrun]
        rfl
  | receive message =>
      left
      -- a reset drops the queue; an acknowledgment beyond what was sent changes nothing
      by_cases hrst : message.rst = true
      · refine ⟨{ log with sender := log.sender.abort }, ?_,
          h.silent h.inv.abort rfl rfl (List.prefix_refl _)⟩
        rw [step, receive_rst hrst]
        rfl
      · rcases receive_spec h.inv (by simpa using hrst) with
          ⟨-, sender1, hrun, hr⟩ | ⟨-, hrun⟩
        · refine ⟨{ log with sender := sender1 }, ?_,
            h.silent hr.inv (by rw [hr.frame]) (by rw [hr.frame]) ?_⟩
          · rw [step, hrun]
            rfl
          · rw [hr.frame]
            exact List.prefix_refl _
        · refine ⟨log, ?_, h⟩
          rw [step, hrun]
          rfl
  | tick elapsedMs =>
      left
      obtain ⟨sender1, messages, hrun, ht, hmessages⟩ := tick_spec h.inv elapsedMs
      -- only the oldest outstanding message is ever repeated
      have hfront : messages = [] ∨ ∃ front rest, log.sender.outstanding = front :: rest ∧
          messages = [front.message] := by
        rcases hmessages with ⟨-, hnil⟩ | ⟨-, hfront⟩
        · exact Or.inl hnil
        · exact Or.inr hfront
      refine ⟨_, ?_, h.tick ht hfront⟩
      rw [step, hrun]
      rfl

theorem logInv_run (hnew : TcpSender.new capacity isn config = .ok sender)
    (hrun : Exec.run step (start sender) ops = .ok log) : LogInv isn log := by
  refine Exec.run_invariant (LogInv isn) ?_ (logInv_start hnew) hrun
  intro log op log1 h hstep
  rcases step_spec h op with ⟨log2, hstep2, h2⟩ | ⟨-, -, fault, hstep2⟩
  · rw [hstep, Except.ok.injEq] at hstep2
    exact hstep2 ▸ h2
  · rw [hstep] at hstep2
    exact absurd hstep2 (by simp)

/-! ## Runs do not stop abnormally -/

/-- The bytes offered to the stream. -/
def offered (ops : List SenderOp) : Nat :=
  (ops.map (fun op => match op with
    | .write bytes => bytes.length
    | _ => 0)).sum

theorem accepted_step {op : SenderOp} (hstep : log.step op = .ok log1) :
    log1.accepted.length ≤ log.accepted.length + offered [op] := by
  cases op with
  | write bytes =>
      obtain rfl := Except.ok.inj hstep
      simp only [List.length_append, List.length_take, offered, List.map_cons, List.map_nil,
        List.sum_cons, List.sum_nil]
      omega
  | close =>
      obtain rfl := Except.ok.inj hstep
      exact Nat.le_add_right _ _
  | push =>
      obtain ⟨⟨sender1, messages⟩, -, hok⟩ := Exec.bind_eq_ok.mp hstep
      obtain rfl := Except.ok.inj hok
      exact Nat.le_add_right _ _
  | receive message =>
      obtain ⟨sender1, -, hok⟩ := Exec.bind_eq_ok.mp hstep
      obtain rfl := Except.ok.inj hok
      exact Nat.le_add_right _ _
  | tick elapsedMs =>
      obtain ⟨⟨sender1, messages⟩, -, hok⟩ := Exec.bind_eq_ok.mp hstep
      obtain rfl := Except.ok.inj hok
      exact Nat.le_add_right _ _

theorem run_total_from (h : LogInv isn log)
    (hlen : log.accepted.length + offered ops + 2 ≤ u64Max) :
    ∃ log1, Exec.run step log ops = .ok log1 := by
  induction ops generalizing log with
  | nil => exact ⟨log, rfl⟩
  | cons op rest ih =>
      have hsum : offered (op :: rest) = offered [op] + offered rest := by
        simp only [offered, List.map_cons, List.map_nil, List.sum_cons, List.sum_nil, Nat.add_zero]
      rcases step_spec h op with ⟨log1, hstep, h1⟩ | ⟨-, hover, -⟩
      · have hle := accepted_step hstep
        obtain ⟨log2, hrest⟩ := ih h1 (by omega)
        exact ⟨log2, Exec.run_cons_eq_ok.mpr ⟨log1, hstep, hrest⟩⟩
      · omega

/-- Every run on a valid configuration returns, as long as fewer bytes are written than
there are sequence numbers. -/
theorem run_total (hnew : TcpSender.new capacity isn config = .ok sender) (ops : List SenderOp)
    (hlen : offered ops + 2 ≤ u64Max) : ∃ log, Exec.run step (start sender) ops = .ok log := by
  refine run_total_from (logInv_start hnew) ?_
  show 0 + offered ops + 2 ≤ u64Max
  omega

/-! ## Fidelity -/

/-- Every segment handed to `transmit`, new or repeated, is the part of the sequence SYN,
accepted bytes, FIN that begins at its start. The new segments stand end to end from 0 to
`sndNxt`, and a segment with FIN is the last of them. -/
theorem sender_fidelity (hnew : TcpSender.new capacity isn config = .ok sender)
    (hrun : Exec.run step (start sender) ops = .ok log) :
    (∀ segment ∈ log.sent,
      segment.message.Carries log.accepted log.sender.outbound.closed isn segment.absoluteStart ∧
      segment.message.symbols = log.space.slice segment.absoluteStart
        (segment.absoluteStart + segment.sequenceLength) ∧
      segment.absoluteStart + segment.sequenceLength ≤ log.sender.sndNxt) ∧
    (∀ segment ∈ log.fresh,
      segment.message.Carries log.accepted log.sender.outbound.closed isn segment.absoluteStart) ∧
    Queue 0 log.fresh log.sender.sndNxt ∧
    log.fresh.flatMap (fun segment => segment.message.symbols)
      = log.space.take log.sender.sndNxt ∧
    (∀ before segment after, log.fresh = before ++ segment :: after →
      segment.message.fin = true → after = []) := by
  have h := logInv_run hnew hrun
  have hcarries : ∀ segment ∈ log.fresh, segment.message.Carries log.accepted
      log.sender.outbound.closed isn segment.absoluteStart :=
    fun segment hs => (h.fresh_genuine segment hs).carries (h.fresh.mem hs).2.1
  refine ⟨?_, hcarries, h.fresh, ?_, ?_⟩
  · intro segment hs
    obtain ⟨hgenuine, hpos, hend⟩ := h.sent_genuine segment hs
    exact ⟨hgenuine.carries hpos, hgenuine.2, hend⟩
  · rw [flatMap_symbols h.fresh h.fresh_genuine, List.slice, List.drop_zero, Nat.sub_zero]
    rfl
  · -- FIN is the last symbol of the space, and a segment behind it would not be empty
    intro before segment after hfresh hfin
    have hqueue := h.fresh
    rw [hfresh] at hqueue
    obtain ⟨a, -, hstart, -, hafter⟩ := tiles_append.mp hqueue
    obtain ⟨-, hend⟩ := (hcarries segment (by simp [hfresh])).fin.mp hfin
    have hspace := h.inv.nxt_le_space
    have hclosed : log.sender.outbound.closed.toNat ≤ 1 := Bool.toNat_le _
    have hlast : a + segment.sequenceLength = log.accepted.length + 2 := by
      rw [← hstart]
      exact hend
    have hle := hafter.le
    exact hafter.eq_nil_iff.mpr (by omega)

/-- A write cut into two segments, the first of which is acknowledged in part and repeated;
the sequence numbers wrap around. -/
theorem sender_fidelity_partial_ack :
    ∃ sender log, TcpSender.new 8 ⟨4294967294⟩ ⟨100, 1000, 4⟩ = .ok sender ∧
      Exec.run step (start sender)
        [.push, .receive ⟨some ⟨4294967295⟩, 9, false⟩, .write [1, 2, 3, 4, 5, 6], .close, .push,
          .receive ⟨some ⟨1⟩, 9, false⟩, .tick 100] = .ok log ∧
      (∀ segment ∈ log.sent,
        segment.message.Carries log.accepted log.sender.outbound.closed ⟨4294967294⟩
          segment.absoluteStart ∧
        segment.message.symbols = log.space.slice segment.absoluteStart
          (segment.absoluteStart + segment.sequenceLength) ∧
        segment.absoluteStart + segment.sequenceLength ≤ log.sender.sndNxt) ∧
      (∀ segment ∈ log.fresh, segment.message.Carries log.accepted log.sender.outbound.closed
        ⟨4294967294⟩ segment.absoluteStart) ∧
      Queue 0 log.fresh log.sender.sndNxt ∧
      log.fresh.flatMap (fun segment => segment.message.symbols)
        = log.space.take log.sender.sndNxt ∧
      (∀ before segment after, log.fresh = before ++ segment :: after →
        segment.message.fin = true → after = []) := by
  have hconfig : ∃ sender, TcpSender.new 8 ⟨4294967294⟩ ⟨100, 1000, 4⟩ = .ok sender :=
    TcpSender.new_total 8 ⟨4294967294⟩ (by decide) (by decide) (by decide)
  obtain ⟨sender, hnew⟩ := hconfig
  obtain ⟨log, hrun⟩ := run_total hnew
    [.push, .receive ⟨some ⟨4294967295⟩, 9, false⟩, .write [1, 2, 3, 4, 5, 6], .close, .push,
      .receive ⟨some ⟨1⟩, 9, false⟩, .tick 100] (by decide)
  exact ⟨sender, log, hnew, hrun, sender_fidelity hnew hrun⟩

/-! ## Nothing is forgotten -/

/-- The accepted bytes are the ones below `sndUna`, the ones outstanding and the ones
buffered. -/
theorem accepted_split (h : Inv data sender) : data =
    data.take (sender.sndUna - 1) ++
      sender.outstanding.flatMap (fun segment => segment.message.payload) ++
      sender.outbound.contents := by
  have huna := h.una_le
  have hpayloads : sender.outstanding.flatMap (fun segment => segment.message.payload) =
      ((seqSpace data sender.outbound.closed).slice sender.sndUna sender.sndNxt).filterMap
        SeqSymbol.byte? := by
    rw [← flatMap_symbols h.queue h.genuine, List.filterMap_flatMap]
    refine List.flatMap_congr (fun segment _ => ?_)
    exact (filterMap_symbolsOf _ _ _).symm
  have htaken : data.take (sender.sndUna - 1) ++
      sender.outstanding.flatMap (fun segment => segment.message.payload)
        = data.take (sender.sndNxt - 1) := by
    set space := seqSpace data sender.outbound.closed with hspace
    calc data.take (sender.sndUna - 1) ++
          sender.outstanding.flatMap (fun segment => segment.message.payload)
        = (space.take sender.sndUna).filterMap SeqSymbol.byte? ++
            (space.slice sender.sndUna sender.sndNxt).filterMap SeqSymbol.byte? := by
          rw [hpayloads, hspace, filterMap_take_seqSpace]
      _ = (space.take sender.sndUna ++ space.slice sender.sndUna sender.sndNxt).filterMap
            SeqSymbol.byte? := List.filterMap_append.symm
      _ = (space.take sender.sndNxt).filterMap SeqSymbol.byte? := by
          rw [List.take_append_slice _ huna]
      _ = data.take (sender.sndNxt - 1) := by rw [hspace, filterMap_take_seqSpace]
  have hbuffered : sender.outbound.contents = data.drop (sender.sndNxt - 1) := by
    have hnxt := h.nxt_eq
    rw [h.contents_eq]
    cases hfin : sender.finSent with
    | true =>
        -- everything has left the stream
        have hall := (h.fin_last hfin).2
        rw [hfin, Bool.toNat_true] at hnxt
        rw [List.drop_eq_nil_of_le (by omega), List.drop_eq_nil_of_le (by omega)]
    | false =>
        rw [hfin, Bool.toNat_false] at hnxt
        have hpopped : sender.outbound.bytesPopped = sender.sndNxt - 1 := by
          cases hsyn : sender.synSent with
          | true =>
              rw [hsyn, Bool.toNat_true] at hnxt
              omega
          | false =>
              have hzero := (h.syn_first hsyn).1
              rw [hsyn, Bool.toNat_false] at hnxt
              omega
        rw [hpopped]
  calc data
      = data.take (sender.sndNxt - 1) ++ data.drop (sender.sndNxt - 1) :=
        (List.take_append_drop ..).symm
    _ = data.take (sender.sndUna - 1) ++
          sender.outstanding.flatMap (fun segment => segment.message.payload) ++
          sender.outbound.contents := by rw [htaken, hbuffered]

/-- In every state of a run the outstanding segments tile the interval in flight, with the
sequence numbers of their starts, and no byte is lost. -/
theorem nothing_forgotten (hnew : TcpSender.new capacity isn config = .ok sender)
    (hrun : Exec.run step (start sender) ops = .ok log) :
    Queue log.sender.sndUna log.sender.outstanding log.sender.sndNxt ∧
    (∀ segment ∈ log.sender.outstanding,
      segment.message.seqno = Wrap32.wrap segment.absoluteStart isn) ∧
    log.accepted = log.accepted.take (log.sender.sndUna - 1) ++
      log.sender.outstanding.flatMap (fun segment => segment.message.payload) ++
      log.sender.outbound.contents := by
  have h := logInv_run hnew hrun
  refine ⟨h.inv.queue, ?_, accepted_split h.inv⟩
  intro segment hs
  rw [← h.isn_eq]
  exact (h.inv.genuine segment hs).1

/-- An acknowledgment that falls inside a segment. -/
theorem nothing_forgotten_partial_ack :
    ∃ sender log, TcpSender.new 8 ⟨4294967294⟩ ⟨100, 1000, 4⟩ = .ok sender ∧
      Exec.run step (start sender)
        [.push, .receive ⟨some ⟨4294967295⟩, 9, false⟩, .write [1, 2, 3, 4, 5, 6], .push,
          .receive ⟨some ⟨1⟩, 9, false⟩] = .ok log ∧
      Queue log.sender.sndUna log.sender.outstanding log.sender.sndNxt ∧
      (∀ segment ∈ log.sender.outstanding,
        segment.message.seqno = Wrap32.wrap segment.absoluteStart ⟨4294967294⟩) ∧
      log.accepted = log.accepted.take (log.sender.sndUna - 1) ++
        log.sender.outstanding.flatMap (fun segment => segment.message.payload) ++
        log.sender.outbound.contents := by
  have hconfig : ∃ sender, TcpSender.new 8 ⟨4294967294⟩ ⟨100, 1000, 4⟩ = .ok sender :=
    TcpSender.new_total 8 ⟨4294967294⟩ (by decide) (by decide) (by decide)
  obtain ⟨sender, hnew⟩ := hconfig
  obtain ⟨log, hrun⟩ := run_total hnew
    [.push, .receive ⟨some ⟨4294967295⟩, 9, false⟩, .write [1, 2, 3, 4, 5, 6], .push,
      .receive ⟨some ⟨1⟩, 9, false⟩] (by decide)
  exact ⟨sender, log, hnew, hrun, nothing_forgotten hnew hrun⟩

end Log

end TcpSender

end Minnow
