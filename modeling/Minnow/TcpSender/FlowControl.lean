import Minnow.TcpSender.Run

set_option autoImplicit false

/-! # Flow control

The peer grants sequence numbers: an accepted message grants everything below its
acknowledgment plus its window, and one number in any case. The sender does not store what
was granted. It stores the window of the last accepted message and counts it from `sndUna`,
also when the acknowledgment in that message is older than `sndUna`.

* `receive_edge_iff`: the sender's edge stays inside the grant exactly if such an old message
  does not reach beyond it when its window is counted from `sndUna`.
* `flow_control`: runs in which no old message does that never overrun the grant.
* `flow_control_overrun`: without the condition a run can.
-/

namespace Minnow

namespace TcpSender

open OutstandingSegment

/-- The edge a message grants. -/
def grant (sender : TcpSender) (message : TcpReceiverMessage) : Nat :=
  (match message.ackno with
    | none => sender.sndUna
    | some ackno => ackno.unwrap sender.isn sender.sndNxt) + max message.windowSize.toNat 1

/-- The first sequence number the sender does not use before it hears from the peer again. -/
def edge (sender : TcpSender) : Nat := sender.sndUna + sender.effectiveWindow

/-- A sender with the greatest edge granted so far, and the new segments with what was
granted when they were transmitted. -/
structure Flow where
  sender : TcpSender
  granted : Nat
  fresh : List (OutstandingSegment × Nat)

namespace Flow

def start (sender : TcpSender) : Flow := { sender := sender, granted := 1, fresh := [] }

def step (flow : Flow) : SenderOp → Exec Flow
  | .write bytes => .ok { flow with sender := (flow.sender.write bytes).1 }
  | .close => .ok { flow with sender := flow.sender.close }
  | .push => do
      let (sender, messages) ← flow.sender.push
      .ok
        { flow with
          sender := sender
          fresh := flow.fresh ++
            (stamp flow.sender.sndNxt messages).map (fun segment => (segment, flow.granted)) }
  | .receive message => do
      let granted :=
        if flow.sender.Accepts message then max flow.granted (flow.sender.grant message)
        else flow.granted
      let sender ← flow.sender.receive message
      .ok { flow with sender := sender, granted := granted }
  | .tick elapsedMs => do
      let (sender, _) ← flow.sender.tick elapsedMs
      .ok { flow with sender := sender }

/-- An acknowledgment older than `sndUna` does not reach beyond the grant. -/
def NoStaleGrant (flow : Flow) : SenderOp → Prop
  | .receive message =>
      ∀ ackno ∈ message.ackno,
        ackno.unwrap flow.sender.isn flow.sender.sndNxt < flow.sender.sndUna →
          flow.sender.sndUna + max message.windowSize.toNat 1 ≤ flow.granted
  | _ => True

/-- The operation is not the receipt of RST. -/
def NonRst : SenderOp → Prop
  | .receive message => message.rst = false
  | _ => True

instance : DecidablePred NonRst
  | .receive message => inferInstanceAs (Decidable (message.rst = false))
  | .write _ | .close | .push | .tick _ => isTrue trivial

instance (flow : Flow) : DecidablePred flow.NoStaleGrant
  | .receive message => inferInstanceAs (Decidable (∀ ackno ∈ message.ackno,
      ackno.unwrap flow.sender.isn flow.sender.sndNxt < flow.sender.sndUna →
        flow.sender.sndUna + max message.windowSize.toNat 1 ≤ flow.granted))
  | .write _ | .close | .push | .tick _ => isTrue trivial

/-- The segments were inside the grant, and so is what the sender may still use. -/
structure FlowInv (flow : Flow) : Prop where
  inv : ∃ data, Inv data flow.sender
  edge_le : flow.sender.edge ≤ flow.granted
  fresh_le : ∀ x ∈ flow.fresh, x.1.absoluteStart + x.1.sequenceLength ≤ x.2

variable {flow flow1 : Flow} {data : Bytes} {capacity : Nat} {isn : Wrap32}
  {config : TcpSenderConfig} {sender : TcpSender} {ops : List SenderOp}

/-- After an accepted message the edge lies inside the grant exactly if the message is not an
old one that reaches beyond it. -/
theorem receive_edge_iff {sender1 : TcpSender} {message : TcpReceiverMessage}
    (hedge : flow.sender.edge ≤ flow.granted)
    (hr : Received data flow.sender (flow.sender.ackedUna message) message.windowSize.toNat
      sender1) :
    sender1.edge ≤ max flow.granted (flow.sender.grant message) ↔
      flow.NoStaleGrant (.receive message) := by
  have hedge1 : sender1.edge
      = flow.sender.ackedUna message + max message.windowSize.toNat 1 := by
    rw [hr.frame]
    rfl
  have hmin : flow.sender.sndUna + 1 ≤ flow.granted := by
    unfold edge effectiveWindow at hedge
    omega
  rw [hedge1]
  unfold NoStaleGrant ackedUna grant
  cases hack : message.ackno with
  | none => simp [hack]
  | some ackno =>
      dsimp only
      rw [hack]
      constructor
      · intro h z hz hold
        obtain rfl := Option.mem_some_iff.mp hz
        omega
      · intro h
        by_cases hold : ackno.unwrap flow.sender.isn flow.sender.sndNxt < flow.sender.sndUna
        · have := h ackno rfl hold
          omega
        · omega

theorem flowInv_start (hnew : TcpSender.new capacity isn config = .ok sender) :
    FlowInv (start sender) := by
  obtain ⟨hinv, -, -, huna, -, hwindow, -⟩ := new_ok hnew
  refine ⟨⟨[], hinv⟩, ?_, fun _ hx => absurd hx List.not_mem_nil⟩
  show sender.sndUna + max sender.advertisedWindow 1 ≤ 1
  rw [huna, hwindow]
  exact le_refl _

/-- A step that transmits nothing and leaves the edge where it is. -/
theorem FlowInv.silent {sender1 : TcpSender} (h : FlowInv flow) (hinv : Inv data sender1)
    (hedge : sender1.edge = flow.sender.edge) : FlowInv { flow with sender := sender1 } :=
  ⟨⟨data, hinv⟩, le_of_eq_of_le hedge h.edge_le, h.fresh_le⟩

theorem flowInv_step (h : FlowInv flow) {op : SenderOp}
    (hop : NonRst op ∧ flow.NoStaleGrant op) (hstep : flow.step op = .ok flow1) :
    FlowInv flow1 := by
  obtain ⟨data, hinv⟩ := h.inv
  cases op with
  | write bytes =>
      obtain rfl := Except.ok.inj hstep
      exact h.silent (hinv.write bytes) rfl
  | close =>
      obtain rfl := Except.ok.inj hstep
      exact h.silent hinv.close rfl
  | push =>
      obtain ⟨⟨sender1, messages⟩, hrun, hok⟩ := Exec.bind_eq_ok.mp hstep
      obtain rfl := Except.ok.inj hok
      have hp := push_pushed hinv hrun
      have hedge : sender1.edge = flow.sender.edge := by
        rw [hp.frame]
        rfl
      refine ⟨⟨data, hp.inv⟩, le_of_eq_of_le hedge h.edge_le, ?_⟩
      intro x hx
      rcases List.mem_append.mp hx with hx | hx
      · exact h.fresh_le x hx
      · -- a new segment ends where `push` stopped, which is not behind the edge
        obtain ⟨segment, hs, rfl⟩ := List.mem_map.mp hx
        obtain ⟨hstart, hpos, hend⟩ := (hp.queue hinv).mem hs
        have hstop := hp.edge
        have hle : flow.sender.sndUna + flow.sender.effectiveWindow ≤ flow.granted := h.edge_le
        show segment.absoluteStart + segment.sequenceLength ≤ flow.granted
        omega
  | receive message =>
      obtain ⟨sender1, hrun, hok⟩ := Exec.bind_eq_ok.mp hstep
      obtain rfl := Except.ok.inj hok
      rcases receive_cases hinv hrun with ⟨hrst, -⟩ | ⟨-, hacc, hr⟩ | ⟨-, hacc, rfl⟩
      · exact absurd (hop.1.symm.trans hrst) (by simp)
      · have hedge := (receive_edge_iff h.edge_le hr).mpr hop.2
        refine ⟨⟨data, hr.inv⟩, ?_, h.fresh_le⟩
        show sender1.edge ≤ if _ then _ else _
        rw [if_pos hacc]
        exact hedge
      · refine ⟨⟨data, hinv⟩, ?_, h.fresh_le⟩
        show flow.sender.edge ≤ if _ then _ else _
        rw [if_neg hacc]
        exact h.edge_le
  | tick elapsedMs =>
      obtain ⟨⟨sender1, messages⟩, hrun, hok⟩ := Exec.bind_eq_ok.mp hstep
      obtain rfl := Except.ok.inj hok
      obtain ⟨ht, -⟩ := tick_ticked hinv hrun
      refine h.silent ht.inv ?_
      rw [ht.frame]
      rfl

/-- As long as no acknowledgment older than `sndUna` carries a window that reaches, counted
from `sndUna`, beyond what was granted, every new segment ends inside the grant. -/
theorem flow_control (hnew : TcpSender.new capacity isn config = .ok sender)
    (hrun : Exec.RunWhile (fun flow op => NonRst op ∧ flow.NoStaleGrant op) step (start sender)
      ops flow) :
    ∀ x ∈ flow.fresh, x.1.absoluteStart + x.1.sequenceLength ≤ x.2 := by
  have h : FlowInv flow :=
    hrun.invariant FlowInv (fun _ _ _ hinv hop hstep => flowInv_step hinv hop hstep)
      (flowInv_start hnew)
  exact h.fresh_le

/-- A SYN, its acknowledgment, a transfer into the window it granted and, behind the
acknowledgment 11 with window 2, the acknowledgment 1 once more with window 1. -/
def orderedRun : List SenderOp :=
  [.push, .receive ⟨some ⟨1⟩, 10, false⟩, .write (List.replicate 20 7), .push,
    .receive ⟨some ⟨11⟩, 2, false⟩, .receive ⟨some ⟨1⟩, 1, false⟩, .push]

/-- In that run the old acknowledgment stays inside the grant, and every segment ends in it. -/
theorem flow_control_in_order :
    ∃ sender flow, TcpSender.new 64 ⟨0⟩ ⟨100, 1000, 4⟩ = .ok sender ∧
      Exec.RunWhile (fun flow op => NonRst op ∧ flow.NoStaleGrant op) step (start sender)
        orderedRun flow ∧
      flow.granted = 13 ∧ flow.sender.sndUna = 11 ∧
      flow.fresh.map (fun x => (x.1.absoluteStart + x.1.sequenceLength, x.2))
        = [(1, 1), (5, 11), (9, 11), (11, 11), (12, 13)] ∧
      ∀ x ∈ flow.fresh, x.1.absoluteStart + x.1.sequenceLength ≤ x.2 := by
  obtain ⟨sender, hnew, flow, hguarded, hgranted, huna, hfresh⟩ : ∃ sender,
      TcpSender.new 64 ⟨0⟩ ⟨100, 1000, 4⟩ = .ok sender ∧
        ∃ flow, Exec.run (Exec.guarded (fun flow op => NonRst op ∧ flow.NoStaleGrant op) step)
            (start sender) orderedRun = .ok flow ∧
          flow.granted = 13 ∧ flow.sender.sndUna = 11 ∧
          flow.fresh.map (fun x => (x.1.absoluteStart + x.1.sequenceLength, x.2))
            = [(1, 1), (5, 11), (9, 11), (11, 11), (12, 13)] := by
    decide +kernel
  have hrun := Exec.RunWhile.of_guarded hguarded
  exact ⟨sender, flow, hnew, hrun, hgranted, huna, hfresh, flow_control hnew hrun⟩

/-- The acknowledgment 1 with window 10 arrives once more behind the acknowledgment 11 with
window 2. -/
def staleRun : List SenderOp :=
  [.push, .receive ⟨some ⟨1⟩, 10, false⟩, .write (List.replicate 20 7), .push,
    .receive ⟨some ⟨11⟩, 2, false⟩, .receive ⟨some ⟨1⟩, 10, false⟩, .push]

/-- In that run 13 sequence numbers are granted, and 21 are used. -/
theorem flow_control_overrun :
    ¬ ∀ (capacity : Nat) (isn : Wrap32) (config : TcpSenderConfig) (sender : TcpSender)
      (ops : List SenderOp) (flow : Flow), TcpSender.new capacity isn config = .ok sender →
      (∀ op ∈ ops, NonRst op) → Exec.run step (start sender) ops = .ok flow →
      ∀ x ∈ flow.fresh, x.1.absoluteStart + x.1.sequenceLength ≤ x.2 := by
  intro hclaim
  obtain ⟨sender, hnew, flow, hrun, -, -, x, hx, hlt⟩ : ∃ sender,
      TcpSender.new 64 ⟨0⟩ ⟨100, 1000, 4⟩ = .ok sender ∧
        ∃ flow, Exec.run step (start sender) staleRun = .ok flow ∧
          flow.granted = 13 ∧ flow.sender.sndNxt = 21 ∧
          ∃ x ∈ flow.fresh, x.2 < x.1.absoluteStart + x.1.sequenceLength := by
    decide +kernel
  have hnoRst : ∀ op ∈ staleRun, NonRst op := by decide
  have := hclaim _ _ _ sender staleRun flow hnew hnoRst hrun x hx
  omega

end Flow

end TcpSender

end Minnow
