import Minnow.TcpConnection.Reset

set_option autoImplicit false

/-! # No stuck data

From the first operation on that flushes the sender, a connection has transmitted what the
window admits: either nothing is left to transmit or the window is full. As a closed window
counts as one, something is then in flight whenever anything is unsent or unacknowledged, and
a timer runs for it. `no_stuck_data` says so for every run, whatever the peer sends.
-/

namespace Minnow

namespace TcpConnection

open TcpSender

/-- The operation flushes the sender. -/
def Starts (connection : TcpConnection) : ConnOp → Prop
  | .flushSender | .write _ | .close => True
  | .receiveSegment segment => connection.belongsToThisConnection segment = true
  | .tick _ | .read _ => False

/-- The window is full, or nothing is left to transmit. -/
def Filled (sender : TcpSender) : Prop :=
  sender.sndUna + sender.effectiveWindow ≤ sender.sndNxt ∨ Exhausted sender

/-- What keeps data moving. -/
structure Moving (connection : TcpConnection) : Prop where
  filled : Exhausted connection.sender ∨
    ∃ n, connection.bytesInFlight = .ok n ∧ max connection.sender.advertisedWindow 1 ≤ n
  armed : ¬ Exhausted connection.sender ∨ connection.sender.sndUna < connection.sender.sndNxt →
    connection.sender.outstanding ≠ [] ∧ connection.sender.timer.running = true ∧
      connection.sender.timer.elapsedMs < connection.sender.timer.timeoutMs

variable {connection connection0 connection1 : TcpConnection} {op : ConnOp}
  {segments : List TcpSegment}

theorem Filled.moving {data : Bytes} (h : Filled connection.sender)
    (hinv : connection.sender.Inv data) : Moving connection := by
  have hle := hinv.una_le
  constructor
  · rcases h with hfull | hexhausted
    · -- the effective window is the advertised one, or one if that is closed
      refine Or.inr ⟨_, hinv.bytesInFlight_ok, ?_⟩
      unfold effectiveWindow at hfull
      omega
    · exact Or.inl hexhausted
  · intro hleft
    -- a full window is not empty
    have hflight : connection.sender.sndUna < connection.sender.sndNxt := by
      rcases hleft with hunsent | hflight
      · have hfull := h.resolve_right hunsent
        unfold effectiveWindow at hfull
        omega
      · exact hflight
    have hqueue : connection.sender.outstanding ≠ [] := by
      intro hnil
      have heq := hinv.queue.eq_nil_iff.mp hnil
      omega
    have hrunning := hinv.timed.running_iff.mpr hqueue
    exact ⟨hqueue, hrunning, hinv.timed.elapsed_lt hrunning⟩

/-- Flushing fills the window. -/
theorem filled_of_flushSender (h : ConnInv connection0)
    (hflush : connection0.flushSender = .ok (connection1, segments)) :
    Filled connection1.sender := by
  obtain ⟨data, hinv⟩ := h.sender
  obtain ⟨sender, messages, hpush, rfl, -⟩ := flushSender_eq_ok.mp hflush
  have hp := push_pushed hinv hpush
  have huna : sender.sndUna = connection0.sender.sndUna := by rw [hp.frame]
  have hwindow : sender.effectiveWindow = connection0.sender.effectiveWindow := by
    unfold effectiveWindow
    rw [hp.frame]
  unfold Filled
  dsimp only
  rw [huna, hwindow]
  exact hp.filled

theorem Performed.filled (hp : Performed connection op connection1 segments)
    (h : ConnInv connection) (hfilled : Filled connection.sender ∨ Starts connection op) :
    Filled connection1.sender := by
  cases hp with
  | flushed hprepared hflush hsegments => exact filled_of_flushSender (hprepared.inv h) hflush
  | @ticked elapsedMs sender messages htick =>
      -- time changes neither the window nor what was transmitted
      have hold : Filled connection.sender := hfilled.resolve_right (fun hs => hs)
      obtain ⟨data, hinv⟩ := h.sender
      show Filled sender
      rw [(tick_ticked hinv htick).1.frame]
      exact hold
  | foreign hport =>
      rcases hfilled with hold | hstarts
      · exact hold
      · exact absurd (hport.symm.trans hstarts) (by simp)
  | read len => exact hfilled.resolve_right (fun hs => hs)

/-- An operation that flushes one connection flushes every connection with its ports. -/
theorem SamePorts.starts (h : SamePorts connection connection1) :
    Starts connection1 op ↔ Starts connection op := by
  cases op with
  | receiveSegment segment =>
      show connection1.belongsToThisConnection segment = true ↔ _
      rw [h.belongs segment]
      exact Iff.rfl
  | flushSender => exact Iff.rfl
  | write data => exact Iff.rfl
  | close => exact Iff.rfl
  | tick elapsedMs => exact Iff.rfl
  | read len => exact Iff.rfl

theorem filled_of_run {ops : List ConnOp} {emitted emitted1 : List TcpSegment}
    (h : ConnInv connection)
    (hstarts : Filled connection.sender ∨ ∃ op ∈ ops, Starts connection op)
    (hrun : Exec.run emitStep (connection, emitted) ops = .ok (connection1, emitted1)) :
    ConnInv connection1 ∧ Filled connection1.sender := by
  induction ops generalizing connection emitted with
  | nil =>
      rw [Exec.run_nil, Except.ok.injEq, Prod.mk.injEq] at hrun
      obtain ⟨rfl, -⟩ := hrun
      refine ⟨h, hstarts.resolve_right ?_⟩
      rintro ⟨op, hmem, -⟩
      exact absurd hmem List.not_mem_nil
  | cons op rest ih =>
      obtain ⟨⟨connection2, emitted2⟩, hstep, hrest⟩ := Exec.run_cons_eq_ok.mp hrun
      obtain ⟨segments, hperform, -⟩ := emitStep_eq_ok.mp hstep
      have hp := perform_performed hperform
      apply ih (h.perform hperform) ?_ hrest
      -- the operation that starts the sender is this one or comes later
      rcases hstarts with hold | ⟨op1, hmem, hstarts⟩
      · exact Or.inl (hp.filled h (Or.inl hold))
      · rcases List.mem_cons.mp hmem with rfl | hmem
        · exact Or.inl (hp.filled h (Or.inr hstarts))
        · exact Or.inr ⟨op1, hmem, hp.ports.starts.mpr hstarts⟩

/-- After every run with a connect, a write, a close or a segment for this connection in it,
nothing is left to transmit or the window is full; and as long as anything is unsent or
unacknowledged, something is outstanding and a timer that has not expired runs for it. -/
theorem no_stuck_data {config : TcpConnectionConfig} {ops : List ConnOp}
    {emitted : List TcpSegment} (hnew : new config = .ok connection0)
    (hstarts : ∃ op ∈ ops, Starts connection0 op)
    (hrun : Exec.run emitStep (connection0, []) ops = .ok (connection, emitted)) :
    Moving connection := by
  obtain ⟨h, hfilled⟩ := filled_of_run (connInv_new hnew) (Or.inr hstarts) hrun
  obtain ⟨data, hinv⟩ := h.sender
  exact hfilled.moving hinv

/-- Data that waits for the handshake, and then for a window that the peer closes: one byte
probes it. -/
def closedWindowRun : List ConnOp :=
  [.write [1, 2, 3, 4, 5, 6], .receiveSegment (examplePeerSyn 0), .tick 100]

theorem no_stuck_data_closed_window : ∃ connection0 connection emitted,
    new exampleConfig = .ok connection0 ∧
    Exec.run emitStep (connection0, []) closedWindowRun = .ok (connection, emitted) ∧
    (∃ op ∈ closedWindowRun, Starts connection0 op) ∧
    connection.sender.outbound.bytesBuffered = 5 ∧ Moving connection := by
  obtain ⟨state, hrun, hbuffered⟩ : ∃ state, exampleRun closedWindowRun = .ok state ∧
      state.1.sender.outbound.bytesBuffered = 5 := by
    decide +kernel
  obtain ⟨connection0, hnew, hrun0⟩ := Exec.bind_eq_ok.mp hrun
  have hstarts : ∃ op ∈ closedWindowRun, Starts connection0 op :=
    ⟨.write [1, 2, 3, 4, 5, 6], List.mem_cons_self, trivial⟩
  exact ⟨connection0, state.1, state.2, hnew, hrun0, hstarts, hbuffered,
    no_stuck_data hnew hstarts hrun0⟩

end TcpConnection

end Minnow
