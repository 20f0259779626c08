import Minnow.TcpSender.Steps

set_option autoImplicit false

/-! # The size of a payload

No message that a sender transmits, the first time or again, carries more than the configured
payload: `push` cuts at most that much, and an acknowledgment only shortens what is
outstanding.
-/

namespace Minnow

open OutstandingSegment

variable {messages : List TcpSenderMessage} {message : TcpSenderMessage}

namespace OutstandingSegment

variable {segment trimmed : OutstandingSegment} {segments kept : List OutstandingSegment}

theorem trimPrefix_payload_le {n : Nat} {isn : Wrap32}
    (hrun : segment.trimPrefix n isn = .ok trimmed) :
    trimmed.message.payload.length ≤ segment.message.payload.length := by
  unfold trimPrefix at hrun
  obtain ⟨u1, -, hrun⟩ := Exec.bind_eq_ok.mp hrun
  obtain ⟨u2, -, hrun⟩ := Exec.bind_eq_ok.mp hrun
  obtain ⟨payload, hsliced, hrun⟩ := Exec.bind_eq_ok.mp hrun
  obtain ⟨u3, -, hrun⟩ := Exec.bind_eq_ok.mp hrun
  obtain ⟨u4, -, hrun⟩ := Exec.bind_eq_ok.mp hrun
  obtain ⟨absoluteStart, -, hrun⟩ := Exec.bind_eq_ok.mp hrun
  obtain ⟨u5, -, hrun⟩ := Exec.bind_eq_ok.mp hrun
  obtain rfl := Except.ok.inj hrun
  -- the payload is cut at the front, or SYN was all that was trimmed
  dsimp only
  split_ifs at hsliced
  · unfold sliceFrom at hsliced
    split_ifs at hsliced
    obtain rfl := Except.ok.inj hsliced
    rw [List.length_drop]
    exact Nat.sub_le _ _
  · obtain rfl := Except.ok.inj hsliced
    exact le_refl _

theorem mem_of_dropAcknowledged {una : Nat}
    (hrun : TcpSender.dropAcknowledged una segments = .ok kept) : ∀ x ∈ kept, x ∈ segments := by
  induction segments with
  | nil =>
      obtain rfl := Except.ok.inj hrun
      exact fun _ hx => hx
  | cons front rest ih =>
      obtain ⟨frontEnd, -, hrun⟩ := Exec.bind_eq_ok.mp hrun
      split_ifs at hrun
      · exact fun x hx => List.mem_cons_of_mem _ (ih hrun x hx)
      · obtain rfl := Except.ok.inj hrun
        exact fun _ hx => hx

end OutstandingSegment

namespace TcpSender

variable {sender sender1 : TcpSender} {data : Bytes}

/-- Nothing outstanding carries more than the configured payload. -/
def Sized (sender : TcpSender) : Prop :=
  ∀ x ∈ sender.outstanding, x.message.payload.length ≤ sender.config.maxPayloadSize

theorem sized_of_nil (h : sender.outstanding = []) : Sized sender := by
  intro x hx
  rw [h] at hx
  exact absurd hx List.not_mem_nil

/-! ## New segments -/

theorem makeSegment_payload_le (sender : TcpSender) (available : Nat) :
    (sender.makeSegment available).2.payload.length ≤ sender.config.maxPayloadSize := by
  unfold makeSegment
  exact le_trans (length_readOutboundPayload_le _ _) (min_le_right _ _)

theorem track_config (hrun : sender.track message = .ok sender1) :
    sender1.config = sender.config := by
  unfold track at hrun
  obtain ⟨u, -, hrun⟩ := Exec.bind_eq_ok.mp hrun
  obtain ⟨sndNxt, -, hrun⟩ := Exec.bind_eq_ok.mp hrun
  split_ifs at hrun
  · rw [restartTimerForCurrentWindow_frame hrun]
  · obtain rfl := Except.ok.inj hrun
    rfl

theorem pushLoop_payload_le {window budget : Nat}
    (hrun : pushLoop window budget sender = .ok (sender1, messages)) :
    ∀ m ∈ messages, m.payload.length ≤ sender.config.maxPayloadSize := by
  induction budget generalizing sender sender1 messages with
  | zero =>
      unfold pushLoop at hrun
      obtain ⟨inFlight, -, hrun⟩ := Exec.bind_eq_ok.mp hrun
      split_ifs at hrun
      obtain ⟨-, rfl⟩ := Prod.mk.inj (Except.ok.inj hrun)
      exact fun _ hm => absurd hm List.not_mem_nil
  | succ budget ih =>
      unfold pushLoop at hrun
      obtain ⟨inFlight, -, hrun⟩ := Exec.bind_eq_ok.mp hrun
      split_ifs at hrun
      · -- `makeSegment` reads at most the configured payload; tracking keeps the configuration
        have hcut := sender.makeSegment_payload_le (window - inFlight)
        have hconfig : (sender.makeSegment (window - inFlight)).1.config = sender.config := rfl
        generalize sender.makeSegment (window - inFlight) = cut at hrun hcut hconfig
        obtain ⟨sender2, cutMessage⟩ := cut
        dsimp only at hrun hcut hconfig
        split_ifs at hrun
        · obtain ⟨-, rfl⟩ := Prod.mk.inj (Except.ok.inj hrun)
          exact fun _ hm => absurd hm List.not_mem_nil
        · obtain ⟨sender3, htrack, hrun⟩ := Exec.bind_eq_ok.mp hrun
          obtain ⟨⟨sender4, rest⟩, hrest, hok⟩ := Exec.bind_eq_ok.mp hrun
          obtain ⟨-, rfl⟩ := Prod.mk.inj (Except.ok.inj hok)
          intro m hm
          rcases List.mem_cons.mp hm with rfl | hm
          · exact hcut
          · have hlater := ih hrest m hm
            rwa [track_config htrack, hconfig] at hlater
      · obtain ⟨-, rfl⟩ := Prod.mk.inj (Except.ok.inj hrun)
        exact fun _ hm => absurd hm List.not_mem_nil

theorem push_payload_le (hrun : sender.push = .ok (sender1, messages)) :
    ∀ m ∈ messages, m.payload.length ≤ sender.config.maxPayloadSize := by
  obtain ⟨⟨sender2, messages2⟩, hloop, hrun⟩ := Exec.bind_eq_ok.mp hrun
  obtain ⟨u, -, hok⟩ := Exec.bind_eq_ok.mp hrun
  obtain ⟨-, rfl⟩ := Prod.mk.inj (Except.ok.inj hok)
  exact pushLoop_payload_le hloop

theorem Sized.push (h : Sized sender) (hinv : Inv data sender)
    (hrun : sender.push = .ok (sender1, messages)) : Sized sender1 := by
  have hp := push_pushed hinv hrun
  have hconfig : sender1.config = sender.config := by rw [hp.frame]
  intro x hx
  rw [hconfig]
  rw [hp.outstanding] at hx
  rcases List.mem_append.mp hx with hx | hx
  · exact h x hx
  · -- the new segments are the messages under their numbers
    have hmessage : x.message ∈ messages := by
      rw [← map_message_stamp sender.sndNxt messages]
      exact List.mem_map_of_mem hx
    exact push_payload_le hrun _ hmessage

/-! ## Acknowledgments and time -/

theorem Sized.discardAcknowledgedPrefix (h : Sized sender)
    (hrun : sender.discardAcknowledgedPrefix = .ok sender1) : Sized sender1 := by
  obtain ⟨kept, hdrop, hrun⟩ := Exec.bind_eq_ok.mp hrun
  have hkept : ∀ x ∈ kept, x.message.payload.length ≤ sender.config.maxPayloadSize :=
    fun x hx => h x (mem_of_dropAcknowledged hdrop x hx)
  cases kept with
  | nil =>
      obtain rfl := Except.ok.inj hrun
      exact sized_of_nil rfl
  | cons front rest =>
      dsimp only at hrun
      split_ifs at hrun
      · -- the front was acknowledged in part
        obtain ⟨trimmed, htrim, hok⟩ := Exec.bind_eq_ok.mp hrun
        obtain rfl := Except.ok.inj hok
        intro x hx
        rcases List.mem_cons.mp hx with rfl | hx
        · exact le_trans (trimPrefix_payload_le htrim) (hkept front List.mem_cons_self)
        · exact hkept x (List.mem_cons_of_mem _ hx)
      · obtain rfl := Except.ok.inj hrun
        exact hkept

theorem Sized.receiveWindow {window : Nat} (h : Sized sender)
    (hrun : sender.receiveWindow window = .ok sender1) : Sized sender1 := by
  unfold TcpSender.receiveWindow at hrun
  obtain ⟨sender2, hrestarted, hrun⟩ := Exec.bind_eq_ok.mp hrun
  obtain ⟨u, -, hok⟩ := Exec.bind_eq_ok.mp hrun
  obtain rfl := Except.ok.inj hok
  split_ifs at hrestarted
  · rw [restartTimerForCurrentWindow_frame hrestarted]
    exact h
  · obtain rfl := Except.ok.inj hrestarted
    exact h

theorem Sized.receiveAck {ackno window : Nat} (h : Sized sender)
    (hrun : sender.receiveAck ackno window = .ok sender1) : Sized sender1 := by
  unfold TcpSender.receiveAck at hrun
  split_ifs at hrun
  · obtain rfl := Except.ok.inj hrun
    exact h
  · obtain ⟨sender2, hacknowledged, hrun⟩ := Exec.bind_eq_ok.mp hrun
    obtain ⟨sender3, htimed, hrun⟩ := Exec.bind_eq_ok.mp hrun
    obtain ⟨u, -, hok⟩ := Exec.bind_eq_ok.mp hrun
    obtain rfl := Except.ok.inj hok
    have h2 : Sized sender2 := by
      split_ifs at hacknowledged
      · obtain ⟨sender4, hdiscard, hok4⟩ := Exec.bind_eq_ok.mp hacknowledged
        obtain rfl := Except.ok.inj hok4
        have hbefore : Sized { sender with advertisedWindow := window, sndUna := ackno } := h
        have h4 : Sized sender4 := hbefore.discardAcknowledgedPrefix hdiscard
        exact h4
      · obtain rfl := Except.ok.inj hacknowledged
        exact h
    -- the timer is all that changes afterwards
    split_ifs at htimed
    · obtain rfl := Except.ok.inj htimed
      exact h2
    · rw [restartTimerForCurrentWindow_frame htimed]
      exact h2
    · obtain rfl := Except.ok.inj htimed
      exact h2

theorem Sized.receive {feedback : TcpReceiverMessage} (h : Sized sender)
    (hrun : sender.receive feedback = .ok sender1) : Sized sender1 := by
  unfold TcpSender.receive at hrun
  split_ifs at hrun
  · obtain rfl := Except.ok.inj hrun
    exact sized_of_nil rfl
  · cases hack : feedback.ackno with
    | none =>
        rw [hack] at hrun
        exact h.receiveWindow hrun
    | some ackno =>
        rw [hack] at hrun
        exact h.receiveAck hrun

/-- Time repeats what is outstanding. -/
theorem Sized.tick {elapsedMs : Nat} (h : Sized sender) (hinv : Inv data sender)
    (hrun : sender.tick elapsedMs = .ok (sender1, messages)) :
    Sized sender1 ∧ ∀ m ∈ messages, m.payload.length ≤ sender.config.maxPayloadSize := by
  obtain ⟨ht, hmessages⟩ := tick_ticked hinv hrun
  constructor
  · rw [ht.frame]
    exact h
  · rcases hmessages with ⟨-, rfl⟩ | ⟨-, front, rest, hfront, rfl⟩
    · exact fun _ hm => absurd hm List.not_mem_nil
    · intro m hm
      obtain rfl := List.mem_singleton.mp hm
      exact h front (by rw [hfront]; exact List.mem_cons_self)

end TcpSender

end Minnow
