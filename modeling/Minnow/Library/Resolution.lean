import Minnow.Library.Side
import Mathlib.Data.List.Basic
import Mathlib.Logic.Function.Basic

set_option autoImplicit false

/-! # Address resolution between two parties

Two parties exchange data over two channels that keep the order, but a party can address the
other only once it knows its address. Until then data waits; the first datum that waits makes
the party ask. Every message of this exchange tells the address of its sender, a question just
as its answer, so both may be under way at once and cross with data.

`Inv.delivered_of_quiet`: however sending and delivering are interleaved, once nothing is under way
everything has arrived, in order, and each party that took part knows the other.
-/

namespace Resolution

open Minnow (Side)

inductive Message (α : Type) where
  | data (a : α)
  | request
  | reply

structure Party (α : Type) where
  known : Bool
  waiting : List α
  outgoing : List (Message α)
  received : List α

variable {α : Type}

namespace Party

def idle : Party α where
  known := false
  waiting := []
  outgoing := []
  received := []

/-- Send at once, or wait; the first that waits asks. -/
def send (p : Party α) (a : α) : Party α :=
  if p.known then { p with outgoing := p.outgoing ++ [.data a] }
  else
    { p with
      waiting := p.waiting ++ [a]
      outgoing := if p.waiting = [] then p.outgoing ++ [.request] else p.outgoing }

/-- Learn the address of the other, and send what waits. -/
def learn (p : Party α) : Party α :=
  { p with known := true, waiting := [], outgoing := p.outgoing ++ p.waiting.map .data }

def receive (p : Party α) : Message α → Party α
  | .data a => { p with received := p.received ++ [a] }
  | .request => { p.learn with outgoing := p.learn.outgoing ++ [.reply] }
  | .reply => p.learn

end Party

inductive Op (α : Type) where
  | send (side : Side) (a : α)
  | deliver (side : Side)

/-- The two parties after an operation; to deliver takes the first message of a side to its
peer. -/
def step (party : Side → Party α) : Op α → Side → Party α
  | .send side a => Function.update party side ((party side).send a)
  | .deliver side =>
      match (party side).outgoing with
      | [] => party
      | message :: rest =>
          Function.update (Function.update party side { party side with outgoing := rest })
            side.peer ((party side.peer).receive message)

/-- What an operation gives a side to send. -/
def Op.sent (side : Side) : Op α → List α
  | .send other a => if other = side then [a] else []
  | .deliver _ => []

/-- What a run gives a side to send. -/
def sentBy (ops : List (Op α)) (side : Side) : List α := ops.flatMap (Op.sent side)

/-- The data among messages. -/
def data (messages : List (Message α)) : List α :=
  messages.flatMap (fun message =>
    match message with
    | .data a => [a]
    | _ => [])

@[simp] theorem data_append (messages more : List (Message α)) :
    data (messages ++ more) = data messages ++ data more :=
  List.flatMap_append

@[simp] theorem data_map (l : List α) : data (l.map .data) = l := by
  induction l with
  | nil => rfl
  | cons a l ih =>
      show a :: data (l.map .data) = a :: l
      rw [ih]

/-! ## What holds between the two -/

/-- What `p` was given to send is accounted for at its peer `q`, under way and in the queue;
what waits has been asked for; and who knows has told. -/
structure Half (p q : Party α) (sent : List α) : Prop where
  order : q.received ++ data p.outgoing ++ p.waiting = sent
  waiting_nil : p.known = true → p.waiting = []
  asked : p.waiting ≠ [] → .request ∈ p.outgoing ∨ .reply ∈ q.outgoing
  replied : .reply ∈ p.outgoing → p.known = true
  told : p.known = true → q.known = true ∨ .request ∈ p.outgoing ∨ .reply ∈ p.outgoing
  started : sent ≠ [] → p.known = true ∨ p.waiting ≠ []

variable {p q : Party α} {sent back : List α} {rest : List (Message α)} {message : Message α}

theorem half_idle : Half (Party.idle : Party α) .idle [] where
  order := rfl
  waiting_nil := fun _ => rfl
  asked := fun h => absurd rfl h
  replied := fun h => absurd h List.not_mem_nil
  told := fun h => absurd h (by simp [Party.idle])
  started := fun h => absurd rfl h

/-- The party that sends. -/
theorem Half.send (h : Half p q sent) (a : α) : Half (p.send a) q (sent ++ [a]) := by
  unfold Party.send
  split_ifs with hknown hfirst
  · -- at once, behind what is under way; nothing waits
    have hnil := h.waiting_nil hknown
    constructor
    · calc q.received ++ data (p.outgoing ++ [.data a]) ++ p.waiting
          = q.received ++ (data p.outgoing ++ [a]) ++ p.waiting := by rw [data_append]; rfl
        _ = q.received ++ data p.outgoing ++ p.waiting ++ [a] := by
            rw [hnil, List.append_nil, List.append_nil, List.append_assoc]
        _ = sent ++ [a] := by rw [h.order]
    · exact h.waiting_nil
    · exact fun hne => absurd hnil hne
    · exact fun _ => hknown
    · intro _
      rcases h.told hknown with hq | hrequest | hreply
      · exact Or.inl hq
      · exact Or.inr (Or.inl (List.mem_append_left _ hrequest))
      · exact Or.inr (Or.inr (List.mem_append_left _ hreply))
    · exact fun _ => Or.inl hknown
  · -- the first that waits: it asks, and nobody was told so far
    constructor
    · calc q.received ++ data (p.outgoing ++ [.request]) ++ (p.waiting ++ [a])
          = q.received ++ (data p.outgoing ++ []) ++ (p.waiting ++ [a]) := by
            rw [data_append]; rfl
        _ = q.received ++ data p.outgoing ++ p.waiting ++ [a] := by
            rw [List.append_nil, ← List.append_assoc]
        _ = sent ++ [a] := by rw [h.order]
    · exact fun hk => absurd hk hknown
    · exact fun _ => Or.inl (List.mem_append_right _ List.mem_cons_self)
    · intro hreply
      rcases List.mem_append.mp hreply with hreply | hreply
      · exact h.replied hreply
      · exact absurd hreply (by simp)
    · exact fun hk => absurd hk hknown
    · exact fun _ => Or.inr (List.append_ne_nil_of_right_ne_nil _ (List.cons_ne_nil _ _))
  · -- behind others that wait: their question is under way, or its answer
    constructor
    · show q.received ++ data p.outgoing ++ (p.waiting ++ [a]) = sent ++ [a]
      rw [← List.append_assoc, h.order]
    · exact fun hk => absurd hk hknown
    · exact fun _ => h.asked hfirst
    · exact h.replied
    · exact h.told
    · exact fun _ => Or.inr (List.append_ne_nil_of_right_ne_nil _ (List.cons_ne_nil _ _))

theorem mem_outgoing_send (a : α) (h : message ∈ p.outgoing) : message ∈ (p.send a).outgoing := by
  unfold Party.send
  split_ifs
  · exact List.mem_append_left _ h
  · exact List.mem_append_left _ h
  · exact h

/-- The party to which the other sends. -/
theorem Half.peer_send (h : Half p q sent) (a : α) : Half p (q.send a) sent := by
  have hreceived : (q.send a).received = q.received := by
    unfold Party.send
    split_ifs <;> rfl
  have hknown : (q.send a).known = q.known := by
    unfold Party.send
    split_ifs <;> rfl
  constructor
  · rw [hreceived]
    exact h.order
  · exact h.waiting_nil
  · intro hne
    exact (h.asked hne).imp_right (mem_outgoing_send a)
  · exact h.replied
  · rw [hknown]
    exact h.told
  · exact h.started

/-- A message leaves the channel, and its receiver is no longer told by it. -/
theorem Half.deliver (h : Half p q sent) (hout : p.outgoing = message :: rest) :
    Half { p with outgoing := rest } (q.receive message) sent := by
  have horder := h.order
  have hasked := h.asked
  have htold := h.told
  rw [hout] at horder hasked htold
  constructor
  · cases message with
    | data a =>
        calc q.received ++ [a] ++ data rest ++ p.waiting
            = q.received ++ (a :: data rest) ++ p.waiting := by
              rw [List.append_assoc q.received, List.singleton_append]
          _ = sent := horder
    | request => exact horder
    | reply => exact horder
  · exact h.waiting_nil
  · -- the answer to a question is under way
    intro hne
    rcases hasked hne with hrequest | hreply
    · rcases List.mem_cons.mp hrequest with heq | hrequest
      · rw [← heq]
        exact Or.inr (List.mem_append_right _ List.mem_cons_self)
      · exact Or.inl hrequest
    · refine Or.inr ?_
      cases message with
      | data a => exact hreply
      | request => exact List.mem_append_left _ (List.mem_append_left _ hreply)
      | reply => exact List.mem_append_left _ hreply
  · intro hreply
    apply h.replied
    rw [hout]
    exact List.mem_cons_of_mem _ hreply
  · intro hknown
    cases message with
    | data a =>
        rcases htold hknown with hq | hrequest | hreply
        · exact Or.inl hq
        · exact Or.inr (Or.inl ((List.mem_cons.mp hrequest).resolve_left (by simp)))
        · exact Or.inr (Or.inr ((List.mem_cons.mp hreply).resolve_left (by simp)))
    | request => exact Or.inl rfl
    | reply => exact Or.inl rfl
  · exact h.started

/-- A message arrives; `p` has sent it. -/
theorem Half.receive (h : Half q p back) (hpeer : Half p q sent)
    (hout : p.outgoing = message :: rest) :
    Half (q.receive message) { p with outgoing := rest } back := by
  -- learning sends what waits, behind what is under way
  have hlearn : p.received ++ data q.learn.outgoing = back := by
    calc p.received ++ data (q.outgoing ++ q.waiting.map .data)
        = p.received ++ (data q.outgoing ++ q.waiting) := by rw [data_append, data_map]
      _ = p.received ++ data q.outgoing ++ q.waiting := (List.append_assoc ..).symm
      _ = back := h.order
  cases message with
  | data a =>
      constructor
      · exact h.order
      · exact h.waiting_nil
      · intro hne
        have hasked := h.asked hne
        rw [hout] at hasked
        exact hasked.imp_right (fun hreply => (List.mem_cons.mp hreply).resolve_left (by simp))
      · exact h.replied
      · exact h.told
      · exact h.started
  | request =>
      -- the answer goes out behind the data
      constructor
      · show p.received ++ data (q.learn.outgoing ++ [.reply]) ++ [] = back
        rw [data_append, List.append_nil]
        exact (congrArg (p.received ++ ·) (List.append_nil _)).trans hlearn
      · exact fun _ => rfl
      · exact fun hne => absurd rfl hne
      · exact fun _ => rfl
      · exact fun _ => Or.inr (Or.inr (List.mem_append_right _ List.mem_cons_self))
      · exact fun _ => Or.inl rfl
  | reply =>
      constructor
      · show p.received ++ data q.learn.outgoing ++ [] = back
        rw [List.append_nil]
        exact hlearn
      · exact fun _ => rfl
      · exact fun hne => absurd rfl hne
      · exact fun _ => rfl
      · -- who answers knows, which is what `told` asks for
        intro _
        apply Or.inl
        apply hpeer.replied
        rw [hout]
        exact List.mem_cons_self
      · exact fun _ => Or.inl rfl

/-! ## Runs -/

/-- Both directions. -/
def Inv (party : Side → Party α) (sent : Side → List α) : Prop :=
  ∀ side : Side, Half (party side) (party side.peer) (sent side)

variable {party : Side → Party α} {given : Side → List α} {op : Op α}

theorem step_deliver_nil {side : Side} (hout : (party side).outgoing = []) :
    step party (.deliver side) = party := by
  simp only [step, hout]

theorem step_deliver_cons {side : Side} (hout : (party side).outgoing = message :: rest) :
    step party (.deliver side)
      = Function.update (Function.update party side { party side with outgoing := rest })
          side.peer ((party side.peer).receive message) := by
  simp only [step, hout]

/-- The invariant of two parties, told side by side. -/
theorem inv_of_halves (side : Side) (h : Half (party side) (party side.peer) (given side))
    (hpeer : Half (party side.peer) (party side) (given side.peer)) : Inv party given := by
  intro other
  rcases side.eq_or_eq_peer other with rfl | rfl
  · exact h
  · rwa [Side.peer_peer]

theorem Inv.step (h : Inv party given) :
    Inv (Resolution.step party op) (fun side => given side ++ op.sent side) := by
  cases op with
  | send side a =>
      have hhalf := h side
      have hpeer := h side.peer
      rw [Side.peer_peer] at hpeer
      have hself : Resolution.step party (.send side a) side = (party side).send a :=
        Function.update_self ..
      have hother : Resolution.step party (.send side a) side.peer = party side.peer :=
        Function.update_of_ne side.peer_ne ..
      -- each half is kept: that of the side that sends, and that of its peer
      apply inv_of_halves side
      · rw [hself, hother]
        simpa [Op.sent] using hhalf.send a
      · rw [hself, hother]
        simpa [Op.sent, side.peer_ne.symm] using hpeer.peer_send a
  | deliver side =>
      have hsent : (fun other => given other ++ Op.sent other (.deliver side : Op α)) = given :=
        funext (fun other => List.append_nil _)
      rw [hsent]
      -- a delivery takes the oldest message on the way
      cases hout : (party side).outgoing with
      | nil =>
          rw [step_deliver_nil hout]
          exact h
      | cons message rest =>
          have hhalf := h side
          have hpeer := h side.peer
          rw [Side.peer_peer] at hpeer
          rw [step_deliver_cons hout]
          apply inv_of_halves side
          · rw [Function.update_of_ne side.peer_ne.symm, Function.update_self, Function.update_self]
            exact hhalf.deliver hout
          · rw [Function.update_of_ne side.peer_ne.symm, Function.update_self, Function.update_self]
            exact hpeer.receive hhalf hout

/-- Nothing is under way: everything has arrived, nothing waits, and once anything was sent each
knows the other. -/
theorem Inv.delivered_of_quiet (h : Inv party given) (hquiet : ∀ side, (party side).outgoing = [])
    (side : Side) : (party side.peer).received = given side ∧ (party side).waiting = [] ∧
      ((∃ other, given other ≠ []) → (party side).known = true) := by
  have hhalf := h side
  have hpeer := h side.peer
  rw [Side.peer_peer] at hpeer
  have hwaiting : ∀ {p q : Party α} {sent : List α}, Half p q sent → p.outgoing = [] →
      q.outgoing = [] → p.waiting = [] := by
    intro p q sent hhalf hp hq
    by_contra hne
    rcases hhalf.asked hne with hrequest | hreply
    · rw [hp] at hrequest
      exact absurd hrequest List.not_mem_nil
    · rw [hq] at hreply
      exact absurd hreply List.not_mem_nil
  have hnone := hwaiting hhalf (hquiet side) (hquiet side.peer)
  have hnonePeer := hwaiting hpeer (hquiet side.peer) (hquiet side)
  refine ⟨?_, hnone, ?_⟩
  · have horder := hhalf.order
    rw [hquiet side, hnone, List.append_nil] at horder
    exact (List.append_nil _).symm.trans horder
  · rintro ⟨other, hne⟩
    rcases side.eq_or_eq_peer other with rfl | rfl
    · exact (hhalf.started hne).resolve_right (fun hw => hw hnone)
    · -- the peer has sent, so it knows, and it has told
      have hknows : (party side.peer).known = true :=
        (hpeer.started hne).resolve_right (fun hw => hw hnonePeer)
      have hsilent := hquiet side.peer
      rcases hpeer.told hknows with hknown | hrequest | hreply
      · exact hknown
      · rw [hsilent] at hrequest
        exact absurd hrequest List.not_mem_nil
      · rw [hsilent] at hreply
        exact absurd hreply List.not_mem_nil

end Resolution
