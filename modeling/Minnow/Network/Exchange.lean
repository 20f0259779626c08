import Minnow.Library.Termination
import Minnow.Network.Basic
import Minnow.TcpConnection.Reset
import Mathlib.Data.Multiset.Filter

set_option autoImplicit false

/-! # No storm of acknowledgments

Two connections that do nothing but answer each other's segments fall silent. A segment that
is answered with data uses up sequence space that was not sent before; otherwise it is answered
with a bare acknowledgment if it occupies sequence space, and a bare acknowledgment is not
answered at all. So of the unsent sequence space, the segments in flight that occupy sequence
space, and the others, in this order, every delivery decreases the first that it changes.
-/

namespace Minnow

namespace TcpSender

variable {sender sender1 : TcpSender} {data : Bytes} {messages : List TcpSenderMessage}
  {window : Nat}

/-- The sequence numbers that may still be transmitted for the first time, counting one for
a FIN that may yet come. -/
def unsent (sender : TcpSender) : Nat :=
  (!sender.synSent).toNat + sender.outbound.bytesBuffered + (!sender.finSent).toNat

/-- What is unsent and what was sent are together what the stream has taken, SYN and FIN. -/
theorem Inv.unsent_add (h : sender.Inv data) : sender.unsent + sender.sndNxt = data.length + 2 := by
  have hnxt := h.nxt_eq
  have hpushed := h.pushed_eq
  have hsum := sender.outbound.pushed_eq
  unfold unsent
  cases hsyn : sender.synSent <;> cases hfin : sender.finSent <;>
    simp only [hsyn, hfin, Bool.toNat_true, Bool.toNat_false, Bool.not_true, Bool.not_false]
      at hnxt ⊢ <;>
    omega

/-- A push that transmits anything leaves less to transmit. -/
theorem Pushed.unsent_lt (hp : Pushed data window sender messages sender1) (h : sender.Inv data)
    (hne : messages ≠ []) : sender1.unsent < sender.unsent := by
  have hold := h.unsent_add
  have hnew := hp.inv.unsent_add
  have hqueue := hp.queue h
  have hgrow : sender.sndNxt ≠ sender1.sndNxt := by
    intro heq
    have hnil := hqueue.eq_nil_iff.mpr heq
    have hmessages := congrArg (List.map OutstandingSegment.message) hnil
    rw [map_message_stamp] at hmessages
    exact hne hmessages
  have hle := hqueue.le
  omega

/-- Feedback transmits nothing. -/
theorem receive_unsent {message : TcpReceiverMessage} (h : sender.Inv data)
    (hrun : sender.receive message = .ok sender1) : sender1.unsent = sender.unsent := by
  have hsame := receive_sameSent h hrun
  unfold unsent
  rw [hsame.syn, hsame.buffered, hsame.fin]

end TcpSender

namespace TcpConnection

open TcpSender

variable {connection connection1 : TcpConnection} {segment : TcpSegment}
  {segments : List TcpSegment}

/-- The answer to a segment: data that was not sent before, or a bare acknowledgment of a
segment that occupies sequence space, or nothing. -/
theorem receiveSegment_answer (h : ConnInv connection)
    (hrun : connection.receiveSegment segment = .ok (connection1, segments)) :
    connection1.sender.unsent < connection.sender.unsent ∨
      (connection1.sender.unsent = connection.sender.unsent ∧
        (segments = [] ∨ ∃ ack, segments = [ack] ∧ ack.toSenderMessage.sequenceLength = 0 ∧
          0 < segment.toSenderMessage.sequenceLength)) := by
  by_cases hport : connection.belongsToThisConnection segment = true
  · obtain ⟨sender, connection2, outgoing, hsender, hdata, hflush, hsegments⟩ :=
      receiveSegment_eq_ok hport hrun
    obtain ⟨data, hinv⟩ := h.sender
    have hinv0 := hinv.receive hsender
    have hunsent := receive_unsent hinv hsender
    have hsender2 : connection2.sender = sender := by rw [receiveData_frame hdata]
    obtain ⟨sender1, messages, hpush, hconnection1, hout⟩ := flushSender_eq_ok.mp hflush
    rw [hsender2] at hpush
    have hp := push_pushed hinv0 hpush
    have hsender1 : connection1.sender = sender1 := by rw [hconnection1]
    rw [hsender1, ← hunsent]
    cases messages with
    | cons message rest => exact Or.inl (hp.unsent_lt hinv0 (List.cons_ne_nil _ _))
    | nil =>
        have hnil : outgoing = [] := hout
        have hsame : sender1.unsent = sender.unsent := by
          have hold := hinv0.unsent_add
          have hnew := hp.inv.unsent_add
          have hnxt : sender.sndNxt = sender1.sndNxt := (hp.queue hinv0).eq_nil_iff.mp rfl
          omega
        refine Or.inr ⟨hsame, ?_⟩
        rw [hnil] at hsegments
        split_ifs at hsegments with hack
        · -- a bare acknowledgment, if there is anything to acknowledge
          cases hpure : connection1.makePureAckSegment with
          | none =>
              rw [hpure] at hsegments
              exact Or.inl hsegments
          | some ack =>
              rw [hpure] at hsegments
              refine Or.inr ⟨ack, hsegments, ?_, hack.1⟩
              apply @makePureAckSegment_empty connection1
              rw [hpure]
              exact List.mem_cons_self
        · exact Or.inl hsegments
  · rw [receiveSegment, if_pos (by simpa using hport), Except.ok.injEq, Prod.mk.injEq] at hrun
    obtain ⟨rfl, rfl⟩ := hrun
    exact Or.inr ⟨rfl, Or.inl rfl⟩

end TcpConnection

namespace Network

open TcpConnection

/-- Two connections and the segments in flight, each with the side it is on its way to. -/
structure Exchange where
  connection : Side → TcpConnection
  flight : Multiset (Side × TcpSegment)

namespace Exchange

/-- The segments a side has returned are on their way to its peer. -/
def toPeer (side : Side) (segments : List TcpSegment) : Multiset (Side × TcpSegment) :=
  (segments.map (fun segment => (side.peer, segment)) : List (Side × TcpSegment))

/-- A segment is taken out of the flight and delivered; what is returned joins the flight. -/
inductive Delivers : Exchange → Exchange → Prop where
  | deliver {x : Exchange} {side : Side} {segment : TcpSegment}
      {rest : Multiset (Side × TcpSegment)} {connection : TcpConnection}
      {segments : List TcpSegment} (hflight : x.flight = (side, segment) ::ₘ rest)
      (hrun : (x.connection side).receiveSegment segment = .ok (connection, segments)) :
      Delivers x
        { connection := Function.update x.connection side connection
          flight := rest + toPeer side segments }

/-- The unsent sequence space of both sides. -/
def unsent (x : Exchange) : Nat :=
  (x.connection .a).sender.unsent + (x.connection .b).sender.unsent

/-- How many of the segments occupy sequence space. -/
def full (flight : Multiset (Side × TcpSegment)) : Nat :=
  (flight.filter (fun s => 0 < s.2.toSenderMessage.sequenceLength)).card

/-- The unsent sequence space, the segments that occupy sequence space, all segments. -/
def weight (x : Exchange) : Nat ×ₗ Nat ×ₗ Nat :=
  toLex (x.unsent, toLex (full x.flight, x.flight.card))

variable {x x1 : Exchange} {side : Side} {segment : TcpSegment}
  {rest : Multiset (Side × TcpSegment)} {segments : List TcpSegment}

theorem unsent_update (x : Exchange) (side : Side) (connection : TcpConnection)
    (flight : Multiset (Side × TcpSegment)) :
    unsent { connection := Function.update x.connection side connection, flight := flight }
      = connection.sender.unsent + (x.connection side.peer).sender.unsent := by
  unfold unsent
  cases side with
  | a =>
      dsimp only
      rw [Function.update_self, Function.update_of_ne (by decide)]
      rfl
  | b =>
      dsimp only
      rw [Function.update_self, Function.update_of_ne (by decide), Nat.add_comm]
      rfl

theorem unsent_eq (x : Exchange) (side : Side) :
    x.unsent = (x.connection side).sender.unsent + (x.connection side.peer).sender.unsent := by
  cases side with
  | a => rfl
  | b => exact Nat.add_comm _ _

/-- A delivery that is not answered with data lets the segments in flight decrease: the ones
that occupy sequence space, or all of them. -/
theorem flight_lt
    (hanswer : segments = [] ∨ ∃ ack, segments = [ack] ∧
      ack.toSenderMessage.sequenceLength = 0 ∧ 0 < segment.toSenderMessage.sequenceLength) :
    toLex (full (rest + toPeer side segments), (rest + toPeer side segments).card)
      < toLex (full ((side, segment) ::ₘ rest), ((side, segment) ::ₘ rest).card) := by
  have hrest : full rest ≤ full ((side, segment) ::ₘ rest) :=
    Multiset.card_le_card (Multiset.filter_le_filter _ (Multiset.le_cons_self _ _))
  rcases hanswer with rfl | ⟨ack, rfl, hbare, hfull⟩
  · -- one segment less
    have hnone : rest + toPeer side [] = rest := Multiset.add_zero rest
    rw [hnone]
    apply toLex_lt_toLex_of_le hrest
    intro _
    rw [Multiset.card_cons]
    exact Nat.lt_succ_self _
  · -- a segment that occupies sequence space is replaced by one that does not
    apply Prod.Lex.toLex_lt_toLex.mpr
    left
    have hsame : full (rest + toPeer side [ack]) = full rest := by
      have hout : Multiset.filter (fun s => 0 < s.2.toSenderMessage.sequenceLength)
          (toPeer side [ack]) = 0 := by
        apply Multiset.filter_eq_nil.mpr
        intro s hs
        obtain rfl := Multiset.mem_singleton.mp hs
        exact Nat.not_lt.mpr (le_of_eq hbare)
      unfold full
      rw [Multiset.filter_add, hout, Multiset.add_zero]
    have hone : full ((side, segment) ::ₘ rest) = full rest + 1 := by
      unfold full
      rw [Multiset.filter_cons_of_pos (a := (side, segment)) rest hfull, Multiset.card_cons]
    rw [hsame, hone]
    exact Nat.lt_succ_self _

/-- Every delivery decreases the weight. -/
theorem Delivers.weight_lt (hd : Delivers x x1) (h : ∀ side, ConnInv (x.connection side)) :
    (∀ side, ConnInv (x1.connection side)) ∧ x1.weight < x.weight := by
  cases hd with
  | @deliver side segment rest connection segments hflight hrun =>
      constructor
      · intro other
        dsimp only
        rcases side.eq_or_eq_peer other with rfl | rfl
        · rw [Function.update_self]
          exact (receiveSegment_performed hrun).inv (h other)
        · rw [Function.update_of_ne side.peer_ne]
          exact h side.peer
      · unfold weight
        rw [unsent_update, x.unsent_eq side, hflight]
        rcases receiveSegment_answer (h side) hrun with hless | ⟨hsame, hanswer⟩
        · exact Prod.Lex.toLex_lt_toLex.mpr (Or.inl (Nat.add_lt_add_right hless _))
        · rw [hsame]
          exact Prod.Lex.toLex_lt_toLex.mpr (Or.inr ⟨rfl, flight_lt hanswer⟩)

/-- From any reachable states and with any segments in flight, there is no infinite sequence of
deliveries. -/
theorem no_ack_storm (hreach : ∀ side, TcpConnection.Reachable (x.connection side)) :
    ¬ InfiniteRun Delivers x := by
  apply not_infiniteRun (fun x => ∀ side, ConnInv (x.connection side)) weight
  · exact fun y y1 h hd => hd.weight_lt h
  · exact fun side => connInv_of_reachable (hreach side)

/-- A client that has sent its SYN, a server, and in flight the SYN twice and a forged RST. -/
theorem no_ack_storm_handshake : ∃ x : Exchange,
    (∀ side, TcpConnection.Reachable (x.connection side)) ∧
    (x.connection .a).sender.unsent = 1 ∧ x.flight.card = 3 ∧ ¬ InfiniteRun Delivers x := by
  obtain ⟨client, hrun, hunsent, hsegments⟩ : ∃ client, exampleRun [.flushSender] = .ok client ∧
      client.1.sender.unsent = 1 ∧ client.2.length = 1 := by
    decide +kernel
  have hserver : ∃ server,
      TcpConnection.new { exampleConfig with localPort := 2000, peerPort := 1000 }
        = .ok server := ⟨_, rfl⟩
  obtain ⟨server, hnew⟩ := hserver
  have hreach : ∀ side, TcpConnection.Reachable (Side.pair client.1 server side) := by
    intro side
    cases side with
    | a => exact reachable_of_exampleRun hrun
    | b => exact ⟨_, server, [], [], hnew, rfl⟩
  refine ⟨⟨Side.pair client.1 server,
    toPeer .a client.2 + toPeer .a client.2 + {(.a, examplePeerRst)}⟩, hreach, hunsent, ?_,
    no_ack_storm hreach⟩
  rw [Multiset.card_add, Multiset.card_add, Multiset.card_singleton, toPeer,
    Multiset.coe_card, List.length_map, hsegments]

end Exchange

end Network

end Minnow
