import Minnow.TcpSender.Run

set_option autoImplicit false

/-! # Segments and the chunks they are read from

The budget of a segment is computed from all that is buffered, but `pop` takes bytes from one
chunk only. A segment is filled if the first chunk is long enough, and cut short where the chunk
ends.

* `aligned_pop_iff`: a read is not cut short, and none of the following ones is, exactly if no chunk
  ends inside a segment.
* `push_fills_iff`: exactly which buffers are transmitted in full segments, whatever the chunks.
-/

namespace Minnow

namespace ByteStream

/-! ## Where chunks end -/

variable {stream : ByteStream} {p len size room : Nat}

/-- A chunk that is not the last one ends behind `p` bytes. -/
def ChunkEnd : List Bytes → Nat → Prop
  | [], _ => False
  | chunk :: chunks, p =>
      chunks ≠ [] ∧ (p = chunk.length ∨ chunk.length ≤ p ∧ ChunkEnd chunks (p - chunk.length))

instance decidableChunkEnd : (chunks : List Bytes) → (p : Nat) → Decidable (ChunkEnd chunks p)
  | [], _ => inferInstanceAs (Decidable False)
  | chunk :: chunks, p =>
      have := decidableChunkEnd chunks (p - chunk.length)
      inferInstanceAs (Decidable (_ ∧ (p = chunk.length ∨ _ ∧ ChunkEnd chunks _)))

def Boundary (stream : ByteStream) (p : Nat) : Prop := ChunkEnd stream.chunks p

theorem chunkEnd_pos {chunks : List Bytes} (hne : ∀ chunk ∈ chunks, chunk ≠ [])
    (h : ChunkEnd chunks p) : 0 < p := by
  cases chunks with
  | nil => exact absurd h id
  | cons chunk chunks =>
      have hpos := List.length_pos_iff.mpr (hne chunk List.mem_cons_self)
      obtain ⟨-, rfl | ⟨hle, -⟩⟩ := h
      · exact hpos
      · exact lt_of_lt_of_le hpos hle

/-- The last chunk is behind every end of the others. -/
theorem chunkEnd_lt {chunks : List Bytes} (hne : ∀ chunk ∈ chunks, chunk ≠ [])
    (h : ChunkEnd chunks p) : p < chunks.flatten.length := by
  induction chunks generalizing p with
  | nil => exact absurd h id
  | cons chunk chunks ih =>
      rw [List.flatten_cons, List.length_append]
      have hrest : ∀ c ∈ chunks, c ≠ [] := fun c hc => hne c (List.mem_cons_of_mem _ hc)
      obtain ⟨hmore, rfl | ⟨hle, h⟩⟩ := h
      · obtain ⟨next, more, rfl⟩ := List.exists_cons_of_ne_nil hmore
        have hpos := List.length_pos_iff.mpr (hrest next List.mem_cons_self)
        rw [List.flatten_cons, List.length_append]
        omega
      · have := ih hrest h
        omega

theorem pop_cons {front : Bytes} {rest : List Bytes} (hchunks : stream.chunks = front :: rest)
    (hlen : 0 < len) : (stream.pop len).2 = front.take len ∧
      (stream.pop len).1.chunks =
        if front.length ≤ len then rest else front.drop len :: rest := by
  have hne : 0 < front.length :=
    List.length_pos_iff.mpr (stream.chunk_ne_nil front (by rw [hchunks]; simp))
  unfold pop
  split
  · rename_i hnil
    rw [hnil] at hchunks
    exact absurd hchunks (by simp)
  · rename_i front1 rest1 hchunks1
    obtain ⟨rfl, rfl⟩ := List.cons.inj (hchunks1.symm.trans hchunks)
    have hpopped : min len front1.length ≠ 0 := by omega
    simp only [if_neg hpopped]
    by_cases hall : front1.length ≤ len
    · rw [min_eq_right hall, if_pos rfl, if_pos hall, List.take_length, List.take_of_length_le hall]
      exact ⟨rfl, rfl⟩
    · rw [min_eq_left (by omega), if_neg (by omega), if_neg hall]
      exact ⟨rfl, rfl⟩

theorem pop_nil (hchunks : stream.chunks = []) : stream.pop len = (stream, []) := by
  unfold pop
  split
  · rfl
  · rename_i front rest hcons
    rw [hchunks] at hcons
    exact absurd hcons (by simp)

theorem boundary_lt (h : stream.Boundary p) : p < stream.bytesBuffered := by
  rw [stream.buffered_eq]
  exact chunkEnd_lt stream.chunk_ne_nil h

/-- A pop does not cross the end of a chunk. -/
theorem length_pop_le_boundary (len : Nat) (h : stream.Boundary p) :
    (stream.pop len).2.length ≤ p := by
  unfold Boundary at h
  cases hchunks : stream.chunks with
  | nil =>
      rw [pop_nil hchunks]
      exact Nat.zero_le _
  | cons front rest =>
      rw [hchunks] at h
      rcases Nat.eq_zero_or_pos len with rfl | hlen
      · exact le_trans (stream.length_pop_le 0) (Nat.zero_le _)
      · rw [(pop_cons hchunks hlen).1, List.length_take]
        obtain ⟨-, rfl | ⟨hle, -⟩⟩ := h <;> omega

/-- A pop that stops short of its length and of the buffer has reached the end of a chunk. -/
theorem boundary_of_short (hlen : (stream.pop len).2.length < len)
    (hbuffered : (stream.pop len).2.length < stream.bytesBuffered) :
    stream.Boundary (stream.pop len).2.length := by
  have hbuf := stream.buffered_eq
  unfold Boundary
  cases hchunks : stream.chunks with
  | nil =>
      rw [hchunks, List.flatten_nil, List.length_nil] at hbuf
      omega
  | cons front rest =>
      have hpop := (pop_cons hchunks (show 0 < len by omega)).1
      rw [hpop, List.length_take] at hlen hbuffered ⊢
      rw [hchunks, List.flatten_cons, List.length_append] at hbuf
      refine ⟨?_, Or.inl (by omega)⟩
      rintro rfl
      rw [List.flatten_nil, List.length_nil] at hbuf
      omega

/-- What is left of the chunks ends where it did. -/
theorem boundary_pop : (stream.pop len).1.Boundary p ↔
    0 < p ∧ stream.Boundary ((stream.pop len).2.length + p) := by
  cases hchunks : stream.chunks with
  | nil =>
      rw [pop_nil hchunks]
      simp [Boundary, hchunks, ChunkEnd]
  | cons front rest =>
      rcases Nat.eq_zero_or_pos len with rfl | hlen
      · have hnil : (stream.pop 0).2 = [] :=
          List.length_eq_zero_iff.mp (Nat.le_zero.mp (stream.length_pop_le 0))
        rw [pop_of_nil stream 0 hnil, hnil, List.length_nil, Nat.zero_add]
        exact ⟨fun h => ⟨chunkEnd_pos stream.chunk_ne_nil h, h⟩, And.right⟩
      · obtain ⟨hout, hleft⟩ := pop_cons hchunks hlen
        have hrest : ∀ chunk ∈ rest, chunk ≠ [] := by
          intro chunk hmem
          apply stream.chunk_ne_nil chunk
          rw [hchunks]
          exact List.mem_cons_of_mem _ hmem
        unfold Boundary
        rw [hleft, hout, hchunks, List.length_take]
        by_cases hall : front.length ≤ len
        · -- the first chunk is gone, and the others stand where they did
          rw [if_pos hall, min_eq_right hall, ChunkEnd, Nat.add_sub_cancel_left]
          constructor
          · intro h
            refine ⟨chunkEnd_pos hrest h, ?_, Or.inr ⟨Nat.le_add_right _ _, h⟩⟩
            rintro rfl
            exact h
          · rintro ⟨hpos, -, heq | ⟨-, h⟩⟩
            · omega
            · exact h
        · -- the first chunk is shorter by what was popped
          rw [if_neg hall, min_eq_left (by omega), ChunkEnd, ChunkEnd, List.length_drop]
          rw [show len + p - front.length = p - (front.length - len) by omega]
          constructor
          · rintro ⟨hne, heq | ⟨hle, h⟩⟩
            · exact ⟨by omega, hne, Or.inl (by omega)⟩
            · exact ⟨by omega, hne, Or.inr ⟨by omega, h⟩⟩
          · rintro ⟨-, hne, heq | ⟨hle, h⟩⟩
            · exact ⟨hne, Or.inl (by omega)⟩
            · exact ⟨hne, Or.inr ⟨by omega, h⟩⟩

/-- Within the first `room` bytes, chunks only end where a segment of `size` bytes does. -/
def Aligned (stream : ByteStream) (size room : Nat) : Prop :=
  ∀ p, stream.Boundary p → size ∣ p ∨ room ≤ p

instance : Decidable (stream.Aligned size room) :=
  decidable_of_iff (∀ p < stream.bytesBuffered, ChunkEnd stream.chunks p → size ∣ p ∨ room ≤ p)
    ⟨fun h p hp => h p (boundary_lt hp) hp, fun h p _ hp => h p hp⟩

theorem aligned_of_empty (hempty : stream.bytesBuffered = 0) : stream.Aligned size room :=
  fun p hp => absurd (hempty ▸ boundary_lt hp) (Nat.not_lt_zero p)

theorem aligned_zero : stream.Aligned size 0 := fun p _ => Or.inr (Nat.zero_le p)

/-- A pop is as long as the room allows. -/
theorem length_pop_of_aligned (h : stream.Aligned size room) :
    (stream.pop (min (min room size) stream.bytesBuffered)).2.length =
      min (min room size) stream.bytesBuffered := by
  have hle := stream.length_pop_le (min (min room size) stream.bytesBuffered)
  by_contra hshort
  have hend := boundary_of_short (lt_of_le_of_ne hle hshort) (by omega)
  have hpos := chunkEnd_pos stream.chunk_ne_nil hend
  rcases h _ hend with hdvd | hroom
  · have := Nat.le_of_dvd hpos hdvd
    omega
  · omega

/-- The pop that fills a segment leaves an aligned stream. -/
theorem aligned_pop_iff {out : Bytes} {stream1 : ByteStream}
    (hpop : stream.pop (min (min room size) stream.bytesBuffered) = (stream1, out)) :
    stream.Aligned size room ↔
      (out.length < size → out.length < room → stream1.bytesBuffered = 0) ∧
      stream1.Aligned size (room - out.length) := by
  have hout : out = (stream.pop (min (min room size) stream.bytesBuffered)).2 := by rw [hpop]
  have hleft : stream1 = (stream.pop (min (min room size) stream.bytesBuffered)).1 := by rw [hpop]
  have hle := stream.length_pop_le (min (min room size) stream.bytesBuffered)
  have hbuffered : out.length + stream1.bytesBuffered = stream.bytesBuffered := by
    rw [← length_contents, ← length_contents, ← List.length_append, hout, hleft]
    exact congrArg List.length (pop_contents stream _)
  rw [← hout] at hle
  constructor
  · intro h
    have hlen := length_pop_of_aligned h
    rw [← hout] at hlen
    refine ⟨fun _ _ => by omega, fun p hp => ?_⟩
    have hlt := boundary_lt hp
    rw [hleft, boundary_pop, ← hout] at hp
    rcases h _ hp.2 with hdvd | hroom
    · by_cases hfull : out.length = size
      · exact Or.inl ((Nat.dvd_add_right (hfull ▸ dvd_refl _)).mp hdvd)
      · exact Or.inr (by omega)
    · exact Or.inr (by omega)
  · rintro ⟨hfilled, hrest⟩ p hp
    have hlt := boundary_lt hp
    have hfirst := length_pop_le_boundary (min (min room size) stream.bytesBuffered) hp
    rw [← hout] at hfirst
    by_cases hroom : room ≤ p
    · exact Or.inr hroom
    · -- the pop was a full segment, or nothing is left behind it
      have hfull : out.length = size ∨ stream1.bytesBuffered = 0 := by
        by_cases hsmall : out.length < size
        · exact Or.inr (hfilled hsmall (by omega))
        · exact Or.inl (by omega)
      rcases hfull with hfull | hempty
      · rcases Nat.eq_or_lt_of_le hfirst with heq | hlater
        · exact Or.inl (by rw [← heq, hfull])
        · have hend : stream1.Boundary (p - out.length) := by
            rw [hleft, boundary_pop, ← hout, Nat.add_sub_cancel' hfirst]
            exact ⟨by omega, hp⟩
          rcases hrest _ hend with hdvd | hlate
          · refine Or.inl ?_
            rw [← Nat.sub_add_cancel hfirst]
            exact (Nat.dvd_add_left (hfull ▸ dvd_refl _)).mpr hdvd
          · omega
      · omega

/-- The same bytes in other chunks. -/
structure Rechunked (stream stream1 : ByteStream) : Prop where
  contents : stream1.contents = stream.contents
  popped : stream1.bytesPopped = stream.bytesPopped
  capacity : stream1.capacity = stream.capacity
  closed : stream1.closed = stream.closed
  error : stream1.error = stream.error

instance {stream1 : ByteStream} : Decidable (Rechunked stream stream1) :=
  decidable_of_iff (stream1.contents = stream.contents ∧ stream1.bytesPopped = stream.bytesPopped ∧
      stream1.capacity = stream.capacity ∧ stream1.closed = stream.closed ∧
      stream1.error = stream.error)
    ⟨fun ⟨h1, h2, h3, h4, h5⟩ => ⟨h1, h2, h3, h4, h5⟩, fun ⟨h1, h2, h3, h4, h5⟩ =>
      ⟨h1, h2, h3, h4, h5⟩⟩

theorem Rechunked.buffered {stream1 : ByteStream} (h : Rechunked stream stream1) :
    stream1.bytesBuffered = stream.bytesBuffered := by
  rw [← length_contents, ← length_contents, h.contents]

theorem Rechunked.pushed {stream1 : ByteStream} (h : Rechunked stream stream1) :
    stream1.bytesPushed = stream.bytesPushed := by
  rw [stream1.pushed_eq, stream.pushed_eq, h.popped, h.buffered]

/-- Pops of the same length take the same bytes. -/
theorem Rechunked.drained {stream1 stream2 stream3 : ByteStream} {out out1 : Bytes}
    (h : Rechunked stream stream1) (hlen : out1.length = out.length)
    (hdrained : Drained stream out stream2) (hdrained1 : Drained stream1 out1 stream3) :
    out1 = out ∧ Rechunked stream2 stream3 := by
  have hsplit : out1 ++ stream3.contents = out ++ stream2.contents := by
    rw [hdrained1.contents, h.contents, hdrained.contents]
  obtain ⟨hout, hcontents⟩ := List.append_inj hsplit hlen
  exact ⟨hout, hcontents, by rw [hdrained1.popped, h.popped, hdrained.popped, hlen],
    by rw [hdrained1.capacity, h.capacity, hdrained.capacity],
    by rw [hdrained1.closed, h.closed, hdrained.closed],
    by rw [hdrained1.error, h.error, hdrained.error]⟩

end ByteStream

namespace TcpSender

open ByteStream

variable {sender sender1 : TcpSender} {data : Bytes} {window available budget : Nat}
  {message : TcpSenderMessage} {messages : List TcpSenderMessage}

/-! ## One segment -/

/-- What the window has left for payload. -/
def payloadRoom (window : Nat) (sender : TcpSender) : Nat :=
  window - (sender.sndNxt - sender.sndUna) - (!sender.synSent).toNat

theorem readOutboundPayload_eq (outbound : ByteStream) (maxLen : Nat) :
    readOutboundPayload outbound maxLen = outbound.pop (min maxLen outbound.bytesBuffered) := by
  unfold readOutboundPayload
  by_cases hzero : maxLen = 0
  · have hnil : (outbound.pop 0).2 = [] :=
      List.length_eq_zero_iff.mp (Nat.le_zero.mp (outbound.length_pop_le 0))
    rw [if_pos hzero, hzero, Nat.zero_min]
    exact Prod.ext (pop_of_nil outbound 0 hnil).symm hnil.symm
  · rw [if_neg hzero]

/-- The payload of a segment is one pop. -/
theorem makeSegment_pop (sender : TcpSender) (hpos : 0 < available) :
    sender.outbound.pop (min (min (available - (!sender.synSent).toNat)
        sender.config.maxPayloadSize) sender.outbound.bytesBuffered) =
      ((sender.makeSegment available).1.outbound, (sender.makeSegment available).2.payload) := by
  rw [← readOutboundPayload_eq]
  unfold makeSegment
  simp only [hpos, decide_true, Bool.and_true]

/-- A full segment leaves the chunks aligned with the next one. -/
theorem cut_aligned_iff (h : Inv data sender)
    (hroom : sender.sndNxt - sender.sndUna < window)
    (hcut : Cut data sender (window - (sender.sndNxt - sender.sndUna)) sender1 message)
    (hpop : sender.outbound.pop (min (min (payloadRoom window sender) sender.config.maxPayloadSize)
      sender.outbound.bytesBuffered) = (sender1.outbound, message.payload)) :
    sender.outbound.Aligned sender.config.maxPayloadSize (payloadRoom window sender) ↔
      (message.payload.length < sender.config.maxPayloadSize →
        message.payload.length < payloadRoom window sender → sender1.outbound.bytesBuffered = 0) ∧
      sender1.outbound.Aligned sender.config.maxPayloadSize
        (payloadRoom window (tracked sender sender1 message)) := by
  have huna := h.una_le
  have hsyn : (tracked sender sender1 message).synSent = true := by
    show sender1.synSent = true
    rw [hcut.frame]
  have hlen : message.sequenceLength
      = (!sender.synSent).toNat + message.payload.length + message.fin.toNat := by
    rw [← hcut.syn_eq]
    rfl
  rw [aligned_pop_iff hpop]
  apply and_congr_right
  intro _
  cases hfin : message.fin with
  | true =>
      -- nothing is left that could be misaligned
      have hempty := (hcut.fin_last hfin).2.2
      exact iff_of_true (aligned_of_empty hempty) (aligned_of_empty hempty)
  | false =>
      have hsame : payloadRoom window (tracked sender sender1 message)
          = payloadRoom window sender - message.payload.length := by
        unfold payloadRoom
        rw [hsyn, hcut.tracked_sndUna, tracked_sndNxt, hlen, hfin]
        simp only [Bool.toNat_false, Bool.not_true, Nat.add_zero]
        omega
      rw [hsame]

/-! ## A push -/

/-- Every message whose payload is shorter than the limit, and than what its SYN leaves of the
window, takes the last bytes out of the buffer. -/
def Packed (window : Nat) (sender : TcpSender) (messages : List TcpSenderMessage) : Prop :=
  ∀ before message after, messages = before ++ message :: after →
    message.payload.length < sender.config.maxPayloadSize →
    message.payload.length < window - (sender.sndNxt - sender.sndUna)
      - (before.map TcpSenderMessage.sequenceLength).sum - message.syn.toNat →
    sender.outbound.contents = (before ++ [message]).flatMap TcpSenderMessage.payload

theorem packed_nil (window : Nat) (sender : TcpSender) : Packed window sender [] := by
  intro before message after hsplit
  exact absurd hsplit (by simp)

/-- The first message, and the others from where it has left the buffer. -/
theorem packed_cons (h : Inv data sender) (hcut : Cut data sender available sender1 message) :
    Packed window sender (message :: messages) ↔
      (message.payload.length < sender.config.maxPayloadSize →
        message.payload.length < payloadRoom window sender → sender1.outbound.bytesBuffered = 0) ∧
      Packed window (tracked sender sender1 message) messages := by
  have hcontents := hcut.drained.contents
  have huna := h.una_le
  have hconfig : (tracked sender sender1 message).config = sender.config := by
    show sender1.config = sender.config
    rw [hcut.frame]
  have hleft : (tracked sender sender1 message).outbound = sender1.outbound := rfl
  have hroom : ∀ used, window - (sender.sndNxt - sender.sndUna) - (message.sequenceLength + used)
      = window - (sender.sndNxt + message.sequenceLength - sender.sndUna) - used := by
    intro used
    omega
  have hempty : sender1.outbound.bytesBuffered = 0 ↔
      sender.outbound.contents = message.payload := by
    rw [← length_contents, List.length_eq_zero_iff, ← hcontents]
    exact List.append_right_eq_self.symm
  unfold payloadRoom
  rw [← hcut.syn_eq, hempty]
  constructor
  · intro hall
    constructor
    · intro hsize hroom
      have hfirst := hall [] message messages rfl hsize hroom
      rwa [List.nil_append, List.flatMap_singleton] at hfirst
    · intro before later after hsplit hsize hlater
      rw [hconfig] at hsize
      rw [hcut.tracked_sndUna, tracked_sndNxt, ← hroom] at hlater
      -- a message of the rest is one of the whole list, behind the first one
      have hmore := hall (message :: before) later after (by rw [hsplit, List.cons_append]) hsize
        (by rwa [List.map_cons, List.sum_cons])
      rw [List.cons_append, List.flatMap_cons, ← hcontents] at hmore
      exact List.append_cancel_left hmore
  · rintro ⟨hfirst, hall⟩ before later after hsplit hsize hlater
    -- either the first message is the one that is not full, or it stands before it
    cases before with
    | nil =>
        obtain ⟨rfl, rfl⟩ := List.cons.inj hsplit
        rw [List.nil_append, List.flatMap_singleton]
        exact hfirst hsize hlater
    | cons first before =>
        obtain ⟨rfl, rfl⟩ := List.cons.inj hsplit
        rw [List.map_cons, List.sum_cons, hroom] at hlater
        rw [← hcut.tracked_sndUna, ← tracked_sndNxt sender sender1 message] at hlater
        rw [List.cons_append, List.flatMap_cons, ← hcontents,
          ← hall before later after rfl (by rwa [hconfig]) hlater, hleft]

theorem payloadRoom_eq_zero (hfull : ¬ sender.sndNxt - sender.sndUna < window) :
    payloadRoom window sender = 0 := by
  unfold payloadRoom
  omega

/-- The messages of a push are full exactly if the chunks are aligned with them. -/
theorem pushLoop_packed_iff (h : Inv data sender) (hwindow : window ≤ 65535)
    (hrun : pushLoop window budget sender = .ok (sender1, messages)) :
    Packed window sender messages ↔
      sender.outbound.Aligned sender.config.maxPayloadSize (payloadRoom window sender) := by
  induction budget generalizing sender sender1 messages with
  | zero =>
      unfold pushLoop at hrun
      rw [h.bytesInFlight_ok, Exec.ok_bind] at hrun
      split_ifs at hrun with hroom
      obtain ⟨-, rfl⟩ := Prod.mk.inj (Except.ok.inj hrun)
      rw [payloadRoom_eq_zero hroom]
      exact iff_of_true (packed_nil window sender) aligned_zero
  | succ budget ih =>
      rw [pushLoop_succ h] at hrun
      by_cases hroom : sender.sndNxt - sender.sndUna < window
      · rw [if_pos hroom] at hrun
        have hpos : 0 < window - (sender.sndNxt - sender.sndUna) := by omega
        have hcut := makeSegment_cut h hpos
        have hpop := makeSegment_pop sender hpos
        generalize sender.makeSegment (window - (sender.sndNxt - sender.sndUna)) = cut
          at hrun hcut hpop
        obtain ⟨sender2, message⟩ := cut
        dsimp only at hrun hcut hpop
        have hfits := hcut.fits
        have huna := h.una_le
        split_ifs at hrun with hzero hmax
        · -- nothing is buffered
          obtain ⟨-, rfl⟩ := Prod.mk.inj (Except.ok.inj hrun)
          exact iff_of_true (packed_nil window sender)
            (aligned_of_empty (hcut.exhausted hzero).2.2.1)
        · obtain ⟨⟨sender3, rest⟩, hrest, hok⟩ := Exec.bind_eq_ok.mp hrun
          obtain ⟨-, rfl⟩ := Prod.mk.inj (Except.ok.inj hok)
          have hinv := hcut.inv_tracked h (Nat.pos_of_ne_zero hzero) hmax (by omega)
          have hconfig : (tracked sender sender2 message).config = sender.config := by
            show sender2.config = sender.config
            rw [hcut.frame]
          have htail := ih hinv hrest
          rw [hconfig] at htail
          rw [packed_cons h hcut, htail, cut_aligned_iff h hroom hcut hpop]
          rfl
      · rw [if_neg hroom] at hrun
        obtain ⟨-, rfl⟩ := Prod.mk.inj (Except.ok.inj hrun)
        rw [payloadRoom_eq_zero hroom]
        exact iff_of_true (packed_nil window sender) aligned_zero

/-! ## Other chunks -/

variable {outbound : ByteStream}

theorem Inv.withOutbound (h : Inv data sender) (hsame : Rechunked sender.outbound outbound) :
    Inv data { sender with outbound := outbound } where
  pushed_eq := hsame.pushed.trans h.pushed_eq
  contents_eq := by
    show outbound.contents = data.drop outbound.bytesPopped
    rw [hsame.contents, hsame.popped]
    exact h.contents_eq
  nxt_eq := by
    show sender.sndNxt = _ + outbound.bytesPopped + _
    rw [hsame.popped]
    exact h.nxt_eq
  syn_first := fun hs => ⟨hsame.popped.trans (h.syn_first hs).1, (h.syn_first hs).2⟩
  fin_last := fun hf =>
    ⟨hsame.closed.trans (h.fin_last hf).1, hsame.popped.trans (h.fin_last hf).2⟩
  nxt_le := h.nxt_le
  queue := h.queue
  genuine := by
    show ∀ segment ∈ sender.outstanding, segment.Genuine data outbound.closed sender.isn
    rw [hsame.closed]
    exact h.genuine
  rst_eq := by
    show ∀ segment ∈ sender.outstanding, segment.message.rst = outbound.error
    rw [hsame.error]
    exact h.rst_eq
  payload_pos := h.payload_pos
  window_le := h.window_le
  flight_le := h.flight_le
  backoff := h.backoff
  timed := ⟨h.timed.running_iff, h.timed.timeout_eq, h.timed.mode_eq, h.timed.elapsed_lt⟩

/-- From aligned chunks the same segment is cut. -/
theorem makeSegment_rechunked (hpos : 0 < available)
    (hsame : Rechunked sender.outbound outbound)
    (haligned : sender.outbound.Aligned sender.config.maxPayloadSize
      (available - (!sender.synSent).toNat))
    (haligned1 : outbound.Aligned sender.config.maxPayloadSize
      (available - (!sender.synSent).toNat)) :
    ∃ outbound1, Rechunked (sender.makeSegment available).1.outbound outbound1 ∧
      makeSegment { sender with outbound := outbound } available =
        ({ (sender.makeSegment available).1 with outbound := outbound1 },
          (sender.makeSegment available).2) := by
  set budget := min (available - (!sender.synSent).toNat) sender.config.maxPayloadSize
    with hbudget
  have hlen : (readOutboundPayload outbound budget).2.length
      = (readOutboundPayload sender.outbound budget).2.length := by
    rw [readOutboundPayload_eq, readOutboundPayload_eq, length_pop_of_aligned haligned1,
      length_pop_of_aligned haligned, hsame.buffered]
  obtain ⟨hpayload, hleft⟩ := hsame.drained hlen
    (readOutboundPayload_drained sender.outbound budget) (readOutboundPayload_drained outbound budget)
  unfold makeSegment makeEmptyMessage
  simp only [hpos, decide_true, Bool.and_true, ← hbudget, hpayload, hleft.closed, hleft.buffered,
    hsame.error]
  exact ⟨_, hleft, rfl⟩

theorem effectiveWindow_le (h : Inv data sender) : sender.effectiveWindow ≤ 65535 := by
  have := h.window_le
  unfold effectiveWindow
  omega

/-- From aligned chunks the same messages are transmitted. -/
theorem pushLoop_rechunked (h : Inv data sender) (hwindow : window ≤ 65535)
    (hsame : Rechunked sender.outbound outbound)
    (haligned : sender.outbound.Aligned sender.config.maxPayloadSize (payloadRoom window sender))
    (haligned1 : outbound.Aligned sender.config.maxPayloadSize (payloadRoom window sender))
    (hrun : pushLoop window budget sender = .ok (sender1, messages)) :
    ∃ outbound1, Rechunked sender1.outbound outbound1 ∧
      pushLoop window budget { sender with outbound := outbound } =
        .ok ({ sender1 with outbound := outbound1 }, messages) := by
  have h1 := h.withOutbound hsame
  induction budget generalizing sender outbound sender1 messages with
  | zero =>
      unfold pushLoop at hrun ⊢
      rw [h.bytesInFlight_ok, Exec.ok_bind] at hrun
      rw [h1.bytesInFlight_ok, Exec.ok_bind]
      split_ifs at hrun with hroom
      obtain ⟨rfl, rfl⟩ := Prod.mk.inj (Except.ok.inj hrun)
      exact ⟨outbound, hsame, if_neg hroom⟩
  | succ budget ih =>
      rw [pushLoop_succ h] at hrun
      rw [pushLoop_succ h1]
      by_cases hroom : sender.sndNxt - sender.sndUna < window
      · rw [if_pos hroom] at hrun
        have hpos : 0 < window - (sender.sndNxt - sender.sndUna) := by omega
        have hcut := makeSegment_cut h hpos
        have hpop := makeSegment_pop sender hpos
        have hcut1 := makeSegment_cut h1 hpos
        have hpop1 := makeSegment_pop { sender with outbound := outbound } hpos
        -- both queues are aligned here, so the same message is cut from both
        obtain ⟨outbound1, hsame1, hmake⟩ := makeSegment_rechunked hpos hsame haligned haligned1
        rw [hmake] at hcut1 hpop1
        dsimp only
        rw [if_pos hroom, hmake]
        generalize sender.makeSegment (window - (sender.sndNxt - sender.sndUna)) = cut
          at hrun hcut hpop hsame1 hcut1 hpop1 ⊢
        obtain ⟨sender2, message⟩ := cut
        dsimp only at hrun hcut hpop hsame1 hcut1 hpop1 ⊢
        have hfits := hcut.fits
        have huna := h.una_le
        split_ifs at hrun with hzero hmax
        · obtain ⟨rfl, rfl⟩ := Prod.mk.inj (Except.ok.inj hrun)
          exact ⟨outbound, hsame, if_pos hzero⟩
        · obtain ⟨⟨sender3, rest⟩, hrest, hok⟩ := Exec.bind_eq_ok.mp hrun
          obtain ⟨rfl, rfl⟩ := Prod.mk.inj (Except.ok.inj hok)
          have hinv := hcut.inv_tracked h (Nat.pos_of_ne_zero hzero) hmax (by omega)
          -- what is left is aligned again, for the room that is left
          have hnext := ((cut_aligned_iff h hroom hcut hpop).mp haligned).2
          have hnext1 := ((cut_aligned_iff h1 hroom hcut1 hpop1).mp haligned1).2
          have hconfig : sender2.config = sender.config := by rw [hcut.frame]
          rw [← hconfig] at hnext hnext1
          obtain ⟨outbound2, hsame2, hrun2⟩ :=
            ih hinv hsame1 hnext hnext1 hrest (hinv.withOutbound hsame1)
          refine ⟨outbound2, hsame2, ?_⟩
          have htracked : tracked { sender with outbound := outbound }
              { sender2 with outbound := outbound1 } message
                = { tracked sender sender2 message with outbound := outbound1 } := rfl
          rw [if_neg hzero, if_pos hmax, htracked, hrun2, Exec.ok_bind]
      · rw [if_neg hroom] at hrun
        obtain ⟨rfl, rfl⟩ := Prod.mk.inj (Except.ok.inj hrun)
        exact ⟨outbound, hsame, if_neg hroom⟩

/-- Where the window and the buffer leave room, chunks only end where full segments do. -/
def ChunksAligned (sender : TcpSender) : Prop :=
  sender.outbound.Aligned sender.config.maxPayloadSize
    (payloadRoom sender.effectiveWindow sender)

instance (sender : TcpSender) : Decidable sender.ChunksAligned :=
  inferInstanceAs (Decidable (ByteStream.Aligned _ _ _))

theorem push_packed_iff (h : Inv data sender) (hrun : sender.push = .ok (sender1, messages)) :
    Packed sender.effectiveWindow sender messages ↔ sender.ChunksAligned := by
  obtain ⟨⟨sender2, messages2⟩, hloop, hrun⟩ := Exec.bind_eq_ok.mp hrun
  obtain ⟨u, -, hok⟩ := Exec.bind_eq_ok.mp hrun
  obtain ⟨-, rfl⟩ := Prod.mk.inj (Except.ok.inj hok)
  exact pushLoop_packed_iff h (effectiveWindow_le h) hloop

theorem push_rechunked (h : Inv data sender) (hsame : Rechunked sender.outbound outbound)
    (haligned : sender.ChunksAligned)
    (haligned1 : ChunksAligned { sender with outbound := outbound })
    (hrun : sender.push = .ok (sender1, messages)) :
    ∃ sender2, push { sender with outbound := outbound } = .ok (sender2, messages) := by
  have hp := push_pushed h hrun
  obtain ⟨⟨sender2, messages2⟩, hloop, hrun⟩ := Exec.bind_eq_ok.mp hrun
  obtain ⟨u, -, hok⟩ := Exec.bind_eq_ok.mp hrun
  obtain ⟨rfl, rfl⟩ := Prod.mk.inj (Except.ok.inj hok)
  obtain ⟨outbound1, hsame1, hloop1⟩ :=
    pushLoop_rechunked h (effectiveWindow_le h) hsame haligned haligned1 hloop
  refine ⟨{ sender2 with outbound := outbound1 }, ?_⟩
  have hchecks := (hp.inv.withOutbound hsame1).debugCheckInvariants_ok
  unfold push
  show (pushLoop sender.effectiveWindow sender.effectiveWindow _ >>= _) = _
  rw [hloop1]
  simp only [Exec.ok_bind, hchecks]

/-- In every state that a run reaches, a push fills its segments exactly if the chunks are
aligned with them. With the same bytes in other chunks as well, both pushes fill their segments
and transmit the same ones exactly if the chunks of both are aligned. -/
theorem push_fills_iff {capacity : Nat} {isn : Wrap32} {config : TcpSenderConfig}
    {ops : List SenderOp} {log : Log} (hnew : TcpSender.new capacity isn config = .ok sender)
    (hrun : Exec.run Log.step (Log.start sender) ops = .ok log)
    (hpush : log.sender.push = .ok (sender1, messages))
    (hsame : Rechunked log.sender.outbound outbound) :
    (Packed log.sender.effectiveWindow log.sender messages ↔ log.sender.ChunksAligned) ∧
    ((Packed log.sender.effectiveWindow log.sender messages ∧
        ∃ sender2, push { log.sender with outbound := outbound } = .ok (sender2, messages) ∧
          Packed log.sender.effectiveWindow { log.sender with outbound := outbound } messages) ↔
      (log.sender.ChunksAligned ∧ ChunksAligned { log.sender with outbound := outbound })) := by
  have h := (Log.logInv_run hnew hrun).inv
  have hpacked := push_packed_iff h hpush
  refine ⟨hpacked, ?_⟩
  constructor
  · rintro ⟨hfirst, sender2, hpush2, hsecond⟩
    exact ⟨hpacked.mp hfirst, (push_packed_iff (h.withOutbound hsame) hpush2).mp hsecond⟩
  · rintro ⟨haligned, haligned1⟩
    obtain ⟨sender2, hpush2⟩ := push_rechunked h hsame haligned haligned1 hpush
    exact ⟨hpacked.mpr haligned, sender2, hpush2,
      (push_packed_iff (h.withOutbound hsame) hpush2).mpr haligned1⟩

/-- The handshake, and then the given writes. -/
def writesRun (writes : List Bytes) : List SenderOp :=
  [.push, .receive ⟨some ⟨1⟩, 8, false⟩] ++ writes.map SenderOp.write

theorem push_fills_iff_aligned : ∃ sender log log1,
    TcpSender.new 8 ⟨0⟩ ⟨100, 1000, 4⟩ = .ok sender ∧
    Exec.run Log.step (Log.start sender) (writesRun [[1, 2, 3, 4], [5, 6]]) = .ok log ∧
    Exec.run Log.step (Log.start sender) (writesRun [[1, 2, 3, 4, 5, 6]]) = .ok log1 ∧
    ∃ sender1 sender2 messages, log.sender.push = .ok (sender1, messages) ∧
      push { log.sender with outbound := log1.sender.outbound } = .ok (sender2, messages) := by
  obtain ⟨sender, hnew, log, hrun, log1, hrun1, hsame, haligned, haligned1, pushed, hpush, -⟩ :
      ∃ sender, TcpSender.new 8 ⟨0⟩ ⟨100, 1000, 4⟩ = .ok sender ∧
        ∃ log, Exec.run Log.step (Log.start sender) (writesRun [[1, 2, 3, 4], [5, 6]]) = .ok log ∧
        ∃ log1, Exec.run Log.step (Log.start sender) (writesRun [[1, 2, 3, 4, 5, 6]]) = .ok log1 ∧
          Rechunked log.sender.outbound log1.sender.outbound ∧ log.sender.ChunksAligned ∧
          ChunksAligned { log.sender with outbound := log1.sender.outbound } ∧
          ∃ pushed, log.sender.push = .ok pushed ∧ True := by
    decide +kernel
  obtain ⟨-, sender2, hpush2, -⟩ :=
    (push_fills_iff hnew hrun hpush hsame).2.mpr ⟨haligned, haligned1⟩
  exact ⟨sender, log, log1, hnew, hrun, hrun1, pushed.1, sender2, pushed.2, hpush, hpush2⟩

/-- Two bytes that were written one by one are transmitted in two segments. -/
theorem small_writes_split : ∃ sender, TcpSender.new 8 ⟨0⟩ ⟨100, 1000, 4⟩ = .ok sender ∧
    ∃ log, Exec.run Log.step (Log.start sender) (writesRun [[1], [2]]) = .ok log ∧
    ∃ log1, Exec.run Log.step (Log.start sender) (writesRun [[1, 2]]) = .ok log1 ∧
      Rechunked log.sender.outbound log1.sender.outbound ∧
      ∃ pushed, log.sender.push = .ok pushed ∧
      ∃ pushed1, push { log.sender with outbound := log1.sender.outbound } = .ok pushed1 ∧
        ¬ Packed log.sender.effectiveWindow log.sender pushed.2 ∧ pushed1.2 ≠ pushed.2 := by
  obtain ⟨sender, hnew, log, hrun, log1, hrun1, hsame, hshort, pushed, hpush, pushed1, hpush1,
      hne⟩ : ∃ sender, TcpSender.new 8 ⟨0⟩ ⟨100, 1000, 4⟩ = .ok sender ∧
        ∃ log, Exec.run Log.step (Log.start sender) (writesRun [[1], [2]]) = .ok log ∧
        ∃ log1, Exec.run Log.step (Log.start sender) (writesRun [[1, 2]]) = .ok log1 ∧
          Rechunked log.sender.outbound log1.sender.outbound ∧ ¬ log.sender.ChunksAligned ∧
          ∃ pushed, log.sender.push = .ok pushed ∧
          ∃ pushed1, push { log.sender with outbound := log1.sender.outbound } = .ok pushed1 ∧
            pushed1.2 ≠ pushed.2 := by
    decide +kernel
  have h := (Log.logInv_run hnew hrun).inv
  exact ⟨sender, hnew, log, hrun, log1, hrun1, hsame, pushed, hpush, pushed1, hpush1,
    fun hpacked => hshort ((push_packed_iff h hpush).mp hpacked), hne⟩

end TcpSender

end Minnow
