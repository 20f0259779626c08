import Minnow.TcpSender.Steps

set_option autoImplicit false

/-! # What a sender has transmitted

The bytes that have left the stream at least once, with SYN and FIN, are a prefix of the
sequence space, and `SND.NXT` is its length. Whatever the sender does next, what was
transmitted stays transmitted.
-/

namespace Minnow

namespace TcpSenderMessage

variable {data data1 : Bytes} {closed closed1 : Bool} {isn : Wrap32} {start : Nat}
  {message : TcpSenderMessage}

/-- A part of the sequence space that lies inside a prefix is a part of the prefix. -/
theorem Occupies.restrict (h : message.Occupies data1 closed1 isn start)
    (hpre : seqSpace data closed <+: seqSpace data1 closed1)
    (hle : start + message.sequenceLength ≤ (seqSpace data closed).length) :
    message.Occupies data closed isn start := by
  refine ⟨h.1, ?_⟩
  rw [h.2, List.slice_of_isPrefix hpre hle]

end TcpSenderMessage

namespace TcpSender

variable {sender sender1 : TcpSender} {written written1 : Bytes}

/-- The bytes that have been transmitted at least once. -/
def transmitted (sender : TcpSender) (written : Bytes) : Bytes :=
  written.take sender.outbound.bytesPopped

theorem Inv.length_transmitted (h : sender.Inv written) :
    (sender.transmitted written).length = sender.outbound.bytesPopped := by
  rw [transmitted, List.length_take]
  exact min_eq_left h.popped_le

theorem Inv.transmitted_of_finSent (h : sender.Inv written) (hfin : sender.finSent = true) :
    sender.transmitted written = written := by
  rw [transmitted, (h.fin_last hfin).2, List.take_length]

/-- What was transmitted is a prefix of the sequence space. -/
theorem Inv.prefix_transmitted (h : sender.Inv written) :
    seqSpace (sender.transmitted written) sender.finSent
      <+: seqSpace written sender.outbound.closed := by
  by_cases hfin : sender.finSent = true
  · rw [h.transmitted_of_finSent hfin, hfin, (h.fin_last hfin).1]
  · rw [Bool.not_eq_true] at hfin
    rw [hfin]
    have hgrow := prefix_seqSpace (sender.transmitted written)
      (written.drop sender.outbound.bytesPopped) sender.outbound.closed
    rwa [transmitted, List.take_append_drop] at hgrow

/-- Once SYN was sent, `SND.NXT` counts the symbols that were transmitted. -/
theorem Inv.nxt_eq_of_pos (h : sender.Inv written) (hpos : 0 < sender.sndNxt) :
    sender.sndNxt = sender.outbound.bytesPopped + 1 + sender.finSent.toNat := by
  have hnxt := h.nxt_eq
  cases hsyn : sender.synSent with
  | true =>
      rw [hsyn, Bool.toNat_true] at hnxt
      omega
  | false =>
      obtain ⟨hpopped, hfin⟩ := h.syn_first hsyn
      rw [hsyn, hpopped, hfin] at hnxt
      simp only [Bool.toNat_false] at hnxt
      omega

/-- A segment behind `SND.NXT` is a part of what was transmitted. -/
theorem Inv.occupies_transmitted (h : sender.Inv written) {message : TcpSenderMessage} {start : Nat}
    (hocc : message.Occupies written sender.outbound.closed sender.isn start)
    (hend : start + message.sequenceLength ≤ sender.sndNxt) :
    message.Occupies (sender.transmitted written) sender.finSent sender.isn start := by
  by_cases hpos : 0 < message.sequenceLength
  · have hnxt := h.nxt_eq_of_pos (by omega)
    apply hocc.restrict h.prefix_transmitted
    rw [length_seqSpace, h.length_transmitted]
    omega
  · exact TcpSenderMessage.occupies_of_empty hocc.1 (by omega)

/-- `sender1` has accepted and transmitted at least what `sender` has. -/
structure Advanced (sender : TcpSender) (written : Bytes) (sender1 : TcpSender)
    (written1 : Bytes) : Prop where
  inv : sender1.Inv written1
  error : sender1.outbound.error = sender.outbound.error
  isn : sender1.isn = sender.isn
  nxt_le : sender.sndNxt ≤ sender1.sndNxt
  grows : sender.transmitted written <+: sender1.transmitted written1
  ends : sender.finSent = true →
    sender1.finSent = true ∧ sender1.transmitted written1 = sender.transmitted written

/-- What was transmitted stays transmitted. -/
theorem Advanced.prefix_space (h : Advanced sender written sender1 written1) :
    seqSpace (sender.transmitted written) sender.finSent
      <+: seqSpace (sender1.transmitted written1) sender1.finSent := by
  by_cases hfin : sender.finSent = true
  · obtain ⟨hfin1, hsame⟩ := h.ends hfin
    rw [hsame, hfin, hfin1]
  · rw [Bool.not_eq_true] at hfin
    obtain ⟨more, hmore⟩ := h.grows
    rw [hfin, ← hmore]
    exact prefix_seqSpace _ more _

/-- A step that transmits nothing new. -/
theorem Advanced.of_same (hinv : sender1.Inv written1)
    (herror : sender1.outbound.error = sender.outbound.error) (hisn : sender1.isn = sender.isn)
    (hnxt : sender1.sndNxt = sender.sndNxt) (hfin : sender1.finSent = sender.finSent)
    (hsame : sender1.transmitted written1 = sender.transmitted written) :
    Advanced sender written sender1 written1 where
  inv := hinv
  error := herror
  isn := hisn
  nxt_le := le_of_eq hnxt.symm
  grows := by
    rw [hsame]
  ends := fun h => ⟨hfin.trans h, hsame⟩

theorem Inv.advanced_write (h : sender.Inv written) (data : Bytes) :
    Advanced sender written (sender.write data).1
      (written ++ data.take (sender.write data).2) := by
  have happ := sender.outbound.push_appended data
  apply Advanced.of_same (h.write data) happ.error rfl rfl rfl
  show (written ++ _).take (sender.outbound.push data).1.bytesPopped
    = written.take sender.outbound.bytesPopped
  rw [happ.popped, List.take_append_of_le_length h.popped_le]

theorem Inv.advanced_close (h : sender.Inv written) :
    Advanced sender written sender.close written :=
  Advanced.of_same h.close rfl rfl rfl rfl rfl

theorem Ticked.advanced (ht : Ticked written sender sender1) :
    Advanced sender written sender1 written := by
  have hframe := ht.frame
  apply Advanced.of_same ht.inv <;> rw [hframe]
  rfl

theorem Received.advanced {una window : Nat} (hr : Received written sender una window sender1) :
    Advanced sender written sender1 written := by
  have hframe := hr.frame
  apply Advanced.of_same hr.inv <;> rw [hframe]
  rfl

theorem Pushed.advanced {messages : List TcpSenderMessage} {window : Nat}
    (h : sender.Inv written) (hp : Pushed written window sender messages sender1) :
    Advanced sender written sender1 written := by
  obtain ⟨bytes, hdrained⟩ := hp.drained
  have hpopped : sender.outbound.bytesPopped ≤ sender1.outbound.bytesPopped := by
    rw [hdrained.popped]
    exact Nat.le_add_right _ _
  have hgrows : sender.transmitted written <+: sender1.transmitted written :=
    List.take_prefix_take_left hpopped
  refine
    { inv := hp.inv
      error := hdrained.error
      isn := by rw [hp.frame]
      nxt_le := (hp.queue h).le
      grows := hgrows
      ends := ?_ }
  intro hfin
  have hall := h.transmitted_of_finSent hfin
  -- FIN is the last symbol, so `SND.NXT` cannot have moved
  have hlast : sender.outbound.bytesPopped = written.length := (h.fin_last hfin).2
  have hsame : sender1.transmitted written = written := by
    have hlen := hgrows.length_le
    rw [hall] at hgrows hlen
    exact (hgrows.eq_of_length_le (List.take_prefix _ _).length_le).symm
  refine ⟨?_, hsame.trans hall.symm⟩
  have hnxt := h.nxt_eq_of_pos (by
    have hnxt := h.nxt_eq
    rw [hfin, Bool.toNat_true] at hnxt
    omega)
  have hnxt1 := hp.inv.nxt_eq_of_pos (by
    have hle := (hp.queue h).le
    rw [hfin, Bool.toNat_true] at hnxt
    omega)
  have hle := (hp.queue h).le
  have hpopped1 := hp.inv.popped_le
  rw [hfin, Bool.toNat_true] at hnxt
  by_contra hopen
  rw [Bool.not_eq_true] at hopen
  rw [hopen, Bool.toNat_false] at hnxt1
  omega

end TcpSender

end Minnow
