import Minnow.Library.Merge
import Minnow.Library.Run
import Minnow.NetworkInterface.Basic

set_option autoImplicit false

/-! # What becomes of the datagrams

A datagram handed to an interface is emitted at once, or waits in the queue of its next hop until
the address is learned or the queue expires. That nothing overtakes what waits is due to an
invariant the code does not check: no address is both in the cache and in the pending table.

`Journal.accounted` follows every run: for each next hop, what was emitted and then what still
waits is what was handed over, without what has expired.
-/

namespace Minnow

namespace NetworkInterface

open List (IsMerge)

/-- The next hop an operation concerns. -/
def InterfaceOp.hop : InterfaceOp → Option Ipv4AddrBytes
  | .sendDatagram _ nextHop => some nextHop
  | .recvFrame frame =>
      match ArpMessage.parseBytes frame.payload with
      | .ok (.ok message) => some message.senderIpAddress
      | _ => none
  | _ => none

/-- The datagrams an operation hands over for a next hop. -/
def InterfaceOp.handed (ip : Ipv4AddrBytes) : InterfaceOp → List Ipv4Datagram
  | .sendDatagram datagram nextHop => if nextHop = ip then [datagram] else []
  | _ => []

/-- The IPv4 frames that were put behind those that were waiting to be sent. -/
def newIpv4Frames (iface iface1 : NetworkInterface) : List EthernetFrame :=
  (iface1.framesOut.drop iface.framesOut.length).filter
    (fun frame => frame.header.ethertype = ETHERTYPE_IPV4)

/-- The datagrams for a next hop that an operation drops because their entry has expired. -/
def expired (iface iface1 : NetworkInterface) (ip : Ipv4AddrBytes) :
    InterfaceOp → List Ipv4Datagram
  | .tick _ => if iface1.pending ip = none then iface.queue ip else []
  | _ => []

/-- An interface and, for each next hop, the datagrams handed over, the frames emitted and the
datagrams dropped. -/
structure Journal where
  iface : NetworkInterface
  handed : Ipv4AddrBytes → List Ipv4Datagram
  emitted : Ipv4AddrBytes → List EthernetFrame
  discarded : Ipv4AddrBytes → List Ipv4Datagram

namespace Journal

def start (iface : NetworkInterface) : Journal where
  iface := iface
  handed := fun _ => []
  emitted := fun _ => []
  discarded := fun _ => []

def step (j : Journal) (op : InterfaceOp) : Exec Journal := do
  let iface ← j.iface.perform op
  .ok
    { iface := iface
      handed := fun ip => j.handed ip ++ op.handed ip
      emitted := fun ip =>
        j.emitted ip ++ if op.hop = some ip then newIpv4Frames j.iface iface else []
      discarded := fun ip => j.discarded ip ++ expired j.iface iface ip op }

end Journal

variable {iface iface1 : NetworkInterface} {datagram : Ipv4Datagram} {datagrams : List Ipv4Datagram}
  {mac dst : EthernetAddress} {ip nextHop : Ipv4AddrBytes} {frame : EthernetFrame}
  {frames replies : List EthernetFrame} {op : InterfaceOp} {message : ArpMessage}

/-! ## New frames -/

theorem newIpv4Frames_of_framesOut (h : iface1.framesOut = iface.framesOut ++ frames) :
    newIpv4Frames iface iface1
      = frames.filter (fun frame => frame.header.ethertype = ETHERTYPE_IPV4) := by
  unfold newIpv4Frames
  rw [h, List.drop_left]

theorem filter_of_carries (h : List.Forall₂ (Carries mac dst) datagrams frames) :
    frames.filter (fun frame => frame.header.ethertype = ETHERTYPE_IPV4) = frames := by
  induction h with
  | nil => rfl
  | cons hframe _ ih =>
      obtain ⟨bytes, -, rfl⟩ := hframe
      rw [List.filter_cons_of_pos rfl, ih]

theorem filter_of_carriesArp (h : ∀ frame ∈ frames, ∃ dst message, CarriesArp mac dst message frame) :
    frames.filter (fun frame => frame.header.ethertype = ETHERTYPE_IPV4) = [] := by
  apply List.filter_eq_nil_iff.mpr
  intro frame hframe
  obtain ⟨dst, message, bytes, -, rfl⟩ := h frame hframe
  exact (by decide : ¬ decide (ETHERTYPE_ARP = ETHERTYPE_IPV4) = true)

theorem Replies.carriesArp (h : iface.Replies message replies) :
    ∀ frame ∈ replies, ∃ dst message, CarriesArp iface.ethernetAddress dst message frame := by
  intro frame hframe
  cases h with
  | silent hno => exact absurd hframe List.not_mem_nil
  | reply hasks hreply =>
      obtain rfl := List.mem_singleton.mp hframe
      exact ⟨_, _, hreply⟩

/-! ## The queue of a next hop -/

theorem queue_of_pending_none (h : iface.pending ip = none) : iface.queue ip = [] := by
  unfold queue
  rw [h]
  rfl

theorem queue_congr (h : iface1.pending ip = iface.pending ip) :
    iface1.queue ip = iface.queue ip := by
  unfold queue
  rw [h]

theorem queue_await (iface : NetworkInterface) (ip : Ipv4AddrBytes) (pending : PendingResolution) :
    (iface.await ip pending).queue ip = pending.datagrams := by
  unfold queue await
  dsimp only
  rw [Function.update_self]
  rfl

theorem entry_push_datagrams (iface : NetworkInterface) (ip : Ipv4AddrBytes)
    (datagram : Ipv4Datagram) :
    ((iface.entry ip).push datagram).datagrams = iface.queue ip ++ [datagram] := by
  unfold entry queue
  cases iface.pending ip <;> rfl

/-! ## One step -/

/-- The datagrams handed over for `ip` are accounted for: they have been emitted or discarded, in
their order, or wait behind those. -/
structure Accounted (mac : EthernetAddress) (ip : Ipv4AddrBytes) (j : Journal) : Prop where
  ethernetAddress_eq : j.iface.ethernetAddress = mac
  disjoint : j.iface.arpCache ip = none ∨ j.iface.pending ip = none
  nonempty : ∀ pending ∈ j.iface.pending ip, pending.datagrams ≠ []
  settled : ∃ carried settled,
    List.Forall₂ (fun datagram frame => ∃ dst, Carries mac dst datagram frame) carried
      (j.emitted ip) ∧
    IsMerge carried (j.discarded ip) settled ∧ j.handed ip = settled ++ j.iface.queue ip

variable {j j1 : Journal}

theorem accounted_start (mac : EthernetAddress) (own ip : Ipv4AddrBytes) :
    Accounted mac ip (.start (.new mac own)) where
  ethernetAddress_eq := rfl
  disjoint := Or.inl rfl
  nonempty := fun pending hpending => absurd hpending (by simp [Journal.start, NetworkInterface.new])
  settled := ⟨[], [], .nil, .nil, rfl⟩

theorem Journal.step_eq_ok (h : j.step op = .ok j1) : j.iface.Performed op j1.iface ∧
    ∀ ip, j1.handed ip = j.handed ip ++ op.handed ip ∧
      j1.emitted ip = j.emitted ip ++
        (if op.hop = some ip then newIpv4Frames j.iface j1.iface else []) ∧
      j1.discarded ip = j.discarded ip ++ expired j.iface j1.iface ip op := by
  obtain ⟨iface, hperform, hok⟩ := Exec.bind_eq_ok.mp h
  obtain rfl := Except.ok.inj hok
  exact ⟨perform_performed hperform, fun ip => ⟨rfl, rfl, rfl⟩⟩

/-- Without new frames for `ip`, the new queue may only have more at its end. -/
theorem Accounted.extend (h : Accounted mac ip j)
    (hmac : j1.iface.ethernetAddress = j.iface.ethernetAddress)
    (hdisjoint : j1.iface.arpCache ip = none ∨ j1.iface.pending ip = none)
    (hnonempty : ∀ pending ∈ j1.iface.pending ip, pending.datagrams ≠ [])
    (hqueue : j1.iface.queue ip = j.iface.queue ip ++ datagrams)
    (hhanded : j1.handed ip = j.handed ip ++ datagrams)
    (hemitted : j1.emitted ip = j.emitted ip ++ [])
    (hdiscarded : j1.discarded ip = j.discarded ip ++ []) : Accounted mac ip j1 := by
  obtain ⟨carried, settled, hcarried, hmerge, hall⟩ := h.settled
  rw [List.append_nil] at hemitted hdiscarded
  refine ⟨hmac.trans h.ethernetAddress_eq, hdisjoint, hnonempty, carried, settled, ?_, ?_, ?_⟩
  · rwa [hemitted]
  · rwa [hdiscarded]
  · calc j1.handed ip
        = settled ++ j.iface.queue ip ++ datagrams := by rw [hhanded, hall]
      _ = settled ++ (j.iface.queue ip ++ datagrams) := List.append_assoc ..
      _ = settled ++ j1.iface.queue ip := by rw [hqueue]

/-- The whole queue is emitted, and what was just handed over behind it. -/
theorem Accounted.flush (h : Accounted mac ip j)
    (hmac : j1.iface.ethernetAddress = j.iface.ethernetAddress)
    (hpending : j1.iface.pending ip = none)
    (hframes : List.Forall₂ (Carries j.iface.ethernetAddress dst) (j.iface.queue ip ++ datagrams)
      frames)
    (hhanded : j1.handed ip = j.handed ip ++ datagrams)
    (hemitted : j1.emitted ip = j.emitted ip ++ frames)
    (hdiscarded : j1.discarded ip = j.discarded ip ++ []) : Accounted mac ip j1 := by
  obtain ⟨carried, settled, hcarried, hmerge, hall⟩ := h.settled
  rw [List.append_nil] at hdiscarded
  refine ⟨hmac.trans h.ethernetAddress_eq, Or.inr hpending, ?_,
    carried ++ (j.iface.queue ip ++ datagrams), settled ++ (j.iface.queue ip ++ datagrams), ?_, ?_,
    ?_⟩
  · rw [hpending]
    exact fun pending hmem => absurd hmem (by simp)
  · -- the new frames carry the queue
    rw [hemitted]
    apply List.rel_append hcarried
    rw [h.ethernetAddress_eq] at hframes
    exact hframes.imp (fun datagram frame hframe => ⟨dst, hframe⟩)
  · rw [hdiscarded]
    exact hmerge.append_left _
  · calc j1.handed ip
        = settled ++ j.iface.queue ip ++ datagrams := by rw [hhanded, hall]
      _ = settled ++ (j.iface.queue ip ++ datagrams) := List.append_assoc ..
      _ = settled ++ (j.iface.queue ip ++ datagrams) ++ j1.iface.queue ip := by
          rw [queue_of_pending_none hpending, List.append_nil]

/-- The whole queue is dropped. -/
theorem Accounted.drop (h : Accounted mac ip j)
    (hmac : j1.iface.ethernetAddress = j.iface.ethernetAddress)
    (hpending : j1.iface.pending ip = none) (hhanded : j1.handed ip = j.handed ip ++ [])
    (hemitted : j1.emitted ip = j.emitted ip ++ [])
    (hdiscarded : j1.discarded ip = j.discarded ip ++ j.iface.queue ip) : Accounted mac ip j1 := by
  obtain ⟨carried, settled, hcarried, hmerge, hall⟩ := h.settled
  rw [List.append_nil] at hhanded hemitted
  refine ⟨hmac.trans h.ethernetAddress_eq, Or.inr hpending, ?_, carried,
    settled ++ j.iface.queue ip, ?_, ?_, ?_⟩
  · rw [hpending]
    exact fun pending hmem => absurd hmem (by simp)
  · rwa [hemitted]
  · rw [hdiscarded]
    exact hmerge.append_right _
  · rw [hhanded, hall, queue_of_pending_none hpending, List.append_nil]

/-- An operation that leaves what concerns `ip` as it is. -/
theorem Accounted.unchanged (h : Accounted mac ip j)
    (hmac : j1.iface.ethernetAddress = j.iface.ethernetAddress)
    (hcache : j1.iface.arpCache ip = j.iface.arpCache ip)
    (hpending : j1.iface.pending ip = j.iface.pending ip)
    (hhanded : j1.handed ip = j.handed ip ++ []) (hemitted : j1.emitted ip = j.emitted ip ++ [])
    (hdiscarded : j1.discarded ip = j.discarded ip ++ []) : Accounted mac ip j1 := by
  have hqueue : j1.iface.queue ip = j.iface.queue ip ++ [] := by
    rw [queue_congr hpending, List.append_nil]
  apply h.extend hmac ?_ ?_ hqueue hhanded hemitted hdiscarded
  · rw [hcache, hpending]
    exact h.disjoint
  · rw [hpending]
    exact h.nonempty

/-- A datagram for an address that is known is emitted at once. -/
theorem Accounted.emit (h : Accounted mac ip j)
    (hcached : j.iface.lookupEthernetAddress nextHop = some dst)
    (hframe : Carries j.iface.ethernetAddress dst datagram frame)
    (hiface : j1.iface = j.iface.enqueue [frame])
    (hhanded : j1.handed ip = j.handed ip ++ if nextHop = ip then [datagram] else [])
    (hemitted : j1.emitted ip = j.emitted ip ++
      if some nextHop = some ip then newIpv4Frames j.iface j1.iface else [])
    (hdiscarded : j1.discarded ip = j.discarded ip ++ []) : Accounted mac ip j1 := by
  have hnew : newIpv4Frames j.iface j1.iface = [frame] := by
    rw [hiface, newIpv4Frames_of_framesOut rfl]
    exact filter_of_carries (.cons hframe .nil)
  have hmac : j1.iface.ethernetAddress = j.iface.ethernetAddress := by rw [hiface]; rfl
  have hpending : j1.iface.pending ip = j.iface.pending ip := by rw [hiface]; rfl
  have hcache : j1.iface.arpCache ip = j.iface.arpCache ip := by rw [hiface]; rfl
  rw [hnew] at hemitted
  by_cases hip : nextHop = ip
  · subst hip
    rw [if_pos rfl] at hhanded hemitted
    -- nothing waits for an address that is known
    have hnone : j.iface.pending nextHop = none := by
      apply h.disjoint.resolve_left
      intro hunknown
      have hmiss : j.iface.lookupEthernetAddress nextHop = none :=
        Option.map_eq_none_iff.mpr hunknown
      exact absurd (hmiss.symm.trans hcached) (by simp)
    have hframes : List.Forall₂ (Carries j.iface.ethernetAddress dst)
        (j.iface.queue nextHop ++ [datagram]) [frame] := by
      rw [queue_of_pending_none hnone]
      exact .cons hframe .nil
    exact h.flush hmac (hpending.trans hnone) hframes hhanded hemitted hdiscarded
  · rw [if_neg hip] at hhanded
    rw [if_neg (by simpa using hip)] at hemitted
    exact h.unchanged hmac hcache hpending hhanded hemitted hdiscarded

/-- A datagram joins the queue of its next hop. -/
theorem Accounted.await {pending : PendingResolution} (h : Accounted mac ip j)
    (hmiss : j.iface.lookupEthernetAddress nextHop = none)
    (hdatagrams : pending.datagrams = j.iface.queue nextHop ++ [datagram])
    (harp : ∀ frame ∈ frames, ∃ dst message, CarriesArp j.iface.ethernetAddress dst message frame)
    (hiface : j1.iface = (j.iface.await nextHop pending).enqueue frames)
    (hhanded : j1.handed ip = j.handed ip ++ if nextHop = ip then [datagram] else [])
    (hemitted : j1.emitted ip = j.emitted ip ++
      if some nextHop = some ip then newIpv4Frames j.iface j1.iface else [])
    (hdiscarded : j1.discarded ip = j.discarded ip ++ []) : Accounted mac ip j1 := by
  have hnew : newIpv4Frames j.iface j1.iface = [] := by
    rw [hiface, newIpv4Frames_of_framesOut rfl]
    exact filter_of_carriesArp harp
  rw [hnew, ite_self] at hemitted
  have hmac : j1.iface.ethernetAddress = j.iface.ethernetAddress := by rw [hiface]; rfl
  by_cases hip : nextHop = ip
  · subst hip
    rw [if_pos rfl] at hhanded
    have hunknown : j.iface.arpCache nextHop = none := Option.map_eq_none_iff.mp hmiss
    have hpending : j1.iface.pending nextHop = some pending := by
      rw [hiface]
      exact Function.update_self ..
    have hqueue : j1.iface.queue nextHop = j.iface.queue nextHop ++ [datagram] := by
      rw [hiface, ← hdatagrams]
      exact queue_await ..
    apply h.extend hmac ?_ ?_ hqueue hhanded hemitted hdiscarded
    · rw [hiface]
      exact Or.inl hunknown
    · intro pending1 hmem
      rw [hpending] at hmem
      rw [← Option.mem_some_iff.mp hmem, hdatagrams]
      exact List.append_ne_nil_of_right_ne_nil _ (List.cons_ne_nil _ _)
  · -- another next hop has another queue
    rw [if_neg hip] at hhanded
    have hpending : j1.iface.pending ip = j.iface.pending ip := by
      rw [hiface]
      exact Function.update_of_ne (Ne.symm hip) ..
    have hcache : j1.iface.arpCache ip = j.iface.arpCache ip := by rw [hiface]; rfl
    exact h.unchanged hmac hcache hpending hhanded hemitted hdiscarded

/-- The address of a next hop is learned, and its queue emitted. -/
theorem Accounted.learn (h : Accounted mac ip j)
    (hframes : List.Forall₂ (Carries j.iface.ethernetAddress dst) (j.iface.queue nextHop) frames)
    (hreplies : ∀ frame ∈ replies, ∃ dst message,
      CarriesArp j.iface.ethernetAddress dst message frame)
    (hiface : j1.iface = (j.iface.learn nextHop dst).enqueue (frames ++ replies))
    (hhanded : j1.handed ip = j.handed ip ++ [])
    (hemitted : j1.emitted ip = j.emitted ip ++
      if some nextHop = some ip then newIpv4Frames j.iface j1.iface else [])
    (hdiscarded : j1.discarded ip = j.discarded ip ++ []) : Accounted mac ip j1 := by
  have hnew : newIpv4Frames j.iface j1.iface = frames := by
    calc newIpv4Frames j.iface j1.iface
        = (frames ++ replies).filter (fun frame => frame.header.ethertype = ETHERTYPE_IPV4) := by
          rw [hiface, newIpv4Frames_of_framesOut rfl]
      _ = frames ++ [] := by
          rw [List.filter_append, filter_of_carries hframes, filter_of_carriesArp hreplies]
      _ = frames := List.append_nil _
  have hmac : j1.iface.ethernetAddress = j.iface.ethernetAddress := by rw [hiface]; rfl
  rw [hnew] at hemitted
  -- for the address that was learned the queue leaves as frames; the others are not touched
  by_cases hip : nextHop = ip
  · subst hip
    rw [if_pos rfl] at hemitted
    have hpending : j1.iface.pending nextHop = none := by
      rw [hiface]
      exact Function.update_self ..
    rw [← List.append_nil (j.iface.queue nextHop)] at hframes
    exact h.flush hmac hpending hframes hhanded hemitted hdiscarded
  · rw [if_neg (by simpa using hip)] at hemitted
    have hcache : j1.iface.arpCache ip = j.iface.arpCache ip := by
      rw [hiface]
      exact Function.update_of_ne (Ne.symm hip) ..
    have hpending : j1.iface.pending ip = j.iface.pending ip := by
      rw [hiface]
      exact Function.update_of_ne (Ne.symm hip) ..
    exact h.unchanged hmac hcache hpending hhanded hemitted hdiscarded

/-- Time passes. -/
theorem Accounted.tick {elapsedMs : Nat} (h : Accounted mac ip j)
    (hiface : j1.iface = j.iface.tick elapsedMs) (hhanded : j1.handed ip = j.handed ip ++ [])
    (hemitted : j1.emitted ip = j.emitted ip ++ [])
    (hdiscarded : j1.discarded ip = j.discarded ip ++
      if j1.iface.pending ip = none then j.iface.queue ip else []) : Accounted mac ip j1 := by
  have hmac : j1.iface.ethernetAddress = j.iface.ethernetAddress := by rw [hiface]; rfl
  have hpending : j1.iface.pending ip = ((j.iface.pending ip).map
      (fun pending => pending.tick elapsedMs)).filter (fun pending => !pending.isExpired) := by
    rw [hiface]
    rfl
  by_cases hexpired : j1.iface.pending ip = none
  · rw [if_pos hexpired] at hdiscarded
    exact h.drop hmac hexpired hhanded hemitted hdiscarded
  · -- an entry that stays keeps its datagrams
    obtain ⟨pending1, hsome⟩ := Option.ne_none_iff_exists'.mp hexpired
    rw [hsome, Eq.comm, Option.filter_eq_some_iff, Option.map_eq_some_iff] at hpending
    obtain ⟨⟨pending, hold, rfl⟩, -⟩ := hpending
    rw [if_neg hexpired] at hdiscarded
    have hcache : j1.iface.arpCache ip = none := by
      have hnone : j.iface.arpCache ip = none := h.disjoint.resolve_right (by simp [hold])
      rw [hiface]
      show ((j.iface.arpCache ip).map _).filter _ = none
      rw [hnone]
      rfl
    have hqueue : j1.iface.queue ip = j.iface.queue ip ++ [] := by
      unfold queue
      rw [hsome, hold, List.append_nil]
      rfl
    apply h.extend hmac (Or.inl hcache) ?_ hqueue hhanded hemitted hdiscarded
    intro pending1 hmem
    rw [hsome] at hmem
    rw [← Option.mem_some_iff.mp hmem]
    exact h.nonempty pending hold

theorem Accounted.step (h : Accounted mac ip j) (hstep : j.step op = .ok j1) :
    Accounted mac ip j1 := by
  obtain ⟨hperformed, hghost⟩ := Journal.step_eq_ok hstep
  obtain ⟨hhanded, hemitted, hdiscarded⟩ := hghost ip
  generalize hiface : j1.iface = iface1 at hperformed
  cases hperformed with
  | emitted hcached hframe => exact h.emit hcached hframe hiface hhanded hemitted hdiscarded
  | @requested datagram nextHop request hmiss hdue hrequest =>
      have hdatagrams : ((j.iface.entry nextHop).push datagram).markRequestSent.datagrams
          = j.iface.queue nextHop ++ [datagram] := entry_push_datagrams ..
      apply h.await hmiss hdatagrams ?_ hiface hhanded hemitted hdiscarded
      intro frame hframe
      obtain rfl := List.mem_singleton.mp hframe
      exact ⟨_, _, hrequest⟩
  | @queued datagram nextHop hmiss hdue =>
      -- the last request was not long ago: no frame at all
      rw [← enqueue_nil (j.iface.await nextHop _)] at hiface
      apply h.await hmiss (entry_push_datagrams ..) ?_ hiface hhanded hemitted hdiscarded
      exact fun frame hframe => absurd hframe List.not_mem_nil
  | @learned frame message frames replies hbrings hframes hreplies =>
      have hhop : (InterfaceOp.recvFrame frame).hop = some message.senderIpAddress := by
        obtain ⟨-, -, hparsed⟩ := hbrings
        simp only [InterfaceOp.hop, hparsed]
      rw [hhop] at hemitted
      exact h.learn hframes hreplies.carriesArp hiface hhanded hemitted hdiscarded
  | @received frame datagrams hno =>
      have hnew : newIpv4Frames j.iface j1.iface = [] := by
        rw [hiface]
        exact newIpv4Frames_of_framesOut (List.append_nil _).symm
      rw [hnew, ite_self] at hemitted
      apply h.unchanged ?_ ?_ ?_ hhanded hemitted hdiscarded <;> rw [hiface]
  | ticked => exact h.tick hiface hhanded hemitted hdiscarded
  | poppedFrame => apply h.unchanged ?_ ?_ ?_ hhanded hemitted hdiscarded <;> rw [hiface]
  | poppedDatagram => apply h.unchanged ?_ ?_ ?_ hhanded hemitted hdiscarded <;> rw [hiface]

/-- An operation that concerns no next hop emits no IPv4 frame, so a journal misses none. -/
theorem newIpv4Frames_of_hop_none (h : iface.Performed op iface1) (hop : op.hop = none) :
    newIpv4Frames iface iface1 = [] := by
  cases h with
  | emitted hcached hframe => exact absurd hop (by simp [InterfaceOp.hop])
  | requested hmiss hdue hrequest => exact absurd hop (by simp [InterfaceOp.hop])
  | queued hmiss hdue => exact absurd hop (by simp [InterfaceOp.hop])
  | learned hbrings hframes hreplies =>
      obtain ⟨-, -, hparsed⟩ := hbrings
      simp only [InterfaceOp.hop, hparsed] at hop
      exact absurd hop (by simp)
  | received hno => exact newIpv4Frames_of_framesOut (List.append_nil _).symm
  | ticked => exact newIpv4Frames_of_framesOut (List.append_nil _).symm
  | poppedFrame =>
      unfold newIpv4Frames
      rw [List.drop_eq_nil_of_le (by simp), List.filter_nil]
  | poppedDatagram => exact newIpv4Frames_of_framesOut (List.append_nil _).symm

/-! ## Runs -/

/-- In every run of a new interface, for every next hop: it is not both in the cache and in the
pending table, its queue is not empty if there is one, and the datagrams in the frames emitted
for it, followed by the queue, are those handed over without those that have expired. -/
theorem Journal.accounted {own : Ipv4AddrBytes} {ops : List InterfaceOp}
    (hrun : Exec.run Journal.step (.start (.new mac own)) ops = .ok j) (ip : Ipv4AddrBytes) :
    (j.iface.arpCache ip = none ∨ j.iface.pending ip = none) ∧
      (∀ pending ∈ j.iface.pending ip, pending.datagrams ≠ []) ∧
      ∃ carried, List.Forall₂ (fun datagram frame => ∃ dst, Carries mac dst datagram frame) carried
          (j.emitted ip) ∧
        IsMerge (carried ++ j.iface.queue ip) (j.discarded ip) (j.handed ip) := by
  have h : Accounted mac ip j := by
    apply Exec.run_invariant (Accounted mac ip) ?_ (accounted_start mac own ip) hrun
    intro j1 op j2 hinv hstep
    exact hinv.step hstep
  obtain ⟨carried, settled, hcarried, hmerge, hall⟩ := h.settled
  refine ⟨h.disjoint, h.nonempty, carried, hcarried, ?_⟩
  rw [hall]
  exact hmerge.append_left _

/-- The peer's answer to an ARP request of the interface. -/
def sampleReply : EthernetFrame :=
  EthernetFrame.arp ⟨2, 0, 0, 0, 0, 1⟩ ⟨2, 0, 0, 0, 0, 2⟩
    [0, 1, 8, 0, 6, 4, 0, 2, 2, 0, 0, 0, 0, 2, 10, 0, 0, 2, 2, 0, 0, 0, 0, 1, 10, 0, 0, 1]

def sampleDatagram (payload : Bytes) : Ipv4Datagram :=
  Ipv4Datagram.newTcp ⟨10, 0, 0, 1⟩ ⟨10, 0, 0, 9⟩ payload

def sampleJournalOps : List InterfaceOp :=
  [.sendDatagram (sampleDatagram [1]) ⟨10, 0, 0, 2⟩, .sendDatagram (sampleDatagram [2]) ⟨10, 0, 0, 3⟩,
    .popFrame, .recvFrame sampleReply, .sendDatagram (sampleDatagram [3]) ⟨10, 0, 0, 2⟩, .tick 5000,
    .sendDatagram (sampleDatagram [4]) ⟨10, 0, 0, 3⟩, .popFrame]

/-- Two datagrams for a neighbour that answers, and two for one that does not: the first of them
expires, the second still waits. -/
theorem Journal.accounted_expired : ∃ j,
    Exec.run Journal.step (.start (.new ⟨2, 0, 0, 0, 0, 1⟩ ⟨10, 0, 0, 1⟩)) sampleJournalOps = .ok j ∧
      (j.emitted ⟨10, 0, 0, 2⟩).length = 2 ∧
      j.discarded ⟨10, 0, 0, 3⟩ = [sampleDatagram [2]] ∧
      j.iface.queue ⟨10, 0, 0, 3⟩ = [sampleDatagram [4]] ∧
      (j.iface.arpCache ⟨10, 0, 0, 3⟩ = none ∨ j.iface.pending ⟨10, 0, 0, 3⟩ = none) ∧
      (∀ pending ∈ j.iface.pending ⟨10, 0, 0, 3⟩, pending.datagrams ≠ []) ∧
      ∃ carried, List.Forall₂
          (fun datagram frame => ∃ dst, Carries ⟨2, 0, 0, 0, 0, 1⟩ dst datagram frame) carried
          (j.emitted ⟨10, 0, 0, 3⟩) ∧
        IsMerge (carried ++ j.iface.queue ⟨10, 0, 0, 3⟩) (j.discarded ⟨10, 0, 0, 3⟩)
          (j.handed ⟨10, 0, 0, 3⟩) := by
  obtain ⟨j, hrun, hemitted, hdiscarded, hqueue⟩ : ∃ j,
      Exec.run Journal.step (.start (.new ⟨2, 0, 0, 0, 0, 1⟩ ⟨10, 0, 0, 1⟩)) sampleJournalOps
          = .ok j ∧
        (j.emitted ⟨10, 0, 0, 2⟩).length = 2 ∧ j.discarded ⟨10, 0, 0, 3⟩ = [sampleDatagram [2]] ∧
        j.iface.queue ⟨10, 0, 0, 3⟩ = [sampleDatagram [4]] := by
    decide +kernel
  exact ⟨j, hrun, hemitted, hdiscarded, hqueue, Journal.accounted hrun ⟨10, 0, 0, 3⟩⟩

end NetworkInterface

end Minnow
