import Minnow.NetworkInterface.Clock

set_option autoImplicit false

/-! # What the ages mean

An entry of the cache is as old as the last message heard from its address. A pending record is as
old as its only ARP request and as its first datagram; it is gone before the next request would be
due. So the three constants of the interface fit together:

* `requests_spaced`: two requests for one next hop are a cooldown apart, whatever happens between
  them.
* `freshest_address`: every IPv4 frame goes to the address heard last, not too long ago.
* `never_early_iff`: the age of the record is not that of the datagrams which join it later. They
  are dropped early unless the tick that drops them is long enough.
-/

namespace Minnow

namespace NetworkInterface

namespace View

variable {v v1 : View} {entry : ArpCacheEntry} {pending : PendingResolution} {elapsedMs : Nat}

/-! ## Time passes -/

theorem agedCache_of_lt (h : entry.ageMs + elapsedMs < ARP_CACHE_TTL_MS) :
    agedCache (some entry) elapsedMs
      = some { entry with ageMs := entry.ageMs + elapsedMs } := by
  have hmax : entry.ageMs + elapsedMs ≤ u64Max := by
    unfold ARP_CACHE_TTL_MS at h
    unfold u64Max
    omega
  unfold agedCache
  rw [Option.map_some, saturatingAdd_of_le hmax]
  exact Option.filter_some_pos (decide_eq_true h)

theorem agedCache_of_le (h : ARP_CACHE_TTL_MS ≤ entry.ageMs + elapsedMs) :
    agedCache (some entry) elapsedMs = none := by
  have hold : ¬ saturatingAdd entry.ageMs elapsedMs < ARP_CACHE_TTL_MS := by
    unfold ARP_CACHE_TTL_MS at h ⊢
    unfold saturatingAdd u64Max
    omega
  unfold agedCache
  rw [Option.map_some]
  exact Option.filter_some_neg (by simpa using hold)

theorem agedPending_of_lt (hsame : pending.requestAgeMs = pending.ageMs)
    (h : pending.ageMs + elapsedMs < PENDING_DATAGRAM_TTL_MS) :
    agedPending (some pending) elapsedMs
      = some { pending with
          ageMs := pending.ageMs + elapsedMs
          requestAgeMs := pending.ageMs + elapsedMs } := by
  have hmax : pending.ageMs + elapsedMs ≤ u64Max := by
    unfold PENDING_DATAGRAM_TTL_MS at h
    unfold u64Max
    omega
  unfold agedPending PendingResolution.tick
  rw [Option.map_some, hsame, saturatingAdd_of_le hmax]
  apply Option.filter_some_pos
  rw [Bool.not_eq_true', PendingResolution.isExpired, decide_eq_false_iff_not]
  exact Nat.not_le.mpr h

theorem agedPending_of_le (h : PENDING_DATAGRAM_TTL_MS ≤ pending.ageMs + elapsedMs) :
    agedPending (some pending) elapsedMs = none := by
  have hold : PENDING_DATAGRAM_TTL_MS ≤ saturatingAdd pending.ageMs elapsedMs := by
    unfold PENDING_DATAGRAM_TTL_MS at h ⊢
    unfold saturatingAdd u64Max
    omega
  unfold agedPending
  rw [Option.map_some]
  apply Option.filter_some_neg
  rw [Bool.not_eq_false']
  exact decide_eq_true hold

/-- The entries that a tick leaves. -/
theorem of_agedCache {cache : Option ArpCacheEntry} {entry1 : ArpCacheEntry}
    (h : agedCache cache elapsedMs = some entry1) : ∃ entry, cache = some entry ∧
      entry.ageMs + elapsedMs < ARP_CACHE_TTL_MS ∧
      entry1 = { entry with ageMs := entry.ageMs + elapsedMs } := by
  cases cache with
  | none => cases h
  | some entry =>
      by_cases hlt : entry.ageMs + elapsedMs < ARP_CACHE_TTL_MS
      · rw [agedCache_of_lt hlt, Option.some.injEq] at h
        exact ⟨entry, rfl, hlt, h.symm⟩
      · rw [agedCache_of_le (Nat.not_lt.mp hlt)] at h
        cases h

/-! ## The ages stay below their limits -/

/-- Both ages of a record are one: its only request was sent when it was made. -/
structure Aged (v : View) : Prop extends Sane v where
  cache_lt : ∀ entry ∈ v.cache, entry.ageMs < ARP_CACHE_TTL_MS
  pending_lt : ∀ pending ∈ v.pending,
    pending.requestAgeMs = pending.ageMs ∧ pending.ageMs < PENDING_DATAGRAM_TTL_MS

/-- The records that a tick leaves. -/
theorem Aged.of_agedPending (h : Aged v) {pending1 : PendingResolution}
    (hsome : agedPending v.pending elapsedMs = some pending1) : ∃ pending,
      v.pending = some pending ∧ pending.ageMs + elapsedMs < PENDING_DATAGRAM_TTL_MS ∧
      pending1 = { pending with
        ageMs := pending.ageMs + elapsedMs
        requestAgeMs := pending.ageMs + elapsedMs } := by
  cases hpending : v.pending with
  | none =>
      rw [hpending] at hsome
      cases hsome
  | some pending =>
      obtain ⟨hsame, -⟩ := h.pending_lt pending hpending
      rw [hpending] at hsome
      by_cases hlt : pending.ageMs + elapsedMs < PENDING_DATAGRAM_TTL_MS
      · rw [agedPending_of_lt hsame hlt, Option.some.injEq] at hsome
        exact ⟨pending, rfl, hlt, hsome.symm⟩
      · rw [agedPending_of_le (Nat.not_lt.mp hlt)] at hsome
        cases hsome

/-- A request goes out for a new record only. -/
theorem Aged.pending_of_due (h : Aged v)
    (hdue : (v.pending.getD .new).shouldSendArpRequest = true) : v.pending = none := by
  cases hpending : v.pending with
  | none => rfl
  | some pending =>
      obtain ⟨hsame, hlt⟩ := h.pending_lt pending hpending
      rw [hpending] at hdue
      have hle : ARP_REQUEST_COOLDOWN_MS ≤ pending.requestAgeMs := of_decide_eq_true hdue
      unfold ARP_REQUEST_COOLDOWN_MS at hle
      unfold PENDING_DATAGRAM_TTL_MS at hlt
      omega

/-- A datagram that joins without a request finds a record. -/
theorem pending_of_not_due (hdue : (v.pending.getD .new).shouldSendArpRequest = false) :
    ∃ pending, v.pending = some pending := by
  cases hpending : v.pending with
  | none =>
      rw [hpending] at hdue
      exact absurd hdue (by decide)
  | some pending => exact ⟨pending, rfl⟩

theorem Aged.tick (h : Aged v) (elapsedMs : Nat) : Aged (v.tick elapsedMs) where
  disjoint := by
    rcases h.disjoint with hcache | hpending
    · left
      show agedCache v.cache elapsedMs = none
      rw [hcache]
      rfl
    · right
      show agedPending v.pending elapsedMs = none
      rw [hpending]
      rfl
  waiting := by
    show (if agedPending v.pending elapsedMs = none then [] else v.hop.waiting).map
      Waiting.datagram = (agedPending v.pending elapsedMs).elim [] PendingResolution.datagrams
    cases haged : agedPending v.pending elapsedMs with
    | none => rfl
    | some pending1 =>
        -- a record that is kept keeps its datagrams
        obtain ⟨pending, hpending, -, rfl⟩ := h.of_agedPending haged
        rw [if_neg (Option.some_ne_none _), h.waiting, hpending]
        rfl
  cache_lt := by
    intro entry1 hmem
    obtain ⟨entry, -, hlt, rfl⟩ := of_agedCache hmem
    exact hlt
  pending_lt := by
    intro pending1 hmem
    obtain ⟨pending, -, hlt, rfl⟩ := h.of_agedPending hmem
    exact ⟨rfl, hlt⟩

theorem Aged.effect (h : Aged v) (heffect : Effect v v1) : Aged v1 := by
  cases heffect with
  | unchanged => exact h
  | emitted hcache hdst => exact ⟨⟨h.disjoint, h.waiting⟩, h.cache_lt, h.pending_lt⟩
  | @requested datagram hcache hdue =>
      -- a request is due for a new record only, so the datagram is the first in it
      have hpending := h.pending_of_due hdue
      have hwaiting := h.waiting_nil hpending
      refine ⟨⟨Or.inl hcache, ?_⟩, h.cache_lt, ?_⟩
      · rw [hpending]
        show (v.hop.waiting ++ [_]).map Waiting.datagram = _
        rw [hwaiting]
        rfl
      · rw [hpending]
        rintro pending ⟨⟩
        exact ⟨rfl, (by decide : 0 < PENDING_DATAGRAM_TTL_MS)⟩
  | @queued datagram hcache hdue =>
      obtain ⟨pending, hpending⟩ := pending_of_not_due hdue
      have hwaiting := h.waiting
      rw [hpending] at hwaiting
      refine ⟨⟨Or.inl hcache, ?_⟩, h.cache_lt, ?_⟩
      · rw [hpending]
        show (v.hop.waiting ++ [_]).map Waiting.datagram = pending.datagrams ++ [datagram]
        rw [List.map_append, hwaiting]
        rfl
      · rw [hpending]
        rintro pending1 ⟨⟩
        exact h.pending_lt pending hpending
  | learned hdst =>
      refine ⟨⟨Or.inr rfl, rfl⟩, ?_, ?_⟩
      · rintro entry ⟨⟩
        exact (by decide : 0 < ARP_CACHE_TTL_MS)
      · rintro pending ⟨⟩
  | ticked elapsedMs => exact h.tick elapsedMs

/-! ## Requests -/

/-- How long no request has gone out, at least. -/
def quiet (v : View) : Nat :=
  v.cache.elim (v.pending.elim ARP_REQUEST_COOLDOWN_MS PendingResolution.ageMs) ArpCacheEntry.ageMs

/-- The requests are a cooldown apart, and the last one is as old as the entry or the record. -/
structure Spaced (v : View) : Prop where
  pairwise : v.hop.requests.Pairwise
    (fun earlier later => earlier + ARP_REQUEST_COOLDOWN_MS ≤ later)
  quiet : ∀ time ∈ v.hop.requests, time + v.quiet ≤ v.now

/-- An entry and a record are kept for a cooldown at least. -/
theorem Aged.quiet_tick_le (h : Aged v) (elapsedMs : Nat) :
    (v.tick elapsedMs).quiet ≤ v.quiet + elapsedMs := by
  have hcooldown : ARP_REQUEST_COOLDOWN_MS = 5000 := rfl
  have hpendingTtl : PENDING_DATAGRAM_TTL_MS = 5000 := rfl
  have hcacheTtl : ARP_CACHE_TTL_MS = 30000 := rfl
  show (agedCache v.cache elapsedMs).elim ((agedPending v.pending elapsedMs).elim
    ARP_REQUEST_COOLDOWN_MS PendingResolution.ageMs) ArpCacheEntry.ageMs ≤ v.quiet + elapsedMs
  unfold View.quiet
  cases hcache : v.cache with
  | some entry =>
      have hpending : v.pending = none := h.disjoint.resolve_left (by simp [hcache])
      by_cases hlt : entry.ageMs + elapsedMs < ARP_CACHE_TTL_MS
      · rw [agedCache_of_lt hlt]
        exact le_refl _
      · rw [agedCache_of_le (Nat.not_lt.mp hlt), hpending]
        show ARP_REQUEST_COOLDOWN_MS ≤ entry.ageMs + elapsedMs
        omega
  | none =>
      cases hpending : v.pending with
      | some pending =>
          obtain ⟨hsame, -⟩ := h.pending_lt pending hpending
          by_cases hlt : pending.ageMs + elapsedMs < PENDING_DATAGRAM_TTL_MS
          · rw [agedPending_of_lt hsame hlt]
            exact le_refl _
          · rw [agedPending_of_le (Nat.not_lt.mp hlt)]
            show ARP_REQUEST_COOLDOWN_MS ≤ pending.ageMs + elapsedMs
            omega
      | none => exact Nat.le_add_right _ _

theorem Spaced.effect (h : Spaced v) (haged : Aged v) (heffect : Effect v v1) : Spaced v1 := by
  cases heffect with
  | unchanged => exact h
  | emitted hcache hdst => exact ⟨h.pairwise, h.quiet⟩
  | @requested datagram hcache hdue =>
      have hpending := haged.pending_of_due hdue
      have hquiet : v.quiet = ARP_REQUEST_COOLDOWN_MS := by
        unfold View.quiet
        rw [hcache, hpending]
        rfl
      -- with neither entry nor record, a cooldown has passed since the last request
      have hall := h.quiet
      rw [hquiet] at hall
      have hlater : ∀ time ∈ v.hop.requests ++ [v.now], time ≤ v.now := by
        intro time htime
        rcases List.mem_append.mp htime with hold | hnew
        · exact le_trans (Nat.le_add_right _ _) (hall time hold)
        · exact le_of_eq (List.mem_singleton.mp hnew)
      refine ⟨?_, ?_⟩
      · apply List.pairwise_append.mpr
        refine ⟨h.pairwise, List.pairwise_singleton _ _, ?_⟩
        intro earlier hearlier later hnew
        obtain rfl := List.mem_singleton.mp hnew
        exact hall earlier hearlier
      · -- the new record is as old as the request
        have hnow : View.quiet (v.join datagram
            ((v.pending.getD .new).push datagram).markRequestSent).ask = 0 := by
          show (v.cache.elim (v.pending.getD .new).ageMs ArpCacheEntry.ageMs) = 0
          rw [hcache, hpending]
          rfl
        intro time htime
        rw [hnow]
        exact hlater time htime
  | @queued datagram hcache hdue =>
      obtain ⟨pending, hpending⟩ := pending_of_not_due hdue
      have hsame : View.quiet (v.join datagram ((v.pending.getD .new).push datagram))
          = v.quiet := by
        show (v.cache.elim (v.pending.getD .new).ageMs ArpCacheEntry.ageMs) = v.quiet
        unfold View.quiet
        rw [hcache, hpending]
        rfl
      refine ⟨h.pairwise, ?_⟩
      rw [hsame]
      exact h.quiet
  | learned hdst =>
      -- the new entry has age 0, which says nothing about the requests
      exact ⟨h.pairwise, fun time htime => le_trans (Nat.le_add_right _ _) (h.quiet time htime)⟩
  | ticked elapsedMs =>
      refine ⟨h.pairwise, ?_⟩
      intro time htime
      have hle := haged.quiet_tick_le elapsedMs
      have hold := h.quiet time htime
      show time + (v.tick elapsedMs).quiet ≤ v.now + elapsedMs
      omega

/-! ## Addresses -/

/-- An entry is the message heard last, and as old as it; every frame went to the address that had
been heard last, less than the lifetime of an entry ago. -/
structure Fresh (v : View) : Prop where
  heard : ∀ entry ∈ v.cache, ∃ time, v.hop.heard = some (entry.ethernetAddress, time) ∧
    time + entry.ageMs = v.now
  emitted : ∀ emission ∈ v.hop.emitted, ∃ time,
    emission.heard = some (emission.frame.header.dst, time) ∧
      emission.time < time + ARP_CACHE_TTL_MS

theorem Fresh.emit {frames : List EthernetFrame} {mac : EthernetAddress} {time : Nat}
    (h : Fresh v) (hheard : v.hop.heard = some (mac, time))
    (htime : v.now < time + ARP_CACHE_TTL_MS)
    (hdst : ∀ frame ∈ frames, frame.header.dst = mac) : Fresh (v.emit frames) where
  heard := h.heard
  emitted := by
    intro emission hmem
    rcases List.mem_append.mp hmem with hold | hnew
    · exact h.emitted emission hold
    · obtain ⟨frame, hframe, rfl⟩ := List.mem_map.mp hnew
      refine ⟨time, ?_, htime⟩
      rw [hdst frame hframe]
      exact hheard

theorem Fresh.effect (h : Fresh v) (haged : Aged v) (heffect : Effect v v1) : Fresh v1 := by
  cases heffect with
  | unchanged => exact h
  | @emitted entry frame hcache hdst =>
      obtain ⟨time, hheard, hage⟩ := h.heard entry hcache
      have hlt := haged.cache_lt entry hcache
      apply h.emit hheard (by omega)
      intro frame1 hframe
      obtain rfl := List.mem_singleton.mp hframe
      exact hdst
  | requested hcache hdue => exact ⟨h.heard, h.emitted⟩
  | queued hcache hdue => exact ⟨h.heard, h.emitted⟩
  | @learned mac frames hdst =>
      have hhear : Fresh (v.hear mac) := by
        refine ⟨?_, h.emitted⟩
        rintro entry ⟨⟩
        exact ⟨v.now, rfl, rfl⟩
      exact hhear.emit rfl (Nat.lt_add_of_pos_right (by decide)) hdst
  | ticked elapsedMs =>
      refine ⟨?_, h.emitted⟩
      intro entry1 hmem
      obtain ⟨entry, hcache, -, rfl⟩ := of_agedCache hmem
      obtain ⟨time, hheard, hage⟩ := h.heard entry hcache
      refine ⟨time, hheard, ?_⟩
      show time + (entry.ageMs + elapsedMs) = v.now + elapsedMs
      omega

/-! ## Those that wait -/

/-- The time between the first datagram of a queue and the last one. -/
def spread (waiting : List Waiting) : Nat :=
  waiting.getLast?.elim 0 Waiting.joined - waiting.head?.elim 0 Waiting.joined

/-- A record is as old as its first datagram, and the last one joined last. -/
structure Lined (v : View) : Prop where
  first : ∀ pending ∈ v.pending, ∃ first ∈ v.hop.waiting.head?,
    first.joined + pending.ageMs = v.now
  last : ∀ last ∈ v.hop.waiting.getLast?, last.joined ≤ v.now ∧
    ∀ waiting ∈ v.hop.waiting, waiting.joined ≤ last.joined

theorem Lined.joined_le (h : Lined v) : ∀ waiting ∈ v.hop.waiting, waiting.joined ≤ v.now := by
  intro waiting hmem
  have hsome := List.getLast?_isSome.mpr (List.ne_nil_of_mem hmem)
  obtain ⟨last, hlast⟩ := Option.isSome_iff_exists.mp hsome
  obtain ⟨hnow, hall⟩ := h.last last hlast
  exact le_trans (hall waiting hmem) hnow

theorem Lined.join {datagram : Ipv4Datagram} (h : Lined v)
    (hfirst : ∃ first ∈ (v.hop.waiting ++ [Waiting.mk datagram v.now]).head?,
      first.joined + pending.ageMs = v.now) : Lined (v.join datagram pending) where
  first := by
    rintro pending1 ⟨⟩
    exact hfirst
  last := by
    intro last hlast
    have hnew : last = Waiting.mk datagram v.now := by
      rw [View.join, List.getLast?_concat, Option.mem_some_iff] at hlast
      exact hlast.symm
    rw [hnew]
    refine ⟨le_refl _, ?_⟩
    intro waiting hmem
    rcases List.mem_append.mp hmem with hold | hmem
    · exact h.joined_le waiting hold
    · rw [List.mem_singleton.mp hmem]

theorem Lined.effect (h : Lined v) (haged : Aged v) (heffect : Effect v v1) : Lined v1 := by
  cases heffect with
  | unchanged => exact h
  | emitted hcache hdst => exact ⟨h.first, h.last⟩
  | @requested datagram hcache hdue =>
      have hpending := haged.pending_of_due hdue
      -- the first datagram of a new queue joins as its clock starts
      have hjoined : Lined (v.join datagram
          ((v.pending.getD .new).push datagram).markRequestSent) := by
        apply h.join
        rw [haged.waiting_nil hpending, hpending]
        exact ⟨_, rfl, rfl⟩
      exact ⟨hjoined.first, hjoined.last⟩
  | @queued datagram hcache hdue =>
      obtain ⟨pending, hpending⟩ := pending_of_not_due hdue
      obtain ⟨first, hhead, hage⟩ := h.first pending hpending
      apply h.join
      rw [hpending]
      -- a later datagram joins behind the first one, whose age is the clock
      refine ⟨first, ?_, hage⟩
      rw [List.head?_append, Option.mem_def.mp hhead]
      rfl
  | learned hdst =>
      refine ⟨?_, ?_⟩
      · rintro pending ⟨⟩
      · rintro last ⟨⟩
  | ticked elapsedMs =>
      -- a queue that does not expire grows older by the time that has passed
      have hwaiting : (v.tick elapsedMs).hop.waiting
          = if agedPending v.pending elapsedMs = none then [] else v.hop.waiting := rfl
      refine ⟨?_, ?_⟩
      · intro pending1 hmem
        have hmem1 : agedPending v.pending elapsedMs = some pending1 := hmem
        obtain ⟨pending, hpending, -, rfl⟩ := haged.of_agedPending hmem1
        obtain ⟨first, hhead, hage⟩ := h.first pending hpending
        rw [hwaiting, hmem1, if_neg (Option.some_ne_none _)]
        refine ⟨first, hhead, ?_⟩
        show first.joined + (pending.ageMs + elapsedMs) = v.now + elapsedMs
        omega
      · intro last hlast
        rw [hwaiting] at hlast ⊢
        split_ifs at hlast ⊢ with hnone
        · cases hlast
        · obtain ⟨hnow, hall⟩ := h.last last hlast
          exact ⟨le_trans hnow (Nat.le_add_right _ _), hall⟩

/-- Everything in a queue has waited long enough exactly when its last datagram has. -/
theorem Lined.waited_iff (h : Lined v) (hpending : v.pending = some pending) (elapsedMs : Nat) :
    (∀ waiting ∈ v.hop.waiting, waiting.joined + PENDING_DATAGRAM_TTL_MS ≤ v.now + elapsedMs) ↔
      PENDING_DATAGRAM_TTL_MS + spread v.hop.waiting ≤ pending.ageMs + elapsedMs := by
  obtain ⟨first, hhead, hage⟩ := h.first pending hpending
  have hne : v.hop.waiting ≠ [] := by
    intro hnil
    rw [hnil] at hhead
    cases hhead
  obtain ⟨last, hlast⟩ := Option.isSome_iff_exists.mp (List.getLast?_isSome.mpr hne)
  obtain ⟨hnow, hall⟩ := h.last last hlast
  have hfirst : first.joined ≤ last.joined := hall first (List.mem_of_mem_head? hhead)
  have hspread : spread v.hop.waiting = last.joined - first.joined := by
    unfold spread
    rw [hlast, Option.mem_def.mp hhead]
    rfl
  rw [hspread]
  constructor
  · intro hwaited
    have := hwaited last (List.mem_of_getLast? hlast)
    omega
  · intro hlong waiting hmem
    have := hall waiting hmem
    omega

end View

/-! ## Runs -/

open View

namespace Clock

variable {c c1 : Clock} {mac : EthernetAddress} {own : Ipv4AddrBytes} {op : InterfaceOp}
  {ops : List InterfaceOp}

/-- The invariant of a run, for every next hop. -/
structure Inv (c : Clock) : Prop where
  aged : ∀ ip, Aged (c.view ip)
  spaced : ∀ ip, Spaced (c.view ip)
  fresh : ∀ ip, Fresh (c.view ip)
  lined : ∀ ip, Lined (c.view ip)

theorem inv_start (mac : EthernetAddress) (own : Ipv4AddrBytes) : Inv (.start (.new mac own)) where
  aged := fun ip =>
    { disjoint := Or.inl rfl
      waiting := rfl
      cache_lt := by rintro entry ⟨⟩
      pending_lt := by rintro pending ⟨⟩ }
  spaced := fun ip => ⟨List.Pairwise.nil, fun time htime => absurd htime List.not_mem_nil⟩
  fresh := fun ip => ⟨by rintro entry ⟨⟩, fun emission hmem => absurd hmem List.not_mem_nil⟩
  lined := fun ip => ⟨by rintro pending ⟨⟩, by rintro last ⟨⟩⟩

theorem Inv.step (h : Inv c) (hstep : c.step op = .ok c1) : Inv c1 := by
  have heffect : ∀ ip, Effect (c.view ip) (c1.view ip) :=
    fun ip => step_effect (h.aged ip).toSane hstep
  exact
    { aged := fun ip => (h.aged ip).effect (heffect ip)
      spaced := fun ip => (h.spaced ip).effect (h.aged ip) (heffect ip)
      fresh := fun ip => (h.fresh ip).effect (h.aged ip) (heffect ip)
      lined := fun ip => (h.lined ip).effect (h.aged ip) (heffect ip) }

theorem inv_run (hrun : Exec.run step (.start (.new mac own)) ops = .ok c) : Inv c :=
  Exec.run_invariant Inv (fun _ _ _ hinv hstep => hinv.step hstep) (inv_start mac own) hrun

/-- A neighbour answers, its entry expires, and it is asked again. -/
def sampleOps : List InterfaceOp :=
  [.sendDatagram (sampleDatagram [1]) ⟨10, 0, 0, 2⟩, .tick 10, .recvFrame sampleReply, .tick 29999,
    .sendDatagram (sampleDatagram [2]) ⟨10, 0, 0, 2⟩, .tick 1,
    .sendDatagram (sampleDatagram [3]) ⟨10, 0, 0, 2⟩]

theorem sample_run : ∃ c,
    Exec.run step (.start (.new ⟨2, 0, 0, 0, 0, 1⟩ ⟨10, 0, 0, 1⟩)) sampleOps = .ok c ∧
      (c.hop ⟨10, 0, 0, 2⟩).requests = [0, 30010] ∧
      (c.hop ⟨10, 0, 0, 2⟩).emitted.map Emission.time = [10, 30009] := by
  decide +kernel

/-- In every run of a new interface, between two ARP requests for one next hop lies at least a
cooldown of ticked time. -/
theorem requests_spaced (hrun : Exec.run step (.start (.new mac own)) ops = .ok c)
    (ip : Ipv4AddrBytes) : (c.hop ip).requests.Pairwise
      (fun earlier later => earlier + ARP_REQUEST_COOLDOWN_MS ≤ later) :=
  ((inv_run hrun).spaced ip).pairwise

theorem requests_spaced_expired_entry : ∃ c,
    Exec.run step (.start (.new ⟨2, 0, 0, 0, 0, 1⟩ ⟨10, 0, 0, 1⟩)) sampleOps = .ok c ∧
      (c.hop ⟨10, 0, 0, 2⟩).requests = [0, 30010] ∧
      (c.hop ⟨10, 0, 0, 2⟩).requests.Pairwise
        (fun earlier later => earlier + ARP_REQUEST_COOLDOWN_MS ≤ later) := by
  obtain ⟨c, hrun, hrequests, -⟩ := sample_run
  exact ⟨c, hrun, hrequests, requests_spaced hrun ⟨10, 0, 0, 2⟩⟩

/-- In every run of a new interface, each IPv4 frame emitted for a next hop goes to the sender's
address in the last valid ARP message from it that was received by then, and less than the
lifetime of a cache entry has passed since. -/
theorem freshest_address (hrun : Exec.run step (.start (.new mac own)) ops = .ok c)
    (ip : Ipv4AddrBytes) : ∀ emission ∈ (c.hop ip).emitted, ∃ time,
      emission.heard = some (emission.frame.header.dst, time) ∧
        emission.time < time + ARP_CACHE_TTL_MS :=
  ((inv_run hrun).fresh ip).emitted

theorem freshest_address_flush_and_hit : ∃ c,
    Exec.run step (.start (.new ⟨2, 0, 0, 0, 0, 1⟩ ⟨10, 0, 0, 1⟩)) sampleOps = .ok c ∧
      (c.hop ⟨10, 0, 0, 2⟩).emitted.map Emission.time = [10, 30009] ∧
      ∀ emission ∈ (c.hop ⟨10, 0, 0, 2⟩).emitted, ∃ time,
        emission.heard = some (emission.frame.header.dst, time) ∧
          emission.time < time + ARP_CACHE_TTL_MS := by
  obtain ⟨c, hrun, -, htimes⟩ := sample_run
  exact ⟨c, hrun, htimes, freshest_address hrun ⟨10, 0, 0, 2⟩⟩

/-! ## Dropping -/

/-- No datagram was dropped before its time. -/
def NeverEarly (c : Clock) : Prop :=
  ∀ ip, ∀ x ∈ (c.hop ip).dropped, x.1.joined + PENDING_DATAGRAM_TTL_MS ≤ x.2

/-- When a record expires, it does so with an age that leaves its last datagram enough time. -/
def Patient (c : Clock) (op : InterfaceOp) : Prop :=
  ∀ elapsedMs, op = .tick elapsedMs → ∀ ip pending, c.iface.pending ip = some pending →
    PENDING_DATAGRAM_TTL_MS ≤ pending.ageMs + elapsedMs →
    PENDING_DATAGRAM_TTL_MS + spread (c.hop ip).waiting ≤ pending.ageMs + elapsedMs

theorem dropped_of_not_tick (hstep : c.step op = .ok c1) (hop : ∀ elapsedMs, op ≠ .tick elapsedMs)
    (ip : Ipv4AddrBytes) : (c1.hop ip).dropped = (c.hop ip).dropped := by
  obtain ⟨iface1, -, hok⟩ := Exec.bind_eq_ok.mp hstep
  obtain rfl := Except.ok.inj hok
  have hlapsed : Hop.lapsed iface1 ip (c.hop ip).waiting op = [] := by
    cases op with
    | tick elapsedMs => exact absurd rfl (hop elapsedMs)
    | sendDatagram datagram nextHop => rfl
    | recvFrame frame => rfl
    | popFrame => rfl
    | popDatagram => rfl
  show (c.hop ip).dropped ++ (Hop.lapsed iface1 ip (c.hop ip).waiting op).map _ = _
  rw [hlapsed, List.map_nil, List.append_nil]

/-- A tick drops nothing early exactly when it is patient. -/
theorem neverEarly_tick_iff (h : Inv c) (hgood : NeverEarly c) {elapsedMs : Nat}
    (hstep : c.step (.tick elapsedMs) = .ok c1) : NeverEarly c1 ↔ Patient c (.tick elapsedMs) := by
  obtain rfl := Except.ok.inj hstep
  have hdropped : ∀ ip,
      ((c.after (.tick elapsedMs) (c.iface.tick elapsedMs)).hop ip).dropped
        = (c.hop ip).dropped ++
          (if agedPending (c.iface.pending ip) elapsedMs = none then (c.hop ip).waiting
            else []).map (fun waiting => (waiting, c.now + elapsedMs)) := fun ip => rfl
  constructor
  · intro hnever elapsedMs1 hop ip pending hpending hexpires
    obtain rfl := InterfaceOp.tick.inj hop
    apply ((h.lined ip).waited_iff hpending elapsedMs).mp
    intro waiting hmem
    have hnone : agedPending (c.iface.pending ip) elapsedMs = none := by
      rw [hpending]
      exact agedPending_of_le hexpires
    -- the queue expires, so what waits in it is dropped now
    apply hnever ip (waiting, c.now + elapsedMs)
    rw [hdropped, if_pos hnone]
    exact List.mem_append_right _ (List.mem_map_of_mem hmem)
  · intro hpatient ip x hmem
    rw [hdropped] at hmem
    rcases List.mem_append.mp hmem with hold | hnew
    · exact hgood ip x hold
    · obtain ⟨waiting, hwaiting, rfl⟩ := List.mem_map.mp hnew
      split_ifs at hwaiting with hnone
      · cases hpending : c.iface.pending ip with
        | none =>
            have hnil : (c.hop ip).waiting = [] := (h.aged ip).waiting_nil hpending
            rw [hnil] at hwaiting
            exact absurd hwaiting List.not_mem_nil
        | some pending =>
            -- something was dropped, so the clock of the queue has run out
            have hexpires : PENDING_DATAGRAM_TTL_MS ≤ pending.ageMs + elapsedMs := by
              by_contra hlt
              have hsame := ((h.aged ip).pending_lt pending hpending).1
              rw [hpending, agedPending_of_lt hsame (Nat.not_le.mp hlt)] at hnone
              cases hnone
            have hlong := hpatient elapsedMs rfl ip pending hpending hexpires
            exact ((h.lined ip).waited_iff hpending elapsedMs).mpr hlong waiting hwaiting
      · exact absurd hwaiting List.not_mem_nil

/-- In a run of a new interface no datagram is ever dropped before it has waited for its time,
exactly if every tick that lets a record expire takes it as far beyond its time as its last
datagram came after the first. -/
theorem never_early_iff (hrun : Exec.run step (.start (.new mac own)) ops = .ok c) :
    Exec.RunAlways NeverEarly step (.start (.new mac own)) ops ↔
      Exec.RunWhile Patient step (.start (.new mac own)) ops c := by
  have hgood : NeverEarly (.start (.new mac own)) := fun ip x hmem => absurd hmem List.not_mem_nil
  refine Exec.runAlways_iff Inv NeverEarly ?_ (inv_start mac own) hgood hrun
  intro c op c1 hinv hnever hstep
  refine ⟨hinv.step hstep, ?_⟩
  by_cases htick : ∃ elapsedMs, op = .tick elapsedMs
  · obtain ⟨elapsedMs, rfl⟩ := htick
    exact neverEarly_tick_iff hinv hnever hstep
  · have hop : ∀ elapsedMs, op ≠ .tick elapsedMs := fun elapsedMs heq => htick ⟨elapsedMs, heq⟩
    refine iff_of_true ?_ (fun elapsedMs heq => absurd heq (hop elapsedMs))
    intro ip x hmem
    rw [dropped_of_not_tick hstep hop ip] at hmem
    exact hnever ip x hmem

/-- A tick before the first record can expire is patient. -/
theorem Inv.patient_of_lt (h : Inv c) {elapsedMs : Nat}
    (hsoon : c.now + elapsedMs < PENDING_DATAGRAM_TTL_MS) : Patient c (.tick elapsedMs) := by
  intro elapsedMs1 hop ip pending hpending hexpires
  obtain rfl := InterfaceOp.tick.inj hop
  obtain ⟨first, -, hage⟩ := (h.lined ip).first pending hpending
  have hnow : first.joined + pending.ageMs = c.now := hage
  omega

/-- A tick that is as long as a datagram waits is patient. -/
theorem Inv.patient_of_le (h : Inv c) {elapsedMs : Nat}
    (hlong : PENDING_DATAGRAM_TTL_MS ≤ elapsedMs) : Patient c (.tick elapsedMs) := by
  intro elapsedMs1 hop ip pending hpending hexpires
  obtain rfl := InterfaceOp.tick.inj hop
  apply ((h.lined ip).waited_iff hpending elapsedMs).mp
  intro waiting hmem
  have hjoined : waiting.joined ≤ (c.view ip).now := (h.lined ip).joined_le waiting hmem
  omega

/-- Two datagrams for one next hop, the second 100 ms after the first, and 5 seconds. -/
def pairRun : List InterfaceOp :=
  [.sendDatagram (sampleDatagram [1]) ⟨10, 0, 0, 2⟩, .tick 100,
    .sendDatagram (sampleDatagram [2]) ⟨10, 0, 0, 2⟩, .tick 5000]

/-- In that run both datagrams are dropped, every tick is patient and neither goes early. -/
theorem never_early_iff_together : ∃ c,
    Exec.run step (.start (.new ⟨2, 0, 0, 0, 0, 1⟩ ⟨10, 0, 0, 1⟩)) pairRun = .ok c ∧
      (c.hop ⟨10, 0, 0, 2⟩).dropped =
        [(⟨sampleDatagram [1], 0⟩, 5100), (⟨sampleDatagram [2], 100⟩, 5100)] ∧
      Exec.RunWhile Patient step (.start (.new ⟨2, 0, 0, 0, 0, 1⟩ ⟨10, 0, 0, 1⟩)) pairRun c ∧
      Exec.RunAlways NeverEarly step (.start (.new ⟨2, 0, 0, 0, 0, 1⟩ ⟨10, 0, 0, 1⟩)) pairRun := by
  have hsend : ∀ (c : Clock) datagram ip, Patient c (.sendDatagram datagram ip) :=
    fun c datagram ip elapsedMs hop => nomatch hop
  have h0 : Inv (.start (.new ⟨2, 0, 0, 0, 0, 1⟩ ⟨10, 0, 0, 1⟩)) := inv_start _ _
  have h1 := h0.step
    (show step _ (.sendDatagram (sampleDatagram [1]) ⟨10, 0, 0, 2⟩) = .ok _ from rfl)
  have h2 := h1.step (show step _ (.tick 100) = .ok _ from rfl)
  have h3 := h2.step
    (show step _ (.sendDatagram (sampleDatagram [2]) ⟨10, 0, 0, 2⟩) = .ok _ from rfl)
  have hwhile : Exec.RunWhile Patient step (.start (.new ⟨2, 0, 0, 0, 0, 1⟩ ⟨10, 0, 0, 1⟩))
      pairRun _ :=
    .cons (hsend _ _ _) rfl (.cons (h1.patient_of_lt (by decide)) rfl
      (.cons (hsend _ _ _) rfl (.cons (h3.patient_of_le (by decide)) rfl (.nil _))))
  exact ⟨_, rfl, by decide +kernel, hwhile, (never_early_iff rfl).mpr hwhile⟩

/-- A datagram joins a record that is 4900 ms old, and is dropped 100 ms later. -/
theorem dropped_early : ∃ c,
    Exec.run step (.start (.new ⟨2, 0, 0, 0, 0, 1⟩ ⟨10, 0, 0, 1⟩))
      [.sendDatagram (sampleDatagram [1]) ⟨10, 0, 0, 2⟩, .tick 4900,
        .sendDatagram (sampleDatagram [2]) ⟨10, 0, 0, 2⟩, .tick 100] = .ok c ∧
      (⟨sampleDatagram [2], 4900⟩, 5000) ∈ (c.hop ⟨10, 0, 0, 2⟩).dropped ∧ ¬ NeverEarly c := by
  obtain ⟨c, hrun, hmem⟩ : ∃ c,
      Exec.run step (.start (.new ⟨2, 0, 0, 0, 0, 1⟩ ⟨10, 0, 0, 1⟩))
          [.sendDatagram (sampleDatagram [1]) ⟨10, 0, 0, 2⟩, .tick 4900,
            .sendDatagram (sampleDatagram [2]) ⟨10, 0, 0, 2⟩, .tick 100] = .ok c ∧
        (⟨sampleDatagram [2], 4900⟩, 5000) ∈ (c.hop ⟨10, 0, 0, 2⟩).dropped := by
    decide +kernel
  refine ⟨c, hrun, hmem, ?_⟩
  intro hnever
  exact absurd (hnever ⟨10, 0, 0, 2⟩ _ hmem) (by decide)

end Clock

end NetworkInterface

end Minnow
