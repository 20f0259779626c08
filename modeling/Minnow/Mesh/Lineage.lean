import Minnow.Mesh.Basic
import Minnow.Router.Transparency

set_option autoImplicit false

/-! # Where packets come from

Whatever the links do and wherever the tables send it, a packet on a wire came from outside and
then went from router to router (`Journey`). Each router that forwarded it took one off its TTL and
changed nothing else, and so there were at most 254 of them (`packets_descend`).
-/

namespace Minnow

open Router NetworkInterface

namespace Mesh

variable {ι : Type} [DecidableEq ι] {O : Ipv4Datagram → Prop} {origin datagram : Ipv4Datagram}
  {mesh mesh1 : Mesh ι} {moves more before after : List (ι × RouterOp)} {move : ι × RouterOp}
  {i : ι} {interfaceNum : Nat} {iface : NetworkInterface} {frame : EthernetFrame} {way : List ι}

/-! ## The way of a datagram -/

/-- Where in a router a datagram is: it was taken out of a frame, or it is to be sent. -/
inductive Place where
  | inbox
  | outbox

/-- The interface as it is after the moves. -/
def Reaches (moves : List (ι × RouterOp)) (i : ι) (interfaceNum : Nat) (iface : NetworkInterface) :
    Prop :=
  ∃ mesh, Exec.run step start moves = .ok mesh ∧
    (mesh.router i).interfaces[interfaceNum]? = some iface

/-- After the moves, the frame is the next one that the interface puts on its wire. -/
structure Emits (moves : List (ι × RouterOp)) (i : ι) (interfaceNum : Nat)
    (iface : NetworkInterface) (frame : EthernetFrame) : Prop where
  reaches : Reaches moves i interfaceNum iface
  first : iface.framesOut.head? = some frame

/-- How a datagram from outside got where it is, and which routers have forwarded it one after the
other. -/
inductive Journey (O : Ipv4Datagram → Prop) (origin : Ipv4Datagram) :
    List (ι × RouterOp) → ι → Place → List ι → Ipv4Datagram → Prop where
  -- a frame from outside brings it to a router
  | entered {before after : List (ι × RouterOp)} {i : ι} {interfaceNum : Nat}
      {iface : NetworkInterface} {frame : EthernetFrame} (houtside : O origin)
      (hreaches : Reaches before i interfaceNum iface) (htakes : iface.Takes frame origin) :
      Journey O origin (before ++ (i, .interface interfaceNum (.recvFrame frame)) :: after) i
        .inbox [] origin
  -- the owner of a router hands it to an interface
  | handed {before after : List (ι × RouterOp)} {i : ι} {interfaceNum : Nat}
      {iface : NetworkInterface} {nextHop : Ipv4AddrBytes} (houtside : O origin)
      (hreaches : Reaches before i interfaceNum iface) :
      Journey O origin
        (before ++ (i, .interface interfaceNum (.sendDatagram origin nextHop)) :: after)
        i .outbox [] origin
  -- a router that has got it forwards it
  | forwarded {before after : List (ι × RouterOp)} {i : ι} {way : List ι} {datagram : Ipv4Datagram}
      (h : Journey O origin before i .inbox way datagram) (httl : 2 ≤ datagram.header.ttl) :
      Journey O origin (before ++ (i, .route) :: after) i .outbox (way ++ [i]) (hopped datagram)
  -- a frame in which a router has put it on a wire brings it to a router
  | crossed {first between after : List (ι × RouterOp)} {i j : ι} {interfaceNum sentNum : Nat}
      {iface sender : NetworkInterface} {frame sent : EthernetFrame} {way : List ι}
      {datagram : Ipv4Datagram} (h : Journey O origin first j .outbox way datagram)
      (hemits : Emits first j sentNum sender sent)
      (hcarries : datagram.serialize = .ok sent.payload) (hpads : Pads sent frame)
      (hreaches : Reaches (first ++ (j, .interface sentNum .popFrame) :: between) i interfaceNum
        iface)
      (htakes : iface.Takes frame datagram) :
      Journey O origin ((first ++ (j, .interface sentNum .popFrame) :: between) ++
        (i, .interface interfaceNum (.recvFrame frame)) :: after) i .inbox way datagram

namespace Journey

variable {place : Place}

theorem outside (h : Journey O origin moves i place way datagram) : O origin := by
  induction h with
  | entered houtside _ _ => exact houtside
  | handed houtside _ => exact houtside
  | forwarded _ _ ih => exact ih
  | crossed _ _ _ _ _ _ ih => exact ih

/-- What happens later does not change how it got there. -/
theorem append (h : Journey O origin moves i place way datagram) (more : List (ι × RouterOp)) :
    Journey O origin (moves ++ more) i place way datagram := by
  cases h with
  | entered houtside hreaches htakes =>
      rw [List.append_assoc, List.cons_append]
      exact .entered houtside hreaches htakes
  | handed houtside hreaches =>
      rw [List.append_assoc, List.cons_append]
      exact .handed houtside hreaches
  | forwarded h httl =>
      rw [List.append_assoc, List.cons_append]
      exact .forwarded h httl
  | crossed h hemits hcarries hpads hreaches htakes =>
      rw [List.append_assoc, List.cons_append]
      exact .crossed h hemits hcarries hpads hreaches htakes

/-- The TTL and the routers that have forwarded the datagram make up the TTL that it came with. -/
theorem ttl (h : Journey O origin moves i place way datagram) :
    datagram.header.ttl.toNat + way.length = origin.header.ttl.toNat := by
  induction h with
  | entered _ _ _ => rfl
  | handed _ _ => rfl
  | forwarded _ httl ih =>
      rw [← ih, ← toNat_sub_one_add_one httl, List.length_append]
      exact (Nat.succ_add_eq_add_succ _ _).symm
  | crossed _ _ _ _ _ _ ih => exact ih

/-- Nothing but the TTL is changed. -/
theorem same (h : Journey O origin moves i place way datagram) :
    datagram = { origin with header := { origin.header with ttl := datagram.header.ttl } } := by
  induction h with
  | entered _ _ _ => rfl
  | handed _ _ => rfl
  | forwarded _ _ ih =>
      conv_lhs => rw [hopped, ih]
      rfl
  | crossed _ _ _ _ _ _ ih => exact ih

/-- A datagram that was forwarded has some of its TTL left. -/
theorem pos (h : Journey O origin moves i place way datagram) :
    way = [] ∨ 1 ≤ datagram.header.ttl.toNat := by
  induction h with
  | entered _ _ _ => exact Or.inl rfl
  | handed _ _ => exact Or.inl rfl
  | forwarded _ httl _ =>
      right
      have hle := toNat_sub_one_add_one httl
      have htwo : 2 ≤ _ := UInt8.le_iff_toNat_le.mp httl
      show 1 ≤ (_ - 1 : UInt8).toNat
      omega
  | crossed _ _ _ _ _ _ ih => exact ih

theorem length_le (h : Journey O origin moves i place way datagram) : way.length ≤ 254 := by
  have hbyte : origin.header.ttl.toNat < 256 := UInt8.toNat_lt _
  have hsum := h.ttl
  rcases h.pos with rfl | hpos
  · exact Nat.zero_le _
  · omega

end Journey

/-! ## What is on the wires -/

/-- The frame is from the interface, and it is an ARP message about that or brings a datagram that
came from outside and that routers have forwarded. -/
def Accounted (O : Ipv4Datagram → Prop) (before : List (ι × RouterOp)) (i : ι)
    (iface : NetworkInterface) (frame : EthernetFrame) : Prop :=
  frame.header.src = iface.ethernetAddress ∧
    ((frame.header.ethertype = ETHERTYPE_ARP ∧ ∃ message : ArpMessage,
        message.serialize = .ok frame.payload ∧
          Own iface.ethernetAddress iface.ipAddress message) ∨
      frame.header.ethertype = ETHERTYPE_IPV4 ∧
        ∃ (origin datagram : Ipv4Datagram) (way : List ι),
          datagram.serialize = .ok frame.payload ∧
          Journey O origin before i .outbox way datagram ∧ way.length ≤ 254 ∧
          datagram.header.ttl.toNat + way.length = origin.header.ttl.toNat ∧
          datagram = { origin with header := { origin.header with ttl := datagram.header.ttl } })

/-- Some datagram from outside got there. -/
def Travelled (O : Ipv4Datagram → Prop) (moves : List (ι × RouterOp)) (i : ι) (place : Place)
    (datagram : Ipv4Datagram) : Prop :=
  ∃ origin way, Journey O origin moves i place way datagram

theorem Travelled.append {place : Place} (h : Travelled O moves i place datagram)
    (more : List (ι × RouterOp)) : Travelled O (moves ++ more) i place datagram := by
  obtain ⟨origin, way, hjourney⟩ := h
  exact ⟨origin, way, hjourney.append more⟩

/-- What holds of a run: all that is in the routers and on the wires has come its way. -/
structure Lineal (O : Ipv4Datagram → Prop) (moves : List (ι × RouterOp)) (mesh : Mesh ι) :
    Prop where
  run : Exec.run step start moves = .ok mesh
  holds : ∀ i, (mesh.router i).HoldsAll (Travelled O moves i .inbox) (Travelled O moves i .outbox)
  wire : ∀ frame ∈ mesh.wire, ∃ before after i interfaceNum iface,
    moves = before ++ (i, .interface interfaceNum .popFrame) :: after ∧
      Emits before i interfaceNum iface frame ∧ Accounted O before i iface frame

theorem lineal_start (O : Ipv4Datagram → Prop) : Lineal O [] (start : Mesh ι) where
  run := rfl
  holds := fun _ => holdsAll_new _ _
  wire := fun _ hmem => absurd hmem List.not_mem_nil

/-- The next frame of an interface is accounted for. -/
theorem Lineal.accounts (h : Lineal O moves mesh)
    (hemits : Emits moves i interfaceNum iface frame) : Accounted O moves i iface frame := by
  obtain ⟨⟨mesh1, hrun, hiface⟩, hfirst⟩ := hemits
  rw [h.run, Except.ok.injEq] at hrun
  subst hrun
  have hgenuine := (h.holds i iface (List.mem_of_getElem? hiface)).traced.frames frame
    (List.mem_of_mem_head? hfirst)
  refine ⟨hgenuine.src, ?_⟩
  rcases hgenuine.kind with harp | ⟨hipv4, datagram, hserialize, origin, way, hjourney⟩
  · exact Or.inl harp
  · exact Or.inr ⟨hipv4, origin, datagram, way, hserialize, hjourney, hjourney.length_le,
      hjourney.ttl, hjourney.same⟩

/-- A datagram that an interface takes out of a frame has come from outside, or from a router. -/
theorem Lineal.takes (h : Lineal O moves mesh)
    (hadmits : mesh.Admits O (i, .interface interfaceNum (.recvFrame frame)))
    (hiface : (mesh.router i).interfaces[interfaceNum]? = some iface)
    (htakes : iface.Takes frame datagram) :
    Travelled O (moves ++ [(i, .interface interfaceNum (.recvFrame frame))]) i .inbox datagram := by
  have hreaches : Reaches moves i interfaceNum iface := ⟨mesh, h.run, hiface⟩
  rcases hadmits.2 with ⟨given, hgiven, sent, hsent, hpads⟩ | hputs
  · obtain rfl := Option.mem_some_iff.mp hgiven
    obtain ⟨before, after, j, sentNum, sender, rfl, hemits, -, haccounted⟩ := h.wire sent hsent
    obtain ⟨hheader, pad, hpad⟩ := hpads
    rcases haccounted with ⟨harp, -⟩ | ⟨-, origin, other, way, hserialize, hjourney, -⟩
    · -- ARP frames bring no datagram
      rw [← hheader, htakes.ipv4] at harp
      exact absurd harp (by decide)
    · have hsame := Ipv4Datagram.parseBytes_serialize_append hserialize pad
      rw [hpad, htakes.parsed, Except.ok.injEq, Except.ok.injEq] at hsame
      subst hsame
      exact ⟨origin, way,
        .crossed hjourney hemits hserialize ⟨hheader, pad, hpad⟩ hreaches htakes⟩
  · exact ⟨datagram, [], .entered (hputs htakes.ipv4 datagram htakes.parsed) hreaches htakes⟩

/-- What a move puts into a router has come its way. -/
theorem Lineal.gets (h : Lineal O moves mesh) (hadmits : mesh.Admits O move) :
    (mesh.router move.1).Gets (Travelled O (moves ++ [move]) move.1 .inbox)
      (Travelled O (moves ++ [move]) move.1 .outbox) move.2 := by
  obtain ⟨i, op⟩ := move
  cases op with
  | interface interfaceNum op =>
      intro iface hiface
      cases op with
      | sendDatagram datagram nextHop =>
          rcases hadmits.2 with ⟨frame, hframe, -⟩ | hputs
          · exact nomatch hframe
          · exact ⟨hputs.1, datagram, [], .handed hputs.2 ⟨mesh, h.run, hiface⟩⟩
      | recvFrame frame => exact fun datagram htakes => h.takes hadmits hiface htakes
      | tick elapsedMs => trivial
      | popFrame => trivial
      | popDatagram => trivial
  | addInterface ethernetAddress ipAddress => trivial
  | addRoute routePrefix prefixLength nextHop interfaceNum => trivial
  | route => trivial

theorem Lineal.step (h : Lineal O moves mesh) (hadmits : mesh.Admits O move)
    (hstep : mesh.step move = .ok mesh1) : Lineal O (moves ++ [move]) mesh1 := by
  obtain ⟨router1, hperform, rfl⟩ := step_eq_ok.mp hstep
  have hmono : ∀ i place datagram, Travelled O moves i place datagram →
      Travelled O (moves ++ [move]) i place datagram := fun i place datagram h => h.append _
  refine ⟨?_, ?_, ?_⟩
  · exact Exec.run_append_eq_ok.mpr ⟨mesh, h.run, by rw [Exec.run_singleton, hstep]⟩
  · intro i
    dsimp only
    by_cases hi : i = move.1
    · subst hi
      rw [Function.update_self]
      by_cases hroute : move.2 = .route
      · -- what was in an inbox is a hop further if it is to be sent
        have hclosed : HopClosed (Travelled O moves move.1 .inbox)
            (Travelled O (moves ++ [move]) move.1 .outbox) := by
          rintro datagram ⟨origin, way, hjourney⟩ httl
          have hmove : move = (move.1, .route) := Prod.ext rfl hroute
          rw [hmove]
          exact ⟨origin, way ++ [move.1], .forwarded hjourney httl⟩
        have hgets : (mesh.router move.1).Gets (Travelled O moves move.1 .inbox)
            (Travelled O (moves ++ [move]) move.1 .outbox) move.2 := by
          rw [hroute]
          trivial
        have hholds := (h.holds move.1).mono (fun _ h => h) (hmono move.1 .outbox)
        exact (hholds.perform (fun _ => hclosed) hgets hperform).mono (hmono move.1 .inbox)
          (fun _ h => h)
      · have hholds := (h.holds move.1).mono (hmono move.1 .inbox) (hmono move.1 .outbox)
        exact hholds.perform (fun hop => absurd hop hroute) (h.gets hadmits) hperform
    · rw [Function.update_of_ne hi]
      exact (h.holds i).mono (hmono i .inbox) (hmono i .outbox)
  · intro frame hframe
    rcases List.mem_append.mp hframe with hframe | hframe
    · obtain ⟨before, after, i, interfaceNum, iface, rfl, hemits, haccounted⟩ := h.wire frame hframe
      exact ⟨before, after ++ [move], i, interfaceNum, iface,
        by rw [List.append_assoc, List.cons_append], hemits, haccounted⟩
    · obtain ⟨interfaceNum, iface, hop, hiface, hfirst⟩ := mem_outgoing.mp hframe
      have hemits : Emits moves move.1 interfaceNum iface frame := ⟨⟨mesh, h.run, hiface⟩, hfirst⟩
      exact ⟨moves, [], move.1, interfaceNum, iface, by rw [← hop], hemits, h.accounts hemits⟩

theorem lineal_of_run (hrun : Exec.RunWhile (Admits O) step start moves mesh) :
    Lineal O moves mesh := by
  induction moves using List.reverseRecOn generalizing mesh with
  | nil =>
      cases hrun
      exact lineal_start O
  | append_singleton moves move ih =>
      obtain ⟨mesh1, hfirst, hlast⟩ := hrun.split
      obtain ⟨hadmits, hstep⟩ := hlast.singleton
      exact (ih hfirst).step hadmits hstep

/-- No router stops. Every frame on a wire is one that some interface has put there, and every
frame that an interface puts on its wire is accounted for by what came from outside and by the
routers that have forwarded it. -/
theorem packets_descend (hrun : Exec.RunWhile (Admits O) step start moves mesh) :
    (∀ move, mesh.Admits O move → ∃ mesh1, mesh.step move = .ok mesh1) ∧
      (∀ frame ∈ mesh.wire, ∃ before after i interfaceNum iface,
        moves = before ++ (i, .interface interfaceNum .popFrame) :: after ∧
          Emits before i interfaceNum iface frame) ∧
      ∀ before after i interfaceNum iface frame,
        moves = before ++ (i, .interface interfaceNum .popFrame) :: after →
          Emits before i interfaceNum iface frame → Accounted O before i iface frame := by
  have h := lineal_of_run hrun
  refine ⟨?_, ?_, ?_⟩
  · intro move hadmits
    have hholds := (h.holds move.1).mono (fun _ htravelled => htravelled.append [move])
      (fun _ htravelled => htravelled.append [move])
    obtain ⟨router1, hperform⟩ := hholds.perform_total (h.gets hadmits) hadmits.1
    exact ⟨_, step_eq_ok.mpr ⟨router1, hperform, rfl⟩⟩
  · intro frame hframe
    obtain ⟨before, after, i, interfaceNum, iface, hmoves, hemits, -⟩ := h.wire frame hframe
    exact ⟨before, after, i, interfaceNum, iface, hmoves, hemits⟩
  · rintro before after i interfaceNum iface frame rfl hemits
    obtain ⟨mesh1, hfirst, -⟩ := hrun.split
    exact (lineal_of_run hfirst).accounts hemits

/-! ## A run

Two routers that take each other for the way out. A packet with a TTL of four goes to the first
one, which has to ask for the address of the second; it is padded on its way, goes back and forth,
and is dropped when there is no more of its TTL to take. -/

/-- The packet, with what is left of its TTL. -/
def demoPacket (ttl : UInt8) : Bytes :=
  [69, 0, 0, 21, 0, 0, 64, 0, ttl, 6, 93 - ttl, 110, 10, 0, 0, 100, 10, 9, 9, 9, 7]

def demoFrame (dst src : EthernetAddress) (ttl : UInt8) : EthernetFrame :=
  EthernetFrame.ipv4 dst src (demoPacket ttl)

def demoRequest : Bytes :=
  [0, 1, 8, 0, 6, 4, 0, 1, 2, 0, 0, 0, 0, 2, 10, 1, 0, 1, 0, 0, 0, 0, 0, 0, 10, 1, 0, 2]

def demoReply : Bytes :=
  [0, 1, 8, 0, 6, 4, 0, 2, 2, 0, 0, 0, 0, 3, 10, 1, 0, 2, 2, 0, 0, 0, 0, 2, 10, 1, 0, 1]

/-- The host, the two interfaces of the first router and the one of the second. -/
def demoMac (n : UInt8) : EthernetAddress := ⟨2, 0, 0, 0, 0, n⟩

def demoMoves : List (Fin 2 × RouterOp) :=
  [(0, .addInterface (demoMac 1) ⟨10, 0, 0, 1⟩), (0, .addInterface (demoMac 2) ⟨10, 1, 0, 1⟩),
    (0, .addRoute ⟨0, 0, 0, 0⟩ 0 (some ⟨10, 1, 0, 2⟩) 1),
    (1, .addInterface (demoMac 3) ⟨10, 1, 0, 2⟩),
    (1, .addRoute ⟨0, 0, 0, 0⟩ 0 (some ⟨10, 1, 0, 1⟩) 0),
    (0, .interface 0 (.recvFrame (demoFrame (demoMac 1) (demoMac 0) 4))), (0, .route),
    (0, .interface 1 .popFrame),
    (1, .interface 0 (.recvFrame
      (EthernetFrame.arp EthernetAddress.BROADCAST (demoMac 2) demoRequest))),
    (1, .interface 0 .popFrame),
    (0, .interface 1 (.recvFrame (EthernetFrame.arp (demoMac 2) (demoMac 3) demoReply))),
    (0, .interface 1 .popFrame),
    (1, .interface 0 (.recvFrame
      (EthernetFrame.ipv4 (demoMac 3) (demoMac 2) (demoPacket 3 ++ [0, 0, 0])))),
    (1, .route), (1, .interface 0 .popFrame),
    (0, .interface 1 (.recvFrame (demoFrame (demoMac 2) (demoMac 3) 2))), (0, .route),
    (0, .interface 1 .popFrame),
    (1, .interface 0 (.recvFrame (demoFrame (demoMac 3) (demoMac 2) 1))), (1, .route),
    (1, .interface 0 .popFrame)]

/-- The packet as the host sent it. -/
def FromHost (datagram : Ipv4Datagram) : Prop := datagram.serialize = .ok (demoPacket 4)

instance : DecidablePred FromHost := fun _ => inferInstanceAs (Decidable (_ = _))

theorem demoPacket_ttl {ttl : UInt8} (h : datagram.serialize = .ok (demoPacket ttl)) :
    datagram.header.ttl = ttl := by
  rw [Ipv4Datagram.serialize_eq (Ipv4Datagram.payload_le_of_serialize h), Except.ok.injEq] at h
  have hbyte := congrArg (fun bytes => bytes[8]?) h
  exact Option.some.inj hbyte

/-- The frames of the routers. -/
def demoWire : List EthernetFrame :=
  [EthernetFrame.arp EthernetAddress.BROADCAST (demoMac 2) demoRequest,
    EthernetFrame.arp (demoMac 2) (demoMac 3) demoReply,
    demoFrame (demoMac 3) (demoMac 2) 3, demoFrame (demoMac 2) (demoMac 3) 2,
    demoFrame (demoMac 3) (demoMac 2) 1]

theorem demo_run : ∃ mesh : Mesh (Fin 2),
    Exec.RunWhile (Admits FromHost) step start demoMoves mesh ∧ mesh.wire = demoWire := by
  obtain ⟨mesh, hmoves, hwire⟩ : ∃ mesh : Mesh (Fin 2),
      Exec.run (Exec.guarded (Admits FromHost) step) start demoMoves = .ok mesh ∧
        mesh.wire = demoWire := by
    decide +kernel
  exact ⟨mesh, Exec.RunWhile.of_guarded hmoves, hwire⟩

/-- The last frame is one of the second router, and three routers have forwarded what it brings. -/
theorem packets_descend_loop : ∃ (mesh : Mesh (Fin 2)) (iface : NetworkInterface)
    (origin datagram : Ipv4Datagram) (way : List (Fin 2)),
    Exec.RunWhile (Admits FromHost) step start demoMoves mesh ∧ mesh.wire = demoWire ∧
    (∀ move, mesh.Admits FromHost move → ∃ mesh1, mesh.step move = .ok mesh1) ∧
    Emits (demoMoves.take 17) 0 1 iface (demoFrame (demoMac 3) (demoMac 2) 1) ∧
    datagram.serialize = .ok (demoPacket 1) ∧
    Journey FromHost origin (demoMoves.take 17) 0 .outbox way datagram ∧ way.length = 3 := by
  obtain ⟨mesh, hrun, hwire⟩ := demo_run
  obtain ⟨hgoes, -, haccounted⟩ := packets_descend hrun
  obtain ⟨mesh1, hfirst, iface, hiface, hhead⟩ : ∃ mesh1 : Mesh (Fin 2),
      Exec.run step start (demoMoves.take 17) = .ok mesh1 ∧ ∃ iface,
        (mesh1.router 0).interfaces[1]? = some iface ∧
          iface.framesOut.head? = some (demoFrame (demoMac 3) (demoMac 2) 1) := by
    decide +kernel
  have hemits : Emits (demoMoves.take 17) 0 1 iface (demoFrame (demoMac 3) (demoMac 2) 1) :=
    ⟨⟨mesh1, hfirst, hiface⟩, hhead⟩
  obtain ⟨-, harp | ⟨-, origin, datagram, way, hserialize, hjourney, -, hsum, -⟩⟩ :=
    haccounted _ (demoMoves.drop 18) _ _ _ _ rfl hemits
  · exact absurd harp.1 (by decide)
  · refine ⟨mesh, iface, origin, datagram, way, hrun, hwire, hgoes, hemits, hserialize, hjourney,
      ?_⟩
    -- four of the TTL at first, and one at last
    rw [demoPacket_ttl hserialize, demoPacket_ttl hjourney.outside] at hsum
    exact Nat.add_left_cancel hsum

end Mesh

end Minnow
