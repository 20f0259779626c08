import Minnow.Router.Provenance

set_option autoImplicit false

/-! # Routers and the frames between them

Any number of routers, each built and driven through its operations. A frame that is taken out of
an interface is on a wire, and any interface may be given any frame: so links may connect what they
like, and lose, pad, repeat and reorder what they carry; hosts may be anywhere; and the tables of
the routers may send a datagram in a circle.
-/

namespace Minnow

open Router

/-- The routers, and every frame that was put on a wire. -/
structure Mesh (ι : Type) where
  router : ι → Router
  wire : List EthernetFrame

namespace Mesh

variable {ι : Type}

def start : Mesh ι where
  router := fun _ => .new
  wire := []

def step [DecidableEq ι] (mesh : Mesh ι) (move : ι × RouterOp) : Exec (Mesh ι) := do
  let router ← (mesh.router move.1).perform move.2
  .ok
    { router := Function.update mesh.router move.1 router
      wire := mesh.wire ++ (mesh.router move.1).outgoing move.2 }

/-- The frame is another one with bytes put behind its payload. -/
def Pads (sent frame : EthernetFrame) : Prop :=
  frame.header = sent.header ∧ sent.payload <+: frame.payload

instance (sent frame : EthernetFrame) : Decidable (Pads sent frame) :=
  inferInstanceAs (Decidable (_ ∧ _))

/-- The frame is one from a wire, perhaps padded. -/
def OnWire (mesh : Mesh ι) (frame : EthernetFrame) : Prop := ∃ sent ∈ mesh.wire, Pads sent frame

instance (mesh : Mesh ι) (frame : EthernetFrame) : Decidable (mesh.OnWire frame) :=
  inferInstanceAs (Decidable (∃ sent ∈ mesh.wire, _))

/-- What comes from outside is of the kind: the frames that are not from a wire, and the datagrams
that the owner of a router hands to an interface. -/
def Admits (Q : Ipv4Datagram → Prop) (mesh : Mesh ι) (move : ι × RouterOp) : Prop :=
  move.2.Sound ∧ ((∃ frame ∈ move.2.frame?, mesh.OnWire frame) ∨ move.2.Puts Q)

instance (Q : Ipv4Datagram → Prop) [DecidablePred Q] (mesh : Mesh ι) (move : ι × RouterOp) :
    Decidable (mesh.Admits Q move) :=
  inferInstanceAs (Decidable (_ ∧ _))

/-- All that is in the routers and on the wires is of the kind. -/
structure Inv (Q : Ipv4Datagram → Prop) (mesh : Mesh ι) : Prop where
  holds : ∀ i, (mesh.router i).HoldsAll Q Q
  wire : ∀ frame ∈ mesh.wire, ∃ mac ip, NetworkInterface.Genuine (NetworkInterface.Written Q) mac ip
    frame

variable {Q : Ipv4Datagram → Prop} {mesh mesh1 : Mesh ι} {move : ι × RouterOp}
  {frame : EthernetFrame} {datagram : Ipv4Datagram}

theorem Admits.mono {R : Ipv4Datagram → Prop} (hmono : ∀ datagram, Q datagram → R datagram)
    (h : mesh.Admits Q move) : mesh.Admits R move :=
  ⟨h.1, h.2.imp_right fun hputs => hputs.mono hmono⟩

theorem inv_start (Q : Ipv4Datagram → Prop) : (start : Mesh ι).Inv Q where
  holds := fun _ => holdsAll_new Q Q
  wire := fun _ hmem => absurd hmem List.not_mem_nil

theorem Inv.mono {R : Ipv4Datagram → Prop} (hmono : ∀ datagram, Q datagram → R datagram)
    (h : mesh.Inv Q) : mesh.Inv R where
  holds := fun i => (h.holds i).mono hmono hmono
  wire := by
    intro frame hframe
    obtain ⟨mac, ip, hgenuine⟩ := h.wire frame hframe
    exact ⟨mac, ip, hgenuine.mono (NetworkInterface.written_mono hmono)⟩

/-- A datagram that a frame from a wire brings is of the kind. -/
theorem Inv.brings (h : mesh.Inv Q) (hwire : mesh.OnWire frame)
    (hipv4 : frame.header.ethertype = ETHERTYPE_IPV4)
    (hparsed : Ipv4Datagram.parseBytes frame.payload = .ok (.ok datagram)) : Q datagram := by
  obtain ⟨sent, hsent, hheader, pad, hpad⟩ := hwire
  obtain ⟨mac, ip, hgenuine⟩ := h.wire sent hsent
  rcases hgenuine.kind with ⟨harp, -⟩ | ⟨-, other, hserialize, hkind⟩
  · -- ARP frames bring no datagram
    rw [← hheader, hipv4] at harp
    exact absurd harp (by decide)
  · have hsame := Ipv4Datagram.parseBytes_serialize_append hserialize pad
    rw [hpad, hparsed, Except.ok.injEq, Except.ok.injEq] at hsame
    rw [hsame]
    exact hkind

theorem Inv.puts (h : mesh.Inv Q) (hadmits : mesh.Admits Q move) : move.2.Puts Q := by
  rcases hadmits.2 with ⟨frame, hframe, hwire⟩ | hputs
  · obtain ⟨interfaceNum, hop⟩ := RouterOp.frame?_eq_some.mp hframe
    rw [hop]
    exact fun hipv4 datagram hparsed => h.brings hwire hipv4 hparsed
  · exact hputs

variable [DecidableEq ι]

theorem step_eq_ok : mesh.step move = .ok mesh1 ↔ ∃ router1,
    (mesh.router move.1).perform move.2 = .ok router1 ∧ mesh1 =
      { router := Function.update mesh.router move.1 router1
        wire := mesh.wire ++ (mesh.router move.1).outgoing move.2 } := by
  unfold step
  rw [Exec.bind_eq_ok]
  constructor
  · rintro ⟨router1, hperform, hok⟩
    exact ⟨router1, hperform, (Except.ok.inj hok).symm⟩
  · rintro ⟨router1, hperform, rfl⟩
    exact ⟨router1, hperform, rfl⟩

theorem Inv.step (hclosed : HopClosed Q Q) (h : mesh.Inv Q) (hputs : move.2.Puts Q)
    (hstep : mesh.step move = .ok mesh1) : mesh1.Inv Q := by
  obtain ⟨router1, hperform, rfl⟩ := step_eq_ok.mp hstep
  constructor
  · intro i
    dsimp only
    by_cases hi : i = move.1
    · rw [hi, Function.update_self]
      exact (h.holds move.1).perform (fun _ => hclosed) (hputs.gets _) hperform
    · rw [Function.update_of_ne hi]
      exact h.holds i
  · intro frame hframe
    rcases List.mem_append.mp hframe with hframe | hframe
    · exact h.wire frame hframe
    · exact (h.holds move.1).outgoing frame hframe

theorem Inv.step_total (h : mesh.Inv Q) (hadmits : mesh.Admits Q move) :
    ∃ mesh1, mesh.step move = .ok mesh1 := by
  obtain ⟨router1, hperform⟩ :=
    (h.holds move.1).perform_total ((h.puts hadmits).gets _) hadmits.1
  exact ⟨_, step_eq_ok.mpr ⟨router1, hperform, rfl⟩⟩

/-- With a kind that survives a hop, all is of the kind if what comes from outside is. -/
theorem Inv.run {moves : List (ι × RouterOp)} (hclosed : HopClosed Q Q) (h : mesh.Inv Q)
    (hrun : Exec.RunWhile (Admits Q) Mesh.step mesh moves mesh1) : mesh1.Inv Q :=
  hrun.invariant (Inv Q) (fun _ _ _ hinv hadmits hstep =>
    hinv.step hclosed (hinv.puts hadmits) hstep) h

end Mesh

end Minnow
