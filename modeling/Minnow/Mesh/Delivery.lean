import Minnow.Mesh.Lineage
import Minnow.Router.Exchange

set_option autoImplicit false

/-! # Packets can get through

From every state that routers can be in, a packet can be brought along the way that the tables say,
by nothing but the routers and the wires between them: on each leg the router asks for the address
of the next one, is answered, and sends the packet on (`leads_leg`). So the packet gets to the end
of any way that its TTL is long enough for (`path_delivers`). The steps of a leg are told for
routers that may be given some frames from outside, too: hosts speak to them in the same way.
-/

namespace Minnow

open Router NetworkInterface

namespace Mesh

variable {ι : Type} {mesh mesh1 mesh2 : Mesh ι} {i j : ι}
  {interfaceNum nextNum : Nat} {iface iface1 next : NetworkInterface} {op : InterfaceOp}
  {frame : EthernetFrame} {frames : List EthernetFrame} {datagram : Ipv4Datagram}
  {sending : Sending} {F : EthernetFrame → Prop}

/-! ## The way

Where a datagram goes from router to router, as the tables say. -/

/-- Each leg leads to an interface of another router, with the address that the router before takes
for the next hop. -/
def Way (mesh : Mesh ι) : ι → Ipv4Datagram → List (ι × Nat) → Prop
  | _, _, [] => True
  | i, datagram, (j, nextNum) :: rest => j ≠ i ∧
      (∃ sending ∈ (mesh.router i).forwarding datagram,
        ∃ next ∈ (mesh.router j).interfaces[nextNum]?, next.ipAddress = sending.nextHop) ∧
      Way mesh j (hopped datagram) rest

/-- The interface at the end of a way. -/
def wayEnd (i : ι) (interfaceNum : Nat) (way : List (ι × Nat)) : ι × Nat :=
  way.getLast?.getD (i, interfaceNum)

instance decidableWay [DecidableEq ι] (mesh : Mesh ι) :
    (i : ι) → (datagram : Ipv4Datagram) → (way : List (ι × Nat)) →
      Decidable (mesh.Way i datagram way)
  | _, _, [] => isTrue trivial
  | i, datagram, (j, _) :: rest =>
      have := decidableWay mesh j (hopped datagram) rest
      inferInstanceAs (Decidable (j ≠ i ∧
        (∃ sending ∈ (mesh.router i).forwarding datagram, _) ∧ _))

/-- The way depends on the tables only. -/
theorem Way.congr {way : List (ι × Nat)} (hsame : ∀ i, SameTables (mesh.router i) (mesh1.router i))
    (h : mesh.Way i datagram way) : mesh1.Way i datagram way := by
  induction way generalizing i datagram with
  | nil => trivial
  | cons leg rest ih =>
      obtain ⟨j, nextNum⟩ := leg
      obtain ⟨hne, ⟨sending, hforward, next, hnext, hip⟩, hrest⟩ := h
      refine ⟨hne, ?_, ih hrest⟩
      have hstation : (mesh1.router j).stations[nextNum]?
          = some (next.ethernetAddress, next.ipAddress) := by
        rw [(hsame j).stations, stations, List.getElem?_map, hnext]
        rfl
      rw [stations, List.getElem?_map] at hstation
      obtain ⟨next1, hnext1, haddresses⟩ := Option.map_eq_some_iff.mp hstation
      refine ⟨sending, ?_, next1, hnext1, ?_⟩
      · rw [(hsame i).forwarding]
        exact hforward
      · rw [(Prod.mk.inj haddresses).2, hip]

/-- The way depends on the destination and the TTL only. -/
theorem Way.alike {other : Ipv4Datagram} {way : List (ι × Nat)} (halike : Alike datagram other)
    (h : mesh.Way i datagram way) : mesh.Way i other way := by
  induction way generalizing i datagram other with
  | nil => trivial
  | cons leg rest ih =>
      obtain ⟨j, nextNum⟩ := leg
      obtain ⟨hne, ⟨sending, hforward, next, hnext, hip⟩, hrest⟩ := h
      exact ⟨hne, ⟨_, halike.forwarding hforward, next, hnext, hip⟩, ih halike.hopped hrest⟩

/-! ## Runs of the routers by themselves -/

/-- What a router is given is a frame from a wire, or one of the frames `F`. -/
def Inside (F : EthernetFrame → Prop) (mesh : Mesh ι) (move : ι × RouterOp) : Prop :=
  move.2.Sound ∧ match move.2.frame? with
    | some frame => mesh.OnWire frame ∨ F frame
    | none => move.2.Puts fun _ => False

theorem Inside.admits {move : ι × RouterOp} (h : mesh.Inside F move) :
    mesh.Admits (fun _ => True) move := by
  refine ⟨h.1, Or.inr ?_⟩
  have hgiven := h.2
  cases hframe : move.2.frame? with
  | none =>
      rw [hframe] at hgiven
      exact hgiven.mono fun _ => False.elim
  | some frame =>
      obtain ⟨interfaceNum, hop⟩ := RouterOp.frame?_eq_some.mp hframe
      rw [hop]
      exact fun _ _ _ => trivial

variable [DecidableEq ι]

/-- With the frames `F` and nothing else from outside, the routers get from one state to the other,
and their tables stay. -/
def Leads (F : EthernetFrame → Prop) (mesh mesh1 : Mesh ι) : Prop :=
  (∃ moves, Exec.RunWhile (Inside F) step mesh moves mesh1) ∧
    ∀ i, SameTables (mesh.router i) (mesh1.router i)

/-- The mesh in which an interface of a router was changed, and has put out frames. -/
def put (mesh : Mesh ι) (i : ι) (interfaceNum : Nat) (iface : NetworkInterface)
    (frames : List EthernetFrame) : Mesh ι where
  router := Function.update mesh.router i
    { mesh.router i with interfaces := (mesh.router i).interfaces.set interfaceNum iface }
  wire := mesh.wire ++ frames

theorem Leads.refl (F : EthernetFrame → Prop) (mesh : Mesh ι) : Leads F mesh mesh :=
  ⟨⟨[], .nil mesh⟩, fun _ => SameTables.refl _⟩

theorem Leads.trans (h : Leads F mesh mesh1) (h1 : Leads F mesh1 mesh2) : Leads F mesh mesh2 := by
  obtain ⟨⟨moves, hrun⟩, hsame⟩ := h
  obtain ⟨⟨more, hmore⟩, hsame1⟩ := h1
  exact ⟨⟨moves ++ more, hrun.append hmore⟩, fun i => (hsame i).trans (hsame1 i)⟩

/-- All that is in the routers can be serialized, and stays so. -/
theorem Leads.inv (h : Leads F mesh mesh1) (hinv : mesh.Inv fun _ => True) :
    mesh1.Inv fun _ => True := by
  obtain ⟨⟨moves, hrun⟩, -⟩ := h
  exact hinv.run (fun _ _ _ => trivial) (hrun.mono fun _ _ hinside => hinside.admits)

/-! ## The interface that was changed -/

theorem put_self (hlt : (mesh.router i).interfaces[interfaceNum]? = some iface) :
    ((mesh.put i interfaceNum iface1 frames).router i).interfaces[interfaceNum]? = some iface1 := by
  unfold put
  dsimp only
  rw [Function.update_self]
  exact List.getElem?_set_self (List.getElem?_eq_some_iff.mp hlt).1

theorem put_other (hne : j ≠ i) : (mesh.put i interfaceNum iface frames).router j = mesh.router j :=
  Function.update_of_ne hne ..

@[simp] theorem put_wire : (mesh.put i interfaceNum iface frames).wire = mesh.wire ++ frames := rfl

variable (F)

/-- An operation of an interface. -/
theorem leads_put (hiface : (mesh.router i).interfaces[interfaceNum]? = some iface)
    (hop : iface.perform op = .ok iface1)
    (hinside : mesh.Inside F (i, .interface interfaceNum op)) :
    Leads F mesh (mesh.put i interfaceNum iface1 (iface.outgoing op)) := by
  have hperform : (mesh.router i).perform (.interface interfaceNum op) = .ok
      { mesh.router i with interfaces := (mesh.router i).interfaces.set interfaceNum iface1 } := by
    unfold Router.perform
    dsimp only
    rw [hiface]
    dsimp only
    rw [hop]
    rfl
  have houtgoing : (mesh.router i).outgoing (.interface interfaceNum op) = iface.outgoing op := by
    unfold Router.outgoing
    dsimp only
    rw [hiface]
    rfl
  have hstep : mesh.step (i, .interface interfaceNum op)
      = .ok (mesh.put i interfaceNum iface1 (iface.outgoing op)) := by
    rw [← houtgoing]
    exact step_eq_ok.mpr ⟨_, hperform, rfl⟩
  refine ⟨⟨[(i, .interface interfaceNum op)], .cons hinside hstep (.nil _)⟩, ?_⟩
  intro k
  by_cases hk : k = i
  · subst hk
    unfold put
    dsimp only
    rw [Function.update_self]
    exact sameTables_set hiface (sameStation_of_performed (perform_performed hop))
  · rw [put_other hk]
    exact SameTables.refl _

/-! ## What an interface has to send, and what it gets -/

/-- All frames of an interface are put on the wire. -/
theorem leads_flush (hiface : (mesh.router i).interfaces[interfaceNum]? = some iface) :
    ∃ mesh1, Leads F mesh mesh1 ∧
      (mesh1.router i).interfaces[interfaceNum]? = some { iface with framesOut := [] } ∧
      (∀ k, k ≠ i → mesh1.router k = mesh.router k) ∧
      mesh1.wire = mesh.wire ++ iface.framesOut := by
  obtain ⟨frames, hframes⟩ : ∃ frames, iface.framesOut = frames := ⟨_, rfl⟩
  induction frames generalizing mesh iface with
  | nil =>
      refine ⟨mesh, Leads.refl F mesh, ?_, fun _ _ => rfl, by rw [hframes, List.append_nil]⟩
      rw [hiface, ← hframes]
  | cons frame rest ih =>
      have hpop : iface.perform .popFrame = .ok { iface with framesOut := rest } := by
        unfold NetworkInterface.perform popFrame
        dsimp only
        rw [hframes, List.tail_cons]
      have houtgoing : iface.outgoing .popFrame = [frame] := by
        unfold NetworkInterface.outgoing
        dsimp only
        rw [hframes]
        rfl
      have hfirst := leads_put F hiface hpop ⟨trivial, trivial⟩
      rw [houtgoing] at hfirst
      obtain ⟨mesh1, hrest, hself, hother, hwire⟩ :=
        @ih _ { iface with framesOut := rest } (put_self hiface) rfl
      refine ⟨mesh1, hfirst.trans hrest, hself, ?_, ?_⟩
      · intro k hk
        rw [hother k hk, put_other hk]
      · rw [hwire, put_wire, hframes, List.append_assoc]
        rfl

/-- An interface is given a frame. -/
theorem leads_recv (hinv : mesh.Inv fun _ => True)
    (hiface : (mesh.router i).interfaces[interfaceNum]? = some iface)
    (hframe : frame ∈ mesh.wire ∨ F frame) :
    ∃ mesh1 iface1, Leads F mesh mesh1 ∧ iface.recvFrame frame = .ok iface1 ∧
      (mesh1.router i).interfaces[interfaceNum]? = some iface1 ∧
      (∀ k, k ≠ i → mesh1.router k = mesh.router k) ∧ mesh1.wire = mesh.wire := by
  have htraced := (hinv.holds i iface (List.mem_of_getElem? hiface)).traced
  obtain ⟨iface1, hrecv⟩ := htraced.recvFrame_total frame
  have hgiven : mesh.OnWire frame ∨ F frame :=
    hframe.imp_left fun hwire => ⟨frame, hwire, rfl, List.prefix_refl _⟩
  have hleads := leads_put F hiface (show iface.perform (.recvFrame frame) = .ok iface1 from hrecv)
    ⟨trivial, hgiven⟩
  exact ⟨_, iface1, hleads, hrecv, put_self hiface, fun _ hk => put_other hk,
    List.append_nil _⟩

/-! ## One leg of the way -/

/-- The router asks for the next hop, and the question gets on the wire. -/
theorem leads_ask (hinv : mesh.Inv fun _ => True) (hmem : datagram ∈ (mesh.router i).inbound)
    (hforward : (mesh.router i).forwarding datagram = some sending) :
    ∃ mesh1 out question, Leads F mesh mesh1 ∧
      (mesh1.router i).interfaces[sending.interfaceNum]? = some out ∧
      sending.datagram ∈ out.queue sending.nextHop ∧
      question ∈ mesh1.wire ∧ out.Question sending.nextHop question ∧
      ∀ k, k ≠ i → mesh1.router k = mesh.router k := by
  obtain ⟨-, -, hlt⟩ := forwarding_eq_some hforward
  obtain ⟨iface, hiface⟩ : ∃ iface, (mesh.router i).interfaces[sending.interfaceNum]? = some iface :=
    ⟨_, List.getElem?_eq_getElem hlt⟩
  -- the interface forgets what it knew
  have htick := leads_put F hiface (show iface.perform (.tick ARP_CACHE_TTL_MS) = .ok _ from rfl)
    ⟨trivial, trivial⟩
  obtain ⟨mesh1, hmesh1⟩ : ∃ mesh1, mesh1 = mesh.put i sending.interfaceNum
      (iface.tick ARP_CACHE_TTL_MS) (iface.outgoing (.tick ARP_CACHE_TTL_MS)) := ⟨_, rfl⟩
  rw [← hmesh1] at htick
  have hself : (mesh1.router i).interfaces[sending.interfaceNum]?
      = some (iface.tick ARP_CACHE_TTL_MS) := by
    rw [hmesh1]
    exact put_self hiface
  have hqueues : (mesh1.router i).inbound = (mesh.router i).inbound := by
    rw [hmesh1]
    unfold put inbound queues
    dsimp only
    rw [Function.update_self]
    exact congrArg List.flatten (map_set_of_eq hiface rfl)
  -- the datagram is sent to an address that is not known
  have hinv1 := htick.inv hinv
  have hfits : ∀ interface ∈ (mesh1.router i).interfaces, interface.Fits :=
    fun interface hinterface waiting hwaiting =>
      (known_written.mp ((hinv1.holds i interface hinterface).inbound waiting hwaiting)).1
  obtain ⟨router1, hroute, -⟩ := route_routed hfits
  have hready : At (mesh1.router i).interfaces sending.interfaceNum (Ready sending.nextHop) := by
    obtain ⟨hmiss, hnone⟩ := @tick_forgets iface _ (Nat.le_refl _) sending.nextHop
    exact ⟨_, hself, hmiss, Or.inl hnone⟩
  rw [← (htick.2 i).forwarding] at hforward
  rw [← hqueues] at hmem
  obtain ⟨out, hout, hasked⟩ := route_asks hfits hroute hmem hforward hready
  obtain ⟨routed, hroutedEq⟩ : ∃ routed : Mesh ι, routed =
      { router := Function.update mesh1.router i router1, wire := mesh1.wire ++ [] } := ⟨_, rfl⟩
  have hstep : mesh1.step (i, .route) = .ok routed :=
    step_eq_ok.mpr ⟨router1, hroute, hroutedEq⟩
  have hrouted : Leads F mesh1 routed := by
    have hinside : mesh1.Inside F (i, .route) := ⟨trivial, trivial⟩
    refine ⟨⟨_, .cons hinside hstep (.nil _)⟩, ?_⟩
    intro k
    rw [hroutedEq]
    dsimp only
    by_cases hk : k = i
    · subst hk
      rw [Function.update_self]
      exact sameTables_route hroute
    · rw [Function.update_of_ne hk]
      exact SameTables.refl _
  have hout1 : (routed.router i).interfaces[sending.interfaceNum]? = some out := by
    rw [hroutedEq]
    dsimp only
    rwa [Function.update_self]
  obtain ⟨mesh2, hflush, hself2, hother2, hwire2⟩ := leads_flush F hout1
  obtain ⟨question, hquestion, hasks⟩ := hasked.asked
  refine ⟨mesh2, { out with framesOut := [] }, question, (htick.trans hrouted).trans hflush, hself2,
    hasked.waits, ?_, hasks, ?_⟩
  · rw [hwire2]
    exact List.mem_append_right _ hquestion
  · intro k hk
    rw [hother2 k hk, hroutedEq]
    dsimp only
    rw [Function.update_of_ne hk, hmesh1, put_other hk]

/-- A question for its own address is answered, and the answer gets on the wire. -/
theorem leads_answer (hinv : mesh.Inv fun _ => True) {src : EthernetAddress}
    {ip : Ipv4AddrBytes} {question : EthernetFrame}
    (hnext : (mesh.router j).interfaces[nextNum]? = some next)
    (hquestion : question ∈ mesh.wire ∨ F question)
    (hasks : CarriesArp src EthernetAddress.BROADCAST (.request src ip next.ipAddress) question) :
    ∃ mesh1 next1 reply, Leads F mesh mesh1 ∧
      (mesh1.router j).interfaces[nextNum]? = some next1 ∧
      next1.ethernetAddress = next.ethernetAddress ∧
      (∀ k, k ≠ j → mesh1.router k = mesh.router k) ∧ reply ∈ mesh1.wire ∧
      CarriesArp next.ethernetAddress src (.reply next.ethernetAddress next.ipAddress src ip)
        reply := by
  obtain ⟨mesh1, next1, hleads1, hrecv, hself1, hother1, hwire1⟩ := leads_recv F hinv hnext hquestion
  have hbrings : next.Brings question _ := brings_of_carriesArp hasks (Or.inr rfl)
  obtain ⟨reply, hreply, hcarries⟩ := recvFrame_answers hbrings ⟨rfl, rfl⟩ hrecv
  have hsame := sameStation_of_performed (perform_performed
    (show next.perform (.recvFrame question) = .ok next1 from hrecv))
  obtain ⟨mesh2, hleads2, hself2, hother2, hwire2⟩ := leads_flush F hself1
  refine ⟨mesh2, { next1 with framesOut := [] }, reply, hleads1.trans hleads2, hself2,
    hsame.ethernetAddress, fun k hk => ?_, ?_, hcarries⟩
  · rw [hother2 k hk, hother1 k hk]
  · rw [hwire2]
    exact List.mem_append_right _ hreply

/-- With the answer, a datagram that waits for it gets on the wire. -/
theorem leads_letOut (hinv : mesh.Inv fun _ => True) {out : NetworkInterface}
    {mac : EthernetAddress} {ip : Ipv4AddrBytes} {reply : EthernetFrame}
    (hwaits : datagram ∈ out.queue ip)
    (hout : (mesh.router i).interfaces[interfaceNum]? = some out)
    (hreply : reply ∈ mesh.wire ∨ F reply)
    (hcarries : CarriesArp mac out.ethernetAddress
      (.reply mac ip out.ethernetAddress out.ipAddress) reply) :
    ∃ mesh1 frame, Leads F mesh mesh1 ∧ (∀ k, k ≠ i → mesh1.router k = mesh.router k) ∧
      frame ∈ mesh1.wire ∧ Carries out.ethernetAddress mac datagram frame := by
  obtain ⟨mesh1, out1, hleads1, hrecv, hself1, hother1, hwire1⟩ := leads_recv F hinv hout hreply
  have hbrings : out.Brings reply _ := brings_of_carriesArp hcarries (Or.inl rfl)
  obtain ⟨-, hlets⟩ := recvFrame_learns hbrings hrecv
  obtain ⟨frame, hframe, hcarried⟩ := hlets datagram hwaits
  obtain ⟨mesh2, hleads2, -, hother2, hwire2⟩ := leads_flush F hself1
  refine ⟨mesh2, frame, hleads1.trans hleads2, fun k hk => ?_, ?_, hcarried⟩
  · rw [hother2 k hk, hother1 k hk]
  · rw [hwire2]
    exact List.mem_append_right _ hframe

/-- A datagram in a frame for an interface gets into it. -/
theorem leads_take (hinv : mesh.Inv fun _ => True) {src : EthernetAddress}
    (hnext : (mesh.router j).interfaces[nextNum]? = some next)
    (hframe : frame ∈ mesh.wire ∨ F frame)
    (hcarries : Carries src next.ethernetAddress datagram frame) :
    ∃ mesh1 next1, Leads F mesh mesh1 ∧ (mesh1.router j).interfaces[nextNum]? = some next1 ∧
      datagram ∈ next1.datagramsIn := by
  obtain ⟨bytes, hbytes, rfl⟩ := hcarries
  obtain ⟨mesh1, next1, hleads1, hrecv, hnext1, -⟩ := leads_recv F hinv hnext hframe
  rw [recvFrame_of_ipv4 (EthernetFrame.isFor_iff.mpr (Or.inl rfl)) rfl
    (Ipv4Datagram.parseBytes_serialize hbytes)] at hrecv
  obtain rfl := Except.ok.inj hrecv
  exact ⟨mesh1, _, hleads1, hnext1, List.mem_append_right _ List.mem_cons_self⟩

/-- A datagram that the tables send to another router gets there, one hop older. -/
theorem leads_leg (hinv : mesh.Inv fun _ => True) (hne : j ≠ i)
    (hmem : datagram ∈ (mesh.router i).inbound)
    (hforward : (mesh.router i).forwarding datagram = some sending)
    (hnext : (mesh.router j).interfaces[nextNum]? = some next)
    (hip : next.ipAddress = sending.nextHop) :
    ∃ mesh1 next1, Leads F mesh mesh1 ∧ (mesh1.router j).interfaces[nextNum]? = some next1 ∧
      hopped datagram ∈ next1.datagramsIn := by
  obtain ⟨-, hhopped, -⟩ := forwarding_eq_some hforward
  obtain ⟨mesh1, out, question, hleads1, hout, hwaits, hquestion, hasks, hother⟩ :=
    leads_ask F hinv hmem hforward
  rw [hhopped, ← hip] at hwaits
  rw [← hip] at hasks
  have hnext1 : (mesh1.router j).interfaces[nextNum]? = some next := by
    rw [hother j hne, hnext]
  -- the next router answers the question
  have hinv1 := hleads1.inv hinv
  obtain ⟨mesh2, next2, reply, hleads2, hnext2, hmac, hother2, hreply, hanswers⟩ :=
    leads_answer F hinv1 hnext1 (Or.inl hquestion) hasks
  have hout2 : (mesh2.router i).interfaces[sending.interfaceNum]? = some out := by
    rw [hother2 i hne.symm, hout]
  -- the datagram is let out, in a frame for the next router
  have hinv2 := hleads2.inv hinv1
  obtain ⟨mesh3, frame, hleads3, hother3, hframe, hcarries⟩ :=
    leads_letOut F hinv2 hwaits hout2 (Or.inl hreply) hanswers
  have hnext3 : (mesh3.router j).interfaces[nextNum]? = some next2 := by
    rw [hother3 j hne, hnext2]
  rw [← hmac] at hcarries
  obtain ⟨mesh4, next4, hleads4, hnext4, harrived⟩ :=
    leads_take F (hleads3.inv hinv2) hnext3 (Or.inl hframe) hcarries
  exact ⟨mesh4, next4, ((hleads1.trans hleads2).trans hleads3).trans hleads4, hnext4, harrived⟩

/-! ## The whole way -/

theorem leads_way {way : List (ι × Nat)} (hinv : mesh.Inv fun _ => True)
    (hiface : (mesh.router i).interfaces[interfaceNum]? = some iface)
    (hmem : datagram ∈ iface.datagramsIn) (hway : mesh.Way i datagram way) :
    ∃ mesh1 last, Leads F mesh mesh1 ∧
      (mesh1.router (wayEnd i interfaceNum way).1).interfaces[(wayEnd i interfaceNum way).2]?
        = some last ∧
      hopped^[way.length] datagram ∈ last.datagramsIn := by
  induction way generalizing mesh i interfaceNum iface datagram with
  | nil => exact ⟨mesh, iface, Leads.refl F mesh, hiface, hmem⟩
  | cons leg rest ih =>
      obtain ⟨j, nextNum⟩ := leg
      obtain ⟨hne, ⟨sending, hforward, next, hnext, hip⟩, hrest⟩ := hway
      obtain ⟨mesh1, next1, hleads, hnext1, harrived⟩ :=
        leads_leg F hinv hne (Router.mem_inbound hiface hmem) hforward hnext hip
      obtain ⟨mesh2, last, hmore, hlast, hdelivered⟩ :=
        ih (hleads.inv hinv) hnext1 harrived (hrest.congr hleads.2)
      refine ⟨mesh2, last, hleads.trans hmore, ?_, hdelivered⟩
      have hend : wayEnd i interfaceNum ((j, nextNum) :: rest) = wayEnd j nextNum rest := by
        unfold wayEnd
        rw [List.getLast?_cons, Option.getD_some]
      rw [hend]
      exact hlast

/-- A datagram that is in a router can be brought to the end of every way that the tables have for
it, by what the routers themselves put on the wires, with one taken off its TTL on each leg. -/
theorem path_delivers {moves : List (ι × RouterOp)} {way : List (ι × Nat)}
    (hrun : Exec.RunWhile (Admits fun _ => True) step start moves mesh)
    (hiface : (mesh.router i).interfaces[interfaceNum]? = some iface)
    (hmem : datagram ∈ iface.datagramsIn) (hway : mesh.Way i datagram way) :
    ∃ mesh1 last, Leads (fun _ => False) mesh mesh1 ∧
      (mesh1.router (wayEnd i interfaceNum way).1).interfaces[(wayEnd i interfaceNum way).2]?
        = some last ∧
      hopped^[way.length] datagram ∈ last.datagramsIn :=
  leads_way _ ((inv_start _).run (fun _ _ _ => trivial) hrun) hiface hmem hway

/-- Three legs between two routers take the packet to where it may live no longer. -/
theorem path_delivers_circle : ∃ mesh mesh1 last, ∃ datagram : Ipv4Datagram,
    Exec.RunWhile (Admits fun _ => True) step start (demoMoves.take 6) mesh ∧
    datagram.header.ttl = 4 ∧ Leads (fun _ => False) mesh mesh1 ∧
    (mesh1.router 1).interfaces[0]? = some last ∧ hopped^[3] datagram ∈ last.datagramsIn := by
  obtain ⟨mesh, hmoves, iface, hiface, datagram, hmem, httl, hway⟩ : ∃ mesh : Mesh (Fin 2),
      Exec.run (Exec.guarded (Admits fun _ => True) step) start (demoMoves.take 6) = .ok mesh ∧
        ∃ iface ∈ (mesh.router 0).interfaces[0]?, ∃ datagram ∈ iface.datagramsIn,
          datagram.header.ttl = 4 ∧ mesh.Way 0 datagram [(1, 0), (0, 1), (1, 0)] := by
    decide +kernel
  have hrun := Exec.RunWhile.of_guarded hmoves
  obtain ⟨mesh1, last, hleads, hlast, hdelivered⟩ := path_delivers hrun hiface hmem hway
  exact ⟨mesh, mesh1, last, datagram, hrun, httl, hleads, hlast, hdelivered⟩

end Mesh

end Minnow
