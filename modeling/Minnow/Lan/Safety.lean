import Minnow.Lan.Refinement

set_option autoImplicit false

/-! # What holds on the wire

Whatever frames there are, the stations go on (`frames_refine`), and what their users write and read
is what TCP promises (`frame_streams`).
-/

namespace Minnow

open TapHost

namespace Lan

variable {mac : Side → EthernetAddress} {config : Side → IpHostConfig} {capture : Bool}
  {lan0 lan : Lan} {list : List (Side × TapOp)}

/-- No step of a station stops. What a station writes are ARP messages about itself and datagrams
that its host has sent, and what the stations do together is a run of two hosts that exchange
datagrams. -/
theorem frames_refine (hpaired : Internet.Paired config)
    (hstart : start mac config capture = .ok lan0)
    (hrun : Exec.RunWhile Allowed step lan0 list lan) :
    (∀ move, lan.Allowed move → ∃ lan1, lan.step move = .ok lan1) ∧
      (∀ side, Tracks lan.internet side (lan.tap side)) ∧
      ∃ hostMoves, Exec.RunWhile Internet.Allowed Internet.step lan0.internet hostMoves
        lan.internet := by
  obtain ⟨hinv, hosts⟩ := (inv_start hpaired hstart).2.run hrun
  refine ⟨?_, hinv.tracks, hosts⟩
  intro move hallowed
  obtain ⟨lan1, host, output, hstep, -⟩ := hinv.step_total hallowed
  exact ⟨lan1, hstep⟩

/-- In every state that two stations reach, the streams between their hosts are what TCP
promises. -/
theorem frame_streams (hpaired : Internet.Paired config)
    (hstart : start mac config capture = .ok lan0)
    (hrun : Exec.RunWhile Allowed step lan0 list lan) (side : Side) :
    (lan.tap side).host = (lan.internet.station side).host ∧ lan.internet.Reliable side := by
  obtain ⟨hinv, -⟩ := (inv_start hpaired hstart).2.run hrun
  exact ⟨(hinv.tracks side).host, hinv.whole.inv.reliable side⟩

/-! ## A run

Station `a` opens and has to ask for the address of `b` first; the SYN that `b` gets is padded. In
the end someone else claims the address of `b`, and the FIN goes astray. -/

def demoMac : Side → EthernetAddress
  | .a => ⟨2, 0, 0, 0, 0, 0xa⟩
  | .b => ⟨2, 0, 0, 0, 0, 0xb⟩

def demoFrame (side : Side) (packet : Bytes) : Bytes :=
  (EthernetFrame.ipv4 (demoMac side.peer) (demoMac side) packet).serialize

/-- Who has the address of `b`? -/
def demoRequest : Bytes :=
  EthernetAddress.BROADCAST.octets ++ (demoMac .a).octets ++ u16Bytes ETHERTYPE_ARP ++
    [0, 1, 8, 0, 6, 4, 0, 1] ++ (demoMac .a).octets ++ [10, 0, 0, 1] ++
    EthernetAddress.ZERO.octets ++ [10, 0, 0, 2]

/-- `mac` has it. -/
def demoReply (mac : EthernetAddress) : Bytes :=
  (demoMac .a).octets ++ mac.octets ++ u16Bytes ETHERTYPE_ARP ++
    [0, 1, 8, 0, 6, 4, 0, 2] ++ mac.octets ++ [10, 0, 0, 2] ++
    (demoMac .a).octets ++ [10, 0, 0, 1]

def demoMoves : List (Side × TapOp) :=
  [(.a, .connect), (.a, .flush), (.b, .frame demoRequest), (.b, .flush),
    (.a, .frame (demoReply (demoMac .b))), (.a, .flush),
    (.b, .frame (demoFrame .a Internet.demoSyn ++ [0, 0, 0, 0, 0, 0])), (.b, .flush),
    (.a, .frame (demoFrame .b Internet.demoSynAck)), (.a, .app (.data [1, 2, 3])), (.a, .flush),
    (.b, .frame (demoFrame .a Internet.demoData)), (.b, .tick 10),
    (.a, .frame (demoReply ⟨2, 0, 0, 0, 0, 0xc⟩)), (.a, .app .close), (.a, .flush)]

theorem demo_run : ∃ lan0 lan : Lan, start demoMac Internet.demoConfig true = .ok lan0 ∧
    Exec.RunWhile Allowed step lan0 demoMoves lan ∧
    (lan.tap .b).host.connection.receiver.output.contents = [1, 2, 3] ∧
    (lan.internet.station .a).written = [1, 2, 3] ∧ (lan.internet.station .b).written = [] := by
  obtain ⟨lan0, hstart, lan, hmoves, hlan⟩ : ∃ lan0,
      start demoMac Internet.demoConfig true = .ok lan0 ∧
      ∃ lan, Exec.run (Exec.guarded Allowed step) lan0 demoMoves = .ok lan ∧
        (lan.tap .b).host.connection.receiver.output.contents = [1, 2, 3] ∧
        (lan.internet.station .a).written = [1, 2, 3] ∧
        (lan.internet.station .b).written = [] := by
    decide +kernel
  exact ⟨lan0, lan, hstart, Exec.RunWhile.of_guarded hmoves, hlan⟩

theorem frames_refine_demo : ∃ lan0 lan : Lan, start demoMac Internet.demoConfig true = .ok lan0 ∧
    (∀ move, lan.Allowed move → ∃ lan1, lan.step move = .ok lan1) ∧
      (∀ side, Tracks lan.internet side (lan.tap side)) ∧
      ∃ hostMoves, Exec.RunWhile Internet.Allowed Internet.step lan0.internet hostMoves
        lan.internet := by
  obtain ⟨lan0, lan, hstart, hrun, -⟩ := demo_run
  exact ⟨lan0, lan, hstart, frames_refine Internet.demo_paired hstart hrun⟩

theorem frame_streams_demo : ∃ lan0 lan : Lan, start demoMac Internet.demoConfig true = .ok lan0 ∧
    (lan.tap .b).host.connection.receiver.output.contents = [1, 2, 3] ∧
    (lan.tap .a).host = (lan.internet.station .a).host ∧ lan.internet.Reliable .a := by
  obtain ⟨lan0, lan, hstart, hrun, hcontents, -⟩ := demo_run
  exact ⟨lan0, lan, hstart, hcontents, frame_streams Internet.demo_paired hstart hrun .a⟩

end Lan

end Minnow
