import Minnow.TapHost.Safety
import Minnow.TapMain.Refinement

set_option autoImplicit false

/-! # Whole runs of the program

The program on a TAP device is left only when a call fails, and has done by then what a station does
(`rounds_return`). The file that it leaves, whenever it ends, is a beginning of the capture of what
the device has given and taken, and lacks at most a buffer (`capture_file`).
-/

namespace Minnow

open IpHost NetworkInterface Outside

namespace TapMain

variable {turns : List Turn}

/-- What the application writes in the rounds. -/
def writtenIn (turns : List Turn) : Nat := (turns.map (fun turn => turn.calm.written)).sum

/-- The program goes its way beside a station. -/
theorem main_returns (env : Env) (mac : EthernetAddress) (localIp peerIp : Ipv4AddrBytes)
    {localPort peerPort : UInt16} (isn : Wrap32) (hlocal : localPort ≠ 0) (hpeer : peerPort ≠ 0)
    (capture : Bool) (hfits : ∀ turn ∈ turns, turn.calm.Fits)
    (hwritten : writtenIn turns < 2 ^ 63) :
    ∃ t0 t, TapHost.start mac (.tcpDemo localIp peerIp localPort peerPort isn) capture = .ok t0 ∧
      Exec.run TapHost.turn t0 (turns.map Turn.calm) = .ok t ∧
      t.interface.framesOut = [] ∧ t.interface.datagramsIn = [] ∧
      (∀ bytes ∈ t.written, ∃ frame : EthernetFrame, bytes = frame.serialize ∧
        Genuine (FromHost localIp) mac localIp frame) ∧
      (main env mac (.tcpDemo localIp peerIp localPort peerPort isn) capture turns).Ensures
        Outside.start (At env t) (Halted env .ethernet (FailedRead turns) t.log) := by
  have hcalm : ∀ turn ∈ turns.map Turn.calm, turn.Fits := by
    intro turn hturn
    obtain ⟨turn1, hturn1, rfl⟩ := List.mem_map.mp hturn
    exact hfits turn1 hturn1
  have hsum : ((turns.map Turn.calm).map TapHost.Turn.written).sum < 2 ^ 63 := by
    rw [List.map_map]
    exact hwritten
  obtain ⟨t0, t, hstart, hrun, hout, hin, hgenuine⟩ :=
    TapHost.station_rounds mac localIp peerIp isn hlocal hpeer capture hcalm hsum
  exact ⟨t0, t, hstart, hrun, hout, hin, hgenuine, main_follows hstart hrun⟩

/-- Bytes that are no frame, a call that was interrupted, a stranger who claims the address of the
peer, and a datagram that is cut short. -/
def strangeTurns : List Turn :=
  [{ reads := [.ok [1, 2, 3]], events := [.data [104, 105]], elapsedMs := 0 },
    { reads :=
        [.error ⟨.interrupted, "Interrupted system call"⟩,
          .ok [2, 0, 0, 0, 0, 1, 2, 0, 0, 0, 0, 9, 8, 6, 0, 1, 8, 0, 6, 4, 0, 2, 2, 0, 0, 0, 0, 9,
            10, 0, 0, 2, 2, 0, 0, 0, 0, 1, 10, 0, 0, 1],
          .ok [2, 0, 0, 0, 0, 1, 2, 0, 0, 0, 0, 9, 8, 0, 0x45, 0, 0, 40],
          .error ⟨.wouldBlock, "Resource temporarily unavailable"⟩]
      events := [.close]
      elapsedMs := 1000 }]

theorem strangeTurns_fit : ∀ turn ∈ strangeTurns, turn.calm.Fits := by decide

/-- The error of a device that was taken away. -/
def gone : IoError := ⟨.other, "File descriptor in bad state"⟩

/-- The program with these rounds, with a capture. -/
def strangeMain (env : Env) : Program TapMain :=
  main env ⟨2, 0, 0, 0, 0, 1⟩ (.tcpDemo ⟨10, 0, 0, 1⟩ ⟨10, 0, 0, 2⟩ 4000 80 ⟨7⟩) true strangeTurns

theorem strangeMain_calm : ∃ m s, strangeMain .calm Outside.start = .ok (.ok m, s) ∧
    s.written.length = 3 ∧ s.traffic.length = 6 := by
  obtain ⟨⟨result, s⟩, hmain, hreturned, hlength⟩ : ∃ r,
      strangeMain .calm Outside.start = .ok r ∧ Io.failure r.1 = none ∧
        r.2.written.length = 3 ∧ r.2.traffic.length = 6 := by
    decide +kernel
  obtain ⟨m, rfl⟩ := Io.failure_eq_none.mp hreturned
  exact ⟨m, s, hmain, hlength⟩

theorem strangeMain_gone : ∃ s,
    strangeMain (.unplugged 34 gone) Outside.start = .ok (.error (.error gone), s) ∧
    s.written.length = 2 ∧ s.traffic.length = 5 ∧ s.pcap.isSome = true := by
  obtain ⟨⟨result, s⟩, hmain, hfailed, hlength⟩ : ∃ r,
      strangeMain (.unplugged 34 gone) Outside.start = .ok r ∧
        Io.failure r.1 = some (.error gone) ∧ r.2.written.length = 2 ∧ r.2.traffic.length = 5 ∧
          r.2.pcap.isSome = true := by
    decide +kernel
  obtain rfl := Io.failure_eq_some.mp hfailed
  exact ⟨s, hmain, hlength⟩

/-- Whenever the program ends, it leaves a capture of what its device has given and taken. As long
as no call fails, that is what was written at first, and then round by round what was read and what
was written. -/
theorem capture_file (env : Env) (mac : EthernetAddress) (localIp peerIp : Ipv4AddrBytes)
    {localPort peerPort : UInt16} (isn : Wrap32) (hlocal : localPort ≠ 0) (hpeer : peerPort ≠ 0)
    (hfits : ∀ turn ∈ turns, turn.calm.Fits) (hwritten : writtenIn turns < 2 ^ 63) :
    ∃ result s,
      main env mac (.tcpDemo localIp peerIp localPort peerPort isn) true turns Outside.start
        = .ok (result, s) ∧
      LeavesCapture env .ethernet s ∧
      ∀ m, result = .ok m → CapturesAll env .ethernet s ∧
        ∃ sent0 sents, sents.length = turns.length ∧ s.written = sent0 ++ sents.flatten ∧
          s.traffic = sent0 ++ TapHost.capturedIn (turns.map Turn.calm) sents := by
  obtain ⟨t0, t, hstart, hrun, -, -, -, result, s, hmain, hresult⟩ :=
    main_returns env mac localIp peerIp isn hlocal hpeer true hfits hwritten
  refine ⟨result, s, hmain, ?_, ?_⟩
  · cases result with
    | ok m => exact hresult.steady.leavesCapture
    | error failure => exact hresult.leavesCapture
  · rintro m rfl
    have hat : At env t m s := hresult
    obtain ⟨sent0, sents, hlength, hsent, hpcap⟩ := TapHost.rounds_captured hstart hrun
    obtain ⟨htraffic, hall⟩ := hat.steady.capturesAll hpcap
    exact ⟨hall, sent0, sents, hlength.trans (List.length_map _),
      hat.steady.follows.written.trans hsent, htraffic⟩

/-- The captures of those two runs: that of all frames, and that of the frames up to the error. -/
theorem capture_file_strange :
    (∃ m s, strangeMain .calm Outside.start = .ok (.ok m, s) ∧ CapturesAll .calm .ethernet s ∧
      s.traffic.length = 6) ∧
    ∃ s, strangeMain (.unplugged 34 gone) Outside.start = .ok (.error (.error gone), s) ∧
      LeavesCapture (.unplugged 34 gone) .ethernet s ∧ s.pcap.isSome = true ∧
      s.traffic.length = 5 := by
  have hlocal : (4000 : UInt16) ≠ 0 := by decide
  have hpeer : (80 : UInt16) ≠ 0 := by decide
  constructor
  · obtain ⟨m, s, hcalm, -, hlength⟩ := strangeMain_calm
    obtain ⟨result, s1, hmain, -, hok⟩ :=
      capture_file .calm ⟨2, 0, 0, 0, 0, 1⟩ ⟨10, 0, 0, 1⟩ ⟨10, 0, 0, 2⟩ ⟨7⟩ hlocal hpeer
        strangeTurns_fit (by decide)
    obtain ⟨rfl, rfl⟩ := Prod.mk.inj (Except.ok.inj (hcalm.symm.trans hmain))
    exact ⟨m, s, hcalm, (hok m rfl).1, hlength⟩
  · obtain ⟨s, hgone, -, hlength, hcapture⟩ := strangeMain_gone
    obtain ⟨result, s1, hmain, hleaves, -⟩ :=
      capture_file (.unplugged 34 gone) ⟨2, 0, 0, 0, 0, 1⟩ ⟨10, 0, 0, 1⟩ ⟨10, 0, 0, 2⟩ ⟨7⟩ hlocal
        hpeer strangeTurns_fit (by decide)
    obtain ⟨rfl, rfl⟩ := Prod.mk.inj (Except.ok.inj (hgone.symm.trans hmain))
    exact ⟨s, hgone, hleaves, hcapture, hlength⟩

end TapMain

end Minnow
