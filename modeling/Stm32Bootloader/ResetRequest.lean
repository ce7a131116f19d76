/-
Requests to restart.

The device notes that a restart was asked for and leaves it to its caller.
sim_reset_requested tells whether that was ever so: a well-formed RESET sets
the note, whatever its answer comes to, and only a power cycle clears it.
-/

import Stm32Bootloader.Simulator
import Stm32Bootloader.UpdateRequests

namespace Stm32Bootloader

open Interruptible Framing TransitionRun

def BlFrame.Resets (request : BlFrame) : Prop :=
  request.cmd = blCmdReset ∧ request.len = 0

instance (request : BlFrame) : Decidable request.Resets :=
  inferInstanceAs (Decidable (_ ∧ _))

theorem simResetRequested_iff (sim : Simulator) :
    simResetRequested sim = 1 ↔
      sim.system.session.resetRequested = true := by
  unfold simResetRequested
  split
  · rename_i requested
    exact iff_of_true rfl requested
  · rename_i quiet
    exact iff_of_false (by decide) quiet

/-! ### One step -/

section Steps

variable {port : Port} {request : BlFrame}

theorem blCoreHandleFrame_reset (isReset : request.cmd = blCmdReset)
    (session : BlSession) (responseSize : Nat) :
    blCoreHandleFrame port session request responseSize =
      pure (handleReset session request responseSize) := by
  unfold blCoreHandleFrame
  rw [if_neg fun isHello => BlFrame.cmd_clash isReset isHello,
    if_neg fun isErase => BlFrame.cmd_clash isReset isErase,
    if_neg fun isWrite => BlFrame.cmd_clash isReset isWrite,
    if_neg fun isVerify => BlFrame.cmd_clash isReset isVerify,
    if_neg fun isArm => BlFrame.cmd_clash isReset isArm, if_pos isReset]

theorem RequestCalls.resetRequested {session after : BlSession}
    {flash : Flash} {new : List PortCall} {status : Option BlResult}
    (calls : RequestCalls port session flash request after new status)
    (other : request.cmd ≠ blCmdReset) :
    after.resetRequested = session.resetRequested := by
  cases calls with
  | refused status failed unadmitted => rfl
  | answered isQuery status => rfl
  | reset isReset => exact absurd isReset other
  | erase slot erases slotOk outcome => split <;> rfl
  | write admitted outcome => split <;> rfl
  | arm isArm oneByte validates new commit status => rfl

variable {outcomes : List FlashOutcome}
  (powered : ∀ units, .powerLoss units ∉ outcomes) (system : System)

include powered

theorem request_resetRequested (responseSize : Nat) :
    (systemStep port system
        ⟨.request request responseSize, outcomes⟩).session.resetRequested =
      true ↔ request.Resets ∨ system.session.resetRequested = true := by
  by_cases isReset : request.cmd = blCmdReset
  · unfold systemStep
    dsimp only
    rw [blCoreHandleFrame_reset isReset, Prog.pure_apply]
    unfold System.ended handleReset
    by_cases empty : request.len = 0
    · rw [if_neg (not_not_intro empty)]
      exact iff_of_true rfl (Or.inl ⟨isReset, empty⟩)
    · rw [if_pos empty]
      exact ⟨Or.inr, fun either => either.resolve_left fun resets =>
        empty resets.2⟩
  · obtain ⟨after, new, status, data, device, ran, calls, _log, _flashEq⟩ :=
      @request_powered port system request outcomes powered responseSize
    unfold systemStep
    dsimp only
    rw [ran]
    unfold System.ended
    dsimp only
    rw [calls.resetRequested isReset]
    exact ⟨Or.inr, fun either => either.resolve_left fun resets =>
      isReset resets.1⟩

omit powered in
theorem boot_session (faults : Faults) :
    (systemStep port system ⟨.boot, faults.map .ofFault⟩).session =
      system.session := by
  obtain ⟨after, advanced⟩ := advanceTrialState_returns port system.flash
    faults system.calls
  unfold systemStep System.device
  dsimp only
  rw [blCoreBoot_returned advanced]
  split <;> rfl

omit powered in
theorem blCoreConfirm_completes (port : Port) :
    Completes (blCoreConfirm port) fun _ => True := by
  unfold blCoreConfirm
  refine readFlash_completes.bind fun flash _ => ?_
  split
  · exact .pure trivial
  · exact .ite (.pure trivial) (blMetaCommit_completes port _ _ _)

theorem confirm_session :
    (systemStep port system ⟨.confirm, outcomes⟩).session =
      system.session := by
  obtain ⟨_result, _after, ran, _powered, _trivial⟩ :=
    blCoreConfirm_completes port (system.device outcomes) powered
  unfold systemStep
  dsimp only
  rw [ran]
  rfl

end Steps

/-! ### Runs -/

def SimCall.Resets (receiver : Receiver U8) : SimCall → Prop
  | .feed data _ _ => ∃ frame, (hear receiver data).2 = some frame ∧
      frame.Resets
  | .boot _ => False
  | .confirm _ => False
  | .reboot => False

theorem simStep_resetRequested {port : Port} {sim : Simulator}
    {receiver : Receiver U8} (collects : Collects sim.gParser receiver)
    (call : SimCall) :
    simResetRequested (simStep port sim call) = 1 ↔
      call.Resets receiver ∨
        (simResetRequested sim = 1 ∧ ¬ call = .reboot) := by
  have stepped := (@simStep_steps port sim receiver collects call).2
  rw [simResetRequested_iff, simResetRequested_iff, stepped]
  cases call with
  | feed data responseCapacity faults =>
      have stays : ¬ SimCall.feed data responseCapacity faults = .reboot :=
        nofun
      rw [and_iff_left stays]
      dsimp only [SimCall.steps, SimCall.Resets]
      cases heard : (hear receiver data).2 with
      | none =>
          refine ⟨Or.inr, fun either => either.resolve_left ?_⟩
          rintro ⟨_frame, impossible, _resets⟩
          cases impossible
      | some frame =>
          have noted := @request_resetRequested port frame _
            (powered_faults sim.system.flash faults []) sim.system
            responseCapacity
          refine noted.trans (or_congr_left ⟨fun resets =>
            ⟨frame, rfl, resets⟩, ?_⟩)
          rintro ⟨_frame, same, resets⟩
          cases same
          exact resets
  | boot faults =>
      have kept := @boot_session port sim.system faults
      have same : (run (systemStep port) sim.system
          (SimCall.steps receiver (.boot faults))).session =
            sim.system.session := kept
      rw [same]
      exact ⟨fun noted => Or.inr ⟨noted, nofun⟩, fun either =>
        (either.resolve_left id).1⟩
  | confirm faults =>
      have kept := @confirm_session port _
        (powered_faults sim.system.flash faults []) sim.system
      have same : (run (systemStep port) sim.system
          (SimCall.steps receiver (.confirm faults))).session =
            sim.system.session := kept
      rw [same]
      exact ⟨fun noted => Or.inr ⟨noted, nofun⟩, fun either =>
        (either.resolve_left id).1⟩
  | reboot =>
      refine iff_of_false Bool.false_ne_true ?_
      rintro (impossible | ⟨_noted, stays⟩)
      · exact impossible
      · exact stays rfl

/-- Whatever the device is fed, and however often it boots or is confirmed, it
reports a request to restart exactly if the bytes have completed a RESET since
the last power cycle. -/
theorem simRun_resetRequested (port : Port) (parser : BlFrameParser)
    (calls : List SimCall) :
    simResetRequested (run (simStep port) (simInit parser) calls) = 1 ↔
      ∃ earlier call later, calls = earlier ++ call :: later ∧
        call.Resets (simHears none earlier) ∧ .reboot ∉ later := by
  have quiet : ¬ simResetRequested (simInit parser) = 1 :=
    show ¬ (0 : U32) = 1 by decide
  have latched := @latched_iff SimCall
    (fun calls => simResetRequested
      (run (simStep port) (simInit parser) calls) = 1)
    (fun earlier call => call.Resets (simHears none earlier))
    (fun call => call = .reboot) quiet (fun earlier call => by
      have start : Collects (simInit parser).gParser none := rfl
      have collected := (@simRun_steps port _ _ start earlier).1
      rw [run_snoc]
      exact simStep_resetRequested collected call) calls
  rw [latched]
  simp only [List.forall_mem_ne']

end Stm32Bootloader
