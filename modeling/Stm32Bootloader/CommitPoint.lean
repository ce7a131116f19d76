/-
The header write is the commit point of an update.

From a successful erase until the header is written, the first granule of the
slot reads as erased flash, whatever else happens: other writes start at a
higher granule, the session that knew of the erase may be gone, and the other
slot may be updated in between.
-/

import Stm32Bootloader.Containment
import Stm32Bootloader.Refusal

namespace Stm32Bootloader

open Interruptible TransitionRun LittleEndian

/-- The first granule of the slot reads as erased flash. -/
def Unwritten (layout : BlLayout) (flash : Flash) (slot : U8) : Prop :=
  ∀ index, index < 8 →
    flash ((layout.slot slot).base.toNat + index) = 0xFF

/-- A WRITE at offset zero that is meant for this slot. -/
def Op.WritesHeader (op : Op) (session : BlSession) (slot : U8) : Prop :=
  match op with
  | .request frame _ =>
      frame.cmd = blCmdWrite ∧ frame.writeOffset = 0 ∧ session.Opened slot
  | _ => False

/-- Every WRITE at offset zero of the slot is answered with an error. -/
def HeaderRefused (port : Port) (slot : U8) (system : System)
    (step : Step) : Prop :=
  step.op.WritesHeader system.session slot → Refused port system step

section Steps

variable {port : Port} {slot : U8} (slotOk : slotIsValid slot = true)

include slotOk

theorem Unwritten.congr {before after : Flash}
    (unwritten : Unwritten port.layout before slot)
    (same : slotBytes port.layout after slot =
      slotBytes port.layout before slot) :
    Unwritten port.layout after slot := by
  intro index inside
  have room := port.slotHoldsImage slot slotOk
  rw [slotBytes_at same ⟨Nat.le_add_right _ _, by omega⟩]
  exact unwritten index inside

omit slotOk in
theorem Unwritten.erase {flash : Flash}
    (unwritten : Unwritten port.layout flash slot) (other : U8)
    (outcome : FlashOutcome) :
    Unwritten port.layout ((eraseCall port other outcome).apply port flash)
      slot := by
  intro index inside
  rw [eraseCall, apply_erase]
  unfold Memory.fill
  split
  · rfl
  · exact unwritten index inside

theorem Unwritten.write {session : BlSession} {request : BlFrame}
    {flash : Flash} (unwritten : Unwritten port.layout flash slot)
    (admitted : WriteAdmitted port session request)
    (targetOk : slotIsValid session.targetSlot = true)
    (elsewhere : request.writeOffset = 0 → session.targetSlot ≠ slot)
    (outcome : FlashOutcome) :
    Unwritten port.layout
      ((writeCall port session request outcome).apply port flash) slot := by
  intro index inside
  rw [← unwritten index inside]
  have within := admitted.inside
  have aligned := admitted.offsetAligned
  have room := port.slotHoldsImage slot slotOk
  apply writeCall_agreesOutside admitted targetOk flash outcome
  by_cases target : session.targetSlot = slot
  · have nonzero : request.writeOffset ≠ 0 :=
      fun zero => elsewhere zero target
    rw [target]
    bv_omega
  · have apart := port.slots_apart slotOk targetOk target
    unfold BlRegion.Apart Memory.Apart at apart
    have region : blImgHdrRegion.toNat = 512 := rfl
    omega

theorem RequestCalls.unwritten {session after : BlSession} {flash : Flash}
    {request : BlFrame} {new : List PortCall} {status : Option BlResult}
    (calls : RequestCalls port session flash request after new status)
    (targetOk : slotIsValid session.targetSlot = true)
    (unwritten : Unwritten port.layout flash slot)
    (refused : request.cmd = blCmdWrite → request.writeOffset = 0 →
      session.Opened slot → ∃ error, status = some error ∧ error ≠ .ok) :
    Unwritten port.layout (replay port flash new) slot := by
  cases calls with
  | refused status failed unadmitted => exact unwritten
  | answered isQuery status => exact unwritten
  | reset isReset => exact unwritten
  | erase other erases otherOk outcome => exact unwritten.erase other outcome
  | write admitted outcome =>
      by_cases header : request.writeOffset = 0 ∧ session.targetSlot = slot
      · obtain ⟨status, answered, failed⟩ := refused admitted.isWrite
          header.1 ⟨admitted.erased, header.2⟩
        cases outcome with
        | success => exact absurd (Option.some.inj answered).symm failed
        | failure error =>
            have same : replay port flash
                [writeCall port session request (.failure error)] = flash :=
              apply_write_failure port flash _ _ error
            rw [same]
            exact unwritten
        | powerLoss units => cases answered
      · exact unwritten.write slotOk admitted targetOk
          (fun zero target => header ⟨zero, target⟩) outcome
  | arm isArm oneByte validates new commit status =>
      exact unwritten.congr slotOk (commit.slotBytes slotOk)

theorem systemStep_unwritten {system : System} {step : Step}
    (targetOk : slotIsValid system.session.targetSlot = true)
    (unwritten : Unwritten port.layout system.flash slot)
    (refused : HeaderRefused port slot system step) :
    Unwritten port.layout (systemStep port system step).flash slot := by
  obtain ⟨op, outcomes⟩ := step
  by_cases header : op.WritesHeader system.session slot
  · cases op with
    | request frame responseSize =>
        obtain ⟨code, answered, failed⟩ := refused header
        obtain ⟨new, status, codeEq, calls, _log, flashEq⟩ :=
          request_answered answered
        rw [flashEq]
        exact calls.unwritten slotOk targetOk unwritten fun _ _ _ =>
          ⟨status, rfl, fun isOk => failed (by rw [← codeEq, isOk])⟩
    | boot => exact absurd header id
    | confirm => exact absurd header id
    | powerCycle => exact absurd header id
  · obtain ⟨session, new, made, calls⟩ :=
      systemStep_made port system ⟨op, outcomes⟩
    rw [made]
    cases calls with
    | request frame responseSize after new status calls =>
        exact calls.unwritten slotOk targetOk unwritten
          fun isWrite zero opened => absurd ⟨isWrite, zero, opened⟩ header
    | cutOff frame responseSize after new calls =>
        exact calls.unwritten slotOk targetOk unwritten
          fun isWrite zero opened => absurd ⟨isWrite, zero, opened⟩ header
    | boot session kept new trial jump =>
        exact unwritten.congr slotOk ((trial.aside jump).slotBytes slotOk)
    | confirm session kept new calls =>
        exact unwritten.congr slotOk (calls.aside.slotBytes slotOk)
    | powerCycle => exact unwritten

end Steps

/-! ### What an unwritten header means -/

theorem blCoreValidateSlot_unwritten {port : Port} {flash : Flash}
    {slot : U8} (slotOk : slotIsValid slot = true)
    (unwritten : Unwritten port.layout flash slot) :
    blCoreValidateSlot port.layout flash slot = .error .errMagic := by
  have header : Memory.load flash (port.layout.slot slot).base.toNat 40 =
      List.replicate 4 0xFF ++
        Memory.load flash ((port.layout.slot slot).base.toNat + 4) 36 := by
    rw [Memory.load_add flash _ 4 36]
    refine congrArg (· ++ _) ?_
    rw [List.eq_replicate_iff]
    refine ⟨Memory.load_length _ _ _, fun byte member => ?_⟩
    obtain ⟨index, inside, rfl⟩ := List.mem_map.mp member
    have bound := List.mem_range.mp inside
    exact unwritten index (by omega)
  unfold blCoreValidateSlot
  rw [if_neg (not_not_intro slotOk)]
  simp only [blFlashRead, BlImgHdr.byteSize]
  rw [header]
  refine if_pos fun same => ?_
  have magic : word32 0xFF 0xFF 0xFF 0xFF = blImgMagic := same
  exact absurd magic (by decide)

theorem blCoreHandleFrame_arm_refused {port : Port} {session : BlSession}
    {request : BlFrame} {slot : U8} {device : Device} {result : BlResult}
    (arms : request.Arms slot) (slotOk : slotIsValid slot = true)
    (invalid : blCoreValidateSlot port.layout device.flash slot =
      .error result) (responseSize : Nat) :
    blCoreHandleFrame port session request responseSize device =
      .returned (session, respond request.cmd result [] responseSize)
        device := by
  have marked : blCoreMarkPending port slot device =
      .returned result device := by
    unfold blCoreMarkPending
    rw [if_neg (not_not_intro slotOk), readFlash_bind, invalid]
    rfl
  rw [blCoreHandleFrame_arms arms, Prog.bind_returned marked]
  rfl

theorem boot_jumps (port : Port) (system : System)
    (outcomes : List FlashOutcome) :
    ∃ new, (systemStep port system ⟨.boot, outcomes⟩).calls =
        system.calls ++ new ∧
      ∀ address, address ∈ jumpTargets new → ∃ slot hdr,
        blCoreValidateSlot port.layout system.flash slot = .ok hdr ∧
        address = appBase port.layout slot hdr := by
  obtain ⟨new, trial, log, flashEq⟩ :=
    advanceTrialState_calls port (system.device outcomes)
  unfold systemStep
  dsimp only
  cases advanced : advanceTrialState port (system.device outcomes) with
  | lost device' =>
      rw [advanced] at log
      rw [blCoreBoot_lost advanced]
      refine ⟨new, log, fun address member => ?_⟩
      rw [trial.jumpTargets] at member
      cases member
  | returned _ device' =>
      rw [advanced] at log flashEq
      have logEq : device'.calls = system.calls ++ new := log
      have flashAfter : device'.flash = replay port system.flash new :=
        flashEq
      rw [blCoreBoot_returned advanced]
      unfold bootTarget
      cases selection : blCoreSelectSlot port.layout device'.flash with
      | error result =>
          refine ⟨new, logEq, fun address member => ?_⟩
          rw [trial.jumpTargets] at member
          cases member
      | ok selected =>
          obtain ⟨slot, hdr⟩ := selected
          have accepted := blCoreSelectSlot_validates selection
          refine ⟨new ++ [.jump (appBase port.layout slot hdr)], ?_,
            fun address member => ?_⟩
          · simp only [System.ended, logEq, List.append_assoc]
          · rw [jumpTargets_append, trial.jumpTargets] at member
            refine ⟨slot, hdr, ?_, List.mem_singleton.mp member⟩
            rw [flashAfter] at accepted
            exact (trial.validate slot).symm.trans accepted

theorem appBase_held {port : Port} {flash : Flash} {slot : U8}
    {hdr : BlImgHdr}
    (accepted : blCoreValidateSlot port.layout flash slot = .ok hdr) :
    (port.layout.slot slot).Holds (appBase port.layout slot hdr).toNat := by
  have image := (blCoreValidateSlot_ok_iff port).mp accepted
  have fits := port.slotFits slot image.slotOk
  have upper := image.entryUpper
  unfold appBase BlRegion.Holds
  bv_omega

/-- From an erase that is answered with OK until a WRITE at offset zero of
the slot is, the slot holds no image, cannot be armed and is not booted. -/
theorem headerWrite_commits (port : Port) (flash : Flash)
    (earlier later : List Step) (erase : BlFrame) (slot : U8)
    (responseSize : Nat) (outcomes : List FlashOutcome)
    (erases : erase.Erases slot)
    (erased : answer port
        (run (systemStep port) (System.initial flash) earlier)
        ⟨.request erase responseSize, outcomes⟩ = some BlResult.ok.code)
    (uncommitted : AllAlong (systemStep port) (HeaderRefused port slot)
      (systemStep port (run (systemStep port) (System.initial flash) earlier)
        ⟨.request erase responseSize, outcomes⟩) later) :
    let reached := run (systemStep port) (System.initial flash)
      (earlier ++ ⟨.request erase responseSize, outcomes⟩ :: later)
    blCoreValidateSlot port.layout reached.flash slot = .error .errMagic ∧
    (∀ (arm : BlFrame) size outcomes, arm.Arms slot →
      systemStep port reached ⟨.request arm size, outcomes⟩ = reached ∧
      (9 ≤ size → answer port reached ⟨.request arm size, outcomes⟩ =
        some BlResult.errMagic.code)) ∧
    ∀ outcomes, ∃ new, (systemStep port reached ⟨.boot, outcomes⟩).calls =
        reached.calls ++ new ∧
      ∀ address, address ∈ jumpTargets new →
        ¬ (port.layout.slot slot).Holds address.toNat := by
  intro reached
  obtain ⟨slotOk, session, _log, flashEq⟩ := erase_answered_ok erases erased
  have start : Unwritten port.layout
      (systemStep port (run (systemStep port) (System.initial flash) earlier)
        ⟨.request erase responseSize, outcomes⟩).flash slot := by
    intro index inside
    have room := port.slotHoldsImage slot slotOk
    rw [flashEq, eraseCall, apply_erase, FlashOutcome.extent_success]
    exact Memory.fill_inside _ _ _ _ _ (Nat.le_add_right _ _) (by omega)
  have invariant := uncommitted.invariant
    (fun system => slotIsValid system.session.targetSlot = true ∧
      Unwritten port.layout system.flash slot)
    ⟨systemStep_targetOk port _ _ (targetOk_run port flash earlier), start⟩
    (fun system step holds refused =>
      ⟨systemStep_targetOk port system step holds.1,
        systemStep_unwritten slotOk holds.1 holds.2 refused⟩)
  have reachedEq : reached = run (systemStep port) (systemStep port
      (run (systemStep port) (System.initial flash) earlier)
        ⟨.request erase responseSize, outcomes⟩) later := by
    rw [← run_cons, ← run_append]
  rw [← reachedEq] at invariant
  have invalid := blCoreValidateSlot_unwritten slotOk invariant.2
  refine ⟨invalid, fun arm size outcomes arms => ?_,
    fun outcomes => ?_⟩
  · have ran := fun device (same : device.flash = reached.flash) =>
      @blCoreHandleFrame_arm_refused port reached.session arm slot device _
        arms slotOk (by rw [same]; exact invalid) size
    refine ⟨?_, fun room => ?_⟩
    · unfold systemStep
      dsimp only
      rw [ran _ rfl]
      rfl
    · unfold answer
      dsimp only
      rw [ran _ rfl]
      exact respond_answered arm.cmd .errMagic (Nat.zero_le _) room
  · obtain ⟨new, log, jumps⟩ := boot_jumps port reached outcomes
    refine ⟨new, log, fun address member inside => ?_⟩
    obtain ⟨other, hdr, accepted, rfl⟩ := jumps address member
    have held := appBase_held accepted
    have otherOk := blCoreValidateSlot_valid accepted
    by_cases same : other = slot
    · rw [same, invalid] at accepted
      cases accepted
    · have apart := port.slots_apart slotOk otherOk same
      unfold BlRegion.Apart Memory.Apart at apart
      unfold BlRegion.Holds at held inside
      omega

/-- An erase, payload, a power cycle and another erase. -/
theorem headerWrite_commits_erased :
    blCoreValidateSlot hostLayout
      (run (systemStep hostPort) (System.initial fun _ => 0)
        ([] ++ ⟨.request (eraseRequest blSlotB) 64, []⟩ ::
          [⟨.request (writeRequest 512 (List.replicate 8 1) (by decide)) 64,
              []⟩,
            ⟨.powerCycle, []⟩,
            ⟨.request (eraseRequest blSlotA) 64, []⟩])).flash blSlotB =
      .error .errMagic := by
  refine (headerWrite_commits hostPort (fun _ => 0) []
    [⟨.request (writeRequest 512 (List.replicate 8 1) (by decide)) 64, []⟩,
      ⟨.powerCycle, []⟩, ⟨.request (eraseRequest blSlotA) 64, []⟩]
    (eraseRequest blSlotB) blSlotB 64 [] (eraseRequest_erases blSlotB)
    (by decide +kernel)
    (AllAlong.of_forall fun state next member => ?_)).1
  intro header
  simp only [List.mem_cons, List.not_mem_nil, or_false] at member
  rcases member with rfl | rfl | rfl
  · have zero : (writeRequest 512 (List.replicate 8 1)
        (by decide)).writeOffset = 0 := header.2.1
    rw [writeRequest_offset] at zero
    exact absurd zero (by decide)
  · exact absurd header id
  · have isWrite : blCmdEraseSlot = blCmdWrite := header.1
    exact absurd isWrite (by decide)

end Stm32Bootloader
