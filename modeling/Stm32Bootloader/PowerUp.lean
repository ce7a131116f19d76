/-
Boots of the simulated device, each after a power cycle.

sim_boot returns the address that control was transferred to, or zero.  A
device that is powered up again and again on flash that works therefore shows
which image runs: the one on trial for the boots it is granted, then the one
it reverts to, or for good the one that has confirmed itself.
-/

import Stm32Bootloader.HostJump
import Stm32Bootloader.Simulator
import Stm32Bootloader.Trial

namespace Stm32Bootloader

open HostJump Memory TransitionRun

/-! ### One boot -/

/-- The jump that a boot of this flash records, if it records one. -/
def jumpAfter (flash : Flash) (jump : HostJump) : HostJump :=
  match blCoreSelectSlot hostLayout flash with
  | .ok (slot, hdr) =>
      if Startable flash slot hdr then ⟨true, appBase hostLayout slot hdr⟩
      else jump
  | .error _ => jump

/-- Whichever flash calls fail, a boot records the jump into the image that is
selected in the end, and only its own vector table can prevent that. -/
theorem simBoot_jumps (faults : Faults) (sim : Simulator) :
    ∃ new, TrialCalls hostPort sim.system.flash new ∧
      (simBoot hostPort faults sim).1.system.flash =
        replay hostPort sim.system.flash new ∧
      (simBoot hostPort faults sim).1.jump =
        jumpAfter (simBoot hostPort faults sim).1.system.flash sim.jump := by
  obtain ⟨new, calls, log, flashEq⟩ :=
    advanceTrialState_calls hostPort (sim.device faults)
  obtain ⟨after, advanced⟩ := advanceTrialState_returns hostPort
    sim.system.flash faults sim.system.calls
  change advanceTrialState hostPort (sim.device faults) = _ at advanced
  rw [advanced] at log flashEq
  have logged : after.calls = sim.system.calls ++ new := log
  have quiet := calls.jumpTargets
  refine ⟨new, calls, ?_⟩
  unfold simBoot jumpAfter
  dsimp only
  rw [blCoreBoot_returned advanced]
  unfold bootTarget
  cases selected : blCoreSelectSlot hostPort.layout after.flash with
  | error result =>
      refine ⟨flashEq, ?_⟩
      simp only [System.ended, logged, List.drop_left, quiet,
        List.foldl_nil]
      change blCoreSelectSlot hostLayout after.flash = _ at selected
      rw [selected]
  | ok choice =>
      obtain ⟨slot, hdr⟩ := choice
      refine ⟨flashEq, ?_⟩
      have accepted := blCoreSelectSlot_validates selected
      simp only [System.ended, logged, List.append_assoc, List.drop_left,
        jumpTargets_append, quiet, List.nil_append]
      change blCoreSelectSlot hostLayout after.flash = _ at selected
      change HostJump.blJumpToApp after.flash (appBase hostLayout slot hdr)
        sim.jump = _
      rw [selected]
      exact blJumpToApp_validated accepted sim.jump

/-! ### Power-ups -/

/-- Where the image in a slot starts, or zero if it cannot be started. -/
def entryOf (flash : Flash) (slot : U8) (hdr : BlImgHdr) : U32 :=
  if Startable flash slot hdr then appBase hostLayout slot hdr else 0

/-- Where a boot of this flash lands after a power cycle, or zero. -/
def landing (flash : Flash) : U32 :=
  match blCoreSelectSlot hostLayout flash with
  | .ok (slot, hdr) => entryOf flash slot hdr
  | .error _ => 0

/-- A power cycle and a boot: the device and the address that is returned. -/
def powerUp (sim : Simulator) : Simulator × U32 :=
  simBoot hostPort [] (simReboot sim)

def powerUps : Nat → Simulator → Simulator × List U32
  | 0, sim => (sim, [])
  | count + 1, sim =>
      let (sim, address) := powerUp sim
      let (sim, later) := powerUps count sim
      (sim, address :: later)

theorem powerUp_lands (sim : Simulator) :
    (powerUp sim).1.system.flash = afterTrial hostPort sim.system.flash ∧
      (powerUp sim).2 = landing (afterTrial hostPort sim.system.flash) := by
  have flashEq : (powerUp sim).1.system.flash =
      afterTrial hostPort sim.system.flash := by
    obtain ⟨result, new, _targets, ran⟩ :=
      blCoreBoot_faultFree hostPort sim.system.flash sim.system.calls
    unfold powerUp simBoot
    change (System.ended _ (blCoreBoot hostPort
      ⟨sim.system.flash, [], sim.system.calls⟩)).flash = _
    rw [ran]
    rfl
  refine ⟨flashEq, ?_⟩
  obtain ⟨new, calls, _replayed, jumped⟩ := simBoot_jumps [] (simReboot sim)
  change (powerUp sim).1.jump =
    jumpAfter (powerUp sim).1.system.flash .blPortInit at jumped
  change (if (powerUp sim).1.jump.gJumped then
    (powerUp sim).1.jump.gJumpTarget else 0) = _
  rw [jumped, flashEq]
  unfold jumpAfter landing entryOf
  split
  · rename_i slot hdr _selected
    by_cases starts : Startable (afterTrial hostPort sim.system.flash) slot hdr
    · rw [if_pos starts, if_pos starts]
      rfl
    · rw [if_neg starts, if_neg starts]
      rfl
  · rfl

theorem powerUps_land (count : Nat) (sim : Simulator) :
    (powerUps count sim).1.system.flash =
        run (afterCall hostPort) sim.system.flash
          (List.replicate count .boot) ∧
      (powerUps count sim).2 = (List.range count).map fun index =>
        landing (run (afterCall hostPort) sim.system.flash
          (List.replicate (index + 1) .boot)) := by
  induction count generalizing sim with
  | zero => exact ⟨rfl, rfl⟩
  | succ count ih =>
      obtain ⟨flashEq, address⟩ := powerUp_lands sim
      obtain ⟨laterFlash, laterAddresses⟩ := ih (powerUp sim).1
      rw [flashEq] at laterFlash laterAddresses
      refine ⟨laterFlash, ?_⟩
      change (powerUp sim).2 :: (powerUps count (powerUp sim).1).2 = _
      rw [address, laterAddresses, List.range_succ_eq_map, List.map_cons,
        List.map_map]
      rfl

/-! ### The life of an image -/

theorem ValidImage.base {flash : Flash} {slot : U8} {hdr : BlImgHdr}
    (image : ValidImage hostLayout flash slot hdr) :
    (appBase hostLayout slot hdr).toNat =
      (hostLayout.slot slot).base.toNat + hdr.entryOffset.toNat := by
  have fits := hostPort.slotFits slot image.slotOk
  have upper := image.entryUpper
  change (hostLayout.slot slot).base.toNat +
    (hostLayout.slot slot).size.toNat ≤ 2 ^ 32 at fits
  unfold appBase
  bv_omega

theorem entryOf_congr {before after : Flash} {slot : U8} {hdr : BlImgHdr}
    (accepted : blCoreValidateSlot hostLayout before slot = .ok hdr)
    (same : slotBytes hostLayout after slot =
      slotBytes hostLayout before slot) :
    entryOf after slot hdr = entryOf before slot hdr := by
  have image : ValidImage hostLayout before slot hdr :=
    (blCoreValidateSlot_ok_iff hostPort).mp accepted
  have table : load after (appBase hostLayout slot hdr).toNat 8 =
      load before (appBase hostLayout slot hdr).toNat 8 := by
    have size : (hostLayout.slot slot).size.toNat = 512 * 216 := by
      rcases slotIsValid_cases image.slotOk with rfl | rfl <;> rfl
    have aligned := entryAligned_iff.mp image.entryAligned
    have upper := image.entryUpper
    rw [image.base]
    exact load_of_slotBytes same _ _ (by omega)
  have starts : Startable after slot hdr ↔ Startable before slot hdr := by
    unfold Startable
    dsimp only
    rw [table]
  exact if_congr starts rfl rfl

theorem callRun_slotBytes (flash : Flash) (steps : List AppCall) {slot : U8}
    (valid : slotIsValid slot = true) :
    slotBytes hostLayout (run (afterCall hostPort) flash steps) slot =
      slotBytes hostLayout flash slot := by
  refine run_invariant
    (fun reached => slotBytes hostLayout reached slot =
      slotBytes hostLayout flash slot) rfl (fun reached call same => ?_) steps
  refine Eq.trans ?_ same
  cases call with
  | boot =>
      unfold afterCall afterTrial
      dsimp only
      split
      · rfl
      · exact @CommitCalls.slotBytes hostPort _ _ _ _ _ (.written .success) _ valid
  | confirm =>
      unfold afterCall afterConfirm
      dsimp only
      split
      · exact @CommitCalls.slotBytes hostPort _ _ _ _ _ (.written .success) _ valid
      · rfl

theorem landing_nominated {flash : Flash} {slot : U8} {hdr : BlImgHdr}
    {attempts : Nat}
    (nominated : nominationOf hostLayout flash = .trial slot attempts ∨
      nominationOf hostLayout flash = .confirmed slot attempts)
    (accepted : blCoreValidateSlot hostLayout flash slot = .ok hdr) :
    landing flash = entryOf flash slot hdr := by
  have read : ∃ record, blMetaRead hostLayout flash = .ok record ∧
      record.activeSlot = slot := by
    rcases nominated with trial | confirmed
    · exact nominationOf_trial_read trial
    · obtain ⟨record, read, slotEq, _fields⟩ :=
        nominationOf_confirmed confirmed
      exact ⟨record, read, slotEq⟩
  obtain ⟨record, read, rfl⟩ := read
  unfold landing
  rw [blCoreSelectSlot_nominated read accepted]

/-- Where boots land once the attempts of a trial are used up. -/
def rollbackEntry (flash : Flash) (slot : U8) (hdr : BlImgHdr) : U32 :=
  match blCoreValidateSlot hostLayout flash (otherSlot slot) with
  | .ok otherHdr => entryOf flash (otherSlot slot) otherHdr
  | .error _ => entryOf flash slot hdr

/-- What a device shows that is powered up again and again while an image is
on trial, and after that image has confirmed itself. -/
structure TrialLife (sim : Simulator) (granted : Nat) (own fallback : U32)
    (sole : Prop) : Prop where
  trial : ∀ count, (powerUps count sim).2 =
    (List.range count).map fun index =>
      if index < granted then own else fallback
  confirmed : ∀ count, count ≤ granted ∨ sole → ∀ later,
    (powerUps later (simConfirm hostPort [] (powerUps count sim).1)).2 =
      List.replicate later own

section TrialLife

variable {sim : Simulator} {record : BlMeta} {hdr : BlImgHdr}
  (read : blMetaRead hostLayout sim.system.flash = .ok record)
  (trial : record.state = blBootTrial)
  (room : record.seq.toNat ≤ 2 ^ 32 - 6)
  (accepted : blCoreValidateSlot hostLayout sim.system.flash
    record.activeSlot = .ok hdr)

include read trial room accepted

theorem trial_landings (count : Nat) :
    (powerUps count sim).2 = (List.range count).map fun index =>
      if index < 3 - record.bootAttempts.toNat then
        entryOf sim.system.flash record.activeSlot hdr
      else rollbackEntry sim.system.flash record.activeSlot hdr := by
  rw [(powerUps_land count sim).2]
  refine List.map_congr_left fun index _inside => ?_
  have nomination :=
    @trial_nomination hostPort _ _ read trial room (index + 1)
  rw [bootRun_flash] at nomination
  change nominationOf hostLayout _ = _ at nomination
  have kept : ∀ slot, blCoreValidateSlot hostLayout
      (run (afterCall hostPort) sim.system.flash
        (List.replicate (index + 1) .boot)) slot =
        blCoreValidateSlot hostLayout sim.system.flash slot :=
    callRun_validate hostPort _ _
  have bytes := callRun_slotBytes sim.system.flash
    (List.replicate (index + 1) .boot)
      (blCoreValidateSlot_valid accepted)
  have bytes' := callRun_slotBytes sim.system.flash
    (List.replicate (index + 1) .boot) (otherSlot_valid record.activeSlot)
  generalize run (afterCall hostPort) sim.system.flash
    (List.replicate (index + 1) .boot) = reached
    at nomination kept bytes bytes' ⊢
  have own : blCoreValidateSlot hostLayout reached record.activeSlot =
      .ok hdr := (kept _).trans accepted
  unfold rollbackEntry
  by_cases granted : index + 1 ≤ 3 - record.bootAttempts.toNat
  · rw [if_pos granted] at nomination
    rw [if_pos (by omega), landing_nominated (Or.inl nomination) own,
      entryOf_congr accepted bytes]
  · rw [if_neg granted] at nomination
    rw [if_neg (by omega)]
    cases verdict : blCoreValidateSlot hostLayout sim.system.flash
        (otherSlot record.activeSlot) with
    | ok otherHdr =>
        rw [if_pos ⟨otherHdr, verdict⟩] at nomination
        rw [landing_nominated (Or.inr nomination) ((kept _).trans verdict)]
        exact entryOf_congr verdict bytes'
    | error result =>
        have refused : ¬ Validates hostPort.layout sim.system.flash
            (otherSlot record.activeSlot) :=
          not_validates_iff.mpr ⟨result, verdict⟩
        rw [if_neg refused] at nomination
        rw [landing_nominated (Or.inl nomination) own]
        exact entryOf_congr accepted bytes

theorem confirmed_landings (count : Nat)
    (unreverted : count ≤ 3 - record.bootAttempts.toNat ∨
      ¬ Validates hostLayout sim.system.flash (otherSlot record.activeSlot))
    (later : Nat) :
    (powerUps later (simConfirm hostPort [] (powerUps count sim).1)).2 =
      List.replicate later
        (entryOf sim.system.flash record.activeSlot hdr) := by
  have reachedFlash := (powerUps_land count sim).1
  have here := @bootRun_nomination hostPort _
    (trial_seqRoom read trial room) count
  have onTrial : ∃ attempts, nominationOf hostPort.layout
      (run (afterCall hostPort) sim.system.flash
        (List.replicate count .boot)) =
          .trial record.activeSlot attempts := by
    have nomination := @trial_nomination hostPort _ _ read trial room count
    rw [bootRun_flash] at nomination
    rw [nomination]
    rcases unreverted with granted | damaged
    · exact ⟨_, if_pos granted⟩
    · have refused : ¬ Validates hostPort.layout sim.system.flash
          (otherSlot record.activeSlot) := damaged
      rw [if_neg refused]
      split
      · exact ⟨_, rfl⟩
      · exact ⟨_, rfl⟩
  obtain ⟨attempts, onTrial⟩ := onTrial
  have settled := afterConfirm_nomination here.1
  rw [onTrial, Nomination.confirm] at settled
  have bytes := callRun_slotBytes sim.system.flash
    (List.replicate count .boot ++ [.confirm])
      (blCoreValidateSlot_valid accepted)
  have own := callRun_validate hostPort sim.system.flash
    (List.replicate count .boot ++ [.confirm]) record.activeSlot
  rw [run_snoc] at bytes own
  change slotBytes hostLayout (afterConfirm hostPort _) _ = _ at bytes
  change blCoreValidateSlot hostLayout (afterConfirm hostPort _) _ =
    blCoreValidateSlot hostLayout _ _ at own
  have confirmedFlash :
      (simConfirm hostPort [] (powerUps count sim).1).system.flash =
        afterConfirm hostPort (run (afterCall hostPort) sim.system.flash
          (List.replicate count .boot)) := by
    obtain ⟨_result, new, _quiet, ran, _accepted⟩ :=
      blCoreConfirm_faultFree hostPort (powerUps count sim).1.system.flash
        (powerUps count sim).1.system.calls
    unfold simConfirm
    change (System.ended _ (blCoreConfirm hostPort
      ⟨(powerUps count sim).1.system.flash, [], _⟩)).flash = _
    rw [ran, ← reachedFlash]
    rfl
  rw [(powerUps_land later _).2, confirmedFlash]
  generalize afterConfirm hostPort (run (afterCall hostPort)
    sim.system.flash (List.replicate count .boot)) = reached
    at settled bytes own ⊢
  have lands : landing reached =
      entryOf sim.system.flash record.activeSlot hdr := by
    rw [landing_nominated (Or.inr settled) (own.trans accepted)]
    exact entryOf_congr accepted bytes
  rw [List.eq_replicate_iff]
  refine ⟨by rw [List.length_map, List.length_range], fun address shown => ?_⟩
  obtain ⟨index, _inside, rfl⟩ := List.mem_map.mp shown
  have settled' : (nominationOf hostPort.layout reached).Settled := by
    rw [settled]
    trivial
  rw [settled_run settled', lands]

theorem trial_life :
    TrialLife sim (3 - record.bootAttempts.toNat)
      (entryOf sim.system.flash record.activeSlot hdr)
      (rollbackEntry sim.system.flash record.activeSlot hdr)
      (¬ Validates hostLayout sim.system.flash
        (otherSlot record.activeSlot)) where
  trial := trial_landings read trial room accepted
  confirmed count unreverted :=
    confirmed_landings read trial room accepted count unreverted

end TrialLife

end Stm32Bootloader
