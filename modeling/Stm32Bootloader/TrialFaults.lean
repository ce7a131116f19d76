/-
Trial boots on flash that fails and with power that is lost.

A boot whose commit is not carried out leaves the nomination as it was.  One
that is carried out advances it, even if the power is lost right after.  So
after any boots the nomination has been advanced some number of times, and
only boots that were disturbed are missing from that number.
-/

import Stm32Bootloader.System
import Stm32Bootloader.Trial

namespace Stm32Bootloader

open Interruptible TransitionRun

/-! ### Disturbed boots -/

/-- Neither the host nor the application takes part. -/
def Op.Unattended : Op → Prop
  | .request frame _ => frame.cmd ≠ blCmdEraseSlot ∧
      frame.cmd ≠ blCmdWrite ∧ frame.cmd ≠ blCmdSetActive
  | .boot => True
  | .confirm => False
  | .powerCycle => True

def Step.isBoot (step : Step) : Bool :=
  match step.op with
  | .boot => true
  | _ => false

/-- A boot some of whose flash calls may not succeed. -/
def Step.isFaulty (step : Step) : Bool :=
  step.isBoot && step.outcomes.any fun outcome => outcome ≠ .success

/-- A boot during which the power may be lost. -/
def Step.isCut (step : Step) : Bool :=
  step.isBoot && step.outcomes.any fun outcome =>
    match outcome with
    | .powerLoss _ => true
    | _ => false

/-! ### The commit of a boot -/

section Commit

variable {port : Port} {flash : Flash} {new : List PortCall}

theorem nominationOf_congr {layout : BlLayout} {before after : Flash}
    (same : blMetaRead layout after = blMetaRead layout before) :
    nominationOf layout after = nominationOf layout before := by
  unfold nominationOf
  rw [same]

theorem SeqRoom.congr {layout : BlLayout} {before after : Flash}
    (room : SeqRoom layout before)
    (same : blMetaRead layout after = blMetaRead layout before) :
    SeqRoom layout after := by
  intro record read
  rw [nominationOf_congr same]
  exact room record (same.symm.trans read)

theorem trialCommit_pending {layout : BlLayout} {slot state attempts : U8}
    (plan : trialCommit layout flash = some (slot, state, attempts)) :
    0 < (nominationOf layout flash).pending := by
  unfold trialCommit at plan
  split at plan
  · cases plan
  · rename_i record read
    split at plan
    · cases plan
    · rename_i onTrial
      rw [nominationOf_trial read (Decidable.not_not.mp onTrial)]
      exact Nat.succ_pos _

theorem TrialCalls.nomination (calls : TrialCalls port flash new)
    (room : SeqRoom port.layout flash) :
    SeqRoom port.layout (replay port flash new) ∧
      (nominationOf port.layout (replay port flash new) =
          nominationOf port.layout flash ∨
        nominationOf port.layout (replay port flash new) =
          (nominationOf port.layout flash).boot
            (Validates port.layout flash)) := by
  rcases calls with ⟨_none, rfl⟩ | ⟨slot, state, attempts, plan, commit⟩
  · exact ⟨room, Or.inl rfl⟩
  rcases commit.read with same | ⟨found, read, fields⟩
  · exact ⟨room.congr same, Or.inl (nominationOf_congr same)⟩
  have valid := trialCommit_valid plan
  have complete : afterTrial port flash =
      committed port flash slot state attempts := by
    unfold afterTrial
    rw [plan]
  have unexhausted : ∀ held, blMetaRead port.layout flash = .ok held →
      held.seq ≠ 0xFFFFFFFF := by
    rintro held heldRead last
    have bound := room held heldRead
    have pending := trialCommit_pending plan
    rw [last] at bound
    have top : (0xFFFFFFFF : U32).toNat = 2 ^ 32 - 1 := rfl
    omega
  have committedRead := @committed_read port flash slot state attempts
    valid.1 valid.2 unexhausted
  obtain ⟨seqEq, slotEq, stateEq, attemptsEq⟩ := fields
  have same : nominationOf port.layout (replay port flash new) =
      nominationOf port.layout (afterTrial port flash) := by
    simp only [complete, nominationOf, read, committedRead, slotEq, stateEq,
      attemptsEq]
  refine ⟨?_, Or.inr (same.trans (afterTrial_nomination room))⟩
  intro record recordRead
  cases read.symm.trans recordRead
  have bound := afterTrial_room room
  rw [complete] at bound same
  rw [same, seqEq]
  exact bound _ committedRead

end Commit

/-! ### One boot -/

section Boot

variable {port : Port} {system : System} {outcomes : List FlashOutcome}

theorem uncut_faults (uncut : Step.isCut ⟨.boot, outcomes⟩ = false) :
    ∃ faults : List (Option FlashError), outcomes = faults.map .ofFault := by
  induction outcomes with
  | nil => exact ⟨[], rfl⟩
  | cons outcome later ih =>
      simp only [Step.isCut, Step.isBoot, Bool.true_and, List.any_cons,
        Bool.or_eq_false_iff] at uncut ih
      obtain ⟨faults, rfl⟩ := ih uncut.2
      cases outcome with
      | success => exact ⟨none :: faults, rfl⟩
      | failure error => exact ⟨some error :: faults, rfl⟩
      | powerLoss units => cases uncut.1

theorem systemStep_boot (port : Port) (system : System)
    (outcomes : List FlashOutcome) :
    let after := systemStep port system ⟨.boot, outcomes⟩
    ∃ new, TrialCalls port system.flash new ∧
      after.flash = replay port system.flash new ∧
      (jumpTargets after.calls = jumpTargets system.calls ++
          (bootTarget port.layout after.flash).toList ∨
        Step.isCut ⟨.boot, outcomes⟩ = true ∧
          jumpTargets after.calls = jumpTargets system.calls) := by
  obtain ⟨new, calls, log, flashEq⟩ :=
    advanceTrialState_calls port (system.device outcomes)
  have quiet := calls.jumpTargets
  refine ⟨new, calls, ?_⟩
  unfold systemStep
  dsimp only
  cases advanced : advanceTrialState port (system.device outcomes) with
  | returned _ device =>
      rw [advanced] at log flashEq
      have logged : device.calls = system.calls ++ new := log
      rw [blCoreBoot_returned advanced]
      refine ⟨?_, Or.inl ?_⟩
      · cases bootTarget port.layout device.flash <;> exact flashEq
      · cases target : bootTarget port.layout device.flash with
        | none =>
            simp only [System.ended, target, Option.toList_none,
              List.append_nil, logged, jumpTargets_append, quiet]
        | some address =>
            simp only [System.ended, target, Option.toList_some, logged,
              jumpTargets_append, quiet, List.append_nil]
            rfl
  | lost device =>
      rw [advanced] at log flashEq
      have logged : device.calls = system.calls ++ new := log
      rw [blCoreBoot_lost advanced]
      refine ⟨flashEq, Or.inr ⟨?_, ?_⟩⟩
      · by_contra uncut
        obtain ⟨faults, rfl⟩ := uncut_faults (Bool.not_eq_true _ |>.mp uncut)
        obtain ⟨after, returned⟩ := advanceTrialState_returns port
          system.flash faults system.calls
        cases advanced.symm.trans returned
      · simp only [System.ended, logged, jumpTargets_append, quiet,
          List.append_nil]

/-- An undisturbed boot leaves what a boot on flash that works leaves. -/
theorem systemStep_boot_sound
    (sound : Step.isFaulty ⟨.boot, outcomes⟩ = false) :
    (systemStep port system ⟨.boot, outcomes⟩).flash =
      afterTrial port system.flash := by
  have succeed : ∀ outcome, outcome ∈ outcomes → outcome = .success := by
    simpa [Step.isFaulty, Step.isBoot] using sound
  have advanced : ∃ device,
      advanceTrialState port (system.device outcomes) =
        .returned () device ∧ device.flash = afterTrial port system.flash := by
    rw [advanceTrialState_eq]
    unfold afterTrial
    have flashEq : (system.device outcomes).flash = system.flash := rfl
    rw [flashEq]
    cases plan : trialCommit port.layout system.flash with
    | none => exact ⟨_, rfl, rfl⟩
    | some arguments =>
        obtain ⟨slot, state, attempts⟩ := arguments
        have valid := trialCommit_valid plan
        obtain ⟨left, commit⟩ := @blMetaCommit_succeeds port slot state
          attempts (system.device outcomes) valid.1 valid.2 succeed
        dsimp only
        rw [commit]
        exact ⟨_, rfl, rfl⟩
  obtain ⟨device, ran, flashEq⟩ := advanced
  unfold systemStep
  dsimp only
  rw [blCoreBoot_returned ran]
  cases bootTarget port.layout device.flash <;> exact flashEq

end Boot

theorem systemStep_unattended {port : Port} {system : System} {step : Step}
    (unattended : step.op.Unattended) (other : step.isBoot = false) :
    (systemStep port system step).flash = system.flash ∧
      jumpTargets (systemStep port system step).calls =
        jumpTargets system.calls := by
  obtain ⟨new, calls, log, flashEq⟩ := systemStep_calls port system step
  have quiet : new = [] := by
    obtain ⟨op, outcomes⟩ := step
    revert unattended other
    generalize (systemStep port system ⟨op, outcomes⟩).session = session
      at calls
    intro unattended other
    have requests : ∀ {frame : BlFrame} {after : BlSession}
        {status : Option BlResult},
        frame.cmd ≠ blCmdEraseSlot ∧ frame.cmd ≠ blCmdWrite ∧
          frame.cmd ≠ blCmdSetActive →
        RequestCalls port system.session system.flash frame after new
          status → new = [] := by
      rintro frame after status ⟨notErase, notWrite, notArm⟩ calls
      cases calls with
      | refused status failed unadmitted => rfl
      | answered isQuery status => rfl
      | reset isReset => rfl
      | erase slot erases slotOk outcome => exact absurd erases.1 notErase
      | write admitted outcome => exact absurd admitted.isWrite notWrite
      | arm isArm oneByte validates new commit status =>
          exact absurd isArm notArm
    cases calls with
    | request frame responseSize after new status calls =>
        exact requests unattended calls
    | cutOff frame responseSize after new calls =>
        exact requests unattended calls
    | boot session kept new trial jump => cases other
    | confirm session kept new calls => exact unattended.elim
    | powerCycle => rfl
  rw [quiet] at log flashEq
  rw [log, flashEq, List.append_nil]
  exact ⟨rfl, rfl⟩

/-! ### Runs of boots -/

/-- After these steps the nomination has been advanced `taken` times, and the
boots have jumped so many times to the slot on trial and after that so many
times to where the trial is rolled back to. -/
structure Tried (port : Port) (start : System) (slot : U8) (attempts : Nat)
    (hdr : BlImgHdr) (steps : List Step) (taken tried reverted : Nat)
    (reached : System) : Prop where
  kept : ∀ other, blCoreValidateSlot port.layout reached.flash other =
    blCoreValidateSlot port.layout start.flash other
  room : SeqRoom port.layout reached.flash
  nomination : nominationOf port.layout reached.flash =
    (Nomination.boot (Validates port.layout start.flash))^[taken]
      (.trial slot attempts)
  most : taken ≤ steps.countP Step.isBoot
  least : steps.countP Step.isBoot ≤ taken + steps.countP Step.isFaulty
  jumps : jumpTargets reached.calls = jumpTargets start.calls ++
    List.replicate tried (appBase port.layout slot hdr) ++
    List.replicate reverted (rollbackBase port.layout start.flash slot hdr)
  spared : reverted ≠ 0 → 3 - attempts < taken
  trials : tried ≤ min taken (3 - attempts) + steps.countP Step.isFaulty
  jumped : steps.countP Step.isBoot ≤
    tried + reverted + steps.countP Step.isCut
  once : tried + reverted ≤ steps.countP Step.isBoot

section Runs

variable {port : Port} {start reached : System} {slot : U8}
  {attempts taken tried reverted : Nat} {hdr : BlImgHdr} {steps : List Step}

theorem bootTarget_taken {flash after : Flash}
    (accepted : blCoreValidateSlot port.layout flash slot = .ok hdr)
    (kept : ∀ other, blCoreValidateSlot port.layout after other =
      blCoreValidateSlot port.layout flash other)
    (nomination : nominationOf port.layout after =
      (Nomination.boot (Validates port.layout flash))^[taken]
        (.trial slot attempts)) :
    bootTarget port.layout after =
      some (if taken ≤ 3 - attempts then appBase port.layout slot hdr
        else rollbackBase port.layout flash slot hdr) := by
  have nominee := (kept slot).trans accepted
  rw [Nomination.boot_iterate] at nomination
  by_cases granted : taken ≤ 3 - attempts
  · rw [if_pos granted] at nomination ⊢
    exact bootTarget_nominated (Or.inl nomination) nominee
  rw [if_neg granted] at nomination ⊢
  unfold rollbackBase
  by_cases fallback : Validates port.layout flash (otherSlot slot)
  · obtain ⟨otherHdr, otherAccepted⟩ := id fallback
    rw [if_pos fallback] at nomination
    rw [bootTarget_nominated (Or.inr nomination)
      ((kept (otherSlot slot)).trans otherAccepted)]
    simp only [otherAccepted]
  · obtain ⟨result, refused⟩ := not_validates_iff.mp fallback
    rw [if_neg fallback] at nomination
    rw [bootTarget_nominated (Or.inl nomination) nominee]
    simp only [refused]

theorem countP_snoc (holds : Step → Bool) (steps : List Step) (next : Step) :
    (steps ++ [next]).countP holds =
      steps.countP holds + if holds next then 1 else 0 := by
  rw [List.countP_append, List.countP_singleton]

variable
  (earlier : Tried port start slot attempts hdr steps taken tried reverted
    reached)

include earlier

theorem Tried.boot
    (accepted : blCoreValidateSlot port.layout start.flash slot = .ok hdr)
    (outcomes : List FlashOutcome) :
    ∃ taken tried reverted,
      Tried port start slot attempts hdr (steps ++ [⟨.boot, outcomes⟩]) taken
        tried reverted (systemStep port reached ⟨.boot, outcomes⟩) := by
  obtain ⟨new, calls, flashEq, jumps⟩ :=
    systemStep_boot port reached outcomes
  obtain ⟨room, advanced⟩ := calls.nomination earlier.room
  have kept : ∀ other, blCoreValidateSlot port.layout
      (systemStep port reached ⟨.boot, outcomes⟩).flash other =
        blCoreValidateSlot port.layout start.flash other := by
    intro other
    rw [flashEq, calls.validate]
    exact earlier.kept other
  rw [← flashEq] at room advanced
  have same : (nominationOf port.layout reached.flash).boot
      (Validates port.layout reached.flash) =
        (Nomination.boot (Validates port.layout start.flash))^[taken + 1]
          (.trial slot attempts) := by
    rw [Function.iterate_succ_apply', ← earlier.nomination]
    apply Nomination.boot_congr
    intro other
    simp only [Validates, earlier.kept]
  -- A boot whose nomination is the old one was disturbed.
  have counted : ∃ now, (now = taken + 1 ∨
        now = taken ∧ Step.isFaulty ⟨.boot, outcomes⟩ = true) ∧
      nominationOf port.layout
          (systemStep port reached ⟨.boot, outcomes⟩).flash =
        (Nomination.boot (Validates port.layout start.flash))^[now]
          (.trial slot attempts) := by
    by_cases faulty : Step.isFaulty ⟨.boot, outcomes⟩ = true
    · rcases advanced with stays | boots
      · exact ⟨taken, Or.inr ⟨rfl, faulty⟩,
          stays.trans earlier.nomination⟩
      · exact ⟨taken + 1, Or.inl rfl, boots.trans same⟩
    · have sound := @systemStep_boot_sound port reached outcomes
        (Bool.not_eq_true _ |>.mp faulty)
      refine ⟨taken + 1, Or.inl rfl, ?_⟩
      rw [sound, afterTrial_nomination earlier.room, same]
  obtain ⟨now, counts, nomination⟩ := counted
  have target := bootTarget_taken accepted kept nomination
  have boots : (steps ++ [Step.mk .boot outcomes]).countP Step.isBoot =
      steps.countP Step.isBoot + 1 := countP_snoc _ _ _
  have faults := countP_snoc Step.isFaulty steps ⟨.boot, outcomes⟩
  have cuts := countP_snoc Step.isCut steps ⟨.boot, outcomes⟩
  have disturbed : now = taken →
      (steps ++ [Step.mk .boot outcomes]).countP Step.isFaulty =
        steps.countP Step.isFaulty + 1 := by
    intro stays
    rcases counts with advances | ⟨_stays, faulty⟩
    · omega
    · rw [faults, if_pos faulty]
  have advances : taken ≤ now ∧ now ≤ taken + 1 := by omega
  obtain ⟨_kept, _room, _nomination, most, least, log, spared, trials, jumped,
    once⟩ := earlier
  rcases jumps with jumps | ⟨cut, jumps⟩
  · rw [log, target, Option.toList_some] at jumps
    by_cases granted : now ≤ 3 - attempts
    · have early : reverted = 0 := by
        by_contra late
        have after := spared late
        omega
      subst early
      rw [if_pos granted, List.replicate_zero, List.append_nil,
        List.append_assoc, ← List.replicate_succ'] at jumps
      refine ⟨now, tried + 1, 0, kept, room, nomination, ?_, ?_, ?_, ?_, ?_,
        ?_, ?_⟩
      · omega
      · omega
      · rw [jumps, List.replicate_zero, List.append_nil]
      · exact fun impossible => absurd rfl impossible
      · omega
      · omega
      · omega
    · rw [if_neg granted, List.append_assoc, ← List.replicate_succ'] at jumps
      exact ⟨now, tried, reverted + 1, kept, room, nomination, by omega,
        by omega, jumps, fun _ => by omega, by omega, by omega, by omega⟩
  · rw [if_pos cut] at cuts
    exact ⟨now, tried, reverted, kept, room, nomination, by omega, by omega,
      jumps.trans log, fun late => by have := spared late; omega, by omega,
      by omega, by omega⟩

theorem Tried.aside {next : Step} (unattended : next.op.Unattended)
    (other : next.isBoot = false) :
    Tried port start slot attempts hdr (steps ++ [next]) taken tried reverted
      (systemStep port reached next) := by
  obtain ⟨flashEq, jumps⟩ := @systemStep_unattended port reached next
    unattended other
  have quiet : next.isFaulty = false ∧ next.isCut = false := by
    simp only [Step.isFaulty, Step.isCut, other, Bool.false_and, and_self]
  have boots := countP_snoc Step.isBoot steps next
  have faults := countP_snoc Step.isFaulty steps next
  have cuts := countP_snoc Step.isCut steps next
  simp only [other, quiet.1, quiet.2, Bool.false_eq_true, if_false,
    Nat.add_zero] at boots faults cuts
  obtain ⟨kept, room, nomination, most, least, log, spared, trials, jumped,
    once⟩ := earlier
  rw [← boots] at most least jumped once
  rw [← faults] at least trials
  rw [← cuts] at jumped
  rw [← flashEq] at kept room nomination
  exact ⟨kept, room, nomination, most, least, jumps.trans log, spared, trials,
    jumped, once⟩

omit earlier in
theorem tried_run {start : System} {slot : U8} {attempts : Nat}
    {hdr : BlImgHdr}
    (accepted : blCoreValidateSlot port.layout start.flash slot = .ok hdr)
    (onTrial : nominationOf port.layout start.flash = .trial slot attempts)
    (room : SeqRoom port.layout start.flash) {steps : List Step}
    (unattended : ∀ step, step ∈ steps → step.op.Unattended) :
    ∃ taken tried reverted,
      Tried port start slot attempts hdr steps taken tried reverted
        (run (systemStep port) start steps) := by
  induction steps using List.reverseRecOn with
  | nil =>
      refine ⟨0, 0, 0, fun _ => rfl, room, onTrial, ?_, ?_, ?_, ?_, ?_, ?_,
        ?_⟩
      · exact Nat.le_refl 0
      · exact Nat.zero_le _
      · simp only [run_nil, List.replicate_zero, List.append_nil]
      · exact fun impossible => absurd rfl impossible
      · exact Nat.zero_le _
      · exact Nat.zero_le _
      · exact Nat.le_refl 0
  | append_singleton steps next ih =>
      obtain ⟨taken, tried, reverted, earlier⟩ := ih fun step member =>
        unattended step (List.mem_append_left _ member)
      have attends := unattended next
        (List.mem_append_right _ List.mem_cons_self)
      rw [run_snoc]
      cases other : next.isBoot with
      | false =>
          exact ⟨taken, tried, reverted, earlier.aside attends other⟩
      | true =>
          obtain ⟨op, outcomes⟩ := next
          cases op with
          | boot => exact earlier.boot accepted outcomes
          | request frame responseSize => cases other
          | confirm => cases other
          | powerCycle => cases other

end Runs

/-- A trial that nobody attends.  However its boots are disturbed, it is not
given up before its attempts are used, and it is booted into at most once for
each of them and for each boot that was disturbed. -/
theorem trial_throughFaults (port : Port) (start : System) (record : BlMeta)
    (hdr : BlImgHdr)
    (read : blMetaRead port.layout start.flash = .ok record)
    (onTrial : record.state = blBootTrial)
    (room : record.seq.toNat ≤ 2 ^ 32 - 6)
    (accepted : blCoreValidateSlot port.layout start.flash
      record.activeSlot = .ok hdr)
    (steps : List Step)
    (unattended : ∀ step, step ∈ steps → step.op.Unattended) :
    let after := run (systemStep port) start steps
    let slot := record.activeSlot
    let attempts := record.bootAttempts.toNat
    let boots := steps.countP Step.isBoot
    let faulty := steps.countP Step.isFaulty
    let cut := steps.countP Step.isCut
    ∃ taken tried reverted,
      nominationOf port.layout after.flash =
        (if taken ≤ 3 - attempts then .trial slot (attempts + taken)
        else if Validates port.layout start.flash (otherSlot slot) then
          .confirmed (otherSlot slot) 0
        else .trial slot (max attempts 3)) ∧
      (boots - faulty ≤ taken ∧ taken ≤ boots) ∧
      jumpTargets after.calls = jumpTargets start.calls ++
        List.replicate tried (appBase port.layout slot hdr) ++
        List.replicate reverted
          (rollbackBase port.layout start.flash slot hdr) ∧
      tried ≤ 3 - attempts + faulty ∧
      (reverted ≠ 0 → 3 - attempts < taken) ∧
      boots - cut ≤ tried + reverted ∧ tried + reverted ≤ boots := by
  intro after slot attempts boots faulty cut
  obtain ⟨taken, tried, reverted, reached⟩ := tried_run accepted
    (nominationOf_trial read onTrial) (trial_seqRoom read onTrial room)
    unattended
  have nomination := reached.nomination
  rw [Nomination.boot_iterate] at nomination
  have least := reached.least
  have trials := reached.trials
  have jumped := reached.jumped
  exact ⟨taken, tried, reverted, nomination,
    ⟨Nat.sub_le_iff_le_add.mpr least, reached.most⟩, reached.jumps,
    Nat.le_trans trials (Nat.add_le_add_right (Nat.min_le_right _ _) _),
    reached.spared, Nat.sub_le_iff_le_add.mpr jumped, reached.once⟩

/-- The program call of the first boot fails, and the power is lost in the
middle of that of the second. -/
def disturbedBoots : List Step :=
  [⟨.boot, [.success, .failure .program]⟩,
    ⟨.boot, [.success, .powerLoss 1]⟩, ⟨.boot, []⟩]

theorem trial_throughFaults_disturbed :
    ∃ hdr taken tried reverted,
      let after := run (systemStep hostPort) (System.initial trialFlash)
        disturbedBoots
      nominationOf hostLayout after.flash =
        (if taken ≤ 3 - 0 then .trial blSlotA (0 + taken)
        else if Validates hostLayout trialFlash (otherSlot blSlotA) then
          .confirmed (otherSlot blSlotA) 0
        else .trial blSlotA (max 0 3)) ∧
      (3 - 2 ≤ taken ∧ taken ≤ 3) ∧
      jumpTargets after.calls =
        [] ++ List.replicate tried (appBase hostLayout blSlotA hdr) ++
        List.replicate reverted
          (rollbackBase hostLayout trialFlash blSlotA hdr) ∧
      tried ≤ 3 - 0 + 2 ∧ (reverted ≠ 0 → 3 - 0 < taken) ∧
      3 - 1 ≤ tried + reverted ∧ tried + reverted ≤ 3 := by
  obtain ⟨hdr, accepted⟩ := trialFlash_validates
  refine ⟨hdr, trial_throughFaults hostPort (System.initial trialFlash)
    (newRecord 1 blSlotA blBootTrial 0) hdr trialFlash_read rfl (by decide)
    accepted disturbedBoots ?_⟩
  intro step member
  simp only [disturbedBoots, List.mem_cons, List.not_mem_nil, or_false]
    at member
  rcases member with rfl | rfl | rfl <;> trivial

end Stm32Bootloader
