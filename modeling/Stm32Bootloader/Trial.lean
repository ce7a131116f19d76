/-
Trial boot and rollback over whole runs.

What the metadata says should run is a nomination: none, a confirmed slot or a
slot on trial with the boots it has used.  On flash that works, a boot and a
confirm act on the nomination alone while the sequence numbers last, so the
rollback argument is made about nominations and carried back to the flash.
-/

import Stm32Bootloader.Boot
import Stm32Bootloader.Library.TransitionRun
import Stm32Bootloader.Tools.Blimage

namespace Stm32Bootloader

open Interruptible TransitionRun

/-! ### Nominations -/

inductive Nomination where
  | absent
  | confirmed (slot : U8) (attempts : Nat)
  | trial (slot : U8) (attempts : Nat)
  deriving DecidableEq

section Rules

variable (validates : U8 → Prop) [DecidablePred validates]

/-- A boot consumes an attempt, and reverts to the other slot once the
attempts are used up and that slot holds an image. -/
def Nomination.boot : Nomination → Nomination
  | .trial slot attempts =>
      if attempts < blMaxBootAttempts.toNat then .trial slot (attempts + 1)
      else if validates (otherSlot slot) then .confirmed (otherSlot slot) 0
      else .trial slot attempts
  | settled => settled

def Nomination.confirm : Nomination → Nomination
  | .trial slot _ => .confirmed slot 0
  | settled => settled

/-- At most how many more times the nomination changes. -/
def Nomination.pending : Nomination → Nat
  | .trial _ attempts => blMaxBootAttempts.toNat - attempts + 1
  | _ => 0

omit [DecidablePred validates] in
theorem Nomination.boot_congr [first : DecidablePred validates]
    {validates' : U8 → Prop} [second : DecidablePred validates']
    (same : ∀ slot, validates slot ↔ validates' slot)
    (nomination : Nomination) :
    nomination.boot validates = nomination.boot validates' := by
  cases nomination with
  | absent => rfl
  | confirmed slot attempts => rfl
  | trial slot attempts => simp only [boot, same]

theorem Nomination.boot_iterate (slot : U8) (attempts count : Nat) :
    (Nomination.boot validates)^[count] (.trial slot attempts) =
      if count ≤ 3 - attempts then .trial slot (attempts + count)
      else if validates (otherSlot slot) then .confirmed (otherSlot slot) 0
      else .trial slot (max attempts 3) := by
  have limit : blMaxBootAttempts.toNat = 3 := rfl
  induction count with
  | zero => simp
  | succ count ih =>
      rw [Function.iterate_succ_apply', ih]
      by_cases next : count + 1 ≤ 3 - attempts
      · rw [if_pos (by omega), if_pos next]
        simp only [boot]
        rw [if_pos (by omega), Nat.add_assoc]
      · rw [if_neg next]
        by_cases granted : count ≤ 3 - attempts
        · rw [if_pos granted]
          simp only [boot]
          rw [if_neg (by omega)]
          have used : attempts + count = max attempts 3 := by omega
          rw [used]
        · rw [if_neg granted]
          by_cases fallback : validates (otherSlot slot)
          · rw [if_pos fallback]
            rfl
          · rw [if_neg fallback]
            simp only [boot]
            rw [if_neg (by omega), if_neg fallback]

end Rules

def nominationOf (layout : BlLayout) (flash : Flash) : Nomination :=
  match blMetaRead layout flash with
  | .error _ => .absent
  | .ok record =>
      if record.state = blBootConfirmed then
        .confirmed record.activeSlot record.bootAttempts.toNat
      else .trial record.activeSlot record.bootAttempts.toNat

theorem nominationOf_confirmed {layout : BlLayout} {flash : Flash}
    {slot : U8} {attempts : Nat}
    (nominated : nominationOf layout flash = .confirmed slot attempts) :
    ∃ record, blMetaRead layout flash = .ok record ∧
      record.activeSlot = slot ∧ record.state = blBootConfirmed ∧
      record.bootAttempts.toNat = attempts := by
  unfold nominationOf at nominated
  split at nominated
  · cases nominated
  · rename_i record read
    split at nominated <;> rename_i state <;> cases nominated
    exact ⟨record, read, rfl, state, rfl⟩

theorem nominationOf_trial_read {layout : BlLayout} {flash : Flash}
    {slot : U8} {attempts : Nat}
    (nominated : nominationOf layout flash = .trial slot attempts) :
    ∃ record, blMetaRead layout flash = .ok record ∧
      record.activeSlot = slot := by
  unfold nominationOf at nominated
  split at nominated
  · cases nominated
  · rename_i record read
    split at nominated <;> cases nominated
    exact ⟨record, read, rfl⟩

theorem nominationOf_trial {layout : BlLayout} {flash : Flash}
    {record : BlMeta} (read : blMetaRead layout flash = .ok record)
    (trial : record.state = blBootTrial) :
    nominationOf layout flash =
      .trial record.activeSlot record.bootAttempts.toNat := by
  unfold nominationOf
  rw [read]
  exact if_neg (by rw [trial]; decide)

/-! ### Boots and confirms on flash that works -/

def afterTrial (port : Port) (flash : Flash) : Flash :=
  match trialCommit port.layout flash with
  | none => flash
  | some (slot, state, attempts) => committed port flash slot state attempts

def afterConfirm (port : Port) (flash : Flash) : Flash :=
  match nominationOf port.layout flash with
  | .trial slot _ => committed port flash slot blBootConfirmed 0
  | _ => flash

theorem trialCommit_valid {layout : BlLayout} {flash : Flash}
    {slot state attempts : U8}
    (plan : trialCommit layout flash = some (slot, state, attempts)) :
    slotIsValid slot = true ∧ stateIsValid state = true := by
  unfold trialCommit at plan
  split at plan
  · cases plan
  · rename_i record read
    split at plan
    · cases plan
    · split at plan
      · cases plan
        exact ⟨(blMetaRead_valid read).1, stateIsValid_trial⟩
      · split at plan <;> cases plan
        exact ⟨otherSlot_valid _, stateIsValid_confirmed⟩

theorem advanceTrialState_faultFree (port : Port) (flash : Flash)
    (calls : List PortCall) :
    ∃ new, jumpTargets new = [] ∧
      advanceTrialState port ⟨flash, [], calls⟩ =
        .returned () ⟨afterTrial port flash, [], calls ++ new⟩ := by
  rw [advanceTrialState_eq]
  unfold afterTrial
  cases plan : trialCommit port.layout flash with
  | none => exact ⟨[], rfl, by simp only [List.append_nil]⟩
  | some arguments =>
      obtain ⟨slot, state, attempts⟩ := arguments
      have valid := trialCommit_valid plan
      dsimp only
      rw [blMetaCommit_faultFree _ valid.1 valid.2 rfl]
      exact ⟨_, CommitCalls.jumpTargets (.written .success), rfl⟩

theorem blCoreBoot_faultFree (port : Port) (flash : Flash)
    (calls : List PortCall) :
    ∃ result new,
      jumpTargets new =
        (bootTarget port.layout (afterTrial port flash)).toList ∧
      blCoreBoot port ⟨flash, [], calls⟩ =
        .returned result ⟨afterTrial port flash, [], calls ++ new⟩ := by
  obtain ⟨new, quiet, advanced⟩ :=
    advanceTrialState_faultFree port flash calls
  rw [blCoreBoot_returned advanced]
  cases bootTarget port.layout (afterTrial port flash) with
  | none => exact ⟨_, new, quiet, rfl⟩
  | some address =>
      refine ⟨.errJumpRefused, new ++ [.jump address], ?_, ?_⟩
      · rw [jumpTargets_append, quiet]
        rfl
      · simp only [List.append_assoc]

theorem blCoreConfirm_faultFree (port : Port) (flash : Flash)
    (calls : List PortCall) :
    ∃ result new, jumpTargets new = [] ∧
      blCoreConfirm port ⟨flash, [], calls⟩ =
        .returned result ⟨afterConfirm port flash, [], calls ++ new⟩ ∧
      (result = .ok ↔ nominationOf port.layout flash ≠ .absent) := by
  unfold blCoreConfirm afterConfirm nominationOf
  rw [readFlash_bind]
  cases read : blMetaRead port.layout flash with
  | error result =>
      rw [blMetaRead_error read]
      exact ⟨_, [], rfl, by rw [List.append_nil]; rfl, by simp⟩
  | ok record =>
      dsimp only
      by_cases confirmed : record.state = blBootConfirmed
      · rw [if_pos confirmed, if_pos confirmed]
        exact ⟨_, [], rfl, by rw [List.append_nil]; rfl, by simp⟩
      · rw [if_neg confirmed, if_neg confirmed,
          blMetaCommit_faultFree _ (blMetaRead_valid read).1
            stateIsValid_confirmed rfl]
        exact ⟨_, _, CommitCalls.jumpTargets (.written .success), rfl,
          by simp⟩

theorem afterTrial_validate (port : Port) (flash : Flash) (slot : U8) :
    blCoreValidateSlot port.layout (afterTrial port flash) slot =
      blCoreValidateSlot port.layout flash slot := by
  unfold afterTrial
  split
  · rfl
  · exact CommitCalls.validate (.written .success) slot

theorem afterConfirm_validate (port : Port) (flash : Flash) (slot : U8) :
    blCoreValidateSlot port.layout (afterConfirm port flash) slot =
      blCoreValidateSlot port.layout flash slot := by
  unfold afterConfirm
  split
  · exact CommitCalls.validate (.written .success) slot
  · rfl

/-! ### The flash follows the nomination -/

/-- The sequence numbers last for every change still pending. -/
def SeqRoom (layout : BlLayout) (flash : Flash) : Prop :=
  ∀ record, blMetaRead layout flash = .ok record →
    record.seq.toNat + (nominationOf layout flash).pending < 2 ^ 32

section Commit

variable {port : Port} {flash : Flash} {slot state attempts : U8}
  {held : BlMeta}

variable (attempts) in
theorem committed_read_next (slotOk : slotIsValid slot = true)
    (stateOk : stateIsValid state = true)
    (read : blMetaRead port.layout flash = .ok held)
    (room : held.seq.toNat + 1 < 2 ^ 32) :
    ∃ record,
      blMetaRead port.layout (committed port flash slot state attempts) =
        .ok record ∧
      record.seq = held.seq + 1 ∧ record.activeSlot = slot ∧
      record.state = state ∧ record.bootAttempts = attempts := by
  refine ⟨_, committed_read slotOk stateOk ?_, ?_, rfl, rfl, rfl⟩
  · intro other otherRead
    rw [read] at otherRead
    cases otherRead
    bv_omega
  · obtain ⟨index, newest⟩ := blMetaRead_ok_iff.mp read
    rw [commitRecord_seq, commitPlan_seq newest]

theorem committed_nomination (slotOk : slotIsValid slot = true)
    (stateOk : stateIsValid state = true)
    (read : blMetaRead port.layout flash = .ok held)
    (room : held.seq.toNat + 1 < 2 ^ 32) :
    nominationOf port.layout (committed port flash slot state attempts) =
      if state = blBootConfirmed then .confirmed slot attempts.toNat
      else .trial slot attempts.toNat := by
  obtain ⟨record, newRead, _seq, slotEq, stateEq, attemptsEq⟩ :=
    committed_read_next attempts slotOk stateOk read room
  simp only [nominationOf, newRead, slotEq, stateEq, attemptsEq]

theorem committed_room (slotOk : slotIsValid slot = true)
    (stateOk : stateIsValid state = true)
    (read : blMetaRead port.layout flash = .ok held)
    (room : held.seq.toNat + 1 + (nominationOf port.layout
      (committed port flash slot state attempts)).pending < 2 ^ 32) :
    SeqRoom port.layout (committed port flash slot state attempts) := by
  intro record newRead
  obtain ⟨next, nextRead, seqEq, _fields⟩ :=
    committed_read_next attempts slotOk stateOk read (by omega)
  rw [newRead] at nextRead
  cases nextRead
  rw [seqEq]
  have step : (held.seq + 1).toNat = held.seq.toNat + 1 := by bv_omega
  omega

end Commit

/-- What `advance_trial_state` commits, as a rule on nominations. -/
theorem afterTrial_cases (port : Port) (flash : Flash) :
    (afterTrial port flash = flash ∧
      (nominationOf port.layout flash).boot (Validates port.layout flash) =
        nominationOf port.layout flash) ∨
    ∃ held slot state attempts,
      blMetaRead port.layout flash = .ok held ∧
      slotIsValid slot = true ∧ stateIsValid state = true ∧
      afterTrial port flash = committed port flash slot state attempts ∧
      (nominationOf port.layout flash).boot (Validates port.layout flash) =
        (if state = blBootConfirmed then .confirmed slot attempts.toNat
        else .trial slot attempts.toNat) ∧
      ((nominationOf port.layout flash).boot
        (Validates port.layout flash)).pending + 1 ≤
          (nominationOf port.layout flash).pending := by
  have limit : blMaxBootAttempts.toNat = 3 := rfl
  unfold afterTrial trialCommit
  cases read : blMetaRead port.layout flash with
  | error result =>
      left
      simp only [nominationOf, read]
      exact ⟨trivial, rfl⟩
  | ok record =>
      have valid := blMetaRead_valid read
      rcases valid.2 with confirmed | trial
      · left
        have settled : record.state ≠ blBootTrial := by
          rw [confirmed]
          decide
        simp only [nominationOf, read, if_pos settled, if_pos confirmed]
        exact ⟨trivial, rfl⟩
      · rw [nominationOf_trial read trial]
        simp only [if_neg (not_not_intro trial), Nomination.boot]
        by_cases granted : record.bootAttempts < blMaxBootAttempts
        · right
          have below : record.bootAttempts.toNat < blMaxBootAttempts.toNat :=
            granted
          have next : (record.bootAttempts + 1).toNat =
              record.bootAttempts.toNat + 1 := by
            bv_omega
          refine ⟨record, record.activeSlot, blBootTrial,
            record.bootAttempts + 1, rfl, valid.1, stateIsValid_trial, ?_,
            ?_, ?_⟩
          · rw [if_pos granted]
          · rw [if_pos below, if_neg (by decide), next]
          · rw [if_pos below]
            simp only [Nomination.pending]
            omega
        · have used : ¬ record.bootAttempts.toNat < blMaxBootAttempts.toNat :=
            granted
          rw [if_neg granted, if_neg used]
          by_cases fallback :
              Validates port.layout flash (otherSlot record.activeSlot)
          · right
            rw [if_pos fallback, if_pos fallback]
            exact ⟨record, otherSlot record.activeSlot, blBootConfirmed, 0,
              rfl, otherSlot_valid _, stateIsValid_confirmed, rfl, rfl,
              Nat.le_add_left _ _⟩
          · left
            rw [if_neg fallback, if_neg fallback]
            exact ⟨rfl, rfl⟩

theorem afterTrial_reads (port : Port) {flash : Flash} {record : BlMeta}
    (read : blMetaRead port.layout flash = .ok record) :
    ∃ next, blMetaRead port.layout (afterTrial port flash) = .ok next := by
  unfold afterTrial
  split
  · exact ⟨record, read⟩
  · exact CommitCalls.reads (.written .success) read

theorem afterTrial_fixed {port : Port} {flash : Flash}
    (fixed : (nominationOf port.layout flash).boot
      (Validates port.layout flash) = nominationOf port.layout flash) :
    afterTrial port flash = flash := by
  rcases afterTrial_cases port flash with ⟨same, _rule⟩ |
    ⟨held, slot, state, attempts, _read, _slotOk, _stateOk, _eq, _rule, less⟩
  · exact same
  · rw [fixed] at less
    omega

theorem afterTrial_nomination {port : Port} {flash : Flash}
    (room : SeqRoom port.layout flash) :
    nominationOf port.layout (afterTrial port flash) =
      (nominationOf port.layout flash).boot (Validates port.layout flash) := by
  rcases afterTrial_cases port flash with ⟨same, settled⟩ |
    ⟨held, slot, state, attempts, read, slotOk, stateOk, eq, rule, less⟩
  · rw [same, settled]
  · have bound := room held read
    rw [eq, committed_nomination slotOk stateOk read (by omega), rule]

theorem afterTrial_room {port : Port} {flash : Flash}
    (room : SeqRoom port.layout flash) :
    SeqRoom port.layout (afterTrial port flash) := by
  have nomination := afterTrial_nomination room
  rcases afterTrial_cases port flash with ⟨same, _settled⟩ |
    ⟨held, slot, state, attempts, read, slotOk, stateOk, eq, _rule, less⟩
  · rw [same]
    exact room
  · have bound := room held read
    rw [eq] at nomination ⊢
    apply committed_room slotOk stateOk read
    rw [nomination]
    omega

theorem afterConfirm_nomination {port : Port} {flash : Flash}
    (room : SeqRoom port.layout flash) :
    nominationOf port.layout (afterConfirm port flash) =
      (nominationOf port.layout flash).confirm := by
  unfold afterConfirm
  cases nomination : nominationOf port.layout flash with
  | absent => exact nomination
  | confirmed slot attempts => exact nomination
  | trial slot attempts =>
      obtain ⟨record, read, slotEq⟩ := nominationOf_trial_read nomination
      have bound := room record read
      rw [nomination, Nomination.pending] at bound
      have slotOk := (blMetaRead_valid read).1
      rw [slotEq] at slotOk
      exact committed_nomination slotOk stateIsValid_confirmed read (by omega)

/-! ### Runs of boots and confirms -/

/-- What happens to a device between updates: it is booted, and the
application it runs confirms itself. -/
inductive AppCall where
  | boot
  | confirm
  deriving DecidableEq

def appStep (port : Port) (device : Device) : AppCall → Device
  | .boot => (blCoreBoot port device).state
  | .confirm => (blCoreConfirm port device).state

def afterCall (port : Port) (flash : Flash) : AppCall → Flash
  | .boot => afterTrial port flash
  | .confirm => afterConfirm port flash

def callTargets (port : Port) (flash : Flash) : AppCall → List U32
  | .boot => (bootTarget port.layout (afterTrial port flash)).toList
  | .confirm => []

theorem appStep_faultFree (port : Port) (flash : Flash)
    (calls : List PortCall) (call : AppCall) :
    ∃ new, jumpTargets new = callTargets port flash call ∧
      appStep port ⟨flash, [], calls⟩ call =
        ⟨afterCall port flash call, [], calls ++ new⟩ := by
  cases call with
  | boot =>
      obtain ⟨result, new, targets, ran⟩ :=
        blCoreBoot_faultFree port flash calls
      refine ⟨new, targets, ?_⟩
      simp only [appStep, ran]
      rfl
  | confirm =>
      obtain ⟨result, new, targets, ran, _accepted⟩ :=
        blCoreConfirm_faultFree port flash calls
      refine ⟨new, targets, ?_⟩
      simp only [appStep, ran]
      rfl

/-- A run of calls on flash that works, described on the flash alone. -/
theorem appRun_faultFree (port : Port) (flash : Flash)
    (calls : List PortCall) (steps : List AppCall) :
    ∃ new,
      run (appStep port) ⟨flash, [], calls⟩ steps =
        ⟨run (afterCall port) flash steps, [], calls ++ new⟩ := by
  induction steps using List.reverseRecOn with
  | nil => exact ⟨[], by rw [List.append_nil]; rfl⟩
  | append_singleton steps call ih =>
      obtain ⟨earlier, ran⟩ := ih
      obtain ⟨new, _targets, stepped⟩ := appStep_faultFree port
        (run (afterCall port) flash steps) (calls ++ earlier) call
      refine ⟨earlier ++ new, ?_⟩
      rw [run_snoc, run_snoc, ran, stepped, List.append_assoc]

theorem appRun_snoc_targets (port : Port) (flash : Flash)
    (calls : List PortCall) (steps : List AppCall) (call : AppCall) :
    jumpTargets (run (appStep port) ⟨flash, [], calls⟩
        (steps ++ [call])).calls =
      jumpTargets (run (appStep port) ⟨flash, [], calls⟩ steps).calls ++
        callTargets port (run (afterCall port) flash steps) call := by
  obtain ⟨earlier, ran⟩ := appRun_faultFree port flash calls steps
  obtain ⟨new, targets, stepped⟩ := appStep_faultFree port
    (run (afterCall port) flash steps) (calls ++ earlier) call
  rw [run_snoc, ran, stepped, jumpTargets_append, targets]

theorem afterCall_validate (port : Port) (flash : Flash) (call : AppCall)
    (slot : U8) :
    blCoreValidateSlot port.layout (afterCall port flash call) slot =
      blCoreValidateSlot port.layout flash slot := by
  cases call with
  | boot => exact afterTrial_validate port flash slot
  | confirm => exact afterConfirm_validate port flash slot

theorem callRun_validate (port : Port) (flash : Flash)
    (steps : List AppCall) (slot : U8) :
    blCoreValidateSlot port.layout (run (afterCall port) flash steps) slot =
      blCoreValidateSlot port.layout flash slot :=
  run_invariant
    (fun reached => blCoreValidateSlot port.layout reached slot =
      blCoreValidateSlot port.layout flash slot)
    rfl
    (fun reached call same =>
      (afterCall_validate port reached call slot).trans same)
    steps

/-! ### Settled nominations -/

def Nomination.Settled : Nomination → Prop
  | .trial _ _ => False
  | _ => True

theorem afterCall_settled {port : Port} {flash : Flash}
    (settled : (nominationOf port.layout flash).Settled) (call : AppCall) :
    afterCall port flash call = flash := by
  cases call with
  | boot =>
      apply afterTrial_fixed
      cases nomination : nominationOf port.layout flash with
      | trial _ _ => rw [nomination] at settled; exact settled.elim
      | absent => rfl
      | confirmed _ _ => rfl
  | confirm =>
      simp only [afterCall, afterConfirm]
      split
      · rename_i nomination
        rw [nomination] at settled
        exact settled.elim
      · rfl

theorem settled_run {port : Port} {flash : Flash}
    (settled : (nominationOf port.layout flash).Settled)
    (steps : List AppCall) :
    run (afterCall port) flash steps = flash := by
  induction steps with
  | nil => rfl
  | cons call steps ih => rw [run_cons, afterCall_settled settled, ih]

theorem settled_targets {port : Port} {flash : Flash}
    (settled : (nominationOf port.layout flash).Settled)
    (calls : List PortCall) (steps : List AppCall) :
    jumpTargets (run (appStep port) ⟨flash, [], calls⟩ steps).calls =
      jumpTargets calls ++ (List.replicate (steps.count .boot)
        (bootTarget port.layout flash).toList).flatten := by
  induction steps using List.reverseRecOn with
  | nil => simp
  | append_singleton steps call ih =>
      rw [appRun_snoc_targets, ih, settled_run settled, List.append_assoc]
      cases call with
      | boot =>
          have same := afterCall_settled settled .boot
          simp only [afterCall] at same
          simp only [callTargets, same, List.count_append,
            List.count_singleton_self, List.replicate_succ',
            List.flatten_append, List.flatten_singleton]
      | confirm => simp [callTargets, List.count_append]

/-! ### Trial boot and rollback -/

theorem bootTarget_nominated {layout : BlLayout} {flash : Flash} {slot : U8}
    {hdr : BlImgHdr} {attempts : Nat}
    (nominated : nominationOf layout flash = .trial slot attempts ∨
      nominationOf layout flash = .confirmed slot attempts)
    (accepted : blCoreValidateSlot layout flash slot = .ok hdr) :
    bootTarget layout flash = some (appBase layout slot hdr) := by
  have read : ∃ record, blMetaRead layout flash = .ok record ∧
      record.activeSlot = slot := by
    rcases nominated with trial | confirmed
    · exact nominationOf_trial_read trial
    · obtain ⟨record, read, slotEq, _fields⟩ := nominationOf_confirmed confirmed
      exact ⟨record, read, slotEq⟩
  obtain ⟨record, read, rfl⟩ := read
  simp only [bootTarget, blCoreSelectSlot_nominated read accepted]

theorem bootRun_nomination {port : Port} {flash : Flash}
    (room : SeqRoom port.layout flash) (count : Nat) :
    let reached := run (afterCall port) flash (List.replicate count .boot)
    SeqRoom port.layout reached ∧
      nominationOf port.layout reached =
        (Nomination.boot (Validates port.layout flash))^[count]
          (nominationOf port.layout flash) := by
  induction count with
  | zero => exact ⟨room, rfl⟩
  | succ count ih =>
      obtain ⟨reachedRoom, nomination⟩ := ih
      rw [List.replicate_succ', run_snoc, Function.iterate_succ_apply',
        ← nomination]
      refine ⟨afterTrial_room reachedRoom, ?_⟩
      rw [afterCall, afterTrial_nomination reachedRoom]
      apply Nomination.boot_congr
      intro slot
      simp only [Validates, callRun_validate]

def bootRun (port : Port) (flash : Flash) (count : Nat) : Device :=
  run (appStep port) ⟨flash, [], []⟩ (List.replicate count .boot)

theorem bootRun_flash (port : Port) (flash : Flash) (count : Nat) :
    (bootRun port flash count).flash =
      run (afterCall port) flash (List.replicate count .boot) := by
  obtain ⟨new, ran⟩ :=
    appRun_faultFree port flash [] (List.replicate count .boot)
  rw [bootRun, ran]

/-- Where boots go once the attempts of a trial are used up. -/
def rollbackBase (layout : BlLayout) (flash : Flash) (slot : U8)
    (hdr : BlImgHdr) : U32 :=
  match blCoreValidateSlot layout flash (otherSlot slot) with
  | .ok otherHdr => appBase layout (otherSlot slot) otherHdr
  | .error _ => appBase layout slot hdr

/-- The boots of a device whose metadata reads as a trial. -/
structure TrialRun (port : Port) (flash : Flash) (slot : U8)
    (granted : Nat) : Prop where
  targets : ∀ hdr, blCoreValidateSlot port.layout flash slot = .ok hdr →
    ∀ count, jumpTargets (bootRun port flash count).calls =
      (List.range count).map fun index =>
        if index < granted then appBase port.layout slot hdr
        else rollbackBase port.layout flash slot hdr
  reverted : Validates port.layout flash (otherSlot slot) →
    ∀ count, granted < count →
      ∃ record, blMetaRead port.layout (bootRun port flash count).flash =
          .ok record ∧
        record.activeSlot = otherSlot slot ∧
        record.state = blBootConfirmed ∧ record.bootAttempts = 0
  /-- Only the first `granted + 1` boots may change the flash. -/
  quiet : ∀ count, granted < count →
    (bootRun port flash (count + 1)).flash = (bootRun port flash count).flash
  confirmed : ∀ hdr, blCoreValidateSlot port.layout flash slot = .ok hdr →
    ∀ count,
      (count ≤ granted ∨ ¬ Validates port.layout flash (otherSlot slot)) →
      ∀ later, jumpTargets (run (appStep port) (bootRun port flash count)
          (.confirm :: later)).calls =
        jumpTargets (bootRun port flash count).calls ++
          List.replicate (later.count .boot) (appBase port.layout slot hdr)

section TrialRun

variable {port : Port} {flash : Flash} {record : BlMeta}
  (read : blMetaRead port.layout flash = .ok record)
  (trial : record.state = blBootTrial)
  (room : record.seq.toNat ≤ 2 ^ 32 - 6)

include read trial room

theorem trial_seqRoom : SeqRoom port.layout flash := by
  intro other otherRead
  rw [read] at otherRead
  cases otherRead
  have limit : blMaxBootAttempts.toNat = 3 := rfl
  rw [nominationOf_trial read trial, Nomination.pending]
  omega

theorem trial_nomination (count : Nat) :
    nominationOf port.layout (bootRun port flash count).flash =
      if count ≤ 3 - record.bootAttempts.toNat then
        .trial record.activeSlot (record.bootAttempts.toNat + count)
      else if Validates port.layout flash (otherSlot record.activeSlot) then
        .confirmed (otherSlot record.activeSlot) 0
      else .trial record.activeSlot (max record.bootAttempts.toNat 3) := by
  have reached :=
    (bootRun_nomination (trial_seqRoom read trial room) count).2
  rw [bootRun_flash, reached, nominationOf_trial read trial,
    Nomination.boot_iterate]

theorem trial_targets (hdr : BlImgHdr)
    (accepted : blCoreValidateSlot port.layout flash record.activeSlot =
      .ok hdr) (count : Nat) :
    jumpTargets (bootRun port flash count).calls =
      (List.range count).map fun index =>
        if index < 3 - record.bootAttempts.toNat then
          appBase port.layout record.activeSlot hdr
        else rollbackBase port.layout flash record.activeSlot hdr := by
  induction count with
  | zero => rfl
  | succ count ih =>
      have nomination := trial_nomination read trial room (count + 1)
      rw [bootRun_flash] at nomination
      have nominee := accepted
      rw [← callRun_validate port flash
        (List.replicate (count + 1) .boot)] at nominee
      have extended := appRun_snoc_targets port flash []
        (List.replicate count .boot) .boot
      rw [← List.replicate_succ'] at extended
      rw [List.range_succ, List.map_append, ← ih]
      refine extended.trans (congrArg _ ?_)
      have boot : afterTrial port
          (run (afterCall port) flash (List.replicate count .boot)) =
        run (afterCall port) flash (List.replicate (count + 1) .boot) := by
        rw [List.replicate_succ', run_snoc]
        rfl
      rw [callTargets, boot]
      simp only [List.map_cons, List.map_nil]
      unfold rollbackBase
      by_cases granted : count + 1 ≤ 3 - record.bootAttempts.toNat
      · rw [if_pos granted] at nomination
        rw [if_pos (by omega),
          bootTarget_nominated (Or.inl nomination) nominee]
        rfl
      · rw [if_neg granted] at nomination
        rw [if_neg (by omega)]
        by_cases fallback : Validates port.layout flash
            (otherSlot record.activeSlot)
        · rw [if_pos fallback] at nomination
          obtain ⟨otherHdr, otherAccepted⟩ := fallback
          simp only [otherAccepted]
          rw [← callRun_validate port flash
            (List.replicate (count + 1) .boot)] at otherAccepted
          rw [bootTarget_nominated (Or.inr nomination) otherAccepted]
          rfl
        · rw [if_neg fallback] at nomination
          obtain ⟨result, refused⟩ := not_validates_iff.mp fallback
          simp only [refused]
          rw [bootTarget_nominated (Or.inl nomination) nominee]
          rfl

theorem trial_quiet (count : Nat)
    (exhausted : 3 - record.bootAttempts.toNat < count) :
    (bootRun port flash (count + 1)).flash =
      (bootRun port flash count).flash := by
  have here := bootRun_nomination (trial_seqRoom read trial room) count
  have before := trial_nomination read trial room count
  have after := trial_nomination read trial room (count + 1)
  rw [if_neg (by omega)] at before after
  rw [bootRun_flash, bootRun_flash, List.replicate_succ', run_snoc,
    afterCall]
  rw [bootRun_flash] at before
  rw [bootRun_flash, List.replicate_succ', run_snoc, afterCall,
    afterTrial_nomination here.1] at after
  apply afterTrial_fixed
  rw [after, before]

theorem trial_confirmed (hdr : BlImgHdr)
    (accepted : blCoreValidateSlot port.layout flash record.activeSlot =
      .ok hdr) (count : Nat)
    (unreverted : count ≤ 3 - record.bootAttempts.toNat ∨
      ¬ Validates port.layout flash (otherSlot record.activeSlot))
    (later : List AppCall) :
    jumpTargets (run (appStep port) (bootRun port flash count)
        (.confirm :: later)).calls =
      jumpTargets (bootRun port flash count).calls ++
        List.replicate (later.count .boot)
          (appBase port.layout record.activeSlot hdr) := by
  have here := bootRun_nomination (trial_seqRoom read trial room) count
  have nomination := trial_nomination read trial room count
  have onTrial : ∃ attempts,
      nominationOf port.layout (bootRun port flash count).flash =
        .trial record.activeSlot attempts := by
    rcases unreverted with granted | damaged
    · rw [if_pos granted] at nomination
      exact ⟨_, nomination⟩
    · rw [if_neg damaged] at nomination
      split at nomination <;> exact ⟨_, nomination⟩
  obtain ⟨attempts, onTrial⟩ := onTrial
  rw [bootRun_flash] at onTrial
  obtain ⟨earlier, ran⟩ :=
    appRun_faultFree port flash [] (List.replicate count .boot)
  obtain ⟨new, quiet, confirmed⟩ := appStep_faultFree port
    (run (afterCall port) flash (List.replicate count .boot)) ([] ++ earlier)
    .confirm
  have settled := afterConfirm_nomination here.1
  rw [onTrial, Nomination.confirm] at settled
  rw [bootRun, ran, run_cons, confirmed, settled_targets]
  · rw [jumpTargets_append, quiet, callTargets, List.append_nil, afterCall,
      bootTarget_nominated (Or.inr settled)]
    · rw [Option.toList_some, List.flatten_replicate_singleton]
    · rw [afterConfirm_validate, callRun_validate]
      exact accepted
  · rw [afterCall, settled]
    trivial

theorem trial_reverted
    (fallback : Validates port.layout flash (otherSlot record.activeSlot))
    (count : Nat) (exhausted : 3 - record.bootAttempts.toNat < count) :
    ∃ found, blMetaRead port.layout (bootRun port flash count).flash =
        .ok found ∧
      found.activeSlot = otherSlot record.activeSlot ∧
      found.state = blBootConfirmed ∧ found.bootAttempts = 0 := by
  have nomination := trial_nomination read trial room count
  rw [if_neg (by omega), if_pos fallback] at nomination
  obtain ⟨found, foundRead, slotEq, stateEq, attemptsEq⟩ :=
    nominationOf_confirmed nomination
  exact ⟨found, foundRead, slotEq, stateEq, BitVec.eq_of_toNat_eq attemptsEq⟩

end TrialRun

/-- A trial runs its slot for the boots it is granted and then reverts for
good, unless it is confirmed before; a settled device always boots the same
way and writes nothing. -/
theorem blCoreBoot_trial_rollback (port : Port) (flash : Flash) :
    (∀ record, blMetaRead port.layout flash = .ok record →
      record.state = blBootTrial → record.seq.toNat ≤ 2 ^ 32 - 6 →
      TrialRun port flash record.activeSlot
        (3 - record.bootAttempts.toNat)) ∧
    ((∀ record, blMetaRead port.layout flash = .ok record →
        record.state = blBootConfirmed) →
      ∃ address, ∀ steps,
        (run (appStep port) ⟨flash, [], []⟩ steps).flash = flash ∧
        ∀ target, target ∈
            jumpTargets (run (appStep port) ⟨flash, [], []⟩ steps).calls →
          target = address) := by
  constructor
  · intro record read trial room
    exact {
      targets := trial_targets read trial room
      reverted := trial_reverted read trial room
      quiet := trial_quiet read trial room
      confirmed := trial_confirmed read trial room }
  · intro confirmed
    have settled : (nominationOf port.layout flash).Settled := by
      unfold nominationOf
      split
      · trivial
      · rename_i record read
        rw [if_pos (confirmed record read)]
        trivial
    refine ⟨(bootTarget port.layout flash).getD 0, fun steps => ⟨?_, ?_⟩⟩
    · obtain ⟨new, ran⟩ := appRun_faultFree port flash [] steps
      rw [ran, settled_run settled]
    · intro target jumped
      rw [settled_targets settled] at jumped
      simp only [jumpTargets, List.filterMap_nil, List.nil_append,
        List.mem_flatten, List.mem_replicate] at jumped
      obtain ⟨targets, ⟨_count, rfl⟩, member⟩ := jumped
      rw [Option.mem_toList.mp member, Option.getD_some]

def trialFlash : Flash :=
  Memory.store
    (installed hostLayout (fun _ => 0xFF) blSlotA
      (Blimage.mkimage 1 [0x10, 0x20, 0x30])) 0x08008000
    (newRecord 1 blSlotA blBootTrial 0).toBytes

theorem trialFlash_read :
    blMetaRead hostLayout trialFlash =
      .ok (newRecord 1 blSlotA blBootTrial 0) := by
  decide +kernel

theorem trialFlash_validates : Validates hostLayout trialFlash blSlotA := by
  decide +kernel

theorem blCoreBoot_trial_rollback_armed :
    TrialRun hostPort trialFlash blSlotA 3 ∧
      Validates hostLayout trialFlash blSlotA :=
  ⟨(blCoreBoot_trial_rollback hostPort trialFlash).1 _ trialFlash_read rfl
    (by decide), trialFlash_validates⟩

end Stm32Bootloader
