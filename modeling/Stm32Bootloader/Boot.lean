/-
Boot selection, trial bookkeeping and confirmation of bl_core.c.

Selection is a function of the flash.  A boot first makes at most one metadata
commit, which leaves the slots alone, and then jumps to the selected image, so
it jumps exactly when some slot validates.
-/

import Stm32Bootloader.Image
import Stm32Bootloader.MetaCommit

namespace Stm32Bootloader

open Interruptible

/-! ### Selection -/

def selectByVersion (layout : BlLayout) (flash : Flash) :
    Except BlResult (U8 × BlImgHdr) :=
  match blCoreValidateSlot layout flash blSlotA,
      blCoreValidateSlot layout flash blSlotB with
  | .ok hdrA, .ok hdrB =>
      if hdrB.fwVersion > hdrA.fwVersion then .ok (blSlotB, hdrB)
      else .ok (blSlotA, hdrA)
  | .ok hdrA, .error _ => .ok (blSlotA, hdrA)
  | .error _, .ok hdrB => .ok (blSlotB, hdrB)
  | .error _, .error _ => .error .errNoValidImage

def blCoreSelectSlot (layout : BlLayout) (flash : Flash) :
    Except BlResult (U8 × BlImgHdr) :=
  match blMetaRead layout flash with
  | .error _ => selectByVersion layout flash
  | .ok record =>
      match blCoreValidateSlot layout flash record.activeSlot with
      | .ok hdr => .ok (record.activeSlot, hdr)
      | .error _ =>
          let other := otherSlot record.activeSlot
          match blCoreValidateSlot layout flash other with
          | .ok hdr => .ok (other, hdr)
          | .error _ => .error .errNoValidImage

/-- The slot holds an image that passes validation. -/
def Validates (layout : BlLayout) (flash : Flash) (slot : U8) : Prop :=
  ∃ hdr, blCoreValidateSlot layout flash slot = .ok hdr

instance (layout : BlLayout) (flash : Flash) (slot : U8) :
    Decidable (Validates layout flash slot) :=
  match verdict : blCoreValidateSlot layout flash slot with
  | .ok hdr => isTrue ⟨hdr, verdict⟩
  | .error _ => isFalse (fun ⟨hdr, accepted⟩ => by
      rw [verdict] at accepted
      cases accepted)

theorem Validates.valid {layout : BlLayout} {flash : Flash} {slot : U8}
    (validates : Validates layout flash slot) : slotIsValid slot = true := by
  obtain ⟨hdr, accepted⟩ := validates
  exact blCoreValidateSlot_valid accepted

theorem not_validates_iff {layout : BlLayout} {flash : Flash} {slot : U8} :
    ¬ Validates layout flash slot ↔
      ∃ result, blCoreValidateSlot layout flash slot = .error result := by
  unfold Validates
  cases blCoreValidateSlot layout flash slot with
  | ok hdr => simp
  | error result => simp

/-- With a record, selection is the nominated slot while it validates. -/
theorem blCoreSelectSlot_nominated {layout : BlLayout} {flash : Flash}
    {record : BlMeta} {hdr : BlImgHdr}
    (read : blMetaRead layout flash = .ok record)
    (accepted : blCoreValidateSlot layout flash record.activeSlot =
      .ok hdr) :
    blCoreSelectSlot layout flash = .ok (record.activeSlot, hdr) := by
  simp only [blCoreSelectSlot, read, accepted]

theorem blCoreSelectSlot_fallback {layout : BlLayout} {flash : Flash}
    {record : BlMeta} {hdr : BlImgHdr}
    (read : blMetaRead layout flash = .ok record)
    (damaged : ¬ Validates layout flash record.activeSlot)
    (accepted : blCoreValidateSlot layout flash
      (otherSlot record.activeSlot) = .ok hdr) :
    blCoreSelectSlot layout flash =
      .ok (otherSlot record.activeSlot, hdr) := by
  obtain ⟨result, refused⟩ := not_validates_iff.mp damaged
  simp only [blCoreSelectSlot, read, refused, accepted]

theorem blCoreSelectSlot_validates {layout : BlLayout} {flash : Flash}
    {slot : U8} {hdr : BlImgHdr}
    (selected : blCoreSelectSlot layout flash = .ok (slot, hdr)) :
    blCoreValidateSlot layout flash slot = .ok hdr := by
  unfold blCoreSelectSlot at selected
  split at selected
  · unfold selectByVersion at selected
    split at selected <;> rename_i aEq bEq
    · split at selected <;> cases selected
      · exact bEq
      · exact aEq
    · cases selected
      exact aEq
    · cases selected
      exact bEq
    · cases selected
  · split at selected <;> rename_i accepted
    · cases selected
      exact accepted
    · dsimp only at selected
      split at selected <;> rename_i otherAccepted <;> cases selected
      exact otherAccepted

theorem blCoreSelectSlot_error {layout : BlLayout} {flash : Flash}
    {result : BlResult}
    (refused : blCoreSelectSlot layout flash = .error result) :
    result = .errNoValidImage ∧ ∀ slot, ¬ Validates layout flash slot := by
  suffices both : result = .errNoValidImage ∧
      ¬ Validates layout flash blSlotA ∧ ¬ Validates layout flash blSlotB by
    refine ⟨both.1, fun slot validates => ?_⟩
    rcases slotIsValid_cases validates.valid with rfl | rfl
    · exact both.2.1 validates
    · exact both.2.2 validates
  unfold blCoreSelectSlot at refused
  split at refused
  · unfold selectByVersion at refused
    split at refused <;> rename_i aEq bEq
    · split at refused <;> cases refused
    · cases refused
    · cases refused
    · cases refused
      exact ⟨rfl, not_validates_iff.mpr ⟨_, aEq⟩,
        not_validates_iff.mpr ⟨_, bEq⟩⟩
  · rename_i record read
    split at refused <;> rename_i damaged
    · cases refused
    · dsimp only at refused
      split at refused <;> rename_i otherDamaged <;> cases refused
      have nominated := not_validates_iff.mpr ⟨_, damaged⟩
      have other := not_validates_iff.mpr ⟨_, otherDamaged⟩
      rcases slotIsValid_cases (blMetaRead_valid read).1 with slotEq | slotEq <;>
        rw [slotEq] at nominated other
      · exact ⟨rfl, nominated, other⟩
      · exact ⟨rfl, other, nominated⟩

theorem blCoreSelectSlot_ok_iff {layout : BlLayout} {flash : Flash} :
    (∃ selected, blCoreSelectSlot layout flash = .ok selected) ↔
      ∃ slot, Validates layout flash slot := by
  constructor
  · rintro ⟨⟨slot, hdr⟩, selected⟩
    exact ⟨slot, hdr, blCoreSelectSlot_validates selected⟩
  · rintro ⟨slot, validates⟩
    cases selection : blCoreSelectSlot layout flash with
    | ok selected => exact ⟨selected, rfl⟩
    | error result =>
        exact absurd validates ((blCoreSelectSlot_error selection).2 slot)

/-! ### Trial bookkeeping and boot -/

/-- The result of the commit is dropped: boot continues either way. -/
def advanceTrialState (port : Port) : PortM Unit := do
  let flash ← readFlash
  match blMetaRead port.layout flash with
  | .error _ => pure ()
  | .ok record =>
      if record.state ≠ blBootTrial then pure ()
      else if record.bootAttempts < blMaxBootAttempts then do
        let _ ← blMetaCommit port record.activeSlot blBootTrial
          (record.bootAttempts + 1)
        pure ()
      else
        let other := otherSlot record.activeSlot
        match blCoreValidateSlot port.layout flash other with
        | .error _ => pure ()
        | .ok _ => do
            let _ ← blMetaCommit port other blBootConfirmed 0
            pure ()

def appBase (layout : BlLayout) (slot : U8) (hdr : BlImgHdr) : U32 :=
  (layout.slot slot).base + hdr.entryOffset

/-- The jump returns only when the port refuses it.  An application that is
started runs until the next reset, so the flash and the log it leaves are the
same. -/
def blCoreBoot (port : Port) : PortM BlResult := do
  advanceTrialState port
  let flash ← readFlash
  match blCoreSelectSlot port.layout flash with
  | .error result => pure result
  | .ok (slot, hdr) => do
      blJumpToApp port (appBase port.layout slot hdr)
      pure .errJumpRefused

/-! ### Boot metadata operations -/

def blCoreMarkPending (port : Port) (slot : U8) : PortM BlResult :=
  if ¬ slotIsValid slot then pure .errInvalidArgument
  else do
    let flash ← readFlash
    match blCoreValidateSlot port.layout flash slot with
    | .error result => pure result
    | .ok _ => blMetaCommit port slot blBootTrial 0

def blCoreConfirm (port : Port) : PortM BlResult := do
  let flash ← readFlash
  match blMetaRead port.layout flash with
  | .error result => pure result
  | .ok record =>
      if record.state = blBootConfirmed then pure .ok
      else blMetaCommit port record.activeSlot blBootConfirmed 0

/-! ### Commits leave the slots alone -/

theorem CommitCalls.slotBytes {port : Port} {flash : Flash}
    {activeSlot state bootAttempts : U8} {new : List PortCall}
    (calls : CommitCalls port flash activeSlot state bootAttempts new)
    {slot : U8} (valid : slotIsValid slot = true) :
    slotBytes port.layout (replay port flash new) slot =
      slotBytes port.layout flash slot := by
  apply calls.agreesOutside.load
  exact (port.slotMetaApart slot _ valid (commitPlan_valid port flash)).symm

theorem CommitCalls.validate {port : Port} {flash : Flash}
    {activeSlot state bootAttempts : U8} {new : List PortCall}
    (calls : CommitCalls port flash activeSlot state bootAttempts new)
    (slot : U8) :
    blCoreValidateSlot port.layout (replay port flash new) slot =
      blCoreValidateSlot port.layout flash slot := by
  by_cases valid : slotIsValid slot = true
  · exact blCoreValidateSlot_congr port (calls.slotBytes valid)
  · unfold blCoreValidateSlot
    rw [if_pos valid, if_pos valid]

/-- The addresses passed to the application jump, in order. -/
def jumpTargets (calls : List PortCall) : List U32 :=
  calls.filterMap fun
    | .jump address => some address
    | _ => none

theorem jumpTargets_append (left right : List PortCall) :
    jumpTargets (left ++ right) = jumpTargets left ++ jumpTargets right :=
  List.filterMap_append

theorem CommitCalls.jumpTargets {port : Port} {flash : Flash}
    {activeSlot state bootAttempts : U8} {new : List PortCall}
    (calls : CommitCalls port flash activeSlot state bootAttempts new) :
    jumpTargets new = [] := by
  cases calls <;> rfl

/-! ### The commit of a boot -/

/-- The arguments of the commit that `advance_trial_state` makes, if any. -/
def trialCommit (layout : BlLayout) (flash : Flash) : Option (U8 × U8 × U8) :=
  match blMetaRead layout flash with
  | .error _ => none
  | .ok record =>
      if record.state ≠ blBootTrial then none
      else if record.bootAttempts < blMaxBootAttempts then
        some (record.activeSlot, blBootTrial, record.bootAttempts + 1)
      else if Validates layout flash (otherSlot record.activeSlot) then
        some (otherSlot record.activeSlot, blBootConfirmed, 0)
      else none

theorem advanceTrialState_eq (port : Port) (device : Device) :
    advanceTrialState port device =
      match trialCommit port.layout device.flash with
      | none => .returned () device
      | some (slot, state, attempts) =>
          (blMetaCommit port slot state attempts device).drop := by
  unfold advanceTrialState trialCommit
  rw [readFlash_bind]
  cases blMetaRead port.layout device.flash with
  | error result => rfl
  | ok record =>
      dsimp only
      by_cases trial : record.state = blBootTrial
      · rw [if_neg (not_not_intro trial), if_neg (not_not_intro trial)]
        by_cases granted : record.bootAttempts < blMaxBootAttempts
        · rw [if_pos granted, if_pos granted]
          exact Prog.bind_drop _ device
        · rw [if_neg granted, if_neg granted]
          by_cases fallback :
              Validates port.layout device.flash (otherSlot record.activeSlot)
          · rw [if_pos fallback]
            obtain ⟨hdr, accepted⟩ := fallback
            simp only [accepted]
            exact Prog.bind_drop _ device
          · rw [if_neg fallback]
            obtain ⟨result, refused⟩ := not_validates_iff.mp fallback
            simp only [refused]
            rfl
      · rw [if_pos trial, if_pos trial]
        rfl

def TrialCalls (port : Port) (flash : Flash) (new : List PortCall) : Prop :=
  (trialCommit port.layout flash = none ∧ new = []) ∨
  ∃ slot state attempts,
    trialCommit port.layout flash = some (slot, state, attempts) ∧
    CommitCalls port flash slot state attempts new

theorem TrialCalls.validate {port : Port} {flash : Flash}
    {new : List PortCall} (calls : TrialCalls port flash new) (slot : U8) :
    blCoreValidateSlot port.layout (replay port flash new) slot =
      blCoreValidateSlot port.layout flash slot := by
  rcases calls with ⟨_none, rfl⟩ | ⟨_, _, _, _plan, commit⟩
  · rfl
  · exact commit.validate slot

theorem TrialCalls.slotBytes {port : Port} {flash : Flash}
    {new : List PortCall} (calls : TrialCalls port flash new) {slot : U8}
    (valid : slotIsValid slot = true) :
    slotBytes port.layout (replay port flash new) slot =
      slotBytes port.layout flash slot := by
  rcases calls with ⟨_none, rfl⟩ | ⟨_, _, _, _plan, commit⟩
  · rfl
  · exact commit.slotBytes valid

theorem TrialCalls.jumpTargets {port : Port} {flash : Flash}
    {new : List PortCall} (calls : TrialCalls port flash new) :
    jumpTargets new = [] := by
  rcases calls with ⟨_none, rfl⟩ | ⟨_, _, _, _plan, commit⟩
  · rfl
  · exact commit.jumpTargets

theorem advanceTrialState_calls (port : Port) (device : Device) :
    ∃ new, TrialCalls port device.flash new ∧
      (advanceTrialState port device).state.calls = device.calls ++ new ∧
      (advanceTrialState port device).state.flash =
        replay port device.flash new := by
  rw [advanceTrialState_eq]
  cases plan : trialCommit port.layout device.flash with
  | none => exact ⟨[], Or.inl ⟨plan, rfl⟩, (List.append_nil _).symm, rfl⟩
  | some arguments =>
      obtain ⟨slot, state, attempts⟩ := arguments
      obtain ⟨new, calls, log, flashEq⟩ :=
        blMetaCommit_calls port slot state attempts device
      refine ⟨new, Or.inr ⟨slot, state, attempts, plan, calls⟩, ?_⟩
      simp only [Outcome.state_drop]
      exact ⟨log, flashEq⟩

/-- The address that a boot of this flash jumps to, if any. -/
def bootTarget (layout : BlLayout) (flash : Flash) : Option U32 :=
  match blCoreSelectSlot layout flash with
  | .ok (slot, hdr) => some (appBase layout slot hdr)
  | .error _ => none

theorem blCoreBoot_returned {port : Port} {device after : Device}
    (advanced : advanceTrialState port device = .returned () after) :
    blCoreBoot port device =
      match bootTarget port.layout after.flash with
      | some address =>
          .returned .errJumpRefused
            { after with calls := after.calls ++ [.jump address] }
      | none => .returned .errNoValidImage after := by
  unfold blCoreBoot bootTarget
  rw [Prog.bind_returned advanced, readFlash_bind]
  cases selection : blCoreSelectSlot port.layout after.flash with
  | error result =>
      rw [(blCoreSelectSlot_error selection).1]
      rfl
  | ok selected => rfl

theorem advanceTrialState_returns (port : Port) (flash : Flash)
    (faults : List (Option FlashError)) (calls : List PortCall) :
    ∃ after, advanceTrialState port ⟨flash, faults.map .ofFault, calls⟩ =
      .returned () after := by
  rw [advanceTrialState_eq]
  split
  · exact ⟨_, rfl⟩
  · rename_i slot state attempts _plan
    obtain ⟨result, after, returned⟩ :=
      blMetaCommit_returns port slot state attempts flash faults calls
    rw [returned]
    exact ⟨after, rfl⟩

theorem blCoreBoot_lost {port : Port} {device after : Device}
    (advanced : advanceTrialState port device = .lost after) :
    blCoreBoot port device = .lost after := by
  unfold blCoreBoot
  exact Prog.bind_lost advanced

/-! ### Boot safety and availability -/

/-- Whatever the slots and the metadata hold, and whichever flash calls fail,
a boot jumps once, into an image that validates at that moment, when there is
one; otherwise it reports that there is none.  It changes no slot. -/
theorem blCoreBoot_safe_available (port : Port) (flash : Flash)
    (faults : List (Option FlashError)) :
    ∃ result after,
      blCoreBoot port ⟨flash, faults.map .ofFault, []⟩ =
        .returned result after ∧
      ((∃ slot, Validates port.layout flash slot) →
        ∃ commit slot hdr,
          after.calls = commit ++ [.jump (appBase port.layout slot hdr)] ∧
          jumpTargets commit = [] ∧
          blCoreValidateSlot port.layout (replay port flash commit) slot =
            .ok hdr) ∧
      ((¬ ∃ slot, Validates port.layout flash slot) →
        jumpTargets after.calls = []) ∧
      (result = .errNoValidImage ↔
        ¬ ∃ slot, Validates port.layout flash slot) ∧
      ∀ slot, slotIsValid slot = true →
        ∀ address, (port.layout.slot slot).Holds address →
          after.flash address = flash address := by
  obtain ⟨advanced, advancedEq⟩ := advanceTrialState_returns port flash faults []
  obtain ⟨new, calls, log, flashEq⟩ := advanceTrialState_calls port
    ⟨flash, faults.map .ofFault, []⟩
  rw [advancedEq] at log flashEq
  have logEq : advanced.calls = new := log
  have contents : advanced.flash = replay port flash new := flashEq
  have slots : (∃ slot, Validates port.layout advanced.flash slot) ↔
      ∃ slot, Validates port.layout flash slot := by
    simp only [Validates, contents, calls.validate]
  have untouched : ∀ slot, slotIsValid slot = true →
      ∀ address, (port.layout.slot slot).Holds address →
        advanced.flash address = flash address := by
    intro slot valid address inside
    rw [contents]
    exact slotBytes_at (calls.slotBytes valid) inside
  rw [blCoreBoot_returned advancedEq]
  unfold bootTarget
  cases selection : blCoreSelectSlot port.layout advanced.flash with
  | ok selected =>
      obtain ⟨slot, hdr⟩ := selected
      have accepted := blCoreSelectSlot_validates selection
      have some_ := slots.mp ⟨slot, hdr, accepted⟩
      refine ⟨_, _, rfl, fun _ => ⟨new, slot, hdr, ?_, calls.jumpTargets, ?_⟩,
        fun none_ => absurd some_ none_,
        ⟨fun refused => BlResult.noConfusion refused,
          fun none_ => absurd some_ none_⟩, untouched⟩
      · rw [logEq]
      · rwa [contents] at accepted
  | error result =>
      have none_ := fun some_ => (blCoreSelectSlot_error selection).2 _
        (slots.mpr some_).choose_spec
      refine ⟨_, _, rfl, fun some_ => absurd some_ none_, fun _ => ?_,
        ⟨fun _ => none_, fun _ => rfl⟩, untouched⟩
      rw [logEq, calls.jumpTargets]

end Stm32Bootloader
