/-
Which image a confirmation confirms.

A boot runs the slot that selection finds, while a confirmation acts on the
nominated slot.  The two agree as long as the nominated image validates and
the sequence numbers last for the commits of the boot and the confirmation.
-/

import Stm32Bootloader.Trial

namespace Stm32Bootloader

open Interruptible

/-- If the boot jumps to a slot and the application then confirms itself
successfully, the metadata reads as a confirmation of that slot. -/
def ConfirmsRunning (port : Port) (flash : Flash) : Prop :=
  ∀ slot hdr, let booted := (blCoreBoot port ⟨flash, [], []⟩).state
    blCoreValidateSlot port.layout booted.flash slot = .ok hdr →
    appBase port.layout slot hdr ∈ jumpTargets booted.calls →
    ∀ after, blCoreConfirm port booted = .returned .ok after →
      ∃ record, blMetaRead port.layout after.flash = .ok record ∧
        record.activeSlot = slot ∧ record.state = blBootConfirmed

/-- The slot that the metadata nominates is the one that runs, and the
sequence numbers last. -/
def NominatedRuns (layout : BlLayout) (flash : Flash) : Prop :=
  match blMetaRead layout flash with
  | .error _ => True
  | .ok record =>
      if record.state = blBootConfirmed then
        Validates layout flash record.activeSlot
      else if record.bootAttempts < blMaxBootAttempts then
        Validates layout flash record.activeSlot ∧
          record.seq.toNat + 2 < 2 ^ 32
      else record.seq.toNat + 1 < 2 ^ 32

/-! ### The slot that runs -/

theorem appBase_injective (port : Port) {flash : Flash} {left right : U8}
    {leftHdr rightHdr : BlImgHdr}
    (leftOk : blCoreValidateSlot port.layout flash left = .ok leftHdr)
    (rightOk : blCoreValidateSlot port.layout flash right = .ok rightHdr)
    (same : appBase port.layout left leftHdr =
      appBase port.layout right rightHdr) : left = right := by
  have leftImage := (blCoreValidateSlot_ok_iff port).mp leftOk
  have rightImage := (blCoreValidateSlot_ok_iff port).mp rightOk
  have leftFits := port.slotFits left leftImage.slotOk
  have rightFits := port.slotFits right rightImage.slotOk
  have leftEntry := leftImage.entryUpper
  have rightEntry := rightImage.entryUpper
  have apart := port.slotsApart
  unfold BlRegion.Apart Memory.Apart at apart
  unfold appBase at same
  rcases slotIsValid_cases leftImage.slotOk with rfl | rfl <;>
    rcases slotIsValid_cases rightImage.slotOk with rfl | rfl
  · rfl
  · bv_omega
  · bv_omega
  · rfl

theorem blCoreSelectSlot_cases {layout : BlLayout} {flash : Flash}
    {nominated slot : U8} {hdr : BlImgHdr} {record : BlMeta}
    (read : blMetaRead layout flash = .ok record)
    (nominee : record.activeSlot = nominated)
    (selected : blCoreSelectSlot layout flash = .ok (slot, hdr)) :
    (slot = nominated ∧ Validates layout flash nominated) ∨
      (slot = otherSlot nominated ∧ ¬ Validates layout flash nominated) := by
  subst nominee
  by_cases holds : Validates layout flash record.activeSlot
  · left
    obtain ⟨found, accepted⟩ := holds
    rw [blCoreSelectSlot_nominated read accepted] at selected
    cases selected
    exact ⟨rfl, _, accepted⟩
  · right
    have accepted := blCoreSelectSlot_validates selected
    obtain ⟨result, refused⟩ := not_validates_iff.mp holds
    simp only [blCoreSelectSlot, read, refused] at selected
    split at selected <;> cases selected
    exact ⟨rfl, holds⟩

/-- The nomination left by a confirmation, including the one that is lost
because the sequence numbers have run out. -/
theorem afterConfirm_trial {port : Port} {flash : Flash} {held : BlMeta}
    (read : blMetaRead port.layout flash = .ok held)
    (trial : held.state = blBootTrial) :
    nominationOf port.layout (afterConfirm port flash) =
      if held.seq.toNat + 1 < 2 ^ 32 then .confirmed held.activeSlot 0
      else nominationOf port.layout flash := by
  have valid := blMetaRead_valid read
  unfold afterConfirm
  rw [nominationOf_trial read trial]
  by_cases room : held.seq.toNat + 1 < 2 ^ 32
  · rw [if_pos room]
    exact committed_nomination valid.1 stateIsValid_confirmed read room
  · rw [if_neg room]
    have last : held.seq = 0xFFFFFFFF := by bv_omega
    have kept : blMetaRead port.layout
        (committed port flash held.activeSlot blBootConfirmed 0) = .ok held :=
      committed_read_last valid.1 stateIsValid_confirmed read last
    exact nominationOf_trial kept trial

/-- What is left of the claim once the calls have been carried out: the slot
selected after the boot's commit is the one confirmed. -/
theorem confirmsRunning_iff (port : Port) (flash : Flash) :
    ConfirmsRunning port flash ↔
      let booted := afterTrial port flash
      ∀ slot hdr, blCoreSelectSlot port.layout booted = .ok (slot, hdr) →
        nominationOf port.layout booted ≠ .absent →
        ∃ attempts, nominationOf port.layout (afterConfirm port booted) =
          .confirmed slot attempts := by
  obtain ⟨bootResult, bootCalls, targets, booted⟩ :=
    blCoreBoot_faultFree port flash []
  obtain ⟨confirmResult, confirmCalls, _quiet, confirmed, accepted⟩ :=
    blCoreConfirm_faultFree port (afterTrial port flash) ([] ++ bootCalls)
  unfold ConfirmsRunning
  simp only [booted, Outcome.state_returned, confirmed]
  constructor
  · intro property slot hdr selected present
    have validates := blCoreSelectSlot_validates selected
    have target : bootTarget port.layout (afterTrial port flash) =
        some (appBase port.layout slot hdr) := by
      simp only [bootTarget, selected]
    obtain ⟨record, read, slotEq, stateEq⟩ := property slot hdr validates
      (by rw [List.nil_append, targets, target]; exact List.mem_singleton_self _)
      _ (by rw [accepted.mpr present])
    refine ⟨record.bootAttempts.toNat, ?_⟩
    simp only [nominationOf, read, if_pos stateEq, slotEq]
  · intro property slot hdr validates jumped after confirmedOk
    rw [List.nil_append, targets, Option.mem_toList] at jumped
    unfold bootTarget at jumped
    split at jumped
    · rename_i selectedSlot selectedHdr selected
      have same := appBase_injective port
        (blCoreSelectSlot_validates selected) validates (Option.some.inj jumped)
      subst same
      cases confirmedOk
      obtain ⟨attempts, nomination⟩ :=
        property selectedSlot selectedHdr selected (accepted.mp rfl)
      obtain ⟨record, read, slotEq, stateEq, _attemptsEq⟩ :=
        nominationOf_confirmed nomination
      exact ⟨record, read, slotEq, stateEq⟩
    · cases jumped

/-! ### When the running image is the one confirmed -/

section Cases

variable {port : Port} {flash : Flash} {record : BlMeta}
  (read : blMetaRead port.layout flash = .ok record)

include read

theorem nominationOf_record (confirmed : record.state = blBootConfirmed) :
    nominationOf port.layout flash =
      .confirmed record.activeSlot record.bootAttempts.toNat := by
  simp only [nominationOf, read, if_pos confirmed]

theorem confirmed_device_iff (confirmed : record.state = blBootConfirmed)
    (slot : U8) (hdr : BlImgHdr)
    (selected : blCoreSelectSlot port.layout flash = .ok (slot, hdr)) :
    (∃ attempts, nominationOf port.layout (afterConfirm port flash) =
      .confirmed slot attempts) ↔
      Validates port.layout flash record.activeSlot := by
  have nomination := nominationOf_record read confirmed
  have settled : (nominationOf port.layout flash).Settled := by
    rw [nomination]
    trivial
  have kept : afterConfirm port flash = flash :=
    afterCall_settled settled .confirm
  rw [kept, nomination]
  rcases blCoreSelectSlot_cases read rfl selected with
    ⟨rfl, validates⟩ | ⟨rfl, damaged⟩
  · exact ⟨fun _ => validates, fun _ => ⟨_, rfl⟩⟩
  · constructor
    · rintro ⟨attempts, same⟩
      have slotEq := (Nomination.confirmed.inj same).1
      exact absurd slotEq.symm (otherSlot_ne (blMetaRead_valid read).1)
    · exact fun validates => absurd validates damaged

theorem trial_device_iff (trial : record.state = blBootTrial)
    (slot : U8) (hdr : BlImgHdr)
    (selected : blCoreSelectSlot port.layout flash = .ok (slot, hdr)) :
    (∃ attempts, nominationOf port.layout (afterConfirm port flash) =
      .confirmed slot attempts) ↔
      Validates port.layout flash record.activeSlot ∧
        record.seq.toNat + 1 < 2 ^ 32 := by
  rw [afterConfirm_trial read trial, nominationOf_trial read trial]
  by_cases room : record.seq.toNat + 1 < 2 ^ 32
  · rw [if_pos room]
    rcases blCoreSelectSlot_cases read rfl selected with
      ⟨rfl, validates⟩ | ⟨rfl, damaged⟩
    · exact ⟨fun _ => ⟨validates, room⟩, fun _ => ⟨_, rfl⟩⟩
    · constructor
      · rintro ⟨attempts, same⟩
        have slotEq := (Nomination.confirmed.inj same).1
        exact absurd slotEq.symm (otherSlot_ne (blMetaRead_valid read).1)
      · exact fun both => absurd both.1 damaged
  · rw [if_neg room]
    constructor
    · rintro ⟨attempts, impossible⟩
      cases impossible
    · exact fun both => absurd both.2 room

theorem afterTrial_granted (trial : record.state = blBootTrial)
    (granted : record.bootAttempts < blMaxBootAttempts) :
    afterTrial port flash =
      committed port flash record.activeSlot blBootTrial
        (record.bootAttempts + 1) := by
  simp only [afterTrial, trialCommit, read, if_neg (not_not_intro trial),
    if_pos granted]

theorem afterTrial_exhausted (trial : record.state = blBootTrial)
    (exhausted : ¬ record.bootAttempts < blMaxBootAttempts) :
    afterTrial port flash =
      if Validates port.layout flash (otherSlot record.activeSlot) then
        committed port flash (otherSlot record.activeSlot) blBootConfirmed 0
      else flash := by
  simp only [afterTrial, trialCommit, read, if_neg (not_not_intro trial),
    if_neg exhausted]
  by_cases fallback :
      Validates port.layout flash (otherSlot record.activeSlot)
  · simp only [if_pos fallback]
  · simp only [if_neg fallback]

theorem nominated_device_iff (slot : U8) (hdr : BlImgHdr)
    (selected : blCoreSelectSlot port.layout (afterTrial port flash) =
      .ok (slot, hdr)) :
    (∃ attempts, nominationOf port.layout
        (afterConfirm port (afterTrial port flash)) =
      .confirmed slot attempts) ↔ NominatedRuns port.layout flash := by
  have valid := blMetaRead_valid read
  have validates : ∀ other, Validates port.layout (afterTrial port flash)
      other ↔ Validates port.layout flash other := by
    intro other
    simp only [Validates, afterTrial_validate]
  simp only [NominatedRuns, read]
  rcases valid.2 with confirmed | trial
  · have same : afterTrial port flash = flash := by
      apply afterTrial_fixed
      rw [nominationOf_record read confirmed]
      rfl
    rw [same] at selected ⊢
    rw [if_pos confirmed, confirmed_device_iff read confirmed slot hdr selected]
  rw [if_neg (show record.state ≠ blBootConfirmed by rw [trial]; decide)]
  by_cases granted : record.bootAttempts < blMaxBootAttempts
  · rw [if_pos granted, ← validates]
    have commit := afterTrial_granted read trial granted
    by_cases room : record.seq.toNat + 1 < 2 ^ 32
    · obtain ⟨next, nextRead, seqEq, slotEq, stateEq, _attemptsEq⟩ :=
        committed_read_next (record.bootAttempts + 1) valid.1
          stateIsValid_trial read room
      rw [← commit] at nextRead
      rw [trial_device_iff nextRead stateEq slot hdr selected, slotEq, seqEq]
      have step : (record.seq + 1).toNat = record.seq.toNat + 1 := by bv_omega
      rw [step]
    · have kept : blMetaRead port.layout (afterTrial port flash) =
          .ok record := by
        rw [commit]
        exact committed_read_last valid.1 stateIsValid_trial read (by bv_omega)
      rw [trial_device_iff kept trial slot hdr selected]
      exact ⟨fun both => absurd both.2 room, fun both => absurd both.2 (by omega)⟩
  · rw [if_neg granted]
    have commit := afterTrial_exhausted read trial granted
    by_cases fallback :
        Validates port.layout flash (otherSlot record.activeSlot)
    · rw [if_pos fallback] at commit
      by_cases room : record.seq.toNat + 1 < 2 ^ 32
      · obtain ⟨next, nextRead, _seqEq, slotEq, stateEq, _attemptsEq⟩ :=
          committed_read_next 0 (otherSlot_valid record.activeSlot)
            stateIsValid_confirmed read room
        rw [← commit] at nextRead
        rw [confirmed_device_iff nextRead stateEq slot hdr selected, slotEq]
        exact ⟨fun _ => room, fun _ => (validates _).mpr fallback⟩
      · have kept : blMetaRead port.layout (afterTrial port flash) =
            .ok record := by
          rw [commit]
          exact committed_read_last (otherSlot_valid _) stateIsValid_confirmed read
            (by bv_omega)
        rw [trial_device_iff kept trial slot hdr selected]
        exact ⟨fun both => both.2, fun impossible => absurd impossible room⟩
    · rw [if_neg fallback] at commit
      rw [commit] at selected ⊢
      rw [trial_device_iff read trial slot hdr selected]
      refine ⟨fun both => both.2, fun room => ⟨?_, room⟩⟩
      rcases blCoreSelectSlot_cases read rfl selected with
        ⟨_nominated, holds⟩ | ⟨rfl, _damaged⟩
      · exact holds
      · exact absurd ⟨hdr, blCoreSelectSlot_validates selected⟩ fallback

end Cases

/-- A confirmation confirms the image that is running exactly when no image
runs, or the nominated image runs and the sequence numbers last. -/
theorem blCoreConfirm_running_iff (port : Port) (flash : Flash) :
    ConfirmsRunning port flash ↔
      (¬ ∃ slot, Validates port.layout flash slot) ∨
        NominatedRuns port.layout flash := by
  rw [confirmsRunning_iff]
  have validates : (∃ slot, Validates port.layout (afterTrial port flash)
      slot) ↔ ∃ slot, Validates port.layout flash slot := by
    simp only [Validates, afterTrial_validate]
  by_cases some_ : ∃ slot, Validates port.layout flash slot
  · obtain ⟨⟨slot, hdr⟩, selected⟩ :=
      blCoreSelectSlot_ok_iff.mpr (validates.mpr some_)
    simp only [some_, not_true_eq_false, false_or]
    cases read : blMetaRead port.layout flash with
    | error result =>
        have absent : nominationOf port.layout (afterTrial port flash) =
            .absent := by
          have same : afterTrial port flash = flash := by
            simp only [afterTrial, trialCommit, read]
          simp only [same, nominationOf, read]
        simp only [NominatedRuns, read, iff_true]
        exact fun _ _ _ present => absurd absent present
    | ok record =>
        have present : nominationOf port.layout (afterTrial port flash) ≠
            .absent := by
          rcases afterTrial_reads port read with ⟨next, nextRead⟩
          unfold nominationOf
          rw [nextRead]
          dsimp only
          split <;> exact fun impossible => by cases impossible
        rw [← nominated_device_iff read slot hdr selected]
        constructor
        · exact fun property => property slot hdr selected present
        · intro property other otherHdr otherSelected _present
          rw [selected] at otherSelected
          cases otherSelected
          exact property
  · simp only [some_, not_false_eq_true, true_or, iff_true]
    intro slot hdr selected
    exact absurd (validates.mp ⟨slot, hdr,
      blCoreSelectSlot_validates selected⟩) some_

/-- Slot A is confirmed but damaged, and the image in slot B runs. -/
def fallbackFlash : Flash :=
  Memory.store
    (installed hostLayout (fun _ => 0xFF) blSlotB
      (Blimage.mkimage 1 [0x10, 0x20, 0x30])) 0x08008000
    (newRecord 1 blSlotA blBootConfirmed 0).toBytes

theorem fallbackFlash_read :
    blMetaRead hostPort.layout fallbackFlash =
      .ok (newRecord 1 blSlotA blBootConfirmed 0) := by
  decide +kernel

theorem fallbackFlash_damaged :
    ¬ Validates hostPort.layout fallbackFlash blSlotA := by
  decide +kernel

theorem fallbackFlash_validates :
    Validates hostPort.layout fallbackFlash blSlotB := by
  decide +kernel

/-- The fallback image confirms itself and the metadata goes on nominating
the damaged slot. -/
theorem blCoreConfirm_fallback_unconfirmed :
    ¬ ConfirmsRunning hostPort fallbackFlash := by
  rw [confirmsRunning_iff]
  intro property
  have nomination := nominationOf_record fallbackFlash_read rfl
  have same : afterTrial hostPort fallbackFlash = fallbackFlash := by
    apply afterTrial_fixed
    rw [nomination]
    rfl
  rw [same] at property
  obtain ⟨hdr, accepted⟩ := fallbackFlash_validates
  obtain ⟨attempts, confirmed⟩ := property blSlotB hdr
    (blCoreSelectSlot_fallback fallbackFlash_read fallbackFlash_damaged
      accepted)
    (by rw [nomination]; exact fun impossible => by cases impossible)
  have kept : afterConfirm hostPort fallbackFlash = fallbackFlash := by
    simp only [afterConfirm, nomination]
  rw [kept, nomination] at confirmed
  cases confirmed

end Stm32Bootloader
