/-
Which image an update displaces before it is armed.

A slot that selection has picked goes on being picked when the metadata
nominates it.  Picked by fallback, or by version on a device without metadata,
it loses to a complete image in the other slot, for which an update that is
never armed is enough.
-/

import Stm32Bootloader.Containment
import Stm32Bootloader.Tools.Blimage

namespace Stm32Bootloader

open Interruptible LittleEndian TransitionRun

/-- A request or a power cycle that neither erases the slot nor arms one. -/
def Op.Unarmed (slot : U8) : Op → Prop
  | .request frame _ => ¬ frame.Erases slot ∧ frame.cmd ≠ blCmdSetActive
  | .powerCycle => True
  | _ => False

/-- No sequence of requests that arms nothing changes what is selected. -/
def Undisplaced (port : Port) (flash : Flash) : Prop :=
  ∀ slot hdr, blCoreSelectSlot port.layout flash = .ok (slot, hdr) →
    ∀ steps : List Step, (∀ step, step ∈ steps → step.op.Unarmed slot) →
      blCoreSelectSlot port.layout
          (run (systemStep port) (System.initial flash) steps).flash =
        .ok (slot, hdr)

/-- What is selected is nominated, or cannot be outranked by version. -/
def HoldsPlace (layout : BlLayout) (flash : Flash) : Prop :=
  ∀ slot hdr, blCoreSelectSlot layout flash = .ok (slot, hdr) →
    match blMetaRead layout flash with
    | .ok record => record.activeSlot = slot
    | .error _ => slot = blSlotA ∧ hdr.fwVersion = 0xFFFFFFFF

/-! ### Unarmed runs -/

theorem Op.Unarmed.not_erases {op : Op} {slot : U8}
    (unarmed : op.Unarmed slot) : ¬ op.Erases slot := by
  cases op with
  | request frame responseSize => exact unarmed.1
  | boot => exact unarmed.elim
  | confirm => exact unarmed.elim
  | powerCycle => exact fun erases => erases

theorem Op.Unarmed.not_mayCommit {op : Op} {slot : U8}
    (unarmed : op.Unarmed slot) : ¬ op.MayCommit := by
  cases op with
  | request frame responseSize => exact unarmed.2
  | boot => exact unarmed.elim
  | confirm => exact unarmed.elim
  | powerCycle => exact fun commits => commits

theorem unarmed_read (port : Port) (flash : Flash) {slot : U8}
    {steps : List Step}
    (unarmed : ∀ step, step ∈ steps → step.op.Unarmed slot) :
    blMetaRead port.layout
        (run (systemStep port) (System.initial flash) steps).flash =
      blMetaRead port.layout flash := by
  have along : AllAlong (systemStep port)
      (fun _ step => ¬ step.op.MayCommit) (System.initial flash) steps :=
    AllAlong.of_forall fun _ step member => (unarmed step member).not_mayCommit
  have start : slotIsValid (System.initial flash).session.targetSlot = true ∧
      blMetaRead port.layout (System.initial flash).flash =
        blMetaRead port.layout flash :=
    ⟨BlSession.zeroed_targetOk, rfl⟩
  have invariant := along.invariant
    (fun system : System =>
      slotIsValid system.session.targetSlot = true ∧
      blMetaRead port.layout system.flash = blMetaRead port.layout flash)
    start
    (fun system step holds noCommit =>
      ⟨systemStep_targetOk port system step holds.1,
        ((systemStep_contained port system step holds.1).read holds.1
          noCommit).trans holds.2⟩)
  exact invariant.2

theorem unarmed_validate (port : Port) (flash : Flash) {slot : U8}
    (valid : slotIsValid slot = true) {steps : List Step}
    (unarmed : ∀ step, step ∈ steps → step.op.Unarmed slot) :
    blCoreValidateSlot port.layout
        (run (systemStep port) (System.initial flash) steps).flash slot =
      blCoreValidateSlot port.layout flash slot := by
  apply blCoreValidateSlot_congr port
  exact slotBytes_run port valid
    BlSession.zeroed_targetOk
    (zeroed_unopened slot) steps
    (fun step member => (unarmed step member).not_erases)

theorem HoldsPlace.undisplaced {port : Port} {flash : Flash}
    (holds : HoldsPlace port.layout flash) : Undisplaced port flash := by
  intro slot hdr selected steps unarmed
  have accepted := blCoreSelectSlot_validates selected
  have place := holds slot hdr selected
  have kept := unarmed_validate port flash
    (blCoreValidateSlot_valid accepted) unarmed
  have read := unarmed_read port flash unarmed
  rw [accepted] at kept
  cases before : blMetaRead port.layout flash with
  | ok record =>
      rw [before] at place read
      cases place
      exact blCoreSelectSlot_nominated read kept
  | error result =>
      rw [before] at place read
      obtain ⟨rfl, top⟩ := place
      unfold blCoreSelectSlot
      rw [read]
      dsimp only
      unfold selectByVersion
      rw [kept]
      cases blCoreValidateSlot port.layout
          (run (systemStep port) (System.initial flash) steps).flash
          blSlotB with
      | error result => rfl
      | ok other =>
          have outranked : ¬ other.fwVersion > hdr.fwVersion := by
            rw [top]
            bv_omega
          simp only [if_neg outranked]

/-! ### Installing without arming -/

theorem installOps_flash (port : Port) (flash : Flash) {slot : U8}
    (slotOk : slotIsValid slot = true) {image : List U8}
    (fits : image.length ≤ 512 + blMaxWriteData)
    (nonempty : 512 < image.length) (granules : image.length % 8 = 0)
    (room : image.length ≤ (port.layout.slot slot).size.toNat) :
    (run (systemStep port) (System.initial flash)
        ((installOps slot image fits).map fun op => ⟨op, []⟩)).flash =
      installed port.layout ((eraseCall port slot .success).apply port flash)
        slot image := by
  have headerLength : (image.take BlImgHdr.byteSize).length = 40 := by
    rw [List.length_take, BlImgHdr.byteSize]
    omega
  have payloadLength : (image.drop blImgHdrRegion.toNat).length =
      image.length - 512 := List.length_drop
  have region : blImgHdrRegion.toNat = 512 := rfl
  have shortPayload : (image.drop blImgHdrRegion.toNat).length ≤
      blMaxWriteData := by
    rw [payloadLength]
    omega
  have shortHeader : (image.take BlImgHdr.byteSize).length ≤
      blMaxWriteData := by
    rw [headerLength]
    decide
  have payload : WriteAdmitted port ((System.initial flash).session.eraseSlot slot)
      (writeRequest blImgHdrRegion (image.drop blImgHdrRegion.toNat)
        shortPayload) :=
    writeRequest_admitted shortPayload (by omega) rfl (by decide) (by omega)
      (by rw [if_neg (by decide)]; exact Nat.zero_le _)
      (by rw [payloadLength, region]; simp only [BlSession.eraseSlot]; omega)
  have header : WriteAdmitted port
      (((System.initial flash).session.eraseSlot slot).advance
        (writeRequest blImgHdrRegion (image.drop blImgHdrRegion.toNat)
          shortPayload).writeOffset
        (writeRequest blImgHdrRegion (image.drop blImgHdrRegion.toNat)
          shortPayload).writeLength)
      (writeRequest 0 (image.take BlImgHdr.byteSize) shortHeader) :=
    writeRequest_admitted shortHeader (by omega) rfl rfl (by omega)
      (by
        rw [if_pos rfl, writeRequest_offset]
        rfl)
      (by
        have zero : (0 : U32).toNat = 0 := rfl
        rw [headerLength, zero]
        simp only [BlSession.advance, BlSession.eraseSlot]
        omega)
  unfold installOps
  simp only [List.map_cons, List.map_nil]
  rw [run_cons, systemStep_erases (eraseRequest_erases slot) slotOk, run_cons,
    systemStep_admitted payload, run_cons, systemStep_admitted header,
    run_nil]
  dsimp only
  rw [writeCall_apply header slotOk, writeCall_apply payload slotOk,
    writeRequest_offset, writeRequest_offset, writeRequest_data,
    writeRequest_data]
  rfl

/-- A complete image of the highest version. -/
def topImage : List U8 := Blimage.mkimage 0xFFFFFFFF (List.replicate 8 0)

def topHdr : BlImgHdr := BlImgHdr.ofBytes (topImage.take 40)

theorem topImage_length : topImage.length = 520 := by decide +kernel

theorem topHdr_version : topHdr.fwVersion = 0xFFFFFFFF := by decide +kernel

theorem topImage_fits : topImage.length ≤ 512 + blMaxWriteData := by
  rw [topImage_length]
  decide

theorem topImage_validates (port : Port) (flash : Flash) {slot : U8}
    (slotOk : slotIsValid slot = true) :
    blCoreValidateSlot port.layout
      (installed port.layout flash slot topImage) slot = .ok topHdr := by
  have room : 512 + 8 ≤ (port.layout.slot slot).size.toNat :=
    port.slotHoldsImage slot slotOk
  rw [blCoreValidateSlot_ok_iff]
  exact validImage_installed flash slotOk
    (by rw [topImage_length]; decide) (by rw [topImage_length]; omega)
    rfl (by decide +kernel) (by decide +kernel) (by decide +kernel)
    (by decide +kernel) (by decide +kernel) (by decide +kernel)

/-- The update of a slot with that image that is never armed. -/
def topSteps (slot : U8) : List Step :=
  (installOps slot topImage topImage_fits).map fun op => ⟨op, []⟩

theorem topSteps_unarmed {slot : U8} (valid : slotIsValid slot = true)
    (step : Step) (member : step ∈ topSteps (otherSlot slot)) :
    step.op.Unarmed slot := by
  have notWrite : ∀ request : BlFrame, request.cmd = blCmdWrite →
      ¬ request.Erases slot ∧ request.cmd ≠ blCmdSetActive := by
    intro request isWrite
    exact ⟨fun erases => BlFrame.cmd_clash isWrite erases.1,
      fun isArm => BlFrame.cmd_clash isWrite isArm⟩
  simp only [topSteps, installOps, List.map_cons, List.map_nil,
    List.mem_cons, List.not_mem_nil, or_false] at member
  rcases member with rfl | rfl | rfl
  · refine ⟨fun erases => ?_,
      (by decide : blCmdEraseSlot ≠ blCmdSetActive)⟩
    have named := (eraseRequest_erases (otherSlot slot)).2.2
    exact otherSlot_ne valid (named.symm.trans erases.2.2)
  · exact notWrite _ rfl
  · exact notWrite _ rfl

theorem topSteps_validates (port : Port) (flash : Flash) {slot : U8}
    (slotOk : slotIsValid slot = true) :
    blCoreValidateSlot port.layout
      (run (systemStep port) (System.initial flash) (topSteps slot)).flash
      slot = .ok topHdr := by
  have room : 512 + 8 ≤ (port.layout.slot slot).size.toNat :=
    port.slotHoldsImage slot slotOk
  rw [topSteps, installOps_flash port flash slotOk topImage_fits
    (by rw [topImage_length]; decide) (by rw [topImage_length])
    (by rw [topImage_length]; omega)]
  exact topImage_validates port _ slotOk

theorem Undisplaced.holds {port : Port} {flash : Flash}
    (undisplaced : Undisplaced port flash) :
    HoldsPlace port.layout flash := by
  intro slot hdr selected
  have accepted := blCoreSelectSlot_validates selected
  have valid := blCoreValidateSlot_valid accepted
  have kept := undisplaced slot hdr selected (topSteps (otherSlot slot))
    (topSteps_unarmed valid)
  have installed := topSteps_validates port flash (otherSlot_valid slot)
  have own := unarmed_validate port flash valid (topSteps_unarmed valid)
  have read := unarmed_read port flash (topSteps_unarmed valid)
  rw [accepted] at own
  revert kept installed own read
  generalize (run (systemStep port) (System.initial flash)
    (topSteps (otherSlot slot))).flash = after
  intro kept installed own read
  cases before : blMetaRead port.layout flash with
  | ok record =>
      rw [before] at read
      by_contra different
      have nominee := eq_otherSlot valid (blMetaRead_valid before).1 different
      have displaced := blCoreSelectSlot_nominated read
        (nominee ▸ installed)
      rw [kept] at displaced
      exact different (congrArg Prod.fst (Except.ok.inj displaced)).symm
  | error result =>
      rw [before] at read
      simp only [blCoreSelectSlot, read, selectByVersion] at kept
      rcases slotIsValid_cases valid with rfl | rfl
      · have other : otherSlot blSlotA = blSlotB := by decide
        rw [other] at installed
        rw [own, installed] at kept
        simp only [topHdr_version] at kept
        refine ⟨rfl, ?_⟩
        by_contra below
        rw [if_pos (by bv_omega)] at kept
        have same : blSlotB = blSlotA :=
          congrArg Prod.fst (Except.ok.inj kept)
        exact absurd same (by decide)
      · have other : otherSlot blSlotB = blSlotA := by decide
        rw [other] at installed
        rw [own, installed] at kept
        simp only [topHdr_version] at kept
        rw [if_neg (by bv_omega)] at kept
        have same : blSlotA = blSlotB :=
          congrArg Prod.fst (Except.ok.inj kept)
        exact absurd same (by decide)

end Stm32Bootloader
