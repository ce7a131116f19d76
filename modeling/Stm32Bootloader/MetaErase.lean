/-
Erasing the boot metadata, `bl_meta_erase_all` of bl_meta.c.

The regions are erased in index order, wherever the authoritative record is.
An erase of both that stops after the first one brings back a record that the
first region had superseded.
-/

import Stm32Bootloader.MetaRegion

namespace Stm32Bootloader

open Interruptible

def eraseRegions (port : Port) : List U32 → PortM BlResult
  | [] => pure .ok
  | index :: later => do
      let result ← blFlashErase port (port.layout.metaRegion index).base
        (port.layout.metaRegion index).size
      if result ≠ .ok then pure result else eraseRegions port later

def blMetaEraseAll (port : Port) : PortM BlResult :=
  eraseRegions port
    ((List.range blMetaCount.toNat).map (BitVec.ofNat 32))

/-! ### Both regions -/

theorem blMetaRead_value (layout : BlLayout) (flash : Flash) :
    blMetaRead layout flash =
      match PingPong.value metaRank (metaCells layout flash) with
      | none => .error .errNoMetadata
      | some record => .ok record := by
  rw [blMetaRead_eq, PingPong.value]
  cases PingPong.newest metaRank (metaCells layout flash) <;> rfl

theorem blMetaRead_same_iff {layout : BlLayout} {before after : Flash} :
    blMetaRead layout after = blMetaRead layout before ↔
      PingPong.value metaRank (metaCells layout after) =
        PingPong.value metaRank (metaCells layout before) := by
  rw [blMetaRead_value, blMetaRead_value]
  constructor
  · intro same
    split at same <;> split at same <;> cases same <;> simp only [*]
  · intro same
    rw [same]

theorem blMetaRead_none_iff {layout : BlLayout} {flash : Flash} :
    blMetaRead layout flash = .error .errNoMetadata ↔
      PingPong.value metaRank (metaCells layout flash) = none := by
  rw [blMetaRead_value]
  cases PingPong.value metaRank (metaCells layout flash) <;> simp

/-- How the second erase ends, if it is made. -/
def Device.secondOutcome (device : Device) : FlashOutcome :=
  device.outcomes.tail.headD .success

/-- The first region has been erased and the second one has not. -/
def Device.StopsBetween (device : Device) : Prop :=
  device.outcome.Effective ∧
    ¬ (device.outcome = .success ∧ device.secondOutcome.Effective)

/-- The metadata reads as before, or there is none. -/
def Forgets (port : Port) (device : Device) : Prop :=
  let after := (blMetaEraseAll port device).state.flash
  blMetaRead port.layout after = blMetaRead port.layout device.flash ∨
    blMetaRead port.layout after = .error .errNoMetadata

theorem blMetaEraseAll_flash (port : Port) (device : Device) :
    (blMetaEraseAll port device).state.flash =
      let first := (metaEraseCall port false device.outcome).apply port
        device.flash
      if device.outcome = .success then
        (metaEraseCall port true device.secondOutcome).apply port first
      else first := by
  have regions : (List.range blMetaCount.toNat).map (BitVec.ofNat 32) =
      [regionIndex false, regionIndex true] := rfl
  unfold blMetaEraseAll
  rw [regions, eraseRegions, Prog.bind_apply]
  simp only [blFlashErase]
  cases first : device.outcome with
  | failure error =>
      simp only [FlashOutcome.conclude, reduceCtorEq, if_false]
      rw [if_pos error.result_ne_ok]
      rfl
  | powerLoss units => rfl
  | success =>
      simp only [FlashOutcome.conclude, ne_eq, not_true_eq_false, if_false]
      rw [eraseRegions, Prog.bind_apply]
      simp only [blFlashErase]
      have next : (device.called port (.erase
          (port.layout.metaRegion (regionIndex false)).base
          (port.layout.metaRegion (regionIndex false)).size
          .success)).outcome = device.secondOutcome := rfl
      rw [next]
      cases device.secondOutcome with
      | failure error =>
          simp only [FlashOutcome.conclude]
          rw [if_pos error.result_ne_ok]
          rfl
      | powerLoss units => rfl
      | success => rfl

theorem blMetaEraseAll_cells (port : Port) (device : Device) :
    let cells := metaCells port.layout device.flash
    let after := metaCells port.layout
      (blMetaEraseAll port device).state.flash
    (¬ device.outcome.Effective → after = cells) ∧
    (device.StopsBetween → after = Function.update cells false none) ∧
    (device.outcome.Effective → ¬ device.StopsBetween →
      ∀ index, after index = none) := by
  intro cells after
  have afterEq : after = metaCells port.layout
      (blMetaEraseAll port device).state.flash := rfl
  have first := metaEraseCall_cells port device.flash false device.outcome
  rw [blMetaEraseAll_flash] at afterEq
  dsimp only at afterEq
  refine ⟨fun idle => ?_, fun between => ?_, fun effective both => ?_⟩
  · rw [if_neg fun success => idle (by rw [success]; trivial), first,
      if_neg idle] at afterEq
    exact afterEq
  · by_cases success : device.outcome = .success
    · have idle : ¬ device.secondOutcome.Effective :=
        fun done => between.2 ⟨success, done⟩
      rw [if_pos success, metaEraseCall_cells, if_neg idle, first,
        if_pos between.1] at afterEq
      exact afterEq
    · rw [if_neg success, first, if_pos between.1] at afterEq
      exact afterEq
  · have done : device.outcome = .success ∧
        device.secondOutcome.Effective :=
      by_contra fun missing => both ⟨effective, missing⟩
    rw [if_pos done.1, metaEraseCall_cells, if_pos done.2, first,
      if_pos effective] at afterEq
    intro index
    rw [afterEq]
    cases index with
    | false =>
        rw [Function.update_of_ne (by decide), Function.update_self]
    | true => rw [Function.update_self]

/-- An erase of the metadata brings back an older record exactly when it stops
between the regions and the first one held what superseded the second. -/
theorem blMetaEraseAll_forgets_iff (port : Port) (device : Device) :
    Forgets port device ↔
      ¬ (device.StopsBetween ∧
        PingPong.Superseded metaRank
          (metaCells port.layout device.flash)) := by
  obtain ⟨idle, between, both⟩ := blMetaEraseAll_cells port device
  unfold Forgets
  dsimp only
  rw [blMetaRead_same_iff, blMetaRead_none_iff]
  by_cases stops : device.StopsBetween
  · rw [between stops, PingPong.value_emptyFirst_iff]
    exact not_congr (and_iff_right stops).symm
  · refine iff_of_true ?_ fun impossible => stops impossible.1
    by_cases effective : device.outcome.Effective
    · exact Or.inr (PingPong.value_empty (both effective stops))
    · rw [idle effective]
      exact Or.inl rfl

/-- A record and, in the second region, the one before it. -/
def rewrittenFlash : Flash :=
  Memory.store
    (Memory.store (fun _ => 0xFF) 0x08008000
      (newRecord 3 blSlotB blBootTrial 0).toBytes) 0x08008800
    (newRecord 2 blSlotA blBootConfirmed 0).toBytes

/-- The second erase fails and the confirmation of the old slot returns. -/
theorem rewrittenFlash_resurrects :
    blMetaRead hostPort.layout rewrittenFlash =
        .ok (newRecord 3 blSlotB blBootTrial 0) ∧
      ¬ Forgets hostPort
        ⟨rewrittenFlash, [.success, .failure .erase], []⟩ := by
  have before : blMetaRead hostPort.layout rewrittenFlash =
      .ok (newRecord 3 blSlotB blBootTrial 0) := by
    decide +kernel
  have after : blMetaRead hostPort.layout
      (blMetaEraseAll hostPort
        ⟨rewrittenFlash, [.success, .failure .erase], []⟩).state.flash =
      .ok (newRecord 2 blSlotA blBootConfirmed 0) := by
    decide +kernel
  refine ⟨before, ?_⟩
  have differ : newRecord 2 blSlotA blBootConfirmed 0 ≠
      newRecord 3 blSlotB blBootTrial 0 := by
    decide +kernel
  rintro (same | gone)
  · rw [after, before] at same
    exact differ (Except.ok.inj same)
  · rw [after] at gone
    cases gone

end Stm32Bootloader
