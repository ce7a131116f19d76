/-
What one erase and one write do to a metadata region.

A region is rewritten by an erase, or by an erase and the programming of a
record.  Wherever that stops, the other region reads as before, and the
rewritten one reads as before, as empty, or as a record with the fields of
the new one.
-/

import Stm32Bootloader.Meta

namespace Stm32Bootloader

/-- The fields of a record that the bootloader acts on. -/
def BlMeta.SameFields (left right : BlMeta) : Prop :=
  left.seq = right.seq ∧ left.activeSlot = right.activeSlot ∧
    left.state = right.state ∧ left.bootAttempts = right.bootAttempts

/-- Some pages have been erased, the first one at least. -/
def FlashOutcome.Effective : FlashOutcome → Prop
  | .success => True
  | .failure _ => False
  | .powerLoss units => 0 < units

instance (outcome : FlashOutcome) : Decidable outcome.Effective :=
  match outcome with
  | .success => isTrue trivial
  | .failure _ => isFalse id
  | .powerLoss units => inferInstanceAs (Decidable (0 < units))

def metaEraseCall (port : Port) (second : Bool) (outcome : FlashOutcome) :
    PortCall :=
  .erase (port.layout.metaRegion (regionIndex second)).base
    (port.layout.metaRegion (regionIndex second)).size outcome

def metaWriteCall (port : Port) (second : Bool) (record : BlMeta)
    (outcome : FlashOutcome) : PortCall :=
  .write (port.layout.metaRegion (regionIndex second)).base record.toBytes
    outcome

theorem commitRefused_iff {activeSlot state : U8} :
    (activeSlot ≥ blSlotCount ∨ ¬ stateIsValid state) ↔
      ¬ (slotIsValid activeSlot = true ∧ stateIsValid state = true) := by
  unfold slotIsValid
  rw [decide_eq_true_eq, not_and_or, BitVec.not_lt]

theorem metaRegion_erasable (port : Port) {index : U32}
    (valid : index < blMetaCount) :
    let base := (port.layout.metaRegion index).base
    let size := (port.layout.metaRegion index).size
    let granularity := port.eraseGranularity base
    ¬ (granularity = 0 ∨ base % granularity ≠ 0 ∨
      size % granularity ≠ 0) := by
  intro base size granularity
  have pages := port.metaPages index valid
  simp only [regionIsErasable] at pages
  split at pages
  · cases pages
  rename_i positive
  simp only [Bool.and_eq_true, decide_eq_true_eq] at pages
  rintro (zero | misplaced | odd)
  · exact positive zero
  · exact misplaced pages.1
  · exact odd pages.2

/-! ### Extents -/

theorem extent_granules (outcome : FlashOutcome) :
    outcome.extent 8 16 = 0 ∨ outcome.extent 8 16 = 8 ∨
      outcome.extent 8 16 = 16 := by
  cases outcome with
  | success => exact Or.inr (Or.inr rfl)
  | failure error => exact Or.inl rfl
  | powerLoss units =>
      simp only [FlashOutcome.extent]
      omega

theorem erase_extent (outcome : FlashOutcome)
    (granularity total : Nat) (page : 16 ≤ granularity)
    (room : 16 ≤ total) :
    if outcome.Effective then 16 ≤ outcome.extent granularity total
    else outcome.extent granularity total = 0 := by
  cases outcome with
  | success =>
      have effective : FlashOutcome.success.Effective := trivial
      rw [if_pos effective]
      exact room
  | failure error =>
      have idle : ¬ (FlashOutcome.failure error).Effective := id
      rw [if_neg idle]
      rfl
  | powerLoss units =>
      have begun : (FlashOutcome.powerLoss units).Effective ↔ 0 < units :=
        Iff.rfl
      simp only [begun, FlashOutcome.extent]
      split
      · rename_i positive
        have grown := Nat.le_mul_of_pos_left granularity positive
        omega
      · rename_i idle
        rw [Nat.eq_zero_of_not_pos idle]
        omega

/-! ### One call -/

section Calls

variable (port : Port) (flash : Flash) (second : Bool) (record : BlMeta)
  (outcome : FlashOutcome)

theorem metaRegions_apart :
    (port.layout.metaRegion (regionIndex second)).Apart
      (port.layout.metaRegion (regionIndex (!second))) := by
  cases second
  · exact port.metaApart
  · exact port.metaApart.symm

theorem readRegion_other {before after : Flash}
    (agrees : Memory.AgreesOutside
      (port.layout.metaRegion (regionIndex second)).base.toNat
      (port.layout.metaRegion (regionIndex second)).size.toNat before after) :
    readRegion port.layout after (regionIndex (!second)) =
      readRegion port.layout before (regionIndex (!second)) := by
  have room := port.metaHoldsRecord _ (regionIndex_valid (!second))
  apply readRegion_congr
  exact agrees.load ((metaRegions_apart port second).symm.of_within
    (Nat.le_refl _) (Nat.add_le_add_left room _)).symm

/-- As a register, the metadata changes in one cell only. -/
theorem metaCells_update {before after : Flash}
    (agrees : Memory.AgreesOutside
      (port.layout.metaRegion (regionIndex second)).base.toNat
      (port.layout.metaRegion (regionIndex second)).size.toNat before after) :
    metaCells port.layout after =
      Function.update (metaCells port.layout before) second
        (readRegion port.layout after (regionIndex second)) := by
  funext index
  by_cases target : index = second
  · subst target
    rw [Function.update_self]
    rfl
  · have opposite : index = !second := by
      cases index <;> cases second <;> first | rfl | exact absurd rfl target
    rw [Function.update_of_ne target, opposite]
    exact readRegion_other port second agrees

theorem metaEraseCall_agreesOutside :
    Memory.AgreesOutside
      (port.layout.metaRegion (regionIndex second)).base.toNat
      (port.layout.metaRegion (regionIndex second)).size.toNat flash
      ((metaEraseCall port second outcome).apply port flash) :=
  apply_erase_agreesOutside port flash _ _ outcome

theorem metaWriteCall_agreesOutside :
    Memory.AgreesOutside
      (port.layout.metaRegion (regionIndex second)).base.toNat
      (port.layout.metaRegion (regionIndex second)).size.toNat flash
      ((metaWriteCall port second record outcome).apply port flash) := by
  have room := port.metaHoldsRecord _ (regionIndex_valid second)
  apply (apply_write_agreesOutside port flash _ _ outcome).widen
    (Nat.le_refl _)
  rw [record.toBytes_length]
  exact Nat.add_le_add_left room _

theorem metaEraseCall_effective (effective : outcome.Effective) :
    Memory.load ((metaEraseCall port second outcome).apply port flash)
        (port.layout.metaRegion (regionIndex second)).base.toNat 16 =
      List.replicate 16 0xFF := by
  have extent := erase_extent outcome _ _
    (port.pageHoldsRecord _ (regionIndex_valid second))
    (port.metaHoldsRecord _ (regionIndex_valid second))
  rw [if_pos effective] at extent
  exact Memory.load_fill flash _ _ _ _ 16 (Nat.le_refl _)
    (Nat.add_le_add_left extent _)

theorem metaEraseCall_idle (idle : ¬ outcome.Effective) :
    (metaEraseCall port second outcome).apply port flash = flash := by
  have extent := erase_extent outcome _ _
    (port.pageHoldsRecord _ (regionIndex_valid second))
    (port.metaHoldsRecord _ (regionIndex_valid second))
  rw [if_neg idle] at extent
  rw [metaEraseCall, apply_erase, extent]
  funext address
  exact Memory.fill_agreesOutside flash _ 0 _ address (by omega)

theorem metaEraseCall_self :
    readRegion port.layout
        ((metaEraseCall port second outcome).apply port flash)
        (regionIndex second) =
      if outcome.Effective then none
      else readRegion port.layout flash (regionIndex second) := by
  split
  · rename_i effective
    exact readRegion_erased
      (metaEraseCall_effective port flash second outcome effective)
  · rename_i idle
    rw [metaEraseCall_idle port flash second outcome idle]

theorem metaEraseCall_cells :
    metaCells port.layout
        ((metaEraseCall port second outcome).apply port flash) =
      if outcome.Effective then
        Function.update (metaCells port.layout flash) second none
      else metaCells port.layout flash := by
  rw [metaCells_update port second
    (metaEraseCall_agreesOutside port flash second outcome),
    metaEraseCall_self]
  split
  · rfl
  · exact Function.update_eq_self _ _

theorem metaWriteCall_prefix :
    Memory.load
        ((metaWriteCall port second record outcome).apply port
          ((metaEraseCall port second .success).apply port flash))
        (port.layout.metaRegion (regionIndex second)).base.toNat 16 =
      record.toBytes.take (outcome.extent 8 16) ++
        List.replicate (16 - outcome.extent 8 16) 0xFF := by
  have bound := outcome.extent_le 8 16
  have length : record.toBytes.length = 16 := record.toBytes_length
  have room : 16 ≤
      (port.layout.metaRegion (regionIndex second)).size.toNat :=
    port.metaHoldsRecord _ (regionIndex_valid second)
  have stored := Memory.load_store_take
    ((metaEraseCall port second .success).apply port flash)
    (port.layout.metaRegion (regionIndex second)).base.toNat
    record.toBytes (outcome.extent 8 16) (by rw [length]; exact bound)
  rw [length] at stored
  rw [metaWriteCall, apply_write, length, stored]
  congr 1
  rw [metaEraseCall, apply_erase, FlashOutcome.extent_success]
  exact Memory.load_fill _ _ _ _ _ _ (by omega) (by omega)

end Calls

/-! ### Rewriting a region -/

/-- The calls that rewrite a region: none, or an erase, followed by a write
when the erase succeeded. -/
inductive RewriteCalls (port : Port) (second : Bool) (record : BlMeta) :
    List PortCall → Prop where
  | refused : RewriteCalls port second record []
  | erased (outcome : FlashOutcome) (unfinished : outcome ≠ .success) :
      RewriteCalls port second record [metaEraseCall port second outcome]
  | written (outcome : FlashOutcome) :
      RewriteCalls port second record
        [metaEraseCall port second .success,
          metaWriteCall port second record outcome]

section Rewrite

variable {port : Port} {flash : Flash} {second : Bool} {record : BlMeta}
  {new : List PortCall} {outcome : FlashOutcome}

theorem RewriteCalls.agreesOutside
    (calls : RewriteCalls port second record new) :
    Memory.AgreesOutside
      (port.layout.metaRegion (regionIndex second)).base.toNat
      (port.layout.metaRegion (regionIndex second)).size.toNat flash
      (replay port flash new) := by
  cases calls with
  | refused => exact Memory.AgreesOutside.refl _ _ _
  | erased outcome _unfinished =>
      exact metaEraseCall_agreesOutside port flash second outcome
  | written outcome =>
      exact (metaEraseCall_agreesOutside port flash second .success).trans
        (metaWriteCall_agreesOutside port _ second record outcome)

theorem RewriteCalls.cells (calls : RewriteCalls port second record new) :
    metaCells port.layout (replay port flash new) =
      Function.update (metaCells port.layout flash) second
        (readRegion port.layout (replay port flash new)
          (regionIndex second)) :=
  metaCells_update port second calls.agreesOutside

theorem written_whole (whole : outcome.extent 8 16 = 16) :
    readRegion port.layout
        (replay port flash [metaEraseCall port second .success,
          metaWriteCall port second record outcome])
        (regionIndex second) =
      if record.crc32 = metaCrc record ∧ record.activeSlot < blSlotCount ∧
          stateIsValid record.state = true then some record
      else none := by
  have bytes := metaWriteCall_prefix port flash second record outcome
  rw [whole, List.take_of_length_le (Nat.le_of_eq record.toBytes_length),
    Nat.sub_self, List.replicate_zero, List.append_nil] at bytes
  change readRegion port.layout ((metaWriteCall port second record
    outcome).apply port _) _ = _
  rw [readRegion_eq, bytes, BlMeta.ofBytes_toBytes]

theorem written_torn (torn : outcome.extent 8 16 = 8) :
    Memory.load
        (replay port flash [metaEraseCall port second .success,
          metaWriteCall port second record outcome])
        (port.layout.metaRegion (regionIndex second)).base.toNat 16 =
      record.toBytes.take 8 ++ List.replicate 8 0xFF := by
  have bytes := metaWriteCall_prefix port flash second record outcome
  rw [torn] at bytes
  exact bytes

theorem written_nothing (unwritten : outcome.extent 8 16 = 0) :
    readRegion port.layout
        (replay port flash [metaEraseCall port second .success,
          metaWriteCall port second record outcome])
        (regionIndex second) = none := by
  have bytes := metaWriteCall_prefix port flash second record outcome
  rw [unwritten] at bytes
  exact readRegion_erased bytes

theorem RewriteCalls.content
    (calls : RewriteCalls port second record new) :
    readRegion port.layout (replay port flash new) (regionIndex second) =
        readRegion port.layout flash (regionIndex second) ∨
      readRegion port.layout (replay port flash new) (regionIndex second) =
        none ∨
      ∃ found, readRegion port.layout (replay port flash new)
          (regionIndex second) = some found ∧ found.SameFields record := by
  cases calls with
  | refused => exact Or.inl rfl
  | erased outcome _unfinished =>
      have self := metaEraseCall_self port flash second outcome
      split at self
      · exact Or.inr (Or.inl self)
      · exact Or.inl self
  | written outcome =>
      right
      rcases extent_granules outcome with nothing | torn | whole
      · exact Or.inl (written_nothing nothing)
      · cases read : readRegion port.layout (replay port flash _)
            (regionIndex second) with
        | none => exact Or.inl rfl
        | some found =>
            exact Or.inr ⟨found, rfl, readRegion_torn (written_torn torn) read⟩
      · rw [written_whole whole]
        split
        · exact Or.inr ⟨record, rfl, rfl, rfl, rfl, rfl⟩
        · exact Or.inl rfl

end Rewrite

end Stm32Bootloader
