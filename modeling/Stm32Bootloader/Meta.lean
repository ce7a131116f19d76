/-
Persistent boot metadata of bl_meta.c: reading a region, locating the
authoritative record and committing a new one.

The two regions are the cells of a ping-pong register ranked by sequence
number.  A commit erases the spare region and programs the new record into
it, so the calls it makes are one erase, or one erase and one write.
-/

import Stm32Bootloader.Library.PingPong
import Stm32Bootloader.Port

namespace Stm32Bootloader

open LittleEndian

def metaCrc (record : BlMeta) : U32 := blCrc32 0 record.coveredBytes

def stateIsValid (state : U8) : Bool :=
  state = blBootConfirmed || state = blBootTrial

theorem stateIsValid_trial : stateIsValid blBootTrial = true := rfl

theorem stateIsValid_confirmed : stateIsValid blBootConfirmed = true := rfl

def readRegion (layout : BlLayout) (flash : Flash) (index : U32) :
    Option BlMeta :=
  match blFlashRead flash (layout.metaRegion index).base BlMeta.byteSize with
  | .error _ => none
  | .ok bytes =>
      let record := BlMeta.ofBytes bytes
      if record.crc32 ≠ metaCrc record then none
      else if record.activeSlot ≥ blSlotCount then none
      else if ¬ stateIsValid record.state then none
      else some record

def findNewestStep (layout : BlLayout) (flash : Flash)
    (found : Option (BlMeta × U32)) (index : U32) : Option (BlMeta × U32) :=
  match readRegion layout flash index with
  | none => found
  | some candidate =>
      match found with
      | none => some (candidate, index)
      | some (out, outIndex) =>
          if candidate.seq > out.seq then some (candidate, index)
          else some (out, outIndex)

def findNewest (layout : BlLayout) (flash : Flash) : Option (BlMeta × U32) :=
  (List.range blMetaCount.toNat).foldl
    (fun found index =>
      findNewestStep layout flash found (BitVec.ofNat 32 index)) none

def blMetaRead (layout : BlLayout) (flash : Flash) :
    Except BlResult BlMeta :=
  match findNewest layout flash with
  | none => .error .errNoMetadata
  | some (newest, _) => .ok newest

/-- The sequence number and the region of the next record. -/
def commitPlan (layout : BlLayout) (flash : Flash) : U32 × U32 :=
  match findNewest layout flash with
  | none => (1, 0)
  | some (newest, newestIndex) =>
      (newest.seq + 1, (newestIndex + 1) % blMetaCount)

def newRecord (seq : U32) (activeSlot state bootAttempts : U8) : BlMeta :=
  let record : BlMeta :=
    { seq := seq
      activeSlot := activeSlot
      state := state
      bootAttempts := bootAttempts
      reserved := Vector.replicate 5 0
      crc32 := 0 }
  { record with crc32 := metaCrc record }

def blMetaCommit (port : Port) (activeSlot state bootAttempts : U8) :
    PortM BlResult :=
  if activeSlot ≥ blSlotCount ∨ ¬ stateIsValid state then
    pure .errInvalidArgument
  else do
    let flash ← readFlash
    let (nextSeq, targetIndex) := commitPlan port.layout flash
    let record := newRecord nextSeq activeSlot state bootAttempts
    let base := (port.layout.metaRegion targetIndex).base
    let size := (port.layout.metaRegion targetIndex).size
    let granularity := port.eraseGranularity base
    if granularity = 0 ∨ base % granularity ≠ 0 ∨ size % granularity ≠ 0 then
      pure .errInvalidArgument
    else do
      let result ← blFlashErase port base size
      if result ≠ .ok then pure result
      else do
        let result ← blFlashWrite port base record.toBytes
        if result ≠ .ok then pure result
        else do
          let flash ← readFlash
          match readRegion port.layout flash targetIndex with
          | none => pure .errFlashVerify
          | some verify =>
              if verify.seq ≠ record.seq ∨
                  verify.activeSlot ≠ record.activeSlot ∨
                  verify.state ≠ record.state ∨
                  verify.bootAttempts ≠ record.bootAttempts then
                pure .errFlashVerify
              else pure .ok

/-! ### Regions -/

theorem readRegion_eq (layout : BlLayout) (flash : Flash) (index : U32) :
    readRegion layout flash index =
      let record := BlMeta.ofBytes
        (Memory.load flash (layout.metaRegion index).base.toNat 16)
      if record.crc32 = metaCrc record ∧ record.activeSlot < blSlotCount ∧
          stateIsValid record.state = true then some record
      else none := by
  simp only [readRegion, blFlashRead, BlMeta.byteSize]
  split
  · rename_i mismatch
    rw [if_neg (fun both => mismatch both.1)]
  · rename_i crcOk
    have crcEq := Decidable.not_not.mp crcOk
    split
    · rename_i slotBad
      rw [if_neg (fun both => absurd both.2.1 (BitVec.not_lt.mpr slotBad))]
    · rename_i slotOk
      split
      · rename_i stateBad
        rw [if_neg (fun both => stateBad both.2.2)]
      · rename_i stateOk
        rw [if_pos ⟨crcEq, BitVec.not_le.mp slotOk,
          Decidable.not_not.mp stateOk⟩]

theorem readRegion_residue {layout : BlLayout} {flash : Flash} {index : U32}
    {record : BlMeta} (found : readRegion layout flash index = some record) :
    blCrc32 0 (Memory.load flash (layout.metaRegion index).base.toNat 16) =
      crcResidue := by
  have whole := BlMeta.toBytes_ofBytes
    (Memory.load_length flash (layout.metaRegion index).base.toNat 16)
  rw [readRegion_eq] at found
  simp only [Option.ite_none_right_eq_some] at found
  rw [← whole]
  exact (blCrc32_residue _ _).mpr found.1.1

theorem readRegion_valid {layout : BlLayout} {flash : Flash} {index : U32}
    {record : BlMeta} (found : readRegion layout flash index = some record) :
    slotIsValid record.activeSlot = true ∧
      (record.state = blBootConfirmed ∨ record.state = blBootTrial) := by
  rw [readRegion_eq] at found
  simp only [Option.ite_none_right_eq_some, Option.some.injEq] at found
  obtain ⟨⟨_crcOk, slotOk, stateOk⟩, rfl⟩ := found
  refine ⟨decide_eq_true slotOk, ?_⟩
  simpa only [stateIsValid, Bool.or_eq_true, decide_eq_true_eq] using stateOk

theorem readRegion_congr {layout : BlLayout} {before after : Flash}
    {index : U32}
    (same : Memory.load after (layout.metaRegion index).base.toNat 16 =
      Memory.load before (layout.metaRegion index).base.toNat 16) :
    readRegion layout after index = readRegion layout before index := by
  rw [readRegion_eq, readRegion_eq, same]

/-- An erased region holds no record, because `0xFF` names no slot. -/
theorem readRegion_erased {layout : BlLayout} {flash : Flash} {index : U32}
    (erased : Memory.load flash (layout.metaRegion index).base.toNat 16 =
      List.replicate 16 0xFF) :
    readRegion layout flash index = none := by
  rw [readRegion_eq, erased]
  apply if_neg
  intro both
  exact absurd both.2.1 (by decide)

/-- After only the first granule of a record has been programmed, a region
holds no record or one that already has all the fields of the new one. -/
theorem readRegion_torn {layout : BlLayout} {flash : Flash} {index : U32}
    {record found : BlMeta}
    (torn : Memory.load flash (layout.metaRegion index).base.toNat 16 =
      record.toBytes.take 8 ++ List.replicate 8 0xFF)
    (read : readRegion layout flash index = some found) :
    found.seq = record.seq ∧ found.activeSlot = record.activeSlot ∧
      found.state = record.state ∧
      found.bootAttempts = record.bootAttempts := by
  rw [readRegion_eq, torn] at read
  simp only [Option.ite_none_right_eq_some, Option.some.injEq] at read
  obtain ⟨_valid, rfl⟩ := read
  have layoutEq : record.toBytes.take 8 ++ List.replicate 8 0xFF =
      bytes32 record.seq ++
        ([record.activeSlot, record.state, record.bootAttempts] ++
          ((record.reserved.toList ++ bytes32 record.crc32).take 1 ++
            List.replicate 8 0xFF)) := by
    simp only [BlMeta.toBytes, BlMeta.coveredBytes, bytes32_eq,
      List.cons_append, List.nil_append, List.take_succ_cons]
  rw [layoutEq]
  simp only [BlMeta.ofBytes]
  refine ⟨word32At_bytes32 _ _, ?_, ?_, ?_⟩
  · exact getD_of_append _ _ _ 0 rfl
  · exact getD_of_append _ _ _ 1 rfl
  · exact getD_of_append _ _ _ 2 rfl

/-! ### The regions as a ping-pong register -/

def regionIndex (second : Bool) : U32 := if second then 1 else 0

def metaRank (record : BlMeta) : Nat := record.seq.toNat

def metaCells (layout : BlLayout) (flash : Flash) : PingPong.Cells BlMeta :=
  fun second => readRegion layout flash (regionIndex second)

theorem regionIndex_valid (second : Bool) :
    regionIndex second < blMetaCount := by
  cases second <;> decide

theorem regionIndex_not (second : Bool) :
    (regionIndex second + 1) % blMetaCount = regionIndex (!second) := by
  cases second <;> decide

theorem regionIndex_injective : Function.Injective regionIndex := by
  intro left right same
  cases left <;> cases right <;> first | rfl | exact absurd same (by decide)

/-- One pass of the loop over the regions, given what the region reads as. -/
def keepNewer (found : Option (BlMeta × U32)) (index : U32) :
    Option BlMeta → Option (BlMeta × U32)
  | none => found
  | some candidate =>
      match found with
      | none => some (candidate, index)
      | some (out, outIndex) =>
          if candidate.seq > out.seq then some (candidate, index)
          else some (out, outIndex)

theorem findNewestStep_eq (layout : BlLayout) (flash : Flash)
    (found : Option (BlMeta × U32)) (index : U32) :
    findNewestStep layout flash found index =
      keepNewer found index (readRegion layout flash index) := by
  unfold findNewestStep
  cases readRegion layout flash index with
  | none => rfl
  | some candidate => cases found <;> rfl

theorem keepNewer_both (cells : PingPong.Cells BlMeta) :
    keepNewer (keepNewer none 0 (cells false)) 1 (cells true) =
      (PingPong.newest metaRank cells).map
        (fun entry => (entry.1, regionIndex entry.2)) := by
  unfold PingPong.newest
  cases cells false with
  | none => cases cells true <;> rfl
  | some first =>
      cases cells true with
      | none => rfl
      | some second =>
          have order : first.seq < second.seq ↔
            metaRank first < metaRank second := BitVec.lt_def
          simp only [keepNewer, gt_iff_lt, order]
          split <;> rfl

theorem findNewest_eq (layout : BlLayout) (flash : Flash) :
    findNewest layout flash =
      (PingPong.newest metaRank (metaCells layout flash)).map
        (fun entry => (entry.1, regionIndex entry.2)) := by
  have unrolled : findNewest layout flash =
      findNewestStep layout flash (findNewestStep layout flash none 0) 1 :=
    rfl
  rw [unrolled, findNewestStep_eq, findNewestStep_eq]
  exact keepNewer_both (metaCells layout flash)

theorem blMetaRead_eq (layout : BlLayout) (flash : Flash) :
    blMetaRead layout flash =
      match PingPong.newest metaRank (metaCells layout flash) with
      | none => .error .errNoMetadata
      | some entry => .ok entry.1 := by
  unfold blMetaRead
  rw [findNewest_eq]
  cases PingPong.newest metaRank (metaCells layout flash) <;> rfl

theorem commitPlan_eq (layout : BlLayout) (flash : Flash) :
    commitPlan layout flash =
      (match PingPong.newest metaRank (metaCells layout flash) with
        | none => 1
        | some entry => entry.1.seq + 1,
      regionIndex (PingPong.spare metaRank (metaCells layout flash))) := by
  unfold commitPlan PingPong.spare
  rw [findNewest_eq]
  cases PingPong.newest metaRank (metaCells layout flash) with
  | none => rfl
  | some entry =>
      simp only [Option.map_some, regionIndex_not]

theorem blMetaRead_ok_iff {layout : BlLayout} {flash : Flash}
    {record : BlMeta} :
    blMetaRead layout flash = .ok record ↔
      ∃ index, PingPong.newest metaRank (metaCells layout flash) =
        some (record, index) := by
  rw [blMetaRead_eq]
  constructor
  · intro read
    split at read
    · cases read
    · rename_i entry found
      cases read
      exact ⟨entry.2, found⟩
  · rintro ⟨index, found⟩
    rw [found]

theorem metaCells_congr {layout : BlLayout} {before after : Flash}
    (same : ∀ index, index < blMetaCount →
      Memory.load after (layout.metaRegion index).base.toNat 16 =
        Memory.load before (layout.metaRegion index).base.toNat 16) :
    metaCells layout after = metaCells layout before := by
  funext second
  exact readRegion_congr (same _ (regionIndex_valid second))

theorem blMetaRead_valid {layout : BlLayout} {flash : Flash}
    {record : BlMeta} (read : blMetaRead layout flash = .ok record) :
    slotIsValid record.activeSlot = true ∧
      (record.state = blBootConfirmed ∨ record.state = blBootTrial) := by
  rw [blMetaRead_eq] at read
  split at read
  · cases read
  · rename_i entry found
    cases read
    exact readRegion_valid (PingPong.newest_cell found)

theorem blMetaRead_error {layout : BlLayout} {flash : Flash}
    {result : BlResult} (read : blMetaRead layout flash = .error result) :
    result = .errNoMetadata := by
  unfold blMetaRead at read
  split at read <;> cases read
  rfl

end Stm32Bootloader
