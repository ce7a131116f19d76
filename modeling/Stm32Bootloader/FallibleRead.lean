/-
bl_meta.c on a flash whose reads may fail.

The port may report an error for a read, and `read_region` takes it for the
absence of a record.  A commit then goes by the records that it can see.
-/

import Stm32Bootloader.MetaErase

namespace Stm32Bootloader

open Interruptible

/-- A device, and how its next reads end. -/
structure Reader where
  device : Device
  reads : List (Option FlashError)

abbrev ReadM (α : Type) := Prog Reader α

namespace FallibleRead

def onDevice {α : Type} (program : PortM α) : ReadM α :=
  fun reader =>
    match program reader.device with
    | .returned value device => .returned value { reader with device := device }
    | .lost device => .lost { reader with device := device }

def blFlashRead (address : U32) (length : Nat) :
    ReadM (Except BlResult (List U8)) :=
  fun reader =>
    let after := { reader with reads := reader.reads.tail }
    match reader.reads.headD none with
    | some error => .returned (.error error.result) after
    | none =>
        .returned
          (Stm32Bootloader.blFlashRead reader.device.flash address length)
          after

def readRegion (layout : BlLayout) (index : U32) : ReadM (Option BlMeta) := do
  match ← blFlashRead (layout.metaRegion index).base BlMeta.byteSize with
  | .error _ => pure none
  | .ok bytes =>
      let record := BlMeta.ofBytes bytes
      if record.crc32 ≠ metaCrc record then pure none
      else if record.activeSlot ≥ blSlotCount then pure none
      else if ¬ stateIsValid record.state then pure none
      else pure (some record)

def findNewestStep (layout : BlLayout) (found : Option (BlMeta × U32))
    (index : U32) : ReadM (Option (BlMeta × U32)) := do
  match ← readRegion layout index with
  | none => pure found
  | some candidate =>
      match found with
      | none => pure (some (candidate, index))
      | some (out, outIndex) =>
          if candidate.seq > out.seq then pure (some (candidate, index))
          else pure (some (out, outIndex))

def findNewest (layout : BlLayout) : ReadM (Option (BlMeta × U32)) :=
  (List.range blMetaCount.toNat).foldlM
    (fun found index =>
      findNewestStep layout found (BitVec.ofNat 32 index)) none

/-- `bl_meta_commit` from its check of the target region on. -/
def rewriteRegion (port : Port) (targetIndex : U32) (record : BlMeta) :
    ReadM BlResult :=
  let base := (port.layout.metaRegion targetIndex).base
  let size := (port.layout.metaRegion targetIndex).size
  let granularity := port.eraseGranularity base
  if granularity = 0 ∨ base % granularity ≠ 0 ∨ size % granularity ≠ 0 then
    pure .errInvalidArgument
  else do
    let result ← onDevice (blFlashErase port base size)
    if result ≠ .ok then pure result
    else do
      let result ← onDevice (blFlashWrite port base record.toBytes)
      if result ≠ .ok then pure result
      else do
        match ← readRegion port.layout targetIndex with
        | none => pure .errFlashVerify
        | some verify =>
            if verify.seq ≠ record.seq ∨
                verify.activeSlot ≠ record.activeSlot ∨
                verify.state ≠ record.state ∨
                verify.bootAttempts ≠ record.bootAttempts then
              pure .errFlashVerify
            else pure .ok

def blMetaCommit (port : Port) (activeSlot state bootAttempts : U8) :
    ReadM BlResult :=
  if activeSlot ≥ blSlotCount ∨ ¬ stateIsValid state then
    pure .errInvalidArgument
  else do
    match ← findNewest port.layout with
    | none =>
        rewriteRegion port 0 (newRecord 1 activeSlot state bootAttempts)
    | some (newest, newestIndex) =>
        rewriteRegion port ((newestIndex + 1) % blMetaCount)
          (newRecord (newest.seq + 1) activeSlot state bootAttempts)

/-! ### What the reads show -/

/-- A region whose read fails reads as if it held no record. -/
def visible (reads : List (Option FlashError)) (index : Nat)
    (record : Option BlMeta) : Option BlMeta :=
  if (reads.getD index none).isSome then none else record

/-- The register as the two reads of `find_newest` show it. -/
def visibleCells (layout : BlLayout) (flash : Flash)
    (reads : List (Option FlashError)) : PingPong.Cells BlMeta :=
  fun second =>
    visible reads (if second then 1 else 0) (metaCells layout flash second)

theorem readRegion_apply (layout : BlLayout) (index : U32)
    (reader : Reader) :
    readRegion layout index reader =
      .returned
        (visible reader.reads 0
          (Stm32Bootloader.readRegion layout reader.device.flash index))
        { reader with reads := reader.reads.tail } := by
  obtain ⟨device, reads⟩ := reader
  have head : reads.getD 0 none = reads.headD none := by
    cases reads <;> rfl
  unfold readRegion visible
  rw [Prog.bind_apply, head]
  unfold blFlashRead
  dsimp only
  cases reads.headD none with
  | some error => rfl
  | none =>
      simp only [Stm32Bootloader.blFlashRead, Stm32Bootloader.readRegion]
      split
      · rfl
      split
      · rfl
      split <;> rfl

theorem findNewestStep_apply (layout : BlLayout)
    (found : Option (BlMeta × U32)) (index : U32) (reader : Reader) :
    findNewestStep layout found index reader =
      .returned
        (keepNewer found index (visible reader.reads 0
          (Stm32Bootloader.readRegion layout reader.device.flash index)))
        { reader with reads := reader.reads.tail } := by
  unfold findNewestStep
  rw [Prog.bind_returned (readRegion_apply layout index reader)]
  cases visible reader.reads 0
      (Stm32Bootloader.readRegion layout reader.device.flash index) with
  | none => rfl
  | some candidate =>
      cases found with
      | none => rfl
      | some entry =>
          unfold keepNewer
          dsimp only
          split <;> rfl

theorem findNewest_apply (layout : BlLayout) (reader : Reader) :
    findNewest layout reader =
      .returned
        ((PingPong.newest metaRank
            (visibleCells layout reader.device.flash reader.reads)).map
          fun entry => (entry.1, regionIndex entry.2))
        { reader with reads := reader.reads.tail.tail } := by
  have unrolled : findNewest layout =
      findNewestStep layout none 0 >>= fun found =>
        findNewestStep layout found 1 >>= fun found => pure found := rfl
  have later : reader.reads.tail.getD 0 none = reader.reads.getD 1 none := by
    cases reader.reads <;> rfl
  rw [unrolled, Prog.bind_returned (findNewestStep_apply layout none 0 reader),
    Prog.bind_returned (findNewestStep_apply layout _ 1 _), ← keepNewer_both]
  unfold visibleCells visible
  rw [later]
  rfl

/-! ### What a commit does -/

section Calls

variable {port : Port} {program : PortM BlResult} {reader : Reader}
  {call : FlashOutcome → PortCall}
  (concludes : program reader.device = reader.device.outcome.conclude
    (reader.device.called port (call reader.device.outcome)))

include concludes

theorem onDevice_success (success : reader.device.outcome = .success) :
    onDevice program reader =
      .returned .ok
        { reader with device := reader.device.called port (call .success) } := by
  rw [success] at concludes
  simp only [onDevice, concludes, FlashOutcome.conclude]

theorem onDevice_failure {error : FlashError}
    (failure : reader.device.outcome = .failure error) :
    onDevice program reader =
      .returned error.result
        { reader with
          device := reader.device.called port (call (.failure error)) } := by
  rw [failure] at concludes
  simp only [onDevice, concludes, FlashOutcome.conclude]

theorem onDevice_powerLoss {units : Nat}
    (powerLoss : reader.device.outcome = .powerLoss units) :
    onDevice program reader =
      .lost
        { reader with
          device := reader.device.called port (call (.powerLoss units)) } := by
  rw [powerLoss] at concludes
  simp only [onDevice, concludes, FlashOutcome.conclude]

end Calls

/-- The calls that rewrite a region, by how they end. -/
def rewriteBy (port : Port) (second : Bool) (record : BlMeta)
    (outcomes : List FlashOutcome) : List PortCall :=
  if outcomes.headD .success = .success then
    [metaEraseCall port second .success,
      metaWriteCall port second record (outcomes.tail.headD .success)]
  else [metaEraseCall port second (outcomes.headD .success)]

theorem rewriteBy_rewrites (port : Port) (second : Bool) (record : BlMeta)
    (outcomes : List FlashOutcome) :
    RewriteCalls port second record
      (rewriteBy port second record outcomes) := by
  unfold rewriteBy
  split
  · exact .written _
  · exact .erased _ ‹_›

theorem rewriteRegion_flash (port : Port) (second : Bool) (record : BlMeta)
    (reader : Reader) :
    (rewriteRegion port (regionIndex second) record
        reader).state.device.flash =
      replay port reader.device.flash
        (rewriteBy port second record reader.device.outcomes) := by
  have erasable := metaRegion_erasable port (regionIndex_valid second)
  have calls : rewriteBy port second record reader.device.outcomes =
      if reader.device.outcome = .success then
        [metaEraseCall port second .success,
          metaWriteCall port second record
            (reader.device.called port
              (metaEraseCall port second .success)).outcome]
      else [metaEraseCall port second reader.device.outcome] := rfl
  have erases : ∀ reader : Reader,
      blFlashErase port (port.layout.metaRegion (regionIndex second)).base
          (port.layout.metaRegion (regionIndex second)).size reader.device =
        reader.device.outcome.conclude (reader.device.called port
          (metaEraseCall port second reader.device.outcome)) :=
    fun _ => rfl
  have writes : ∀ reader : Reader,
      blFlashWrite port (port.layout.metaRegion (regionIndex second)).base
          record.toBytes reader.device =
        reader.device.outcome.conclude (reader.device.called port
          (metaWriteCall port second record reader.device.outcome)) :=
    fun _ => rfl
  rw [rewriteRegion, if_neg erasable, calls]
  cases erase : reader.device.outcome with
  | failure error =>
      rw [Prog.bind_returned (onDevice_failure (erases reader) erase),
        if_pos error.result_ne_ok]
      rfl
  | powerLoss units =>
      rw [Prog.bind_lost (onDevice_powerLoss (erases reader) erase)]
      rfl
  | success =>
      rw [Prog.bind_returned (onDevice_success (erases reader) erase),
        if_neg (fun failed => failed rfl), if_pos rfl]
      cases write : (reader.device.called port
          (metaEraseCall port second .success)).outcome with
      | failure error =>
          rw [Prog.bind_returned (onDevice_failure (writes _) write),
            if_pos error.result_ne_ok]
          rfl
      | powerLoss units =>
          rw [Prog.bind_lost (onDevice_powerLoss (writes _) write)]
          rfl
      | success =>
          rw [Prog.bind_returned (onDevice_success (writes _) write),
            if_neg (fun failed => failed rfl),
            Prog.bind_returned (readRegion_apply port.layout _ _)]
          generalize visible _ _ _ = seen
          cases seen with
          | none => rfl
          | some verify =>
              dsimp only
              split <;> rfl

/-- The sequence number and the region that a commit chooses by what it can
see. -/
def plan (cells : PingPong.Cells BlMeta) : U32 × Bool :=
  match PingPong.newest metaRank cells with
  | none => (1, false)
  | some (newest, second) => (newest.seq + 1, !second)

theorem blMetaCommit_flash (port : Port)
    {activeSlot state : U8} (bootAttempts : U8)
    (slotOk : slotIsValid activeSlot = true)
    (stateOk : stateIsValid state = true) (reader : Reader) :
    let cells := visibleCells port.layout reader.device.flash reader.reads
    let record := newRecord (plan cells).1 activeSlot state bootAttempts
    (blMetaCommit port activeSlot state bootAttempts
        reader).state.device.flash =
      replay port reader.device.flash
        (rewriteBy port (plan cells).2 record reader.device.outcomes) := by
  intro cells record
  have accepted : ¬ (activeSlot ≥ blSlotCount ∨ ¬ stateIsValid state) :=
    fun refused => commitRefused_iff.mp refused ⟨slotOk, stateOk⟩
  have found := findNewest_apply port.layout reader
  change _ = Outcome.returned ((PingPong.newest metaRank cells).map _) _
    at found
  unfold blMetaCommit
  rw [if_neg accepted, Prog.bind_returned found]
  have recordEq : record = newRecord (plan cells).1 activeSlot state
    bootAttempts := rfl
  rw [recordEq]
  unfold plan
  cases PingPong.newest metaRank cells with
  | none => exact rewriteRegion_flash port false _ _
  | some entry =>
      dsimp only [Option.map_some]
      rw [regionIndex_not]
      exact rewriteRegion_flash port _ _ _

theorem blMetaCommit_refused (port : Port)
    {activeSlot state : U8} (bootAttempts : U8)
    (refused : ¬ (slotIsValid activeSlot = true ∧
      stateIsValid state = true)) (reader : Reader) :
    (blMetaCommit port activeSlot state bootAttempts reader).state =
      reader := by
  unfold blMetaCommit
  rw [if_pos (commitRefused_iff.mpr refused)]
  rfl

/-! ### Reads that succeed -/

theorem visibleCells_reliable (layout : BlLayout) (flash : Flash) :
    visibleCells layout flash [] = metaCells layout flash := rfl

theorem onDevice_bind {α β : Type} {program : PortM α}
    {next : α → ReadM β} {next' : α → PortM β}
    (same : ∀ value device,
      (next value ⟨device, []⟩).mapState Reader.device = next' value device)
    (device : Device) :
    ((onDevice program >>= next) ⟨device, []⟩).mapState Reader.device =
      (program >>= next') device := by
  rw [Prog.bind_apply, Prog.bind_apply, onDevice]
  cases program device with
  | returned value device => exact same value device
  | lost device => rfl

theorem rewriteRegion_reliable (port : Port) (index : U32)
    (record : BlMeta) (device : Device) :
    (rewriteRegion port index record ⟨device, []⟩).mapState Reader.device =
      (let base := (port.layout.metaRegion index).base
       let size := (port.layout.metaRegion index).size
       let granularity := port.eraseGranularity base
       if granularity = 0 ∨ base % granularity ≠ 0 ∨
          size % granularity ≠ 0 then
        pure .errInvalidArgument
       else do
        let result ← blFlashErase port base size
        if result ≠ .ok then pure result
        else do
          let result ← blFlashWrite port base record.toBytes
          if result ≠ .ok then pure result
          else do
            let flash ← readFlash
            match Stm32Bootloader.readRegion port.layout flash index with
            | none => pure .errFlashVerify
            | some verify =>
                if verify.seq ≠ record.seq ∨
                    verify.activeSlot ≠ record.activeSlot ∨
                    verify.state ≠ record.state ∨
                    verify.bootAttempts ≠ record.bootAttempts then
                  pure .errFlashVerify
                else pure .ok : PortM BlResult) device := by
  unfold rewriteRegion
  dsimp only
  split
  · rfl
  refine onDevice_bind (fun result device => ?_) device
  split
  · rfl
  refine onDevice_bind (fun result device => ?_) device
  split
  · rfl
  rw [Prog.bind_returned (readRegion_apply port.layout index ⟨device, []⟩),
    readFlash_bind]
  have seen : visible [] 0 (Stm32Bootloader.readRegion port.layout
      device.flash index) =
    Stm32Bootloader.readRegion port.layout device.flash index := rfl
  rw [seen]
  cases Stm32Bootloader.readRegion port.layout device.flash index with
  | none => rfl
  | some verify =>
      dsimp only
      split <;> rfl

/-- Without failing reads this is the commit of the port whose reads always
succeed. -/
theorem blMetaCommit_reliable (port : Port)
    (activeSlot state bootAttempts : U8) (device : Device) :
    (blMetaCommit port activeSlot state bootAttempts
        ⟨device, []⟩).mapState Reader.device =
      Stm32Bootloader.blMetaCommit port activeSlot state bootAttempts
        device := by
  by_cases refused : activeSlot ≥ blSlotCount ∨ ¬ stateIsValid state
  · unfold blMetaCommit Stm32Bootloader.blMetaCommit
    rw [if_pos refused, if_pos refused]
    rfl
  have found := findNewest_apply port.layout ⟨device, []⟩
  rw [visibleCells_reliable, ← findNewest_eq] at found
  unfold blMetaCommit Stm32Bootloader.blMetaCommit
  rw [if_neg refused, if_neg refused, Prog.bind_returned found,
    readFlash_bind]
  unfold commitPlan
  cases Stm32Bootloader.findNewest port.layout device.flash with
  | none => exact rewriteRegion_reliable port _ _ device
  | some entry => exact rewriteRegion_reliable port _ _ device

end FallibleRead

end Stm32Bootloader
