/-
Slot validation as the code performs it: the status it returns, what it
stores through its output pointer and every read of flash it makes.

The payload loop runs through the bulk checksum of the port, and it ends
because each pass takes at least one byte.  Status and output together are
the verdict of `blCoreValidateSlot`; the reads follow from the order of the
checks, since no header field is used before it has been compared with the
size of the slot.
-/

import Stm32Bootloader.Trial

namespace Stm32Bootloader

open Memory

/-- One call of `bl_flash_read`. -/
structure FlashRead where
  address : U32
  length : U32
  deriving DecidableEq, Repr

/-- Every address of the read lies in the region, counted without wrap. -/
def FlashRead.Within (read : FlashRead) (region : BlRegion) : Prop :=
  region.base.toNat ≤ read.address.toNat ∧
    read.address.toNat + read.length.toNat ≤
      region.base.toNat + region.size.toNat

/-- What a call of `bl_core_validate_slot` leaves behind. -/
structure SlotVerdict where
  result : BlResult
  hdrOut : BlImgHdr
  reads : List FlashRead

/-- The length of the next read: what remains, up to the buffer's size. -/
def crcChunk (remaining : U32) : U32 :=
  if remaining > blCrcChunk then blCrcChunk else remaining

theorem crcChunk_bounds {remaining : U32} (more : remaining > 0) :
    0 < (crcChunk remaining).toNat ∧
      (crcChunk remaining).toNat ≤ remaining.toNat := by
  have chunkSize : blCrcChunk.toNat = 256 := rfl
  unfold crcChunk
  split
  · bv_omega
  · bv_omega

/-- The payload loop: the checksum it arrives at and the reads it makes. -/
def payloadCrcReads (portCrc32 : U32 → List U8 → U32) (flash : Flash)
    (address remaining crc : U32) : Except BlResult U32 × List FlashRead :=
  if remaining > 0 then
    let chunk := crcChunk remaining
    match blFlashRead flash address chunk.toNat with
    | .error result => (.error result, [⟨address, chunk⟩])
    | .ok buffer =>
        let rest := payloadCrcReads portCrc32 flash (address + chunk)
          (remaining - chunk) (portCrc32 crc buffer)
        (rest.1, ⟨address, chunk⟩ :: rest.2)
  else (.ok crc, [])
  termination_by remaining.toNat
  decreasing_by
    have bounds := crcChunk_bounds ‹remaining > 0›
    bv_omega

def blCoreValidateSlotInto (portCrc32 : U32 → List U8 → U32)
    (layout : BlLayout) (flash : Flash) (slot : U8) (hdrOut : BlImgHdr) :
    SlotVerdict :=
  if ¬ slotIsValid slot then ⟨.errInvalidArgument, hdrOut, []⟩
  else
    let slotBase := (layout.slot slot).base
    let slotSize := (layout.slot slot).size
    let header : FlashRead := ⟨slotBase, BitVec.ofNat 32 BlImgHdr.byteSize⟩
    match blFlashRead flash slotBase BlImgHdr.byteSize with
    | .error result => ⟨result, hdrOut, [header]⟩
    | .ok bytes =>
        let hdr := BlImgHdr.ofBytes bytes
        if hdr.magic ≠ blImgMagic then ⟨.errMagic, hdrOut, [header]⟩
        else if hdr.hdrVersion ≠ blImgHdrVersion then
          ⟨.errHdrVersion, hdrOut, [header]⟩
        else if hdr.hdrCrc32 ≠ blCrc32 0 hdr.coveredBytes then
          ⟨.errHdrCrc, hdrOut, [header]⟩
        else if hdr.entryOffset < BitVec.ofNat 32 BlImgHdr.byteSize then
          ⟨.errEntryOffset, hdrOut, [header]⟩
        else if hdr.entryOffset &&& (blImgHdrRegion - 1) ≠ 0 then
          ⟨.errEntryOffset, hdrOut, [header]⟩
        else if hdr.entryOffset ≥ slotSize then
          ⟨.errEntryOffset, hdrOut, [header]⟩
        else if hdr.imgSize = 0 then ⟨.errImageSize, hdrOut, [header]⟩
        else if hdr.imgSize > slotSize - hdr.entryOffset then
          ⟨.errImageSize, hdrOut, [header]⟩
        else
          let payload := payloadCrcReads portCrc32 flash
            (slotBase + hdr.entryOffset) hdr.imgSize 0
          match payload.1 with
          | .error result => ⟨result, hdrOut, header :: payload.2⟩
          | .ok crc =>
              if crc ≠ hdr.imgCrc32 then
                ⟨.errImageCrc, hdrOut, header :: payload.2⟩
              else ⟨.ok, hdr, header :: payload.2⟩

/-! ### The payload loop -/

theorem payloadCrcReads_crc {portCrc32 : U32 → List U8 → U32}
    (bulk : ∀ crc data, portCrc32 crc data = blCrc32 crc data)
    (flash : Flash) (fuel : Nat) (address remaining crc : U32)
    (enough : remaining.toNat ≤ fuel) :
    (payloadCrcReads portCrc32 flash address remaining crc).1 =
      payloadCrc flash fuel address remaining crc := by
  induction fuel generalizing address remaining crc with
  | zero =>
      have done : ¬ remaining > 0 := by bv_omega
      rw [payloadCrcReads, if_neg done, payloadCrc]
  | succ fuel ih =>
      rw [payloadCrcReads, payloadCrc]
      by_cases more : remaining > 0
      · have bounds := crcChunk_bounds more
        rw [if_pos more, if_pos more]
        simp only [blFlashRead, blPortCrc32, bulk]
        exact ih _ _ _ (by bv_omega)
      · rw [if_neg more, if_neg more]

theorem payloadCrcReads_within (portCrc32 : U32 → List U8 → U32)
    (flash : Flash) (region : BlRegion)
    (fits : region.base.toNat + region.size.toNat ≤ 2 ^ 32)
    (address remaining crc : U32) (lower : region.base.toNat ≤ address.toNat)
    (upper : address.toNat + remaining.toNat ≤
      region.base.toNat + region.size.toNat) :
    ∀ read ∈ (payloadCrcReads portCrc32 flash address remaining crc).2,
      read.Within region := by
  fun_induction payloadCrcReads portCrc32 flash address remaining crc with
  | case1 address remaining crc more chunk result impossible =>
      cases impossible
  | case2 address remaining crc more chunk buffer readOk rest ih =>
      have bounds := crcChunk_bounds more
      have chunkLe : chunk.toNat ≤ remaining.toNat := bounds.2
      intro read member
      rcases List.mem_cons.mp member with rfl | later
      · refine ⟨lower, ?_⟩
        show address.toNat + chunk.toNat ≤ _
        omega
      · by_cases last : (remaining - chunk).toNat = 0
        · have none : ¬ remaining - chunk > 0 := by bv_omega
          simp only [rest] at later
          rw [payloadCrcReads, if_neg none] at later
          cases later
        · exact ih (by bv_omega) (by bv_omega) read later
  | case3 address remaining crc done =>
      intro read member
      cases member

/-! ### The verdict -/

/-- Status and output as a caller that looks at the output only on success
sees them. -/
def SlotVerdict.outcome (verdict : SlotVerdict) : Except BlResult BlImgHdr :=
  if verdict.result = .ok then .ok verdict.hdrOut else .error verdict.result

theorem blCoreValidateSlotInto_outcome {portCrc32 : U32 → List U8 → U32}
    (bulk : ∀ crc data, portCrc32 crc data = blCrc32 crc data)
    (layout : BlLayout) (flash : Flash) (slot : U8) (hdrOut : BlImgHdr) :
    (blCoreValidateSlotInto portCrc32 layout flash slot hdrOut).outcome =
      blCoreValidateSlot layout flash slot := by
  unfold blCoreValidateSlotInto blCoreValidateSlot
  simp only [blFlashRead, apply_ite SlotVerdict.outcome]
  rw [payloadCrcReads_crc bulk _ _ _ _ _ (Nat.le_refl _)]
  generalize BlImgHdr.ofBytes (load flash (layout.slot slot).base.toNat
    BlImgHdr.byteSize) = hdr
  obtain ⟨crc, loop⟩ := payloadCrc_returns flash hdr.imgSize.toNat
    ((layout.slot slot).base + hdr.entryOffset) hdr.imgSize 0
  simp only [loop, apply_ite SlotVerdict.outcome]
  rfl

/-- A refusal stores nothing, and no read leaves the region. -/
structure SlotVerdict.Contained (region : BlRegion) (hdrOut : BlImgHdr)
    (verdict : SlotVerdict) : Prop where
  untouched : verdict.result ≠ .ok → verdict.hdrOut = hdrOut
  inside : ∀ read ∈ verdict.reads, read.Within region

/-- A layout whose slots hold more than a header and do not wrap around the
address space. -/
def BlLayout.SlotsFit (layout : BlLayout) : Prop :=
  ∀ slot, slotIsValid slot = true →
    BlImgHdr.byteSize < (layout.slot slot).size.toNat ∧
      (layout.slot slot).base.toNat + (layout.slot slot).size.toNat ≤ 2 ^ 32

private theorem contained_refusal {region : BlRegion}
    {header : FlashRead} (hdrOut : BlImgHdr) (inside : header.Within region)
    (result : BlResult) :
    (SlotVerdict.mk result hdrOut [header]).Contained region hdrOut := by
  refine ⟨fun _refused => rfl, ?_⟩
  intro read member
  rw [List.mem_singleton.mp member]
  exact inside

/-- The order of the checks keeps every read inside the slot. -/
theorem blCoreValidateSlotInto_contained (portCrc32 : U32 → List U8 → U32)
    {layout : BlLayout} (slots : layout.SlotsFit) (flash : Flash) (slot : U8)
    (hdrOut : BlImgHdr) :
    (blCoreValidateSlotInto portCrc32 layout flash slot hdrOut).Contained
      (layout.slot slot) hdrOut := by
  unfold blCoreValidateSlotInto
  refine iteInduction (fun _invalid => ⟨fun _ => rfl, ?_⟩) (fun valid => ?_)
  · intro read member
    cases member
  obtain ⟨room, fits⟩ := slots slot (Decidable.not_not.mp valid)
  have headerSize : BlImgHdr.byteSize = 40 := rfl
  have header : FlashRead.Within
      ⟨(layout.slot slot).base, BitVec.ofNat 32 BlImgHdr.byteSize⟩
      (layout.slot slot) := by
    refine ⟨Nat.le_refl _, ?_⟩
    show (layout.slot slot).base.toNat + 40 ≤ _
    omega
  have refusal := contained_refusal hdrOut header
  simp only [blFlashRead]
  generalize BlImgHdr.ofBytes (load flash (layout.slot slot).base.toNat
    BlImgHdr.byteSize) = hdr
  refine iteInduction (fun _ => refusal _) (fun _magic => ?_)
  refine iteInduction (fun _ => refusal _) (fun _version => ?_)
  refine iteInduction (fun _ => refusal _) (fun _hdrCrc => ?_)
  refine iteInduction (fun _ => refusal _) (fun _entryLower => ?_)
  refine iteInduction (fun _ => refusal _) (fun _entryAligned => ?_)
  refine iteInduction (fun _ => refusal _) (fun entryUpper => ?_)
  refine iteInduction (fun _ => refusal _) (fun _imgNonempty => ?_)
  refine iteInduction (fun _ => refusal _) (fun imgFits => ?_)
  -- Past the range checks the payload lies in the slot.
  have payload := payloadCrcReads_within portCrc32 flash (layout.slot slot)
    fits ((layout.slot slot).base + hdr.entryOffset) hdr.imgSize 0
    (by bv_omega) (by bv_omega)
  generalize payloadCrcReads portCrc32 flash
    ((layout.slot slot).base + hdr.entryOffset) hdr.imgSize 0 = loop at payload
  obtain ⟨result | crc, reads⟩ := loop
  · refine ⟨fun _refused => rfl, ?_⟩
    exact List.forall_mem_cons.mpr ⟨header, payload⟩
  · refine iteInduction (fun _ => ⟨fun _refused => rfl, ?_⟩)
      (fun _imgCrc => ⟨fun refused => absurd rfl refused, ?_⟩)
    · exact List.forall_mem_cons.mpr ⟨header, payload⟩
    · exact List.forall_mem_cons.mpr ⟨header, payload⟩

/-! ### What is accepted -/

/-- The slot holds an image with this header, stated over the bytes of the
slot and in unbounded integers. -/
structure SlotHolds (layout : BlLayout) (flash : Flash) (slot : U8)
    (hdr : BlImgHdr) : Prop where
  magic : hdr.magic = blImgMagic
  version : hdr.hdrVersion = blImgHdrVersion
  hdrCrc : hdr.hdrCrc32 =
    blCrc32 0 (load flash (layout.slot slot).base.toNat 36)
  entryAligned : hdr.entryOffset.toNat % 512 = 0
  entryLower : 512 ≤ hdr.entryOffset.toNat
  entryUpper : hdr.entryOffset.toNat < (layout.slot slot).size.toNat
  imgNonempty : 1 ≤ hdr.imgSize.toNat
  imgFits : hdr.entryOffset.toNat + hdr.imgSize.toNat ≤
    (layout.slot slot).size.toNat
  imgCrc : hdr.imgCrc32 = blCrc32 0 (load flash
    ((layout.slot slot).base.toNat + hdr.entryOffset.toNat)
    hdr.imgSize.toNat)

theorem coveredBytes_load (flash : Flash) (base : Nat) :
    (BlImgHdr.ofBytes (load flash base 40)).coveredBytes =
      load flash base 36 := by
  have whole := BlImgHdr.toBytes_ofBytes (load_length flash base 40)
  have front := congrArg (List.take 36) whole
  rw [BlImgHdr.toBytes, List.take_left' (BlImgHdr.coveredBytes_length _)]
    at front
  rw [front, load_add flash base 36 4, List.take_left' (load_length _ _ _)]

theorem validImage_iff_slotHolds {layout : BlLayout} {flash : Flash}
    {slot : U8} :
    (∃ hdr, ValidImage layout flash slot hdr) ↔
      slotIsValid slot = true ∧
        SlotHolds layout flash slot
          (BlImgHdr.ofBytes
            (load flash (layout.slot slot).base.toNat 40)) := by
  constructor
  · rintro ⟨hdr, image⟩
    have header := image.header
    subst header
    have aligned := entryAligned_iff.mp image.entryAligned
    have lower := image.entryLower
    refine ⟨image.slotOk, {
      magic := image.magic
      version := image.version
      hdrCrc := ?_
      entryAligned := aligned
      entryLower := by omega
      entryUpper := image.entryUpper
      imgNonempty := image.imgNonempty
      imgFits := image.imgFits
      imgCrc := image.imgCrc.symm }⟩
    rw [← coveredBytes_load]
    exact image.hdrCrc
  · rintro ⟨slotOk, holds⟩
    have lower := holds.entryLower
    refine ⟨_, {
      slotOk := slotOk
      header := rfl
      magic := holds.magic
      version := holds.version
      hdrCrc := ?_
      entryLower := by omega
      entryAligned := entryAligned_iff.mpr holds.entryAligned
      entryUpper := holds.entryUpper
      imgNonempty := holds.imgNonempty
      imgFits := holds.imgFits
      imgCrc := holds.imgCrc.symm }⟩
    rw [coveredBytes_load]
    exact holds.hdrCrc

/-- Validation accepts exactly the images that lie in their slot, stores
exactly their headers, and reads nothing outside the slot. -/
theorem blCoreValidateSlotInto_exact {portCrc32 : U32 → List U8 → U32}
    (bulk : ∀ crc data, portCrc32 crc data = blCrc32 crc data)
    {layout : BlLayout} (slots : layout.SlotsFit) (flash : Flash) (slot : U8)
    (hdrOut : BlImgHdr) :
    let hdr := BlImgHdr.ofBytes
      (load flash (layout.slot slot).base.toNat 40)
    let verdict := blCoreValidateSlotInto portCrc32 layout flash slot hdrOut
    (verdict.result = .ok ↔
        slotIsValid slot = true ∧ SlotHolds layout flash slot hdr) ∧
      (verdict.result = .ok → verdict.hdrOut = hdr) ∧
      (verdict.result ≠ .ok → verdict.hdrOut = hdrOut) ∧
      ∀ read ∈ verdict.reads, read.Within (layout.slot slot) := by
  intro hdr verdict
  have contained := blCoreValidateSlotInto_contained portCrc32 slots flash
    slot hdrOut
  have outcome := blCoreValidateSlotInto_outcome bulk layout flash slot hdrOut
  have accepts : ∀ {accepted},
      blCoreValidateSlot layout flash slot = .ok accepted ↔
        ValidImage layout flash slot accepted :=
    blCoreValidateSlot_ok_iff_fits (fun valid => (slots slot valid).2)
  have stored : verdict.result = .ok →
      ValidImage layout flash slot verdict.hdrOut := by
    intro ok
    rw [← accepts, ← outcome]
    exact if_pos ok
  refine ⟨⟨fun ok => ?_, fun holds => ?_⟩, fun ok => ?_,
    contained.untouched, contained.inside⟩
  · exact validImage_iff_slotHolds.mp ⟨_, stored ok⟩
  · obtain ⟨accepted, image⟩ := validImage_iff_slotHolds.mpr holds
    rw [← accepts, ← outcome] at image
    by_contra refused
    rw [SlotVerdict.outcome, if_neg refused] at image
    cases image
  · exact (stored ok).header.symm

theorem blCoreValidateSlotInto_exact_installed :
    let verdict := blCoreValidateSlotInto blCrc32 hostLayout trialFlash
      blSlotA (BlImgHdr.ofBytes [])
    verdict.result = .ok ∧
      SlotHolds hostLayout trialFlash blSlotA verdict.hdrOut ∧
      ∀ read ∈ verdict.reads, read.Within (hostLayout.slot blSlotA) := by
  have accepted : (blCoreValidateSlotInto blCrc32 hostLayout trialFlash
      blSlotA (BlImgHdr.ofBytes [])).result = .ok := by
    decide +kernel
  have slots : hostLayout.SlotsFit := fun slot valid =>
    ⟨by rcases slotIsValid_cases valid with rfl | rfl <;> decide,
      hostPort.slotFits slot valid⟩
  obtain ⟨accepts, stored, _untouched, inside⟩ :=
    blCoreValidateSlotInto_exact (fun _crc _data => rfl) slots
      trialFlash blSlotA (BlImgHdr.ofBytes [])
  refine ⟨accepted, ?_, inside⟩
  rw [stored accepted]
  exact (accepts.mp accepted).2

end Stm32Bootloader
