/-
Firmware image validation, `bl_core_validate_slot` of bl_core.c.

The checksum loop reads the payload in blocks of 256 bytes.  Inside the
address space it computes the checksum of the payload read at once, so the
verdict on a slot depends on the bytes of that slot alone.
-/

import Stm32Bootloader.Port

namespace Stm32Bootloader

open Memory

def blCrcChunk : U32 := 256

/-- The loop that checksums `remaining` bytes from `address` on, at most
`fuel` blocks of them. -/
def payloadCrc (flash : Flash) : Nat → U32 → U32 → U32 → Except BlResult U32
  | 0, _, _, crc => .ok crc
  | fuel + 1, address, remaining, crc =>
      if remaining > 0 then
        let chunk := if remaining > blCrcChunk then blCrcChunk else remaining
        match blFlashRead flash address chunk.toNat with
        | .error result => .error result
        | .ok buffer =>
            payloadCrc flash fuel (address + chunk) (remaining - chunk)
              (blPortCrc32 crc buffer)
      else .ok crc

def blCoreValidateSlot (layout : BlLayout) (flash : Flash) (slot : U8) :
    Except BlResult BlImgHdr :=
  if ¬ slotIsValid slot then .error .errInvalidArgument
  else
    let slotBase := (layout.slot slot).base
    let slotSize := (layout.slot slot).size
    match blFlashRead flash slotBase BlImgHdr.byteSize with
    | .error result => .error result
    | .ok bytes =>
        let hdr := BlImgHdr.ofBytes bytes
        if hdr.magic ≠ blImgMagic then .error .errMagic
        else if hdr.hdrVersion ≠ blImgHdrVersion then .error .errHdrVersion
        else if hdr.hdrCrc32 ≠ blCrc32 0 hdr.coveredBytes then
          .error .errHdrCrc
        else if hdr.entryOffset < BitVec.ofNat 32 BlImgHdr.byteSize then
          .error .errEntryOffset
        else if hdr.entryOffset &&& (blImgHdrRegion - 1) ≠ 0 then
          .error .errEntryOffset
        else if hdr.entryOffset ≥ slotSize then .error .errEntryOffset
        else if hdr.imgSize = 0 then .error .errImageSize
        else if hdr.imgSize > slotSize - hdr.entryOffset then
          .error .errImageSize
        else
          -- Every pass takes at least one byte, so this fuel never runs out.
          match payloadCrc flash hdr.imgSize.toNat
              (slotBase + hdr.entryOffset) hdr.imgSize 0 with
          | .error result => .error result
          | .ok crc =>
              if crc ≠ hdr.imgCrc32 then .error .errImageCrc else .ok hdr

/-! ### The checksum loop -/

theorem payloadCrc_eq (flash : Flash) (fuel : Nat) :
    ∀ address remaining crc : U32, remaining.toNat ≤ fuel →
      address.toNat + remaining.toNat ≤ 2 ^ 32 →
      payloadCrc flash fuel address remaining crc =
        .ok (blCrc32 crc (load flash address.toNat remaining.toNat)) := by
  induction fuel with
  | zero =>
      intro address remaining crc enough _room
      have done : remaining.toNat = 0 := by omega
      rw [payloadCrc, done, load_zero, blCrc32_nil]
  | succ fuel ih =>
      intro address remaining crc enough room
      unfold payloadCrc
      by_cases more : remaining > 0
      · rw [if_pos more]
        simp only [blFlashRead, blPortCrc32]
        generalize chunkEq : (if remaining > blCrcChunk then blCrcChunk
          else remaining) = chunk
        have chunkBounds : 0 < chunk.toNat ∧
            chunk.toNat ≤ remaining.toNat := by
          have chunkSize : blCrcChunk.toNat = 256 := rfl
          split at chunkEq <;> subst chunkEq <;> bv_omega
        have restEq : (remaining - chunk).toNat =
            remaining.toNat - chunk.toNat := by
          bv_omega
        have whole : remaining.toNat =
            chunk.toNat + (remaining - chunk).toNat := by
          omega
        by_cases last : (remaining - chunk).toNat = 0
        · rw [whole, load_add, last, load_zero, List.append_nil]
          have rest : remaining - chunk = 0 := BitVec.eq_of_toNat_eq last
          rw [rest]
          cases fuel <;> rfl
        · have addressEq : (address + chunk).toNat =
              address.toNat + chunk.toNat := by
            bv_omega
          rw [ih _ _ _ (by omega) (by omega), addressEq, whole, load_add,
            blCrc32_append]
      · have done : remaining.toNat = 0 := by bv_omega
        rw [if_neg more, done, load_zero, blCrc32_nil]

theorem payloadCrc_returns (flash : Flash) (fuel : Nat)
    (address remaining crc : U32) :
    ∃ value, payloadCrc flash fuel address remaining crc = .ok value := by
  induction fuel generalizing address remaining crc with
  | zero => exact ⟨crc, rfl⟩
  | succ fuel ih =>
      unfold payloadCrc
      split
      · exact ih _ _ _
      · exact ⟨crc, rfl⟩

private theorem refused_not_ok {α : Type} {refused : Prop}
    [Decidable refused] {result : BlResult} {rest : Except BlResult α}
    (notOk : result ≠ .ok) (later : rest ≠ .error .ok) :
    (if refused then .error result else rest) ≠ .error .ok := by
  split
  · intro same
    cases same
    exact notOk rfl
  · exact later

theorem blCoreValidateSlot_error (layout : BlLayout) (flash : Flash)
    (slot : U8) : blCoreValidateSlot layout flash slot ≠ .error .ok := by
  unfold blCoreValidateSlot
  refine refused_not_ok (by decide) ?_
  simp only [blFlashRead]
  refine refused_not_ok (by decide) (refused_not_ok (by decide)
    (refused_not_ok (by decide) (refused_not_ok (by decide)
    (refused_not_ok (by decide) (refused_not_ok (by decide)
    (refused_not_ok (by decide) (refused_not_ok (by decide) ?_)))))))
  generalize BlImgHdr.ofBytes (load flash (layout.slot slot).base.toNat
    BlImgHdr.byteSize) = hdr
  obtain ⟨crc, loop⟩ := payloadCrc_returns flash hdr.imgSize.toNat
    ((layout.slot slot).base + hdr.entryOffset) hdr.imgSize 0
  rw [loop]
  refine refused_not_ok (by decide) ?_
  intro same
  cases same

/-! ### What the verdict depends on -/

def slotBytes (layout : BlLayout) (flash : Flash) (slot : U8) : List U8 :=
  load flash (layout.slot slot).base.toNat (layout.slot slot).size.toNat

theorem load_of_slotBytes {layout : BlLayout} {before after : Flash}
    {slot : U8}
    (same : slotBytes layout after slot = slotBytes layout before slot)
    (offset length : Nat)
    (inside : offset + length ≤ (layout.slot slot).size.toNat) :
    load after ((layout.slot slot).base.toNat + offset) length =
      load before ((layout.slot slot).base.toNat + offset) length := by
  apply load_congr
  intro index bound
  have pointwise := congrArg (fun bytes => bytes[offset + index]?) same
  unfold slotBytes at pointwise
  rw [getElem?_load _ _ _ _ (by omega), getElem?_load _ _ _ _ (by omega)]
    at pointwise
  rw [Nat.add_assoc]
  exact Option.some.inj pointwise

theorem slotBytes_at {layout : BlLayout} {before after : Flash} {slot : U8}
    (same : slotBytes layout after slot = slotBytes layout before slot)
    {address : Nat} (inside : (layout.slot slot).Holds address) :
    after address = before address := by
  unfold BlRegion.Holds at inside
  have single := load_of_slotBytes same
    (address - (layout.slot slot).base.toNat) 1 (by omega)
  rw [Nat.add_sub_cancel' inside.1] at single
  exact List.singleton_inj.mp single

theorem blCoreValidateSlot_congr (port : Port) {before after : Flash}
    {slot : U8}
    (same : slotBytes port.layout after slot =
      slotBytes port.layout before slot) :
    blCoreValidateSlot port.layout after slot =
      blCoreValidateSlot port.layout before slot := by
  unfold blCoreValidateSlot
  refine ite_congr rfl (fun _ => rfl) (fun accepted => ?_)
  have valid := Decidable.not_not.mp accepted
  have fits := port.slotFits slot valid
  have room := port.slotHoldsImage slot valid
  have regionSize : blImgHdrRegion.toNat = 512 := rfl
  have header := load_of_slotBytes same 0 40 (by omega)
  rw [Nat.add_zero] at header
  simp only [blFlashRead, BlImgHdr.byteSize, header]
  refine ite_congr rfl (fun _ => rfl) (fun _magic => ?_)
  refine ite_congr rfl (fun _ => rfl) (fun _version => ?_)
  refine ite_congr rfl (fun _ => rfl) (fun _hdrCrc => ?_)
  refine ite_congr rfl (fun _ => rfl) (fun _entryLower => ?_)
  refine ite_congr rfl (fun _ => rfl) (fun _entryAligned => ?_)
  refine ite_congr rfl (fun _ => rfl) (fun entryUpper => ?_)
  refine ite_congr rfl (fun _ => rfl) (fun _imgNonempty => ?_)
  refine ite_congr rfl (fun _ => rfl) (fun imgFits => ?_)
  generalize BlImgHdr.ofBytes
    (load before (port.layout.slot slot).base.toNat 40) = hdr at *
  have entryEq : ((port.layout.slot slot).base + hdr.entryOffset).toNat =
      (port.layout.slot slot).base.toNat + hdr.entryOffset.toNat := by
    bv_omega
  have inside : hdr.entryOffset.toNat + hdr.imgSize.toNat ≤
      (port.layout.slot slot).size.toNat := by
    bv_omega
  rw [payloadCrc_eq _ _ _ _ _ (Nat.le_refl _) (by omega),
    payloadCrc_eq _ _ _ _ _ (Nat.le_refl _) (by omega), entryEq,
    load_of_slotBytes same _ _ inside]

/-! ### What validation accepts -/

/-- A slot that holds an image with this header. -/
structure ValidImage (layout : BlLayout) (flash : Flash) (slot : U8)
    (hdr : BlImgHdr) : Prop where
  slotOk : slotIsValid slot = true
  header : BlImgHdr.ofBytes
    (load flash (layout.slot slot).base.toNat 40) = hdr
  magic : hdr.magic = blImgMagic
  version : hdr.hdrVersion = blImgHdrVersion
  hdrCrc : hdr.hdrCrc32 = blCrc32 0 hdr.coveredBytes
  entryLower : 40 ≤ hdr.entryOffset.toNat
  entryAligned : hdr.entryOffset &&& (blImgHdrRegion - 1) = 0
  entryUpper : hdr.entryOffset.toNat < (layout.slot slot).size.toNat
  imgNonempty : 0 < hdr.imgSize.toNat
  imgFits : hdr.entryOffset.toNat + hdr.imgSize.toNat ≤
    (layout.slot slot).size.toNat
  imgCrc : blCrc32 0 (load flash
    ((layout.slot slot).base.toNat + hdr.entryOffset.toNat)
    hdr.imgSize.toNat) = hdr.imgCrc32

theorem ValidImage.congr {layout : BlLayout} {before after : Flash}
    {slot : U8} {hdr : BlImgHdr} (image : ValidImage layout before slot hdr)
    (header : load after (layout.slot slot).base.toNat 40 =
      load before (layout.slot slot).base.toNat 40)
    (payload : load after
        ((layout.slot slot).base.toNat + hdr.entryOffset.toNat)
        hdr.imgSize.toNat =
      load before ((layout.slot slot).base.toNat + hdr.entryOffset.toNat)
        hdr.imgSize.toNat) :
    ValidImage layout after slot hdr :=
  { slotOk := image.slotOk
    header := by rw [header]; exact image.header
    magic := image.magic
    version := image.version
    hdrCrc := image.hdrCrc
    entryLower := image.entryLower
    entryAligned := image.entryAligned
    entryUpper := image.entryUpper
    imgNonempty := image.imgNonempty
    imgFits := image.imgFits
    imgCrc := by rw [payload]; exact image.imgCrc }

private theorem refuse_unless {α : Type} {refused : Prop} [Decidable refused]
    {result : BlResult} {rest : Except BlResult α} {value : α} :
    (if refused then .error result else rest) = .ok value ↔
      ¬ refused ∧ rest = .ok value := by
  by_cases guard : refused
  · rw [if_pos guard]
    constructor
    · intro impossible
      cases impossible
    · exact fun both => absurd guard both.1
  · rw [if_neg guard]
    exact ⟨fun same => ⟨guard, same⟩, fun both => both.2⟩

theorem ValidImage.verdict {layout : BlLayout} {before after : Flash}
    {slot : U8} {hdr : BlImgHdr}
    (slotFits : (layout.slot slot).base.toNat +
      (layout.slot slot).size.toNat ≤ 2 ^ 32)
    (image : ValidImage layout before slot hdr)
    (header : load after (layout.slot slot).base.toNat 40 =
      load before (layout.slot slot).base.toNat 40) :
    blCoreValidateSlot layout after slot =
      if blCrc32 0 (load after
          ((layout.slot slot).base.toNat + hdr.entryOffset.toNat)
          hdr.imgSize.toNat) ≠ hdr.imgCrc32 then .error .errImageCrc
      else .ok hdr := by
  have entryLower := image.entryLower
  have entryUpper := image.entryUpper
  have nonempty := image.imgNonempty
  have within := image.imgFits
  have headerSize : (BitVec.ofNat 32 40).toNat = 40 := rfl
  have entryEq : ((layout.slot slot).base + hdr.entryOffset).toNat =
      (layout.slot slot).base.toNat + hdr.entryOffset.toNat := by
    bv_omega
  unfold blCoreValidateSlot
  rw [if_neg (not_not_intro image.slotOk)]
  simp only [blFlashRead, BlImgHdr.byteSize, header, image.header]
  rw [if_neg (not_not_intro image.magic),
    if_neg (not_not_intro image.version),
    if_neg (not_not_intro image.hdrCrc), if_neg (by bv_omega),
    if_neg (not_not_intro image.entryAligned), if_neg (by bv_omega),
    if_neg (by bv_omega), if_neg (by bv_omega),
    payloadCrc_eq _ _ _ _ _ (Nat.le_refl _) (by omega), entryEq]

theorem blCoreValidateSlot_ok_iff_fits {layout : BlLayout} {flash : Flash}
    {slot : U8} {hdr : BlImgHdr}
    (slotFits : slotIsValid slot = true →
      (layout.slot slot).base.toNat + (layout.slot slot).size.toNat ≤
        2 ^ 32) :
    blCoreValidateSlot layout flash slot = .ok hdr ↔
      ValidImage layout flash slot hdr := by
  constructor
  · unfold blCoreValidateSlot
    simp only [blFlashRead, BlImgHdr.byteSize, refuse_unless,
      Decidable.not_not, ge_iff_le, gt_iff_lt, BitVec.not_le, BitVec.not_lt]
    generalize decoded : BlImgHdr.ofBytes
      (load flash (layout.slot slot).base.toNat 40) = read
    rintro ⟨slotOk, magic, version, hdrCrc, entryLower, entryAligned,
      entryUpper, imgNonempty, imgFits, verdict⟩
    have fits := slotFits slotOk
    have within : read.entryOffset.toNat + read.imgSize.toNat ≤
        (layout.slot slot).size.toNat := by
      bv_omega
    have entry : ((layout.slot slot).base + read.entryOffset).toNat =
        (layout.slot slot).base.toNat + read.entryOffset.toNat := by
      bv_omega
    rw [payloadCrc_eq _ _ _ _ _ (Nat.le_refl _) (by omega), entry] at verdict
    simp only [refuse_unless, Decidable.not_not] at verdict
    obtain ⟨imgCrc, same⟩ := verdict
    cases same
    exact {
      slotOk := slotOk
      header := decoded
      magic := magic
      version := version
      hdrCrc := hdrCrc
      entryLower := entryLower
      entryAligned := entryAligned
      entryUpper := entryUpper
      imgNonempty := by bv_omega
      imgFits := within
      imgCrc := imgCrc }
  · intro image
    exact (image.verdict (slotFits image.slotOk) rfl).trans
      (if_neg (not_not_intro image.imgCrc))

theorem blCoreValidateSlot_ok_iff (port : Port) {flash : Flash} {slot : U8}
    {hdr : BlImgHdr} :
    blCoreValidateSlot port.layout flash slot = .ok hdr ↔
      ValidImage port.layout flash slot hdr :=
  blCoreValidateSlot_ok_iff_fits (port.slotFits slot)

theorem entryAligned_iff {entryOffset : U32} :
    entryOffset &&& (blImgHdrRegion - 1) = 0 ↔
      entryOffset.toNat % 512 = 0 := by
  have mask : (blImgHdrRegion - 1).toNat = 2 ^ 9 - 1 := rfl
  have masked : (entryOffset &&& (blImgHdrRegion - 1)).toNat =
      entryOffset.toNat % 512 := by
    rw [BitVec.toNat_and, mask, Nat.and_two_pow_sub_one_eq_mod]
  rw [← masked]
  constructor
  · intro zero
    rw [zero]
    rfl
  · exact fun zero => BitVec.eq_of_toNat_eq zero

theorem blCoreValidateSlot_invalid {layout : BlLayout} {flash : Flash}
    {slot : U8} (invalid : ¬ slotIsValid slot = true) :
    blCoreValidateSlot layout flash slot = .error .errInvalidArgument := by
  unfold blCoreValidateSlot
  exact if_pos invalid

theorem blCoreValidateSlot_valid {layout : BlLayout} {flash : Flash}
    {slot : U8} {hdr : BlImgHdr}
    (accepted : blCoreValidateSlot layout flash slot = .ok hdr) :
    slotIsValid slot = true := by
  unfold blCoreValidateSlot at accepted
  exact Decidable.not_not.mp (refuse_unless.mp accepted).1

theorem blCoreValidateSlot_erased {port : Port} {flash : Flash} {slot : U8}
    (erased : load flash (port.layout.slot slot).base.toNat 40 =
      List.replicate 40 0xFF) (hdr : BlImgHdr) :
    blCoreValidateSlot port.layout flash slot ≠ .ok hdr := by
  intro accepted
  have image := (blCoreValidateSlot_ok_iff port).mp accepted
  have magic := image.magic
  rw [← image.header, erased] at magic
  exact absurd magic (by decide)

/-- The flash after an update has put an image file in a slot: its header at
the slot base and its payload behind the header region. -/
def installed (layout : BlLayout) (flash : Flash) (slot : U8)
    (image : List U8) : Flash :=
  let base := (layout.slot slot).base.toNat
  let region := blImgHdrRegion.toNat
  store (store flash (base + region) (image.drop region)) base
    (image.take BlImgHdr.byteSize)

theorem validImage_installed {port : Port} {slot : U8} {image : List U8}
    {hdr : BlImgHdr} (flash : Flash) (slotOk : slotIsValid slot = true)
    (nonempty : 512 < image.length)
    (room : image.length ≤ (port.layout.slot slot).size.toNat)
    (header : BlImgHdr.ofBytes (image.take 40) = hdr)
    (magic : hdr.magic = blImgMagic)
    (version : hdr.hdrVersion = blImgHdrVersion)
    (hdrCrc : hdr.hdrCrc32 = blCrc32 0 hdr.coveredBytes)
    (entry : hdr.entryOffset = blImgHdrRegion)
    (size : hdr.imgSize.toNat = image.length - 512)
    (imgCrc : blCrc32 0 (image.drop 512) = hdr.imgCrc32) :
    ValidImage port.layout (installed port.layout flash slot image) slot
      hdr := by
  have headerLength : (image.take 40).length = 40 := by
    rw [List.length_take]
    omega
  have entryNat : hdr.entryOffset.toNat = 512 := by
    rw [entry]
    rfl
  refine ⟨slotOk, ?_, magic, version, hdrCrc, by omega, ?_, by omega,
    by omega, by omega, ?_⟩
  · rw [← header]
    refine congrArg BlImgHdr.ofBytes ?_
    have stored := load_store (store flash
      ((port.layout.slot slot).base.toNat + 512) (image.drop 512))
      (port.layout.slot slot).base.toNat (image.take 40)
    rwa [headerLength] at stored
  · rw [entry]
    rfl
  · rw [← imgCrc, entryNat, size]
    refine congrArg (blCrc32 0) ?_
    have apart : Apart (port.layout.slot slot).base.toNat
        (image.take 40).length
        ((port.layout.slot slot).base.toNat + 512) (image.length - 512) := by
      rw [headerLength]
      exact Or.inl (by omega)
    have kept := (store_agreesOutside (store flash
      ((port.layout.slot slot).base.toNat + 512) (image.drop 512))
      (port.layout.slot slot).base.toNat (image.take 40)).load apart
    refine kept.trans ?_
    have stored := load_store flash
      ((port.layout.slot slot).base.toNat + 512) (image.drop 512)
    rwa [List.length_drop] at stored

end Stm32Bootloader
