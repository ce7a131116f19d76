/-
The two judges of an image: validate in blimage.py before the transfer and
bl_core_validate_slot after it.

The host refuses what the device would refuse, for the same reason, and
beyond that only images that could not be written as they are: payloads that
are no whole number of flash granules and files that do not end with their
payload.
-/

import Stm32Bootloader.Image
import Stm32Bootloader.Tools.Blimage

namespace Stm32Bootloader

open Blimage LittleEndian Memory

/-- The device looks for the place of the entry before it looks at the payload. -/
def misplaced (size : Nat) (header : BlImgHdr) (otherwise : BlResult) :
    BlResult :=
  if size ≤ header.entryOffset.toNat then .errEntryOffset else otherwise

/-- The result of a device whose slots have this size and that holds an image
with this header, by what the host reports; the device does not look for the
other faults. -/
def foretold (size : Nat) (header : BlImgHdr) : ImageError → Option BlResult
  | .badMagic _ => some .errMagic
  | .unsupportedVersion _ => some .errHdrVersion
  | .headerCrcMismatch => some .errHdrCrc
  | .entryOverlapsHeader _ => some .errEntryOffset
  | .entryMisaligned _ => some .errEntryOffset
  | .emptyPayload => some (misplaced size header .errImageSize)
  | .payloadCrcMismatch => some (misplaced size header
      (if size < header.entryOffset.toNat + header.imgSize.toNat then
        .errImageSize
      else .errImageCrc))
  | .slotTooSmall _ _ => some (misplaced size header .errImageSize)
  | .shorterThanHeader => none
  | .shorterThanRegion => none
  | .payloadUnaligned _ => none
  | .payloadLengthMismatch _ _ => none

section Verdict

variable {port : Port} {slot : U8} (slotOk : slotIsValid slot = true)
  (flash : Flash) {image : List U8}

def holding (port : Port) (flash : Flash) (slot : U8) (image : List U8) :
    Flash :=
  store flash (port.layout.slot slot).base.toNat image

theorem holding_header (whole : 40 ≤ image.length) :
    load (holding port flash slot image)
      (port.layout.slot slot).base.toNat 40 = image.take 40 :=
  load_store_within flash _ image 0 40 (by omega)

theorem coveredBytes_take (whole : 40 ≤ image.length) :
    (BlImgHdr.ofBytes (image.take 40)).coveredBytes = image.take 36 := by
  have length : (image.take 40).length = 40 := by
    rw [List.length_take]
    omega
  have covered := congrArg (List.take 36) (BlImgHdr.toBytes_ofBytes length)
  rw [BlImgHdr.toBytes, List.take_left' (BlImgHdr.coveredBytes_length _),
    List.take_take] at covered
  exact covered

include slotOk in
theorem blCoreValidateSlot_holding (whole : 40 ≤ image.length) :
    blCoreValidateSlot port.layout (holding port flash slot image) slot =
      let header := BlImgHdr.ofBytes (image.take 40)
      let size := (port.layout.slot slot).size.toNat
      if header.magic ≠ imgMagic then .error .errMagic
      else if header.hdrVersion ≠ hdrVersion then .error .errHdrVersion
      else if header.hdrCrc32 ≠ zlibCrc32 (image.take 36) then
        .error .errHdrCrc
      else if header.entryOffset.toNat < 40 then .error .errEntryOffset
      else if header.entryOffset.toNat % 512 ≠ 0 then .error .errEntryOffset
      else if size ≤ header.entryOffset.toNat then .error .errEntryOffset
      else if header.imgSize = 0 then .error .errImageSize
      else if size < header.entryOffset.toNat + header.imgSize.toNat then
        .error .errImageSize
      else if zlibCrc32 (load (holding port flash slot image)
          ((port.layout.slot slot).base.toNat + header.entryOffset.toNat)
          header.imgSize.toNat) ≠ header.imgCrc32 then .error .errImageCrc
      else .ok header := by
  have read : load (holding port flash slot image)
      (port.layout.slot slot).base.toNat BlImgHdr.byteSize = image.take 40 :=
    holding_header flash whole
  have covered := coveredBytes_take whole
  have fits := port.slotFits slot slotOk
  unfold blCoreValidateSlot
  rw [if_neg (not_not_intro slotOk)]
  simp only [blFlashRead]
  rw [read, covered]
  generalize BlImgHdr.ofBytes (image.take 40) = header
  have lower : header.entryOffset < BitVec.ofNat 32 BlImgHdr.byteSize ↔
      header.entryOffset.toNat < 40 := Iff.rfl
  have upper : header.entryOffset ≥ (port.layout.slot slot).size ↔
      (port.layout.slot slot).size.toNat ≤ header.entryOffset.toNat :=
    Iff.rfl
  refine if_congr Iff.rfl rfl (if_congr Iff.rfl rfl (if_congr Iff.rfl rfl
    (if_congr lower rfl (if_congr (not_congr entryAligned_iff) rfl
      (ite_congr (propext upper) (fun _ => rfl) fun inside => if_congr Iff.rfl rfl
        (ite_congr (propext ?_) (fun _ => rfl) fun within => ?_))))))
  · bv_omega
  · have payload : header.entryOffset.toNat + header.imgSize.toNat ≤
        (port.layout.slot slot).size.toNat := by bv_omega
    have entry : ((port.layout.slot slot).base + header.entryOffset).toNat =
        (port.layout.slot slot).base.toNat + header.entryOffset.toNat := by
      bv_omega
    rw [payloadCrc_eq _ _ _ _ _ (Nat.le_refl _) (by omega), entry]
    rfl

theorem holding_payload {header : BlImgHdr}
    (whole : image.length =
      header.entryOffset.toNat + header.imgSize.toNat) :
    load (holding port flash slot image)
        ((port.layout.slot slot).base.toNat + header.entryOffset.toNat)
        header.imgSize.toNat = image.drop header.entryOffset.toNat := by
  have stored := load_store_within flash
    (port.layout.slot slot).base.toNat image header.entryOffset.toNat
    header.imgSize.toNat (Nat.le_of_eq whole.symm)
  refine stored.trans (List.take_of_length_le ?_)
  rw [List.length_drop]
  omega

include slotOk in
theorem validate_ok_iff {header : BlImgHdr} :
    validate image (some (port.layout.slot slot).size.toNat) = .ok header ↔
      blCoreValidateSlot port.layout (holding port flash slot image) slot =
          .ok header ∧
        header.imgSize.toNat % writeGranularity = 0 ∧
        image.length =
          header.entryOffset.toNat + header.imgSize.toNat := by
  rw [blCoreValidateSlot_ok_iff port]
  constructor
  · intro validated
    have accepted := validate_ok validated
    have behind := accepted.behind
    have positive := accepted.payload_positive
    have fits := accepted.fits _ rfl
    have payload := accepted.payload
    rw [List.length_drop] at payload
    have whole : image.length =
        header.entryOffset.toNat + header.imgSize.toNat := by omega
    have read := @holding_header port slot flash image (by omega)
    have decoded : BlImgHdr.ofBytes (image.take 40) = header :=
      accepted.decoded
    have covered := @coveredBytes_take image (by omega)
    rw [decoded] at covered
    refine ⟨?_, accepted.aligned, whole⟩
    exact {
      slotOk := slotOk
      header := by rw [read, decoded]
      magic := accepted.magic
      version := accepted.version
      hdrCrc := by
        rw [covered]
        exact accepted.hdrCrc
      entryLower := accepted.entryLower
      entryAligned := entryAligned_iff.mpr accepted.entryAligned
      entryUpper := by omega
      imgNonempty := positive
      imgFits := fits
      imgCrc := by
        rw [holding_payload flash whole]
        exact accepted.imgCrc }
  · rintro ⟨valid, aligned, whole⟩
    have lower := valid.entryLower
    have pages := entryAligned_iff.mp valid.entryAligned
    have positive := valid.imgNonempty
    have read := @holding_header port slot flash image (by omega)
    have decoded := valid.header
    rw [read] at decoded
    have covered := @coveredBytes_take image (by omega)
    rw [decoded] at covered
    have region : 512 ≤ image.length := by omega
    refine Accepted.validated {
      region := region
      decoded := decoded
      magic := valid.magic
      version := valid.version
      hdrCrc := ?_
      entryLower := lower
      entryAligned := pages
      nonempty := ?_
      aligned := aligned
      payload := ?_
      imgCrc := ?_
      fits := ?_ }
    · change _ = zlibCrc32 (image.take 36)
      rw [← covered]
      exact valid.hdrCrc
    · intro zero
      rw [zero] at positive
      exact absurd positive (Nat.lt_irrefl 0)
    · rw [List.length_drop]
      omega
    · rw [← holding_payload flash whole]
      exact valid.imgCrc
    · intro size same
      cases same
      exact valid.imgFits

theorem validate_eq {size : Nat} (region : 512 ≤ image.length) :
    validate image (some size) =
      let header := BlImgHdr.ofBytes (image.take 40)
      let payload := image.drop header.entryOffset.toNat
      let required := header.entryOffset.toNat + header.imgSize.toNat
      if header.magic ≠ imgMagic then .error (.badMagic header.magic)
      else if header.hdrVersion ≠ hdrVersion then
        .error (.unsupportedVersion header.hdrVersion)
      else if header.hdrCrc32 ≠ zlibCrc32 (image.take 36) then
        .error .headerCrcMismatch
      else if header.entryOffset.toNat < 40 then
        .error (.entryOverlapsHeader header.entryOffset)
      else if header.entryOffset.toNat % 512 ≠ 0 then
        .error (.entryMisaligned header.entryOffset)
      else if header.imgSize = 0 then .error .emptyPayload
      else if header.imgSize.toNat % writeGranularity ≠ 0 then
        .error (.payloadUnaligned header.imgSize)
      else if payload.length ≠ header.imgSize.toNat then
        .error (.payloadLengthMismatch payload.length header.imgSize)
      else if zlibCrc32 payload ≠ header.imgCrc32 then
        .error .payloadCrcMismatch
      else if required > size then .error (.slotTooSmall required size)
      else .ok header := by
  have whole : ¬ image.length < hdrStructSize :=
    Nat.not_lt.mpr (Nat.le_trans (by decide) region)
  have long : ¬ image.length < hdrRegionSize := Nat.not_lt.mpr region
  unfold validate decodeHeader
  rw [if_neg long, if_neg whole]
  simp only [bind, Except.bind]
  rfl

include slotOk in
theorem validate_refused {error : ImageError} {result : BlResult}
    (refused : validate image (some (port.layout.slot slot).size.toNat) =
      .error error)
    (known : foretold (port.layout.slot slot).size.toNat
      (BlImgHdr.ofBytes (image.take 40)) error = some result) :
    blCoreValidateSlot port.layout (holding port flash slot image) slot =
      .error result := by
  by_cases region : 512 ≤ image.length
  swap
  · have short : image.length < hdrRegionSize := Nat.lt_of_not_le region
    unfold validate at refused
    rw [if_pos short] at refused
    cases refused
    cases known
  have payload := @holding_payload port slot flash image
    (BlImgHdr.ofBytes (image.take 40))
  rw [validate_eq region] at refused
  rw [blCoreValidateSlot_holding slotOk flash (by omega)]
  generalize BlImgHdr.ofBytes (image.take 40) = header
    at refused payload known ⊢
  dsimp only at refused ⊢
  split at refused
  · rename_i magic
    cases refused
    cases known
    exact if_pos magic
  rename_i magic
  rw [if_neg magic]
  split at refused
  · rename_i version
    cases refused
    cases known
    exact if_pos version
  rename_i version
  rw [if_neg version]
  split at refused
  · rename_i hdrCrc
    cases refused
    cases known
    exact if_pos hdrCrc
  rename_i hdrCrc
  rw [if_neg hdrCrc]
  split at refused
  · rename_i lower
    cases refused
    cases known
    exact if_pos lower
  rename_i lower
  rw [if_neg lower]
  split at refused
  · rename_i pages
    cases refused
    cases known
    exact if_pos pages
  rename_i pages
  rw [if_neg pages]
  unfold foretold misplaced at known
  -- The host does not look whether the payload starts in the slot.
  by_cases upper :
      (port.layout.slot slot).size.toNat ≤ header.entryOffset.toNat
  · simp only [if_pos upper] at known ⊢
    split at refused
    · cases refused
      exact congrArg Except.error (Option.some.inj known)
    split at refused
    · cases refused
      cases known
    split at refused
    · cases refused
      cases known
    split at refused
    · cases refused
      exact congrArg Except.error (Option.some.inj known)
    split at refused
    · cases refused
      exact congrArg Except.error (Option.some.inj known)
    · cases refused
  simp only [if_neg upper] at known ⊢
  split at refused
  · rename_i empty
    cases refused
    rw [if_pos empty]
    exact congrArg Except.error (Option.some.inj known)
  rename_i nonempty
  rw [if_neg nonempty]
  split at refused
  · cases refused
    cases known
  split at refused
  · cases refused
    cases known
  rename_i length
  split at refused
  · rename_i mismatch
    cases refused
    have positive : 0 < header.imgSize.toNat := by bv_omega
    rw [Decidable.not_not, List.length_drop] at length
    rw [payload (by omega)]
    by_cases large : (port.layout.slot slot).size.toNat <
        header.entryOffset.toNat + header.imgSize.toNat
    · simp only [if_pos large] at known ⊢
      exact congrArg Except.error (Option.some.inj known)
    · simp only [if_neg large] at known ⊢
      rw [if_pos mismatch]
      exact congrArg Except.error (Option.some.inj known)
  split at refused
  · rename_i large
    cases refused
    rw [if_pos large]
    exact congrArg Except.error (Option.some.inj known)
  · cases refused

end Verdict

/-- The verdict of the host on an image, with the size of the slot, tells that
of the device that holds it. -/
theorem validate_foretells (port : Port) {slot : U8}
    (slotOk : slotIsValid slot = true) (flash : Flash) (image : List U8) :
    let size := (port.layout.slot slot).size.toNat
    let verdict :=
      blCoreValidateSlot port.layout (holding port flash slot image) slot
    (∀ header, validate image (some size) = .ok header ↔
      verdict = .ok header ∧
        header.imgSize.toNat % writeGranularity = 0 ∧
        image.length =
          header.entryOffset.toNat + header.imgSize.toNat) ∧
    ∀ error result, validate image (some size) = .error error →
      foretold size (BlImgHdr.ofBytes (image.take 40)) error = some result →
        verdict = .error result :=
  ⟨fun _header => validate_ok_iff slotOk flash,
    fun _error _result => validate_refused slotOk flash⟩

/-- A good header in front of the wrong payload, which the slot has room for. -/
def swappedImage : List U8 :=
  (Blimage.mkimage 1 [0x10, 0x20, 0x30]).take 512 ++ List.replicate 8 0

/-- The device finds no fault but the payload checksum. -/
theorem validate_foretells_swapped :
    blCoreValidateSlot hostPort.layout
        (holding hostPort (fun _ => 0) blSlotB swappedImage) blSlotB =
      .error .errImageCrc :=
  (@validate_foretells hostPort blSlotB rfl (fun _ => 0) swappedImage).2
    .payloadCrcMismatch .errImageCrc (by decide +kernel) (by decide +kernel)

end Stm32Bootloader
