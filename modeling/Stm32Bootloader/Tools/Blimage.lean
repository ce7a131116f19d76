/-
The firmware image format on the host, tools/blimage.py, and the images that
tools/mkimage.py builds.

An image is the byte string of a file.  The host decodes and checks it with
its own copy of the header layout; integers are Python's, so sums of header
fields do not wrap.
-/

import Stm32Bootloader.Proto

namespace Stm32Bootloader.Blimage

open LittleEndian

def imgMagic : U32 := 0x4D494C42
def hdrVersion : U16 := 1
def hdrStructSize : Nat := 40
def hdrRegionSize : Nat := 512
def writeGranularity : Nat := 8
def padByte : U8 := 0xFF

/-- `zlib.crc32`, which is CRC-32/ISO-HDLC. -/
def zlibCrc32 (data : List U8) : U32 := blCrc32 0 data

/-- `struct.pack` with `HDR_FORMAT_NO_CRC`. -/
def packHead (imgSize imgCrc32 fwVersion entryOffset : U32) : List U8 :=
  bytes32 imgMagic ++ bytes16 hdrVersion ++ bytes16 0 ++ bytes32 imgSize ++
    bytes32 imgCrc32 ++ bytes32 fwVersion ++ bytes32 entryOffset ++
    List.replicate 12 0

def buildHeader (imgSize imgCrc32 fwVersion entryOffset : U32) :
    List U8 × U32 :=
  let head := packHead imgSize imgCrc32 fwVersion entryOffset
  let hdrCrc32 := zlibCrc32 head
  (head ++ bytes32 hdrCrc32, hdrCrc32)

/-- The reasons for which an image is refused, with what they report. -/
inductive ImageError where
  | shorterThanHeader
  | shorterThanRegion
  | badMagic (magic : U32)
  | unsupportedVersion (version : U16)
  | headerCrcMismatch
  | entryOverlapsHeader (entryOffset : U32)
  | entryMisaligned (entryOffset : U32)
  | emptyPayload
  | payloadUnaligned (imgSize : U32)
  | payloadLengthMismatch (held : Nat) (declared : U32)
  | payloadCrcMismatch
  | slotTooSmall (required slotSize : Nat)
  deriving DecidableEq, Repr

def decodeHeader (header : List U8) : Except ImageError BlImgHdr :=
  if header.length < hdrStructSize then .error .shorterThanHeader
  else .ok (BlImgHdr.ofBytes (header.take hdrStructSize))

def validate (image : List U8) (slotSize : Option Nat) :
    Except ImageError BlImgHdr := do
  if image.length < hdrRegionSize then throw .shorterThanRegion
  let header ← decodeHeader image
  if header.magic ≠ imgMagic then throw (.badMagic header.magic)
  if header.hdrVersion ≠ hdrVersion then
    throw (.unsupportedVersion header.hdrVersion)
  let expectedHdrCrc := zlibCrc32 (image.take (hdrStructSize - 4))
  if header.hdrCrc32 ≠ expectedHdrCrc then throw .headerCrcMismatch
  if header.entryOffset.toNat < hdrStructSize then
    throw (.entryOverlapsHeader header.entryOffset)
  if header.entryOffset.toNat % hdrRegionSize ≠ 0 then
    throw (.entryMisaligned header.entryOffset)
  if header.imgSize = 0 then throw .emptyPayload
  if header.imgSize.toNat % writeGranularity ≠ 0 then
    throw (.payloadUnaligned header.imgSize)
  let payload := image.drop header.entryOffset.toNat
  if payload.length ≠ header.imgSize.toNat then
    throw (.payloadLengthMismatch payload.length header.imgSize)
  if zlibCrc32 payload ≠ header.imgCrc32 then throw .payloadCrcMismatch
  if let some slotSize := slotSize then
    let required := header.entryOffset.toNat + header.imgSize.toNat
    if required > slotSize then throw (.slotTooSmall required slotSize)
  return header

/-! ### What an accepted image is -/

private theorem passed {α : Type} {refused : Prop} [Decidable refused]
    {error : ImageError} {next : Unit → Except ImageError α} {value : α}
    (accepted : (if refused then do
        let checked ← throw error
        next checked
      else next ()) = .ok value) :
    ¬ refused ∧ next () = .ok value := by
  split at accepted
  · cases accepted
  · rename_i holds
    exact ⟨holds, accepted⟩

private theorem continued {α β : Type} {first : α}
    {next : α → Except ImageError β} {value : β}
    (accepted : (do
        let first ← Except.ok first
        next first) = .ok value) : next first = .ok value := accepted

/-- What `validate` has checked of an image that it accepts. -/
structure Accepted (image : List U8) (slotSize : Option Nat)
    (header : BlImgHdr) : Prop where
  region : hdrRegionSize ≤ image.length
  decoded : BlImgHdr.ofBytes (image.take hdrStructSize) = header
  magic : header.magic = imgMagic
  version : header.hdrVersion = hdrVersion
  hdrCrc : header.hdrCrc32 = zlibCrc32 (image.take (hdrStructSize - 4))
  entryLower : hdrStructSize ≤ header.entryOffset.toNat
  entryAligned : header.entryOffset.toNat % hdrRegionSize = 0
  nonempty : header.imgSize ≠ 0
  aligned : header.imgSize.toNat % writeGranularity = 0
  payload : (image.drop header.entryOffset.toNat).length =
    header.imgSize.toNat
  imgCrc : zlibCrc32 (image.drop header.entryOffset.toNat) =
    header.imgCrc32
  fits : ∀ size, slotSize = some size →
    header.entryOffset.toNat + header.imgSize.toNat ≤ size

section Accepted

variable {image : List U8} {slotSize : Option Nat} {header : BlImgHdr}
  (accepted : Accepted image slotSize header)

include accepted

theorem Accepted.header_length : (image.take hdrStructSize).length = 40 := by
  have region : 512 ≤ image.length := accepted.region
  have size : hdrStructSize = 40 := rfl
  rw [List.length_take, size]
  omega

theorem Accepted.behind : 512 ≤ header.entryOffset.toNat := by
  have lower : 40 ≤ header.entryOffset.toNat := accepted.entryLower
  have aligned : header.entryOffset.toNat % 512 = 0 := accepted.entryAligned
  omega

theorem Accepted.payload_positive : 0 < header.imgSize.toNat := by
  have nonempty := accepted.nonempty
  bv_omega

end Accepted

theorem validate_ok {image : List U8} {slotSize : Option Nat}
    {header : BlImgHdr} (accepted : validate image slotSize = .ok header) :
    Accepted image slotSize header := by
  unfold validate at accepted
  obtain ⟨region, accepted⟩ := passed accepted
  have long : hdrRegionSize ≤ image.length := Nat.le_of_not_lt region
  have whole : ¬ image.length < hdrStructSize :=
    Nat.not_lt.mpr (Nat.le_trans (by decide) long)
  unfold decodeHeader at accepted
  rw [if_neg whole] at accepted
  obtain ⟨magic, accepted⟩ := passed (continued accepted)
  obtain ⟨version, accepted⟩ := passed accepted
  obtain ⟨hdrCrc, accepted⟩ := passed accepted
  obtain ⟨entryLower, accepted⟩ := passed accepted
  obtain ⟨entryAligned, accepted⟩ := passed accepted
  obtain ⟨nonempty, accepted⟩ := passed accepted
  obtain ⟨aligned, accepted⟩ := passed accepted
  obtain ⟨payload, accepted⟩ := passed accepted
  obtain ⟨imgCrc, accepted⟩ := passed accepted
  have fits : BlImgHdr.ofBytes (image.take hdrStructSize) = header ∧
      ∀ size, slotSize = some size →
        (BlImgHdr.ofBytes (image.take hdrStructSize)).entryOffset.toNat +
          (BlImgHdr.ofBytes (image.take hdrStructSize)).imgSize.toNat ≤
            size := by
    cases slotSize with
    | none =>
        exact ⟨Except.ok.inj accepted, fun _ impossible => by
          cases impossible⟩
    | some limit =>
        obtain ⟨fits, accepted⟩ := passed accepted
        refine ⟨Except.ok.inj accepted, fun size same => ?_⟩
        cases same
        exact Nat.le_of_not_gt fits
  obtain ⟨rfl, fits⟩ := fits
  exact {
    region := long
    decoded := rfl
    magic := Decidable.not_not.mp magic
    version := Decidable.not_not.mp version
    hdrCrc := Decidable.not_not.mp hdrCrc
    entryLower := Nat.le_of_not_lt entryLower
    entryAligned := Decidable.not_not.mp entryAligned
    nonempty := nonempty
    aligned := Decidable.not_not.mp aligned
    payload := Decidable.not_not.mp payload
    imgCrc := Decidable.not_not.mp imgCrc
    fits := fits }

theorem Accepted.validated {image : List U8} {slotSize : Option Nat}
    {header : BlImgHdr} (accepted : Accepted image slotSize header) :
    validate image slotSize = .ok header := by
  have whole : ¬ image.length < hdrStructSize :=
    Nat.not_lt.mpr (Nat.le_trans (by decide) accepted.region)
  unfold validate decodeHeader
  rw [if_neg (Nat.not_lt.mpr accepted.region), if_neg whole,
    accepted.decoded]
  simp only [bind, Except.bind]
  rw [if_neg (not_not_intro accepted.magic),
    if_neg (not_not_intro accepted.version),
    if_neg (not_not_intro accepted.hdrCrc),
    if_neg (Nat.not_lt.mpr accepted.entryLower),
    if_neg (not_not_intro accepted.entryAligned),
    if_neg accepted.nonempty, if_neg (not_not_intro accepted.aligned),
    if_neg (not_not_intro accepted.payload),
    if_neg (not_not_intro accepted.imgCrc)]
  cases slotSize with
  | none => rfl
  | some size => exact if_neg (Nat.not_lt.mpr (accepted.fits size rfl))

/-! ### Building an image, tools/mkimage.py -/

def padPayload (data : List U8) : List U8 :=
  let remainder := data.length % writeGranularity
  if remainder ≠ 0 then
    data ++ List.replicate (writeGranularity - remainder) padByte
  else data

def buildHeaderRegion (header : List U8) : List U8 :=
  header ++ List.replicate (hdrRegionSize - header.length) padByte

/-- The file that `main` writes for a binary. -/
def mkimage (fwVersion : U32) (binary : List U8) : List U8 :=
  let payload := padPayload binary
  let (header, _) := buildHeader (BitVec.ofNat 32 payload.length)
    (zlibCrc32 payload) fwVersion (BitVec.ofNat 32 hdrRegionSize)
  buildHeaderRegion header ++ payload

example : (validate (mkimage 7 [1, 2, 3]) (some 4096)).toOption.map
    BlImgHdr.fwVersion = some 7 := by
  decide +kernel

end Stm32Bootloader.Blimage
