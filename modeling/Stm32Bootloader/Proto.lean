/-
Constants, result codes and on-flash record layouts of bl_proto.h and
bl_meta.h.

A C struct is a structure of its fixed-width fields together with the bytes
it occupies: `ofBytes` is the struct a memory copy yields and `toBytes` is the
struct as the checksum and the flash driver see it.
-/

import Mathlib.Data.Vector.Defs
import Stm32Bootloader.Crc32
import Stm32Bootloader.Library.LittleEndian

namespace Stm32Bootloader

open LittleEndian

/-! ### Protocol constants -/

def blProtoVersion : U8 := 1
def blMaxPayload : Nat := 512
def blSof : U8 := 0x7E
def blMaxWriteData : Nat := (blMaxPayload - 4) / 8 * 8

def blImgMagic : U32 := 0x4D494C42
def blImgHdrVersion : U16 := 1
def blImgHdrRegion : U32 := 512

def blSlotA : U8 := 0
def blSlotB : U8 := 1
def blSlotCount : U8 := 2
def blMetaCount : U32 := 2
def blSlotNone : U8 := 0xFF
def blBootStateNone : U8 := 0xFF

def blBootConfirmed : U8 := 0x01
def blBootTrial : U8 := 0x02
def blMaxBootAttempts : U8 := 3

def blCmdHello : U8 := 0x01
def blCmdEraseSlot : U8 := 0x02
def blCmdWrite : U8 := 0x03
def blCmdVerify : U8 := 0x04
def blCmdSetActive : U8 := 0x05
def blCmdReset : U8 := 0x06

inductive BlResult where
  | ok
  | errMagic
  | errHdrVersion
  | errHdrCrc
  | errImageSize
  | errImageCrc
  | errEntryOffset
  | errNoValidImage
  | errJumpRefused
  | errNoMetadata
  | errFlashUnlock
  | errFlashErase
  | errFlashProgram
  | errFlashVerify
  | errNotErased
  | errTimeout
  | errInvalidPacket
  | errCrc
  | errNullPointer
  | errInvalidArgument
  | errUnknown
  | errNotSupported
  deriving DecidableEq, Repr

/-- The numeric value of the enumerator, as sent in a response. -/
def BlResult.code : BlResult → U8
  | .ok => 0x00
  | .errMagic => 0x10
  | .errHdrVersion => 0x11
  | .errHdrCrc => 0x12
  | .errImageSize => 0x20
  | .errImageCrc => 0x21
  | .errEntryOffset => 0x22
  | .errNoValidImage => 0x23
  | .errJumpRefused => 0x24
  | .errNoMetadata => 0x25
  | .errFlashUnlock => 0x30
  | .errFlashErase => 0x31
  | .errFlashProgram => 0x32
  | .errFlashVerify => 0x33
  | .errNotErased => 0x34
  | .errTimeout => 0x40
  | .errInvalidPacket => 0x41
  | .errCrc => 0x42
  | .errNullPointer => 0x50
  | .errInvalidArgument => 0x51
  | .errUnknown => 0x52
  | .errNotSupported => 0x53

theorem BlResult.code_injective : Function.Injective BlResult.code := by
  intro left right same
  cases left <;> cases right <;> first | rfl | cases same

/-! ### Image header -/

private theorem vector_ofFn_getD {count : Nat} (items : Vector U8 count)
    (list : List U8) (offset : Nat)
    (same : ∀ index, index < count →
      list.getD (offset + index) 0 = items.toList.getD index 0) :
    (Vector.ofFn fun index : Fin count =>
      list.getD (offset + index.val) 0) = items := by
  apply Vector.ext
  intro index bound
  rw [Vector.getElem_ofFn, same index bound,
    List.getD_eq_getElem?_getD, List.getElem?_eq_getElem (by simpa using bound),
    Option.getD_some, Vector.getElem_toList]

private theorem vector_ofFn_slice {count offset : Nat} (bytes : List U8)
    (inside : offset + count ≤ bytes.length) :
    (Vector.ofFn fun index : Fin count =>
      bytes.getD (offset + index.val) 0).toList = slice bytes offset count := by
  refine List.ext_getElem ?_ fun index bound within => ?_
  · rw [Vector.length_toList, slice_length bytes inside]
  · rw [getElem_slice_getD, Vector.getElem_toList, Vector.getElem_ofFn]

structure BlImgHdr where
  magic : U32
  hdrVersion : U16
  flags : U16
  imgSize : U32
  imgCrc32 : U32
  fwVersion : U32
  entryOffset : U32
  reserved : Vector U8 12
  hdrCrc32 : U32
  deriving DecidableEq, Repr

def BlImgHdr.byteSize : Nat := 40

def BlImgHdr.ofBytes (bytes : List U8) : BlImgHdr :=
  { magic := word32At bytes 0
    hdrVersion := word16At bytes 4
    flags := word16At bytes 6
    imgSize := word32At bytes 8
    imgCrc32 := word32At bytes 12
    fwVersion := word32At bytes 16
    entryOffset := word32At bytes 20
    reserved := Vector.ofFn fun index => bytes.getD (24 + index.val) 0
    hdrCrc32 := word32At bytes 36 }

/-- The fields before `hdr_crc32`, which that checksum covers. -/
def BlImgHdr.coveredBytes (hdr : BlImgHdr) : List U8 :=
  bytes32 hdr.magic ++ bytes16 hdr.hdrVersion ++ bytes16 hdr.flags ++
    bytes32 hdr.imgSize ++ bytes32 hdr.imgCrc32 ++ bytes32 hdr.fwVersion ++
    bytes32 hdr.entryOffset ++ hdr.reserved.toList

def BlImgHdr.toBytes (hdr : BlImgHdr) : List U8 :=
  hdr.coveredBytes ++ bytes32 hdr.hdrCrc32

theorem BlImgHdr.coveredBytes_length (hdr : BlImgHdr) :
    hdr.coveredBytes.length = 36 := by
  simp only [coveredBytes, List.length_append, bytes32_length,
    bytes16_length, Vector.length_toList]

theorem BlImgHdr.toBytes_length (hdr : BlImgHdr) :
    hdr.toBytes.length = 40 := by
  simp only [toBytes, List.length_append, coveredBytes_length,
    bytes32_length]

theorem BlImgHdr.toBytes_ofBytes {bytes : List U8}
    (whole : bytes.length = 40) : (ofBytes bytes).toBytes = bytes := by
  have reserved : (ofBytes bytes).reserved.toList = slice bytes 24 12 :=
    vector_ofFn_slice bytes (by omega)
  unfold toBytes coveredBytes
  rw [reserved]
  simp only [ofBytes]
  rw [bytes32_slice bytes (by omega), bytes16_slice bytes (by omega),
    bytes16_slice bytes (by omega), bytes32_slice bytes (by omega),
    bytes32_slice bytes (by omega), bytes32_slice bytes (by omega),
    bytes32_slice bytes (by omega), bytes32_slice bytes (by omega)]
  rw [slice_append bytes 0 4 2, slice_append bytes 0 6 2,
    slice_append bytes 0 8 4, slice_append bytes 0 12 4,
    slice_append bytes 0 16 4, slice_append bytes 0 20 4,
    slice_append bytes 0 24 12, slice_append bytes 0 36 4]
  exact List.take_of_length_le (Nat.le_of_eq whole)

theorem BlImgHdr.toBytes_injective : Function.Injective toBytes := by
  intro left right same
  simp only [toBytes, coveredBytes, List.append_assoc] at same
  obtain ⟨magic, same⟩ := List.append_inj same rfl
  obtain ⟨hdrVersion, same⟩ := List.append_inj same rfl
  obtain ⟨flags, same⟩ := List.append_inj same rfl
  obtain ⟨imgSize, same⟩ := List.append_inj same rfl
  obtain ⟨imgCrc32, same⟩ := List.append_inj same rfl
  obtain ⟨fwVersion, same⟩ := List.append_inj same rfl
  obtain ⟨entryOffset, same⟩ := List.append_inj same rfl
  obtain ⟨reserved, hdrCrc32⟩ := List.append_inj same
    (by rw [Vector.length_toList, Vector.length_toList])
  cases left
  cases right
  simp only [BlImgHdr.mk.injEq]
  exact ⟨bytes32_injective magic, bytes16_injective hdrVersion,
    bytes16_injective flags, bytes32_injective imgSize,
    bytes32_injective imgCrc32, bytes32_injective fwVersion,
    bytes32_injective entryOffset, Vector.toList_inj.mp reserved,
    bytes32_injective hdrCrc32⟩

theorem BlImgHdr.ofBytes_toBytes (hdr : BlImgHdr) :
    ofBytes hdr.toBytes = hdr :=
  toBytes_injective (toBytes_ofBytes hdr.toBytes_length)

theorem BlImgHdr.ofBytes_inj {left right : List U8}
    (leftWhole : left.length = 40) (rightWhole : right.length = 40)
    (same : ofBytes left = ofBytes right) : left = right := by
  rw [← toBytes_ofBytes leftWhole, same, toBytes_ofBytes rightWhole]

/-! ### Boot metadata record -/

structure BlMeta where
  seq : U32
  activeSlot : U8
  state : U8
  bootAttempts : U8
  reserved : Vector U8 5
  crc32 : U32
  deriving DecidableEq, Repr

def BlMeta.byteSize : Nat := 16

def BlMeta.ofBytes (bytes : List U8) : BlMeta :=
  { seq := word32At bytes 0
    activeSlot := bytes.getD 4 0
    state := bytes.getD 5 0
    bootAttempts := bytes.getD 6 0
    reserved := Vector.ofFn fun index => bytes.getD (7 + index.val) 0
    crc32 := word32At bytes 12 }

def BlMeta.coveredBytes (record : BlMeta) : List U8 :=
  bytes32 record.seq ++
    [record.activeSlot, record.state, record.bootAttempts] ++
    record.reserved.toList

def BlMeta.toBytes (record : BlMeta) : List U8 :=
  record.coveredBytes ++ bytes32 record.crc32

theorem BlMeta.coveredBytes_length (record : BlMeta) :
    record.coveredBytes.length = 12 := by
  simp only [coveredBytes, List.length_append, bytes32_length,
    List.length_cons, List.length_nil, Vector.length_toList]

theorem BlMeta.toBytes_length (record : BlMeta) :
    record.toBytes.length = 16 := by
  simp only [toBytes, List.length_append, coveredBytes_length,
    bytes32_length]

theorem BlMeta.ofBytes_toBytes (record : BlMeta) :
    BlMeta.ofBytes record.toBytes = record := by
  have layout : record.toBytes =
      bytes32 record.seq ++
        ([record.activeSlot, record.state, record.bootAttempts] ++
          (record.reserved.toList ++ bytes32 record.crc32)) := by
    simp only [toBytes, coveredBytes, List.append_assoc]
  have reservedEq : (Vector.ofFn fun index : Fin 5 =>
      record.toBytes.getD (7 + index.val) 0) = record.reserved := by
    apply vector_ofFn_getD
    intro index bound
    rw [layout, getD_of_append _ _ _ (3 + index)
        (by rw [bytes32_length]; omega),
      getD_of_append _ _ _ index (by simp only [List.length_cons,
        List.length_nil]), getD_append_left]
    rwa [Vector.length_toList]
  have crcEq : word32At record.toBytes 12 = record.crc32 := by
    rw [toBytes, word32At_append_right _ _ _ 0
      (by rw [coveredBytes_length]), ← List.append_nil (bytes32 _),
      word32At_bytes32]
  have seqEq : word32At record.toBytes 0 = record.seq := by
    rw [layout, word32At_bytes32]
  have slotEq : record.toBytes.getD 4 0 = record.activeSlot := by
    rw [layout, getD_of_append _ _ _ 0 (by rw [bytes32_length])]
    rfl
  have stateEq : record.toBytes.getD 5 0 = record.state := by
    rw [layout, getD_of_append _ _ _ 1 (by rw [bytes32_length])]
    rfl
  have attemptsEq : record.toBytes.getD 6 0 = record.bootAttempts := by
    rw [layout, getD_of_append _ _ _ 2 (by rw [bytes32_length])]
    rfl
  unfold ofBytes
  rw [seqEq, slotEq, stateEq, attemptsEq, reservedEq, crcEq]

theorem BlMeta.toBytes_ofBytes {bytes : List U8}
    (whole : bytes.length = 16) : (ofBytes bytes).toBytes = bytes := by
  have fields : [bytes.getD 4 0, bytes.getD 5 0, bytes.getD 6 0] =
      slice bytes 4 3 := by
    have three : (slice bytes 4 3).length = 3 :=
      slice_length bytes (by omega)
    refine List.ext_getElem three.symm ?_
    intro index bound within
    rw [getElem_slice_getD]
    match index, bound with
    | 0, _ | 1, _ | 2, _ => rfl
  have reserved : (ofBytes bytes).reserved.toList = slice bytes 7 5 :=
    vector_ofFn_slice bytes (by omega)
  unfold toBytes coveredBytes
  rw [reserved]
  simp only [ofBytes, fields]
  rw [bytes32_slice bytes (by omega), bytes32_slice bytes (by omega)]
  rw [slice_append bytes 0 4 3, slice_append bytes 0 7 5,
    slice_append bytes 0 12 4]
  exact List.take_of_length_le (Nat.le_of_eq whole)

end Stm32Bootloader
