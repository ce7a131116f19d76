/-
Frames of bl_frame.h and their encoding by bl_frame.c.

A frame that has been decoded carries at most `BL_MAX_PAYLOAD` payload bytes,
which is a field of the structure.
-/

import Stm32Bootloader.Proto

namespace Stm32Bootloader

open LittleEndian

structure BlFrame where
  cmd : U8
  len : U16
  payload : Vector U8 512
  lenFits : len.toNat ≤ blMaxPayload

def BlFrame.bytes (frame : BlFrame) : List U8 :=
  frame.payload.toList.take frame.len.toNat

theorem BlFrame.bytes_length (frame : BlFrame) :
    frame.bytes.length = frame.len.toNat := by
  have fits := frame.lenFits
  simp only [blMaxPayload] at fits
  simp only [bytes, List.length_take, Vector.length_toList]
  omega

def BlFrame.ofBytes (cmd : U8) (bytes : List U8)
    (fits : bytes.length ≤ blMaxPayload) : BlFrame :=
  { cmd := cmd
    len := BitVec.ofNat 16 bytes.length
    payload := Vector.ofFn fun index => bytes.getD index.val 0
    lenFits := by
      simp only [blMaxPayload] at fits
      simp only [blMaxPayload, BitVec.toNat_ofNat]
      omega }

theorem BlFrame.ofBytes_bytes (cmd : U8) (bytes : List U8)
    (fits : bytes.length ≤ blMaxPayload) :
    (BlFrame.ofBytes cmd bytes fits).bytes = bytes := by
  have short : bytes.length ≤ 512 := fits
  have length : (BlFrame.ofBytes cmd bytes fits).len.toNat =
      bytes.length := by
    simp only [ofBytes, BitVec.toNat_ofNat]
    omega
  apply List.ext_getElem
  · rw [bytes_length, length]
  · intro index _bound inside
    simp only [BlFrame.bytes, ofBytes, List.getElem_take,
      Vector.getElem_toList, Vector.getElem_ofFn, List.getD_eq_getElem?_getD,
      List.getElem?_eq_getElem inside, Option.getD_some]

theorem BlFrame.ofBytes_byte (cmd byte : U8)
    (fits : [byte].length ≤ blMaxPayload) :
    (BlFrame.ofBytes cmd [byte] fits).payload[0] = byte := by
  simp only [BlFrame.ofBytes, Vector.getElem_ofFn]
  rfl

/-- `none` stands for the result zero. -/
def blFrameEncode (cmd : U8) (payload : List U8) (outSize : Nat) :
    Option (List U8) :=
  if payload.length > blMaxPayload then none
  else if payload.length + 8 > outSize then none
  else
    let body :=
      cmd :: (bytes16 (BitVec.ofNat 16 payload.length) ++ payload)
    let crc := blCrc32 0 body
    some (blSof :: (body ++ bytes32 crc))

theorem blFrameEncode_some {cmd : U8} {payload : List U8} {outSize : Nat}
    (short : payload.length ≤ blMaxPayload)
    (room : payload.length + 8 ≤ outSize) :
    blFrameEncode cmd payload outSize =
      some (blSof :: (cmd :: (bytes16 (BitVec.ofNat 16 payload.length) ++
        payload) ++ bytes32 (blCrc32 0 (cmd ::
          (bytes16 (BitVec.ofNat 16 payload.length) ++ payload))))) := by
  unfold blFrameEncode
  rw [if_neg (by omega), if_neg (by omega)]

theorem blFrameEncode_inv {cmd : U8} {payload : List U8} {outSize : Nat}
    {frame : List U8}
    (encoded : blFrameEncode cmd payload outSize = some frame) :
    payload.length ≤ blMaxPayload ∧ payload.length + 8 ≤ outSize ∧
      frame = blSof :: (cmd :: (bytes16 (BitVec.ofNat 16 payload.length) ++
        payload) ++ bytes32 (blCrc32 0 (cmd ::
          (bytes16 (BitVec.ofNat 16 payload.length) ++ payload)))) := by
  unfold blFrameEncode at encoded
  split at encoded
  · cases encoded
  rename_i short
  split at encoded
  · cases encoded
  rename_i room
  exact ⟨Nat.le_of_not_gt short, Nat.le_of_not_gt room,
    (Option.some.inj encoded).symm⟩

end Stm32Bootloader
