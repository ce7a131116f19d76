/-
CRC-32/ISO-HDLC by polynomial division, and that bl_crc32.c computes it.

The reference divides the message, read least significant bit first, by the
generator over GF(2).  The loop of `bl_crc32` never leaves the reflected
register: at every byte the register holds, in reverse, the remainder of what
has been taken in.
-/

import Stm32Bootloader.Crc32
import Stm32Bootloader.Library.BitPolynomial

namespace Stm32Bootloader

open Polynomial BitPolynomial ShiftRegister

def crcPolynomial : U32 := 0x04C11DB7

noncomputable def crcGenerator : (ZMod 2)[X] :=
  X ^ 32 + ofWord crcPolynomial

/-- The message with room for the checksum behind it, the register preset to
all ones in front. -/
noncomputable def crcDividend (data : List U8) : (ZMod 2)[X] :=
  X ^ (8 * data.length) * ofWord (BitVec.allOnes 32) +
    X ^ 32 * ofBits (data.flatMap lowFirst)

/-- The remainder, complemented and reflected. -/
noncomputable def crcReference (data : List U8) : U32 :=
  (~~~(toWord (crcDividend data %ₘ crcGenerator) : U32)).reverse

theorem crcTaps_reverse : crcTaps.reverse = crcPolynomial := by
  decide +kernel

theorem allOnes_reverse :
    (BitVec.allOnes 32).reverse = BitVec.allOnes 32 := by
  decide +kernel

theorem crcTaps_generator : generator crcTaps = crcGenerator := by
  rw [generator, crcTaps_reverse, crcGenerator]

theorem reverse_not (word : U32) : (~~~word).reverse = ~~~word.reverse := by
  apply BitVec.eq_of_getLsbD_eq
  intro index inside
  rw [BitVec.getLsbD_reverse, BitVec.getMsbD_not, BitVec.getLsbD_not,
    BitVec.getLsbD_reverse]

theorem held_crcByte (data : List U8) :
    held (data.foldl crcByte (BitVec.allOnes 32)) =
      crcDividend data %ₘ crcGenerator := by
  have preset : held (BitVec.allOnes 32) = ofWord (BitVec.allOnes 32) := by
    rw [held, allOnes_reverse]
  rw [crcByte_feed, held_foldl_feed crcTaps _ (by decide) data, preset,
    crcTaps_generator]
  rfl

/-- `bl_crc32` is CRC-32/ISO-HDLC, and can be fed in consecutive blocks. -/
theorem blCrc32_isoHdlc :
    (∀ data : List U8, blCrc32 0 data = crcReference data) ∧
      ∀ (crc : U32) (left right : List U8),
        blCrc32 (blCrc32 crc left) right = blCrc32 crc (left ++ right) := by
  refine ⟨fun data => ?_, fun crc left right =>
    (blCrc32_append crc left right).symm⟩
  have register : toWord (crcDividend data %ₘ crcGenerator) =
      (data.foldl crcByte (BitVec.allOnes 32)).reverse := by
    rw [← held_crcByte, held, toWord_ofWord]
  rw [crcReference, register, reverse_not, BitVec.reverse_reverse_eq,
    blCrc32]
  rfl

end Stm32Bootloader
