/-
The running CRC-32 of bl_crc32.c.

A call complements the running value, folds the bytes in and complements
again, so a checksum fed in consecutive blocks is the checksum of their
concatenation.  The bytes go through a shift register, so a checksum notices
every change that fits in its four bytes, wherever the change lies and
whatever surrounds it.
-/

import Stm32Bootloader.Library.LittleEndian
import Stm32Bootloader.Library.ShiftRegister

namespace Stm32Bootloader

open LittleEndian ShiftRegister

abbrev U8 := BitVec 8
abbrev U16 := BitVec 16
abbrev U32 := BitVec 32

/-- One pass of the inner loop over the bits of a byte. -/
def crcBit (crc : U32) : U32 :=
  if crc &&& 1 = 1 then (crc >>> 1) ^^^ 0xEDB88320#32 else crc >>> 1

def crcByte (crc : U32) (byte : U8) : U32 :=
  (List.range 8).foldl (fun crc _ => crcBit crc) (crc ^^^ byte.setWidth 32)

def blCrc32 (crc : U32) (data : List U8) : U32 :=
  ~~~(data.foldl crcByte (~~~crc))

theorem blCrc32_nil (crc : U32) : blCrc32 crc [] = crc := by
  simp only [blCrc32, List.foldl_nil, BitVec.not_not]

theorem blCrc32_append (crc : U32) (left right : List U8) :
    blCrc32 crc (left ++ right) = blCrc32 (blCrc32 crc left) right := by
  simp only [blCrc32, List.foldl_append, BitVec.not_not]

/-! ### A checksum tells bytes apart -/

theorem crcBit_eq (crc : U32) :
    crcBit crc = (crc >>> 1) ^^^
      (if crc.getLsbD 0 then 0xEDB88320#32 else 0#32) := by
  have odd : (crc &&& 1 = 1) ↔ crc.getLsbD 0 = true := by
    constructor
    · intro same
      have bit := congrArg (fun word : U32 => word.getLsbD 0) same
      simpa using bit
    · intro bit
      apply BitVec.eq_of_getLsbD_eq
      intro index _inside
      cases index with
      | zero => simpa using bit
      | succ index => simp
  unfold crcBit
  by_cases low : crc.getLsbD 0 = true
  · rw [if_pos (odd.mpr low), if_pos low]
  · rw [if_neg (fun same => low (odd.mp same)), if_neg low, BitVec.xor_zero]

/-- The polynomial of the checksum, its lowest power at the top. -/
def crcTaps : U32 := 0xEDB88320

theorem crcTaps_top : crcTaps.getLsbD (32 - 1) = true := rfl

theorem crcByte_feed : crcByte = feed crcTaps := by
  have bit : crcBit = shift crcTaps := funext crcBit_eq
  funext crc byte
  rw [crcByte, bit, List.foldl_const, List.length_range]
  rfl

theorem blCrc32_burst {before after : List U8} (burst : Burst 4 before after)
    (crc : U32) : blCrc32 crc after ≠ blCrc32 crc before := by
  intro same
  have running := BitVec.not_inj.mp same
  rw [crcByte_feed] at running
  exact foldl_feed_burst crcTaps_top (Nat.le_refl _) burst _ running

theorem blCrc32_set {crc : U32} {data : List U8} {index : Nat} {byte : U8}
    (inside : index < data.length)
    (same : blCrc32 crc (data.set index byte) = blCrc32 crc data) :
    data[index] = byte := by
  by_contra differs
  have burst := Burst.intro (data.take index) [data[index]] [byte]
    (data.drop (index + 1)) rfl (show 1 ≤ 4 by decide)
    (fun equal => differs (List.singleton_inj.mp equal).symm)
  simp only [List.append_assoc, List.singleton_append] at burst
  rw [← List.drop_eq_getElem_cons inside, List.take_append_drop] at burst
  refine blCrc32_burst burst crc ?_
  rw [← same, List.set_eq_take_append_cons_drop, if_pos inside]

/-! ### Data followed by its checksum -/

/-- What the checksum comes to over any data followed by its own checksum. -/
def crcResidue : U32 := 0x2144DF1C

private theorem word_bytes32 (value : U32) : word (bytes32 value) = value := by
  rw [bytes32_eq]
  apply BitVec.eq_of_getElem_eq
  intro index bound
  simp only [word]
  interval_cases index <;> simp

private theorem shifted_residue :
    (shift crcTaps)^[32] (BitVec.allOnes 32) = ~~~crcResidue := by
  decide +kernel

/-- The trailer is the checksum of the data exactly when the checksum of both
is the residue. -/
theorem blCrc32_residue (data : List U8) (trailer : U32) :
    blCrc32 0 (data ++ bytes32 trailer) = crcResidue ↔
      trailer = blCrc32 0 data := by
  have last : blCrc32 0 (data ++ bytes32 trailer) =
      ~~~((shift crcTaps)^[32] (~~~(blCrc32 0 data) ^^^ trailer)) := by
    have window := feed_window crcTaps (~~~(blCrc32 0 data))
      (bytes32 trailer) (Nat.le_refl 32)
    rw [bytes32_length, word_bytes32] at window
    rw [blCrc32_append, blCrc32, crcByte_feed, window]
  have injective := (shift_injective crcTaps_top).iterate 32
  have residue : crcResidue =
      ~~~((shift crcTaps)^[32] (BitVec.allOnes 32)) := by
    rw [shifted_residue, BitVec.not_not]
  rw [last, residue, BitVec.not_inj, injective.eq_iff]
  constructor
  · intro same
    have flipped := congrArg (fun bits => ~~~(blCrc32 0 data) ^^^ bits) same
    simpa only [← BitVec.xor_assoc, BitVec.xor_self, BitVec.zero_xor,
      BitVec.xor_allOnes, BitVec.not_not] using flipped
  · intro same
    rw [same, ← BitVec.not_xor_left, BitVec.xor_self, BitVec.not_zero]

/-- Of two sequences that differ in a burst, at most one ends in the checksum
of what comes before. -/
theorem blCrc32_burst_residue {before after : List U8}
    (burst : Burst 4 before after) (intact : blCrc32 0 before = crcResidue) :
    blCrc32 0 after ≠ crcResidue :=
  fun changed => blCrc32_burst burst 0 (changed.trans intact.symm)

/-- The check vector of CRC-32/ISO-HDLC, the digits one to nine in ASCII. -/
example : blCrc32 0 [0x31, 0x32, 0x33, 0x34, 0x35, 0x36, 0x37, 0x38, 0x39] =
    0xCBF43926#32 := by
  decide +kernel

end Stm32Bootloader
