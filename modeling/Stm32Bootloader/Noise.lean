/-
Noise in what a checksum protects: one or two flipped bits anywhere, or a run
of inverted bytes of any length.

The checksum register only returns to a lone bit after 2^32 - 1 shifts, so
two flipped bits cancel at no shorter distance.  Frames, headers and records
are far shorter than that, and so is any payload below 512 MiB.
-/

import Mathlib.Tactic.NormNum.Prime
import Stm32Bootloader.Corruption
import Stm32Bootloader.Library.RegisterPeriod

namespace Stm32Bootloader

open BitPolynomial Framing Function LittleEndian Memory ShiftRegister

/-! ### The checksum -/

theorem crcTaps_period :
    minimalPeriod (shift crcTaps) (BitVec.ofNat 32 1) = 2 ^ 32 - 1 := by
  have primes : ∀ factor ∈ [3, 5, 17, 257, 65537], Nat.Prime factor := by
    simp only [List.mem_cons, List.not_mem_nil, or_false, forall_eq_or_imp,
      forall_eq]
    norm_num
  exact minimalPeriod_of_iterated crcTaps (by decide) primes
    (show _ < 2 ^ 32 by decide) (by decide +kernel) (by decide +kernel)

theorem blCrc32_noise {before after : List U8} (noise : Noise before after)
    (short : 8 * before.length < 2 ^ 32 - 1) (crc : U32) :
    blCrc32 crc after ≠ blCrc32 crc before := by
  intro same
  have running := BitVec.not_inj.mp same
  rw [crcByte_feed] at running
  rw [← crcTaps_period] at short
  exact foldl_feed_noise crcTaps_top (by decide) (by decide) noise short _
    running

theorem blCrc32_noise_residue {before after : List U8}
    (noise : Noise before after) (short : 8 * before.length < 2 ^ 32 - 1)
    (intact : blCrc32 0 before = crcResidue) : blCrc32 0 after ≠ crcResidue :=
  fun changed => blCrc32_noise noise short 0 (changed.trans intact.symm)

/-! ### Frames -/

/-- Noise behind the start marker that leaves the length bytes intact. -/
structure FrameNoise (frame changed : List U8) : Prop where
  sof : changed.head? = frame.head?
  noise : Noise frame.tail changed.tail
  lenLow : changed.getD 2 0 = frame.getD 2 0
  lenHigh : changed.getD 3 0 = frame.getD 3 0

theorem wireFrame_noisy {cmd : U8} {payload changed : List U8}
    (short : payload.length ≤ blMaxPayload)
    (noisy : FrameNoise (wireFrame cmd payload) changed) :
    frameGrammar.Frames .error changed := by
  have declared := @word16_bytes payload short
  obtain ⟨sof, noise, lenLow, lenHigh⟩ := noisy
  have length := noise.length_eq
  rw [List.length_tail, List.length_tail, wireFrame_length short] at length
  rw [wireFrame_eq short] at sof noise lenLow lenHigh
  simp only [frameBody, bytes16_eq, List.cons_append, List.nil_append,
    List.tail_cons, List.head?_cons] at sof noise lenLow lenHigh
  generalize (BitVec.ofNat 16 payload.length).setWidth 8 = declaredLow,
    (BitVec.ofNat 16 payload.length >>> 8).setWidth 8 = declaredHigh
    at declared noise lenLow lenHigh
  obtain ⟨command, low, high, rest, rfl⟩ :
      ∃ command low high rest,
        changed = blSof :: command :: low :: high :: rest := by
    obtain ⟨behind, rfl⟩ := List.head?_eq_some_iff.mp sof
    obtain ⟨command, behind, rfl⟩ :=
      @List.exists_cons_of_length_pos _ behind (by simp at length; omega)
    obtain ⟨low, behind, rfl⟩ :=
      @List.exists_cons_of_length_pos _ behind (by simp at length; omega)
    obtain ⟨high, behind, rfl⟩ :=
      @List.exists_cons_of_length_pos _ behind (by simp at length; omega)
    exact ⟨command, low, high, behind, rfl⟩
  change low = declaredLow at lenLow
  change high = declaredHigh at lenHigh
  subst lenLow lenHigh
  simp only [List.length_cons, List.tail_cons] at length noise
  have fits : (word16 low high).toNat ≤ blMaxPayload := by
    rw [declared]
    exact short
  have whole : rest.length = (word16 low high).toNat + 4 := by
    omega
  have intact := (blCrc32_residue (cmd :: low :: high :: payload) _).mpr rfl
  have bounded : blMaxPayload ≤ 2 ^ 16 := by decide
  refine judged_frames fits whole ?_
  rw [judgeFrame_residue fits whole]
  refine if_neg (blCrc32_noise_residue noise ?_ intact)
  simp only [List.length_cons, List.length_append, bytes32_length]
  omega

theorem reports_noisy {cmd : U8} {payload frame changed : List U8}
    {outSize : Nat} {parser : BlFrameParser}
    (encoded : blFrameEncode cmd payload outSize = some frame)
    (noisy : FrameNoise frame changed) (waits : parser.state = .waitSof) :
    reports frameFeed parser changed =
      List.replicate (changed.length - 1) none ++ [some .error] := by
  obtain ⟨short, rfl⟩ := blFrameEncode_wire encoded
  rw [(reports_waiting waits changed).1]
  exact (wireFrame_noisy short noisy).reported.1

/-! ### Images and records -/

theorem header_noisy {port : Port} {before after : Flash} {slot : U8}
    {hdr : BlImgHdr}
    (accepted : blCoreValidateSlot port.layout before slot = .ok hdr)
    (noise : Noise
      (load before (port.layout.slot slot).base.toNat BlImgHdr.byteSize)
      (load after (port.layout.slot slot).base.toNat BlImgHdr.byteSize))
    (other : BlImgHdr) :
    blCoreValidateSlot port.layout after slot ≠ .ok other := by
  intro still
  have image := (blCoreValidateSlot_ok_iff port).mp accepted
  have image' := (blCoreValidateSlot_ok_iff port).mp still
  refine blCrc32_noise_residue noise ?_ image.residue image'.residue
  rw [load_length]
  decide

theorem payload_noisy {port : Port} {before after : Flash} {slot : U8}
    {hdr : BlImgHdr}
    (accepted : blCoreValidateSlot port.layout before slot = .ok hdr)
    (short : 8 * hdr.imgSize.toNat < 2 ^ 32 - 1)
    (header :
      load after (port.layout.slot slot).base.toNat BlImgHdr.byteSize =
        load before (port.layout.slot slot).base.toNat BlImgHdr.byteSize)
    (noise : Noise
      (load before ((port.layout.slot slot).base.toNat +
        hdr.entryOffset.toNat) hdr.imgSize.toNat)
      (load after ((port.layout.slot slot).base.toNat +
        hdr.entryOffset.toNat) hdr.imgSize.toNat)) :
    blCoreValidateSlot port.layout after slot = .error .errImageCrc := by
  have image := (blCoreValidateSlot_ok_iff port).mp accepted
  rw [image.verdict (port.slotFits slot image.slotOk) header]
  refine if_pos (fun same => blCrc32_noise noise ?_ 0 ?_)
  · rwa [load_length]
  · exact same.trans image.imgCrc.symm

theorem record_noisy {layout : BlLayout} {before after : Flash}
    {index : U32} {record : BlMeta}
    (found : readRegion layout before index = some record)
    (noise : Noise
      (load before (layout.metaRegion index).base.toNat BlMeta.byteSize)
      (load after (layout.metaRegion index).base.toNat BlMeta.byteSize)) :
    readRegion layout after index = none := by
  cases still : readRegion layout after index with
  | none => rfl
  | some other =>
      refine absurd (readRegion_residue still)
        (blCrc32_noise_residue noise ?_ (readRegion_residue found))
      rw [load_length]
      decide

/-- One or two flipped bits, wherever they lie, and a run of inverted bytes,
however long, do not go unnoticed. -/
theorem noise_detected :
    (∀ {cmd : U8} {payload frame changed : List U8} {outSize : Nat}
        {parser : BlFrameParser},
      blFrameEncode cmd payload outSize = some frame →
      FrameNoise frame changed → parser.state = .waitSof →
      reports frameFeed parser changed =
        List.replicate (changed.length - 1) none ++ [some .error]) ∧
    (∀ {port : Port} {before after : Flash} {slot : U8} {hdr : BlImgHdr},
      let base := (port.layout.slot slot).base.toNat
      let entry := base + hdr.entryOffset.toNat
      blCoreValidateSlot port.layout before slot = .ok hdr →
      (Noise (load before base BlImgHdr.byteSize)
          (load after base BlImgHdr.byteSize) →
        ∀ other, blCoreValidateSlot port.layout after slot ≠ .ok other) ∧
      (8 * hdr.imgSize.toNat < 2 ^ 32 - 1 →
        load after base BlImgHdr.byteSize =
          load before base BlImgHdr.byteSize →
        Noise (load before entry hdr.imgSize.toNat)
          (load after entry hdr.imgSize.toNat) →
        blCoreValidateSlot port.layout after slot =
          .error .errImageCrc)) ∧
    (∀ {layout : BlLayout} {before after : Flash} {index : U32}
        {record : BlMeta},
      let base := (layout.metaRegion index).base.toNat
      readRegion layout before index = some record →
      Noise (load before base BlMeta.byteSize)
        (load after base BlMeta.byteSize) →
      readRegion layout after index = none) :=
  ⟨reports_noisy,
    fun accepted => ⟨header_noisy accepted, payload_noisy accepted⟩,
    record_noisy⟩

/-- A HELLO with a flipped bit in its command and another one in the last
byte of its checksum is reported as an error, two flipped bits in a header and
inverted bytes of a payload are refused, and a record with a flipped bit is
not read. -/
theorem noise_detected_each :
    let header := load trialFlash 0x08009000 40
    let record := load trialFlash 0x08008000 16
    reports frameFeed BlFrameParser.zeroed
        (blSof :: flip (flip (wireFrame blCmdHello []).tail 0) 55) =
      List.replicate 7 none ++ [some .error] ∧
    (∀ other, blCoreValidateSlot hostPort.layout
      (store trialFlash 0x08009000 (flip (flip header 3) 250)) blSlotA ≠
        .ok other) ∧
    blCoreValidateSlot hostPort.layout
      (store trialFlash 0x08009200 [0xEF, 0xDF, 0xCF]) blSlotA =
        .error .errImageCrc ∧
    readRegion hostLayout (store trialFlash 0x08008000 (flip record 70)) 0 =
      none := by
  intro header record
  have frame : Noise (wireFrame blCmdHello []).tail
      (flip (flip (wireFrame blCmdHello []).tail 0) 55) :=
    .pair (by decide) (by decide)
  have headerNoise : Noise header
      (load (store trialFlash 0x08009000 (flip (flip header 3) 250))
        0x08009000 40) := by
    have stored := load_store trialFlash 0x08009000
      (flip (flip header 3) 250)
    rw [flip_length, flip_length, load_length] at stored
    rw [stored]
    exact .pair (by decide) (by rw [load_length]; decide)
  have payloadNoise : Noise (load trialFlash 0x08009200 8)
      (load (store trialFlash 0x08009200 [0xEF, 0xDF, 0xCF])
        0x08009200 8) := by
    have inverted := Noise.inverted [] (List.replicate 5 0xFF)
      (show [0x10, 0x20, 0x30] ≠ ([] : List U8) from List.cons_ne_nil _ _)
    rwa [show [] ++ [0x10, 0x20, 0x30] ++ List.replicate 5 0xFF =
        load trialFlash 0x08009200 8 by decide +kernel,
      show [] ++ [0x10, 0x20, 0x30].map (~~~·) ++ List.replicate 5 0xFF =
        load (store trialFlash 0x08009200 [0xEF, 0xDF, 0xCF])
          0x08009200 8 by decide +kernel] at inverted
  have recordNoise : Noise record
      (load (store trialFlash 0x08008000 (flip record 70))
        0x08008000 16) := by
    have stored := load_store trialFlash 0x08008000 (flip record 70)
    rw [flip_length, load_length] at stored
    rw [stored]
    exact .single (by rw [load_length]; decide)
  obtain ⟨frames, slots, records⟩ := noise_detected
  refine ⟨frames (wireFrame_encoded (Nat.zero_le _) (Nat.le_refl 8))
      ⟨rfl, frame, by decide +kernel, by decide +kernel⟩ rfl,
    (slots trialFlash_accepted).1 headerNoise, ?_,
    records trialFlash_region recordNoise⟩
  exact (slots trialFlash_accepted).2 (by decide +kernel) (by decide +kernel)
    payloadNoise

end Stm32Bootloader
