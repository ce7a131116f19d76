/-
Short corruptions of what a checksum protects: frames on the wire, images in
a slot and metadata records.

Each of them is data followed by its checksum, so it is intact exactly when
the checksum over all of it is the residue, and a change within four
consecutive bytes, wherever it lies, leaves no other intact sequence.
-/

import Stm32Bootloader.Resync
import Stm32Bootloader.Trial

namespace Stm32Bootloader

open Framing LittleEndian Memory ShiftRegister

/-! ### Frames -/

theorem judgeFrame_residue {cmd low high : U8} {rest : List U8}
    (fits : (word16 low high).toNat ≤ blMaxPayload)
    (whole : rest.length = (word16 low high).toNat + 4) :
    judgeFrame (cmd :: low :: high :: rest) =
      if blCrc32 0 (cmd :: low :: high :: rest) = crcResidue then
        some (.complete cmd (rest.take (word16 low high).toNat))
      else some .error := by
  have trailer : bytes32 (word32At rest (word16 low high).toNat) =
      rest.drop (word16 low high).toNat := by
    rw [bytes32_slice rest (by omega)]
    exact List.take_of_length_le (by rw [List.length_drop]; omega)
  have split : cmd :: low :: high :: rest =
      (cmd :: low :: high :: rest.take (word16 low high).toNat) ++
        bytes32 (word32At rest (word16 low high).toNat) := by
    rw [trailer, List.cons_append, List.cons_append, List.cons_append,
      List.take_append_drop]
  have residue : blCrc32 0 (cmd :: low :: high :: rest) = crcResidue ↔
      blCrc32 0 (cmd :: low :: high ::
        rest.take (word16 low high).toNat) =
          word32At rest (word16 low high).toNat := by
    conv_lhs => rw [split]
    exact (blCrc32_residue _ _).trans eq_comm
  rw [judgeFrame_cons]
  dsimp only
  rw [if_neg (Nat.not_lt.mpr fits), if_neg (not_not_intro whole)]
  exact ite_congr (propext residue.symm) (fun _ => rfl) (fun _ => rfl)

/-- A short change that leaves start marker and length bytes intact. -/
structure FrameCorruption (frame changed : List U8) : Prop where
  burst : Burst 4 frame changed
  sof : changed.getD 0 0 = frame.getD 0 0
  lenLow : changed.getD 2 0 = frame.getD 2 0
  lenHigh : changed.getD 3 0 = frame.getD 3 0

theorem wireFrame_corrupted {cmd : U8} {payload changed : List U8}
    (short : payload.length ≤ blMaxPayload)
    (corruption : FrameCorruption (wireFrame cmd payload) changed) :
    frameGrammar.Frames .error changed := by
  have length := corruption.burst.length_eq
  have declared := @word16_bytes payload short
  rw [wireFrame_length short] at length
  obtain ⟨burst, sof, lenLow, lenHigh⟩ := corruption
  rw [wireFrame_eq short] at burst sof lenLow lenHigh
  simp only [frameBody, bytes16_eq, List.cons_append, List.nil_append]
    at burst sof lenLow lenHigh
  generalize (BitVec.ofNat 16 payload.length).setWidth 8 = declaredLow,
    (BitVec.ofNat 16 payload.length >>> 8).setWidth 8 = declaredHigh
    at declared burst lenLow lenHigh
  obtain ⟨first, rest, rfl⟩ :=
    @List.exists_cons_of_length_pos _ changed (by omega)
  rw [List.length_cons] at length
  obtain ⟨command, rest, rfl⟩ :=
    @List.exists_cons_of_length_pos _ rest (by omega)
  rw [List.length_cons] at length
  obtain ⟨low, rest, rfl⟩ :=
    @List.exists_cons_of_length_pos _ rest (by omega)
  rw [List.length_cons] at length
  obtain ⟨high, rest, rfl⟩ :=
    @List.exists_cons_of_length_pos _ rest (by omega)
  change first = blSof at sof
  change low = declaredLow at lenLow
  change high = declaredHigh at lenHigh
  subst sof lenLow lenHigh
  simp only [List.length_cons] at length
  have fits : (word16 low high).toNat ≤ blMaxPayload := by
    rw [declared]
    exact short
  have whole : rest.length = (word16 low high).toNat + 4 := by
    omega
  have intact := (blCrc32_residue (cmd :: low :: high :: payload) _).mpr rfl
  refine judged_frames fits whole ?_
  rw [judgeFrame_residue fits whole]
  exact if_neg (blCrc32_burst_residue burst.of_cons intact)

theorem reports_corrupted {cmd : U8} {payload frame changed : List U8}
    {outSize : Nat} {parser : BlFrameParser}
    (encoded : blFrameEncode cmd payload outSize = some frame)
    (corruption : FrameCorruption frame changed)
    (waits : parser.state = .waitSof) :
    reports frameFeed parser changed =
      List.replicate (changed.length - 1) none ++ [some .error] := by
  obtain ⟨short, rfl⟩ := blFrameEncode_wire encoded
  rw [(reports_waiting waits changed).1]
  exact (wireFrame_corrupted short corruption).reported.1

/-! ### Images -/

theorem ValidImage.residue {layout : BlLayout} {flash : Flash} {slot : U8}
    {hdr : BlImgHdr} (image : ValidImage layout flash slot hdr) :
    blCrc32 0 (load flash (layout.slot slot).base.toNat 40) = crcResidue := by
  have whole := BlImgHdr.toBytes_ofBytes
    (load_length flash (layout.slot slot).base.toNat 40)
  rw [image.header, BlImgHdr.toBytes] at whole
  rw [← whole]
  exact (blCrc32_residue _ _).mpr image.hdrCrc

theorem header_corrupted {port : Port} {before after : Flash} {slot : U8}
    {hdr : BlImgHdr}
    (accepted : blCoreValidateSlot port.layout before slot = .ok hdr)
    (burst : Burst 4
      (load before (port.layout.slot slot).base.toNat BlImgHdr.byteSize)
      (load after (port.layout.slot slot).base.toNat BlImgHdr.byteSize))
    (other : BlImgHdr) :
    blCoreValidateSlot port.layout after slot ≠ .ok other := by
  intro still
  have image := (blCoreValidateSlot_ok_iff port).mp accepted
  have image' := (blCoreValidateSlot_ok_iff port).mp still
  exact blCrc32_burst_residue burst image.residue image'.residue

theorem payload_corrupted {port : Port} {before after : Flash} {slot : U8}
    {hdr : BlImgHdr}
    (accepted : blCoreValidateSlot port.layout before slot = .ok hdr)
    (header :
      load after (port.layout.slot slot).base.toNat BlImgHdr.byteSize =
        load before (port.layout.slot slot).base.toNat BlImgHdr.byteSize)
    (burst : Burst 4
      (load before ((port.layout.slot slot).base.toNat +
        hdr.entryOffset.toNat) hdr.imgSize.toNat)
      (load after ((port.layout.slot slot).base.toNat +
        hdr.entryOffset.toNat) hdr.imgSize.toNat)) :
    blCoreValidateSlot port.layout after slot = .error .errImageCrc := by
  have image := (blCoreValidateSlot_ok_iff port).mp accepted
  rw [image.verdict (port.slotFits slot image.slotOk) header]
  refine if_pos (fun same => blCrc32_burst burst 0 ?_)
  exact same.trans image.imgCrc.symm

/-! ### Metadata records -/

theorem record_corrupted {layout : BlLayout} {before after : Flash}
    {index : U32} {record : BlMeta}
    (found : readRegion layout before index = some record)
    (burst : Burst 4
      (load before (layout.metaRegion index).base.toNat BlMeta.byteSize)
      (load after (layout.metaRegion index).base.toNat BlMeta.byteSize)) :
    readRegion layout after index = none := by
  cases still : readRegion layout after index with
  | none => rfl
  | some other =>
      exact absurd (readRegion_residue still)
        (blCrc32_burst_residue burst (readRegion_residue found))

/-- No change within four consecutive bytes of a frame, an image or a record
goes unnoticed. -/
theorem shortCorruption_detected :
    (∀ {cmd : U8} {payload frame changed : List U8} {outSize : Nat}
        {parser : BlFrameParser},
      blFrameEncode cmd payload outSize = some frame →
      FrameCorruption frame changed → parser.state = .waitSof →
      reports frameFeed parser changed =
        List.replicate (changed.length - 1) none ++ [some .error]) ∧
    (∀ {port : Port} {before after : Flash} {slot : U8} {hdr : BlImgHdr},
      let base := (port.layout.slot slot).base.toNat
      let entry := base + hdr.entryOffset.toNat
      blCoreValidateSlot port.layout before slot = .ok hdr →
      (Burst 4 (load before base BlImgHdr.byteSize)
          (load after base BlImgHdr.byteSize) →
        ∀ other, blCoreValidateSlot port.layout after slot ≠ .ok other) ∧
      (load after base BlImgHdr.byteSize =
          load before base BlImgHdr.byteSize →
        Burst 4 (load before entry hdr.imgSize.toNat)
          (load after entry hdr.imgSize.toNat) →
        blCoreValidateSlot port.layout after slot =
          .error .errImageCrc)) ∧
    (∀ {layout : BlLayout} {before after : Flash} {index : U32}
        {record : BlMeta},
      let base := (layout.metaRegion index).base.toNat
      readRegion layout before index = some record →
      Burst 4 (load before base BlMeta.byteSize)
        (load after base BlMeta.byteSize) →
      readRegion layout after index = none) :=
  ⟨reports_corrupted,
    fun accepted => ⟨header_corrupted accepted, payload_corrupted accepted⟩,
    record_corrupted⟩

theorem trialFlash_accepted :
    blCoreValidateSlot hostPort.layout trialFlash blSlotA =
      .ok (BlImgHdr.ofBytes (load trialFlash 0x08009000 40)) := by
  decide +kernel

theorem trialFlash_region :
    readRegion hostLayout trialFlash 0 =
      some (newRecord 1 blSlotA blBootTrial 0) := by
  decide +kernel

/-- A HELLO whose command arrives as an ERASE_SLOT is reported as an error,
a slot with another byte in its header or payload is refused, and a record
with another slot is not read. -/
theorem shortCorruption_detected_each :
    reports frameFeed BlFrameParser.zeroed
        ((wireFrame blCmdHello []).set 1 blCmdEraseSlot) =
      List.replicate 7 none ++ [some .error] ∧
    (∀ other, blCoreValidateSlot hostPort.layout
      (store trialFlash 0x08009010 [0]) blSlotA ≠ .ok other) ∧
    blCoreValidateSlot hostPort.layout (store trialFlash 0x08009201 [0])
      blSlotA = .error .errImageCrc ∧
    readRegion hostLayout (store trialFlash 0x08008004 [blSlotB]) 0 =
      none := by
  have frame : Burst 4 (wireFrame blCmdHello [])
      ((wireFrame blCmdHello []).set 1 blCmdEraseSlot) :=
    .set (by decide) (by decide) (by decide)
  have header : Burst 4 (load trialFlash 0x08009000 40)
      (load (store trialFlash 0x08009010 [0]) 0x08009000 40) := by
    rw [show load (store trialFlash 0x08009010 [0]) 0x08009000 40 =
      (load trialFlash 0x08009000 40).set 16 0 by decide +kernel]
    exact .set (by decide) (by decide +kernel) (by decide)
  have payload : Burst 4 (load trialFlash 0x08009200 8)
      (load (store trialFlash 0x08009201 [0]) 0x08009200 8) := by
    rw [show load (store trialFlash 0x08009201 [0]) 0x08009200 8 =
      (load trialFlash 0x08009200 8).set 1 0 by decide +kernel]
    exact .set (by decide) (by decide +kernel) (by decide)
  have record : Burst 4 (load trialFlash 0x08008000 16)
      (load (store trialFlash 0x08008004 [blSlotB]) 0x08008000 16) := by
    rw [show load (store trialFlash 0x08008004 [blSlotB]) 0x08008000 16 =
      (load trialFlash 0x08008000 16).set 4 blSlotB by decide +kernel]
    exact .set (by decide) (by decide +kernel) (by decide)
  obtain ⟨frames, slots, records⟩ := shortCorruption_detected
  refine ⟨frames (wireFrame_encoded (Nat.zero_le _) (Nat.le_refl 8))
      ⟨frame, rfl, rfl, rfl⟩ rfl, (slots trialFlash_accepted).1 header, ?_,
    records trialFlash_region record⟩
  exact (slots trialFlash_accepted).2 (by decide +kernel) payload

end Stm32Bootloader
