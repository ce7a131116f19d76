/-
Data that change underneath the bootloader: sim_corrupt of bl_sim.c.

It inverts a range of the simulated flash in blocks of at most 256 bytes, past
the bookkeeping of the host port.  Each range that is not empty is noticed by
whichever checksum covers a byte of it, and by nothing else.
-/

import Stm32Bootloader.HostFlash
import Stm32Bootloader.Noise
import Stm32Bootloader.Trial

namespace Stm32Bootloader

open BitPolynomial Memory

namespace HostFlash

/-- `memcpy` into the array, past the bitmap. -/
def blHostFlashPoke (addr : U32) (data : Pointer) (len : Nat)
    (host : HostFlash) : Option HostFlash :=
  if data.isNone ∧ len ≠ 0 then none
  else if ¬ flashRangeValid addr (BitVec.ofNat 32 len) then none
  else if len = 0 then some host
  else
    some { host with
      gFlash := store host.gFlash (flashOffset addr).toNat
        (load (data.getD fun _ => 0) 0 len) }

/-- `buffer` lies on the stack and holds anything at first. -/
def simCorrupt (buffer : Nat → U8) (addr len : U32) (host : HostFlash) :
    Option HostFlash :=
  if len > 0 then
    let chunk := if len > 256 then 256 else len
    match blFlashRead addr (some buffer) chunk host with
    | none => none
    | some (result, pointer) =>
        if result ≠ .ok then some host
        else
          let read := pointer.getD buffer
          let inverted := fun index =>
            if index < chunk.toNat then read index ^^^ 0xFF else read index
          match blHostFlashPoke addr (some inverted) chunk.toNat host with
          | none => none
          | some host => simCorrupt inverted (addr + chunk) (len - chunk) host
  else some host
termination_by len.toNat
decreasing_by
  split <;> bv_omega

/-! ### What is inverted -/

def invert (memory : Nat → U8) (base size : Nat) : Nat → U8 :=
  fun address =>
    if base ≤ address ∧ address < base + size then ~~~(memory address)
    else memory address

theorem invert_nothing (memory : Nat → U8) (base : Nat) :
    invert memory base 0 = memory :=
  funext fun _address => if_neg (by omega)

theorem invert_append (memory : Nat → U8) (base left right : Nat) :
    invert (invert memory base left) (base + left) right =
      invert memory base (left + right) := by
  funext address
  unfold invert
  split
  · rw [if_neg (by omega), if_pos (by omega)]
  · split
    · rw [if_pos (by omega)]
    · rw [if_neg (by omega)]

theorem invert_invert (memory : Nat → U8) (base size : Nat) :
    invert (invert memory base size) base size = memory := by
  funext address
  unfold invert
  split
  · exact BitVec.not_not
  · rfl

theorem invert_agreesOutside (memory : Nat → U8) (base size : Nat) :
    AgreesOutside base size memory (invert memory base size) :=
  fun _address _outside => if_neg (by omega)

theorem load_invert_inside (memory : Nat → U8)
    {base size inner length : Nat} (lower : base ≤ inner)
    (upper : inner + length ≤ base + size) :
    load (invert memory base size) inner length =
      (load memory inner length).map (~~~·) := by
  unfold load
  rw [List.map_map]
  refine List.map_congr_left fun index inside => ?_
  rw [List.mem_range] at inside
  exact if_pos (by omega)

theorem load_invert_noise (memory : Nat → U8) {base size base' size' : Nat}
    (meets : ¬ Apart base size base' size') (nonempty : 0 < size)
    (nonempty' : 0 < size') :
    Noise (load memory base' size')
      (load (invert memory base size) base' size') := by
  unfold Apart at meets
  obtain ⟨front, run, back, whole, positive, lower, upper, before, behind⟩ :
      ∃ front run back, size' = front + run + back ∧ 0 < run ∧
        base ≤ base' + front ∧ base' + front + run ≤ base + size ∧
        (front = 0 ∨ base' + front ≤ base) ∧
        (back = 0 ∨ base + size ≤ base' + (front + run)) :=
    ⟨max base base' - base',
      min (base + size) (base' + size') - max base base',
      base' + size' - min (base + size) (base' + size'), by omega⟩
  have kept : ∀ {inner length}, length = 0 ∨ Apart base size inner length →
      load (invert memory base size) inner length =
        load memory inner length := by
    intro inner length outside
    rcases outside with rfl | apart
    · rfl
    · exact (invert_agreesOutside memory base size).load apart
  have unread : load memory (base' + front) run ≠ [] := by
    rw [← List.length_pos_iff, load_length]
    exact positive
  rw [whole, load_add, load_add, load_add, load_add,
    kept (before.imp_right Or.inr), kept (behind.imp_right Or.inl),
    load_invert_inside memory lower upper]
  exact .inverted _ _ unread

/-! ### The loop -/

theorem store_inverted (memory buffer : Nat → U8) (base size : Nat) :
    store memory base
        (load (fun index =>
          if index < size then
            store buffer 0 (load memory base size) index ^^^ 0xFF
          else store buffer 0 (load memory base size) index) 0 size) =
      invert memory base size := by
  have inverse : ∀ byte : U8, byte ^^^ 0xFF = ~~~byte := by decide
  funext address
  unfold invert
  by_cases inside : base ≤ address ∧ address < base + size
  · obtain ⟨index, rfl⟩ := Nat.exists_eq_add_of_le inside.1
    have within : index < size := by omega
    have read := store_inside buffer 0 (load memory base size) index
      (by rwa [load_length])
    rw [Nat.zero_add] at read
    rw [store_inside _ _ _ _ (by rwa [load_length]), if_pos inside]
    simp only [load, List.getElem_map, List.getElem_range, Nat.zero_add,
      if_pos within] at read ⊢
    rw [inverse, read]
  · rw [if_neg inside]
    refine store_agreesOutside _ _ _ address ?_
    rw [load_length]
    omega

def corruptChunk (len : U32) : U32 := if len > 256 then 256 else len

theorem corruptChunk_bounds {len : U32} (more : len > 0) :
    0 < (corruptChunk len).toNat ∧
      (corruptChunk len).toNat ≤ len.toNat := by
  unfold corruptChunk
  split <;> bv_omega

theorem simCorrupt_round (buffer : Nat → U8) {addr len : U32}
    (host : HostFlash) (more : len > 0) :
    (flashRangeValid addr (corruptChunk len) = true →
      ∃ left, simCorrupt buffer addr len host =
        simCorrupt left (addr + corruptChunk len) (len - corruptChunk len)
          { host with
            gFlash := invert host.gFlash (flashOffset addr).toNat
              (corruptChunk len).toNat }) ∧
    (¬ flashRangeValid addr (corruptChunk len) = true →
      simCorrupt buffer addr len host = none) := by
  have positive := (corruptChunk_bounds more).1
  have nonzero : corruptChunk len ≠ 0 := fun zero => by
    rw [zero] at positive
    exact absurd positive (Nat.lt_irrefl 0)
  rw [simCorrupt, if_pos more]
  dsimp only
  rw [← corruptChunk]
  generalize corruptChunk len = chunk at positive nonzero
  constructor
  · intro valid
    have read : blFlashRead addr (some buffer) chunk host =
        some (.ok, some (store buffer 0
          (load host.gFlash (flashOffset addr).toNat chunk.toNat))) := by
      unfold blFlashRead
      rw [if_neg (by simp), if_neg (not_not_intro valid), if_neg nonzero]
      rfl
    rw [read]
    dsimp only [Option.getD_some]
    rw [if_neg (not_not_intro rfl), blHostFlashPoke, if_neg (by simp),
      if_neg (by rwa [BitVec.ofNat_toNat, BitVec.setWidth_eq, not_not]),
      if_neg (Nat.ne_of_gt positive)]
    dsimp only [Option.getD_some]
    rw [store_inverted]
    exact ⟨_, rfl⟩
  · intro invalid
    have aborted : blFlashRead addr (some buffer) chunk host = none := by
      unfold blFlashRead
      rw [if_neg (by simp), if_pos invalid]
    rw [aborted]

/-- A call within the flash inverts its range, and any other one aborts. -/
theorem simCorrupt_eq (buffer : Nat → U8) (addr len : U32)
    (host : HostFlash) :
    simCorrupt buffer addr len host =
      if len = 0 ∨ flashRangeValid addr len = true then
        some { host with
          gFlash := invert host.gFlash (flashOffset addr).toNat len.toNat }
      else none := by
  induction size : len.toNat using Nat.strong_induction_on
    generalizing buffer addr len host with
  | h _size ih =>
      subst size
      by_cases more : len > 0
      · have bounds := corruptChunk_bounds more
        have round := @simCorrupt_round buffer addr len host more
        have rest : (len - corruptChunk len).toNat =
            len.toNat - (corruptChunk len).toNat := by bv_omega
        by_cases valid : flashRangeValid addr (corruptChunk len) = true
        · obtain ⟨left, next⟩ := round.1 valid
          have inside := (flashRangeValid_iff _ _).mp valid
          have nowrap : (addr + corruptChunk len).toNat =
              addr.toNat + (corruptChunk len).toNat := by
            rw [hostFlashBase_toNat, hostFlashSize_toNat] at inside
            bv_omega
          have place : (flashOffset (addr + corruptChunk len)).toNat =
              (flashOffset addr).toNat + (corruptChunk len).toNat := by
            have base := hostFlashBase_toNat
            unfold flashOffset
            bv_omega
          have same : (len - corruptChunk len = 0 ∨
              flashRangeValid (addr + corruptChunk len)
                (len - corruptChunk len) = true) ↔
              (len = 0 ∨ flashRangeValid addr len = true) := by
            have empty : len - corruptChunk len = 0 ↔
                len.toNat - (corruptChunk len).toNat = 0 := by
              rw [← rest]
              exact BitVec.toNat_inj.symm
            have some : ¬ len = 0 := by bv_omega
            rw [empty, or_iff_right some, flashRangeValid_iff,
              flashRangeValid_iff, nowrap, rest]
            omega
          rw [next, ih _ (by omega) left _ _ _ rfl, place, rest,
            invert_append, Nat.add_sub_cancel' bounds.2]
          exact if_congr same rfl rfl
        · have outside : ¬ (len = 0 ∨ flashRangeValid addr len = true) := by
            have some : ¬ len = 0 := by bv_omega
            rw [or_iff_right some]
            rw [flashRangeValid_iff] at valid ⊢
            omega
          rw [round.2 valid, if_neg outside]
      · have zero : len = 0 := by bv_omega
        subst zero
        rw [simCorrupt, if_neg more, if_pos (Or.inl rfl)]
        exact congrArg some (congrArg (fun memory => { host with
          gFlash := memory }) (invert_nothing host.gFlash _).symm)

/-! ### What notices it -/

def Misses (addr len : U32) (base size : Nat) : Prop :=
  len = 0 ∨ Apart addr.toNat len.toNat base size

instance (addr len : U32) (base size : Nat) :
    Decidable (Misses addr len base size) :=
  inferInstanceAs (Decidable (_ ∨ _))

section Corrupted

variable {buffer : Nat → U8} {addr len : U32} {host after : HostFlash}
  (corrupted : simCorrupt buffer addr len host = some after)

include corrupted

theorem simCorrupt_inverts {address : Nat}
    (above : hostFlashBase.toNat ≤ address) :
    after.flash address =
      invert host.flash addr.toNat len.toNat address := by
  rw [simCorrupt_eq] at corrupted
  split at corrupted
  · rename_i passed
    cases corrupted
    change invert host.gFlash _ _ _ = invert host.flash _ _ _
    by_cases zero : len = 0
    · subst zero
      change invert host.gFlash _ 0 _ = invert host.flash _ 0 _
      rw [invert_nothing, invert_nothing]
      rfl
    · have valid := passed.resolve_left zero
      have inside := (flashRangeValid_iff _ _).mp valid
      have place := (range_offset valid).1
      unfold invert
      rw [place]
      exact if_congr (by omega) rfl rfl
  · cases corrupted

theorem simCorrupt_load {base : Nat} (above : hostFlashBase.toNat ≤ base)
    (size : Nat) :
    load after.flash base size =
      load (invert host.flash addr.toNat len.toNat) base size :=
  load_congr fun _index _inside =>
    simCorrupt_inverts corrupted (Nat.le_add_right_of_le above)

theorem simCorrupt_kept {base size : Nat}
    (above : hostFlashBase.toNat ≤ base)
    (misses : Misses addr len base size) :
    load after.flash base size = load host.flash base size := by
  rw [simCorrupt_load corrupted above]
  rcases misses with rfl | apart
  · change load (invert host.flash _ 0) base size = _
    rw [invert_nothing]
  · exact (invert_agreesOutside _ _ _).load apart

theorem simCorrupt_noise {base size : Nat}
    (above : hostFlashBase.toNat ≤ base) (positive : 0 < size)
    (hit : ¬ Misses addr len base size) :
    Noise (load host.flash base size) (load after.flash base size) := by
  rw [simCorrupt_load corrupted above]
  unfold Misses at hit
  rw [not_or] at hit
  have nonzero := hit.1
  exact load_invert_noise host.flash hit.2 (by bv_omega) positive

theorem simCorrupt_image {slot : U8} {hdr : BlImgHdr}
    (accepted : blCoreValidateSlot hostLayout host.flash slot = .ok hdr) :
    let base := (hostLayout.slot slot).base.toNat
    let entry := base + hdr.entryOffset.toNat
    (Misses addr len base BlImgHdr.byteSize →
      blCoreValidateSlot hostLayout after.flash slot =
        if Misses addr len entry hdr.imgSize.toNat then .ok hdr
        else .error .errImageCrc) ∧
    (¬ Misses addr len base BlImgHdr.byteSize →
      ∀ other, blCoreValidateSlot hostLayout after.flash slot ≠
        .ok other) := by
  intro base entry
  have image := (blCoreValidateSlot_ok_iff hostPort).mp accepted
  have size : (hostPort.layout.slot slot).size.toNat = 0x1B000 := by
    rcases slotIsValid_cases image.slotOk with rfl | rfl <;> rfl
  have above : hostFlashBase.toNat ≤ base := by
    rcases slotIsValid_cases image.slotOk with rfl | rfl <;> decide
  have above' : hostFlashBase.toNat ≤ entry :=
    Nat.le_add_right_of_le above
  constructor
  · intro missed
    have header := simCorrupt_kept corrupted above missed
    split
    · rename_i missed'
      exact (blCoreValidateSlot_ok_iff hostPort).mpr
        (image.congr header (simCorrupt_kept corrupted above' missed'))
    · rename_i hit
      have fits := image.imgFits
      refine @payload_noisy hostPort _ _ _ _ accepted ?_ header
        (simCorrupt_noise corrupted above' image.imgNonempty hit)
      omega
  · intro hit
    exact @header_noisy hostPort _ _ _ _ accepted
      (simCorrupt_noise corrupted above (by decide) hit)

theorem simCorrupt_record {index : U32} {record : BlMeta}
    (found : readRegion hostLayout host.flash index = some record) :
    readRegion hostLayout after.flash index =
      if Misses addr len (hostLayout.metaRegion index).base.toNat
          BlMeta.byteSize then some record
      else none := by
  have above : hostFlashBase.toNat ≤
      (hostLayout.metaRegion index).base.toNat := by
    unfold hostLayout
    dsimp only
    split <;> decide
  split
  · rename_i missed
    rw [← found]
    exact readRegion_congr (simCorrupt_kept corrupted above missed)
  · rename_i hit
    exact record_noisy found
      (simCorrupt_noise corrupted above (by decide) hit)

end Corrupted

/-- A corruption within the flash is noticed by each image and record of
which it covers a checked byte and by no other, and a second one at the same
place takes it back.  One that leaves the flash aborts. -/
theorem simCorrupt_noticed (buffer : Nat → U8) (addr len : U32)
    (host : HostFlash) :
    (simCorrupt buffer addr len host = none ↔
      len ≠ 0 ∧ flashRangeValid addr len = false) ∧
    ∀ after, simCorrupt buffer addr len host = some after →
      after.gWritten = host.gWritten ∧
      (∀ buffer', simCorrupt buffer' addr len after = some host) ∧
      (∀ {slot hdr},
        let base := (hostLayout.slot slot).base.toNat
        let entry := base + hdr.entryOffset.toNat
        blCoreValidateSlot hostLayout host.flash slot = .ok hdr →
        (Misses addr len base BlImgHdr.byteSize →
          blCoreValidateSlot hostLayout after.flash slot =
            if Misses addr len entry hdr.imgSize.toNat then .ok hdr
            else .error .errImageCrc) ∧
        (¬ Misses addr len base BlImgHdr.byteSize →
          ∀ other, blCoreValidateSlot hostLayout after.flash slot ≠
            .ok other)) ∧
      (∀ {index record},
        readRegion hostLayout host.flash index = some record →
        readRegion hostLayout after.flash index =
          if Misses addr len (hostLayout.metaRegion index).base.toNat
              BlMeta.byteSize then some record
          else none) := by
  refine ⟨?_, fun after corrupted => ⟨?_, ?_, simCorrupt_image corrupted,
    simCorrupt_record corrupted⟩⟩
  · rw [simCorrupt_eq]
    split
    · rename_i passed
      refine iff_of_false (by simp) fun aborted => ?_
      rcases passed with zero | valid
      · exact aborted.1 zero
      · exact absurd (aborted.2.symm.trans valid) (by decide)
    · rename_i failed
      rw [not_or, Bool.not_eq_true] at failed
      exact iff_of_true rfl failed
  · rw [simCorrupt_eq] at corrupted
    split at corrupted
    · cases corrupted
      rfl
    · cases corrupted
  · intro buffer'
    rw [simCorrupt_eq] at corrupted ⊢
    split at corrupted
    · rename_i passed
      cases corrupted
      rw [if_pos passed]
      dsimp only
      rw [invert_invert]
    · cases corrupted

def armedHost : HostFlash :=
  { blPortInit with
    gFlash := fun offset => trialFlash (hostFlashBase.toNat + offset) }

/-- Eight bytes of its payload are inverted. -/
theorem simCorrupt_noticed_payload :
    ∃ after, simCorrupt (fun _ => 0) 0x08009200 8 armedHost = some after ∧
      blCoreValidateSlot hostLayout after.flash blSlotA =
        .error .errImageCrc := by
  have noticed := simCorrupt_noticed (fun _ => 0) 0x08009200 8 armedHost
  have accepted : blCoreValidateSlot hostLayout armedHost.flash blSlotA =
      .ok (BlImgHdr.ofBytes
        ((Blimage.mkimage 1 [0x10, 0x20, 0x30]).take 40)) := by
    decide +kernel
  cases corrupted : simCorrupt (fun _ => 0) 0x08009200 8 armedHost with
  | none => exact absurd (noticed.1.mp corrupted).2 (by decide)
  | some after =>
      have verdict := ((noticed.2 after corrupted).2.2.1 accepted).1
        (by decide)
      rw [if_neg (by decide +kernel)] at verdict
      exact ⟨after, rfl, verdict⟩

end HostFlash

end Stm32Bootloader
