/-
How long a committed image stays valid.

After its header has been written a slot stays open for writing, and the
session knows no more of the image than its own high-water mark.  The image
is safe from every further request, its own erase apart, exactly when no
granule that is still open belongs to the header or to the payload.
-/

import Stm32Bootloader.CommitPoint
import Stm32Bootloader.Tools.Blimage

namespace Stm32Bootloader

open Interruptible TransitionRun Memory

/-- Every granule that the session may still program lies outside the header
and the payload. -/
def Sealed (port : Port) (session : BlSession) (slot : U8)
    (hdr : BlImgHdr) : Prop :=
  session.Opened slot → ∀ offset, offset % 8 = 0 →
    session.highestOffset.toNat ≤ offset →
    offset + 8 ≤ (port.layout.slot slot).size.toNat →
      40 ≤ offset ∧ (offset + 8 ≤ hdr.entryOffset.toNat ∨
        hdr.entryOffset.toNat + hdr.imgSize.toNat ≤ offset)

/-! ### Open sessions -/

/-- Until the session has written a header, the slot has none. -/
structure Marked (port : Port) (session : BlSession) (flash : Flash) :
    Prop where
  targetOk : slotIsValid session.targetSlot = true
  unwritten : session.erased = true → session.headerWritten = false →
    Unwritten port.layout flash session.targetSlot
  counted : session.erased = true → session.headerWritten = true →
    0 < session.highestOffset.toNat

section Steps

variable {port : Port} {session after : BlSession} {flash : Flash}

theorem Marked.zeroed (port : Port) (flash : Flash) :
    Marked port .zeroed flash :=
  { targetOk := BlSession.zeroed_targetOk
    unwritten := fun impossible => absurd impossible Bool.false_ne_true
    counted := fun impossible => absurd impossible Bool.false_ne_true }

theorem Marked.congr {flash' : Flash} (marked : Marked port session flash)
    (same : ∀ slot, slotIsValid slot = true →
      slotBytes port.layout flash' slot = slotBytes port.layout flash slot) :
    Marked port session flash' :=
  { targetOk := marked.targetOk
    unwritten := fun erased open_ =>
      (marked.unwritten erased open_).congr marked.targetOk
        (same _ marked.targetOk)
    counted := marked.counted }

theorem Marked.erase (marked : Marked port session flash) {slot : U8}
    (slotOk : slotIsValid slot = true) (outcome : FlashOutcome) :
    Marked port
      (if outcome = .success then session.eraseSlot slot else session)
      ((eraseCall port slot outcome).apply port flash) := by
  by_cases success : outcome = .success
  · subst success
    refine ⟨slotOk, fun _ _ index inside => ?_,
      fun _ impossible => absurd impossible Bool.false_ne_true⟩
    have room := port.slotHoldsImage slot slotOk
    rw [eraseCall, apply_erase, FlashOutcome.extent_success]
    exact fill_inside _ _ _ _ _ (Nat.le_add_right _ _) (by
      change (port.layout.slot slot).base.toNat + index < _
      omega)
  · rw [if_neg success]
    exact ⟨marked.targetOk,
      fun erased open_ => (marked.unwritten erased open_).erase slot outcome,
      marked.counted⟩

theorem Marked.write (marked : Marked port session flash)
    {request : BlFrame} (admitted : WriteAdmitted port session request) :
    Marked port (session.advance request.writeOffset request.writeLength)
      ((writeCall port session request .success).apply port flash) := by
  have nonempty := request.writeData_length admitted.nonempty
  have inside := admitted.inside
  have fits := port.slotFits _ marked.targetOk
  have positive : 0 < request.writeLength.toNat := by
    have long := admitted.nonempty
    rw [← nonempty, BlFrame.writeData, List.length_drop, request.bytes_length]
    omega
  refine ⟨marked.targetOk, fun erased open_ => ?_, fun erased written => ?_⟩
  · have nonzero : request.writeOffset ≠ 0 := by
      intro zero
      simp only [BlSession.advance, if_pos zero] at open_
      cases open_
    have before : session.headerWritten = false := by
      simpa only [BlSession.advance, if_neg nonzero] using open_
    exact (marked.unwritten erased before).write marked.targetOk admitted
      marked.targetOk (fun zero => absurd zero nonzero) .success
  · unfold BlSession.advance
    dsimp only
    split <;> bv_omega

theorem RequestCalls.marked {request : BlFrame} {new : List PortCall}
    {status : BlResult} (marked : Marked port session flash)
    (calls : RequestCalls port session flash request after new
      (some status)) :
    Marked port after (replay port flash new) := by
  generalize answerEq : some status = answer at calls
  cases calls with
  | refused status failed unadmitted => exact marked
  | answered isQuery status => exact marked
  | reset isReset =>
      exact ⟨marked.targetOk, marked.unwritten, marked.counted⟩
  | erase slot erases slotOk outcome => exact marked.erase slotOk outcome
  | write admitted outcome =>
      cases outcome with
      | success => exact marked.write admitted
      | failure error =>
          have same : replay port flash
              [writeCall port session request (.failure error)] = flash :=
            apply_write_failure port flash _ _ error
          rw [same]
          exact marked
      | powerLoss units => cases answerEq
  | arm isArm oneByte validates new commit status =>
      exact marked.congr fun slot valid => commit.slotBytes valid

theorem systemStep_marked {system : System} (step : Step)
    (marked : Marked port system.session system.flash) :
    Marked port (systemStep port system step).session
      (systemStep port system step).flash := by
  obtain ⟨after, new, made, calls⟩ := systemStep_made port system step
  rw [made]
  obtain ⟨op, outcomes⟩ := step
  have aside : ∀ {new}, after = system.session ∨ after = .zeroed →
      AsideCalls port system.flash new →
      Marked port after (replay port system.flash new) := by
    rintro new (rfl | rfl) calls
    · exact marked.congr fun _slot valid => calls.slotBytes valid
    · exact .zeroed port _
  cases calls with
  | request frame responseSize after new status calls =>
      exact calls.marked marked
  | cutOff frame responseSize after new calls => exact .zeroed port _
  | boot session kept new trial jump => exact aside kept (trial.aside jump)
  | confirm session kept new calls => exact aside kept calls.aside
  | powerCycle => exact .zeroed port _

theorem marked_run (port : Port) (flash : Flash) (steps : List Step) :
    Marked port
      (run (systemStep port) (System.initial flash) steps).session
      (run (systemStep port) (System.initial flash) steps).flash :=
  run_invariant
    (fun system : System => Marked port system.session system.flash)
    (.zeroed port flash) (fun _ step marked => systemStep_marked step marked)
    steps

end Steps

/-! ### Sealed images stay valid -/

theorem ValidImage.of_slotBytes {port : Port} {before after : Flash}
    {slot : U8} {hdr : BlImgHdr}
    (image : ValidImage port.layout before slot hdr)
    (same : slotBytes port.layout after slot =
      slotBytes port.layout before slot) :
    ValidImage port.layout after slot hdr := by
  rw [← blCoreValidateSlot_ok_iff port] at image ⊢
  rw [blCoreValidateSlot_congr port same]
  exact image

theorem Marked.headerWritten {port : Port} {session : BlSession}
    {flash : Flash} {slot : U8} {hdr : BlImgHdr}
    (marked : Marked port session flash)
    (image : ValidImage port.layout flash slot hdr)
    (opened : session.Opened slot) : session.headerWritten = true := by
  by_contra open_
  have unwritten := marked.unwritten opened.1 (Bool.not_eq_true _ |>.mp open_)
  rw [opened.2] at unwritten
  have invalid := blCoreValidateSlot_unwritten image.slotOk unwritten
  rw [(blCoreValidateSlot_ok_iff port).mpr image] at invalid
  cases invalid

section Keeping

variable {port : Port} {session : BlSession} {flash : Flash} {slot : U8}
  {hdr : BlImgHdr} (image : ValidImage port.layout flash slot hdr)
  (marked : Marked port session flash) (sealed_ : Sealed port session slot hdr)

include image marked sealed_

theorem Sealed.write {request : BlFrame}
    (admitted : WriteAdmitted port session request) (outcome : FlashOutcome) :
    ValidImage port.layout
      ((writeCall port session request outcome).apply port flash) slot
      hdr := by
  have inside := admitted.inside
  have offsetAligned := admitted.offsetAligned
  have lengthAligned := admitted.lengthAligned
  have within := writeCall_agreesOutside admitted marked.targetOk flash
    outcome
  by_cases target : session.targetSlot = slot
  swap
  · have apart := port.slots_apart marked.targetOk image.slotOk
      (fun same => target same.symm)
    exact image.of_slotBytes (within.load (apart.of_within
      (Nat.le_add_right _ _) (by omega)))
  have opened : session.Opened slot := ⟨admitted.erased, target⟩
  have written := marked.headerWritten image opened
  have ordered := admitted.ordered
  have nonzero : request.writeOffset ≠ 0 := by
    intro zero
    rw [if_pos zero, written] at ordered
    cases ordered
  rw [if_neg nonzero] at ordered
  rw [target] at inside within
  -- Every granule of the request is one that was still open.
  have granule : ∀ count, 8 * count < request.writeLength.toNat →
      40 ≤ request.writeOffset.toNat + 8 * count ∧
        (request.writeOffset.toNat + 8 * count + 8 ≤
            hdr.entryOffset.toNat ∨
          hdr.entryOffset.toNat + hdr.imgSize.toNat ≤
            request.writeOffset.toNat + 8 * count) := fun count early =>
    sealed_ opened _ (by omega) (by omega) (by omega)
  refine image.congr (load_congr fun index early => ?_)
    (load_congr fun index early => ?_)
  · apply within
    by_contra covered
    have first := granule 0 (by omega)
    omega
  · apply within
    by_contra covered
    have open_ := granule ((hdr.entryOffset.toNat + index -
      request.writeOffset.toNat) / 8) (by omega)
    omega

/-- Whatever it is answered, a request that does not erase the slot leaves
its image valid. -/
theorem Sealed.keeps {request : BlFrame} {after : BlSession}
    {new : List PortCall} {status : Option BlResult}
    (calls : RequestCalls port session flash request after new status)
    (spared : ¬ request.Erases slot) :
    ValidImage port.layout (replay port flash new) slot hdr := by
  cases calls with
  | refused status failed unadmitted => exact image
  | answered isQuery status => exact image
  | reset isReset => exact image
  | erase other erases otherOk outcome =>
      have different : slot ≠ other := by
        rintro rfl
        exact spared erases
      exact image.of_slotBytes ((apply_erase_agreesOutside port flash _ _
        outcome).load (port.slots_apart otherOk image.slotOk different))
  | write admitted outcome =>
      exact Sealed.write image marked sealed_ admitted outcome
  | arm isArm oneByte validates new commit status =>
      exact image.of_slotBytes (commit.slotBytes image.slotOk)

end Keeping

/-! ### Open granules of an image -/

/-- A byte of the header or of the payload. -/
def BlImgHdr.Covers (hdr : BlImgHdr) (place : Nat) : Prop :=
  place < 40 ∨ (hdr.entryOffset.toNat ≤ place ∧
    place < hdr.entryOffset.toNat + hdr.imgSize.toNat)

theorem ValidImage.changed {layout : BlLayout} {flash : Flash} {slot : U8}
    {hdr : BlImgHdr} (image : ValidImage layout flash slot hdr)
    {place : Nat} (covers : hdr.Covers place) {byte : U8}
    (different : byte ≠ flash ((layout.slot slot).base.toNat + place)) :
    ¬ ValidImage layout (Function.update flash
      ((layout.slot slot).base.toNat + place) byte) slot hdr := by
  intro other
  rcases covers with inHeader | ⟨lower, upper⟩
  · have same := BlImgHdr.ofBytes_inj (load_length _ _ _) (load_length _ _ _)
      (other.header.trans image.header.symm)
    rw [load_update] at same
    have item := congrArg (fun bytes => bytes[place]?) same
    rw [List.getElem?_set_self (by rw [load_length]; exact inHeader),
      getElem?_load _ _ _ _ inHeader] at item
    exact different (Option.some.inj item)
  · obtain ⟨index, rfl⟩ := Nat.exists_eq_add_of_le lower
    have inside : index < (load flash
        ((layout.slot slot).base.toNat + hdr.entryOffset.toNat)
        hdr.imgSize.toNat).length := by
      rw [load_length]
      omega
    have crc := other.imgCrc.trans image.imgCrc.symm
    rw [← Nat.add_assoc, load_update] at crc
    have item := blCrc32_set inside crc
    simp only [load, List.getElem_map, List.getElem_range,
      Nat.add_assoc] at item
    exact different item.symm

theorem openGranule_write {port : Port} {system : System} {slot : U8}
    {hdr : BlImgHdr} {offset place : Nat} {byte : U8}
    (image : ValidImage port.layout system.flash slot hdr)
    (marked : Marked port system.session system.flash)
    (opened : system.session.Opened slot) (aligned : offset % 8 = 0)
    (fresh : system.session.highestOffset.toNat ≤ offset)
    (inside : offset + 8 ≤ (port.layout.slot slot).size.toNat)
    (lower : offset ≤ place) (upper : place < offset + 8) :
    ∃ frame, frame.cmd = blCmdWrite ∧
      (systemStep port system ⟨.request frame 64, []⟩).flash =
        Function.update system.flash
          ((port.layout.slot slot).base.toNat + place) byte := by
  have slotOk := image.slotOk
  have fits := port.slotFits slot slotOk
  have written := marked.headerWritten image opened
  have counted := marked.counted opened.1 written
  have offsetNat : (BitVec.ofNat 32 offset : U32).toNat = offset := by
    rw [BitVec.toNat_ofNat]
    omega
  obtain ⟨index, rfl⟩ := Nat.exists_eq_add_of_le lower
  let block := (load system.flash
    ((port.layout.slot slot).base.toNat + offset) 8).set index byte
  have blockLength : block.length = 8 := by
    rw [List.length_set, load_length]
  have short : block.length ≤ blMaxWriteData := by
    rw [blockLength]
    decide
  have admitted : WriteAdmitted port system.session
      (writeRequest (BitVec.ofNat 32 offset) block short) := by
    refine writeRequest_admitted short (by omega) opened.1 (by omega)
      (by omega) ?_ (by rw [opened.2]; omega)
    rw [if_neg (by bv_omega)]
    omega
  refine ⟨_, admitted.isWrite, ?_⟩
  rw [systemStep_admitted admitted]
  dsimp only
  rw [writeCall_apply admitted marked.targetOk, writeRequest_offset,
    writeRequest_data, opened.2, offsetNat, store_set _ _ _ _ _ (by omega),
    Nat.add_assoc]

/-- A committed image stays valid under every further request but its own
erase exactly when none of its granules is still open. -/
theorem committedImage_immutable_iff (port : Port) (flash : Flash)
    (steps : List Step) (slot : U8) (hdr : BlImgHdr)
    (accepted : blCoreValidateSlot port.layout
      (run (systemStep port) (System.initial flash) steps).flash slot =
        .ok hdr) :
    let reached := run (systemStep port) (System.initial flash) steps
    (∀ frame responseSize outcomes, ¬ frame.Erases slot →
      blCoreValidateSlot port.layout
        (systemStep port reached
          ⟨.request frame responseSize, outcomes⟩).flash slot = .ok hdr) ↔
      Sealed port reached.session slot hdr := by
  intro reached
  have marked : Marked port reached.session reached.flash :=
    marked_run port flash steps
  have image : ValidImage port.layout reached.flash slot hdr :=
    (blCoreValidateSlot_ok_iff port).mp accepted
  constructor
  · intro immutable opened offset aligned fresh inside
    by_contra exposed
    obtain ⟨place, lower, upper, covers⟩ : ∃ place, offset ≤ place ∧
        place < offset + 8 ∧ hdr.Covers place := by
      have entryLower := image.entryLower
      have nonempty := image.imgNonempty
      unfold BlImgHdr.Covers
      by_cases inHeader : offset < 40
      · exact ⟨offset, by omega, by omega, Or.inl inHeader⟩
      · exact ⟨max offset hdr.entryOffset.toNat, by omega, by omega,
          Or.inr ⟨by omega, by omega⟩⟩
    let old := reached.flash ((port.layout.slot slot).base.toNat + place)
    have different : old + 1 ≠ old := by bv_omega
    obtain ⟨frame, isWrite, changed⟩ := @openGranule_write port reached slot
      hdr offset place (old + 1) image marked opened aligned fresh inside
      lower upper
    have still := immutable frame 64 [] fun erases =>
      BlFrame.cmd_clash isWrite erases.1
    rw [changed, blCoreValidateSlot_ok_iff] at still
    exact image.changed covers different still
  · intro sealed_ frame responseSize outcomes spared
    obtain ⟨after, new, made, calls⟩ := systemStep_made port reached
      ⟨.request frame responseSize, outcomes⟩
    rw [made, blCoreValidateSlot_ok_iff]
    cases calls with
    | request frame responseSize after new status calls =>
        exact Sealed.keeps image marked sealed_ calls spared
    | cutOff frame responseSize after new calls =>
        exact Sealed.keeps image marked sealed_ calls spared

/-- The header of an image whose payload reads as erased flash. -/
def blankHeader : List U8 :=
  (Blimage.buildHeader 8 (blCrc32 0 (List.replicate 8 0xFF)) 1 512).1

theorem blankHeader_length : blankHeader.length = 40 := by decide +kernel

def blankHdr : BlImgHdr := BlImgHdr.ofBytes blankHeader

/-- The host's order: the payload first, and the header last. -/
def orderedSteps : List Step :=
  [⟨.request (eraseRequest blSlotA) 64, []⟩,
    ⟨.request (writeRequest 512 (List.replicate 8 0xFF) (by decide)) 64,
      []⟩,
    ⟨.request (writeRequest 0 blankHeader
      (Nat.le_trans (Nat.le_of_eq blankHeader_length) (by decide))) 64,
      []⟩]

theorem orderedSteps_accepted :
    blCoreValidateSlot hostLayout (run (systemStep hostPort)
      (System.initial fun _ => 0xFF) orderedSteps).flash blSlotA =
        .ok blankHdr := by
  decide +kernel

/-- With nothing left to write below the end of its payload, the image stays
valid. -/
theorem orderedSteps_immutable :
    (∀ frame responseSize outcomes, ¬ frame.Erases blSlotA →
      blCoreValidateSlot hostLayout
        (systemStep hostPort
          (run (systemStep hostPort) (System.initial fun _ => 0xFF)
            orderedSteps)
          ⟨.request frame responseSize, outcomes⟩).flash blSlotA =
        .ok blankHdr) ∧
      ¬ (eraseRequest blSlotB).Erases blSlotA := by
  have highest : (run (systemStep hostPort) (System.initial fun _ => 0xFF)
      orderedSteps).session.highestOffset.toNat = 520 := by
    decide +kernel
  have entry : blankHdr.entryOffset.toNat = 512 := by decide +kernel
  have size : blankHdr.imgSize.toNat = 8 := by decide +kernel
  refine ⟨(committedImage_immutable_iff hostPort (fun _ => 0xFF) orderedSteps
    blSlotA blankHdr orderedSteps_accepted).mpr ?_, by decide +kernel⟩
  intro opened offset aligned fresh inside
  rw [highest] at fresh
  omega

def blankSteps : List Step :=
  [⟨.request (eraseRequest blSlotA) 64, []⟩,
    ⟨.request (writeRequest 0 blankHeader
      (Nat.le_trans (Nat.le_of_eq blankHeader_length) (by decide))) 64,
      []⟩]

theorem lateWrite_fits :
    (List.replicate 8 (0 : U8)).length ≤ blMaxWriteData := by
  decide

/-- A WRITE of zeros to the payload. -/
def lateWrite : BlFrame :=
  writeRequest 512 (List.replicate 8 0) lateWrite_fits

/-- The device accepts a WRITE into a committed image, which it breaks. -/
theorem lateWrite_breaksImage :
    let committed := run (systemStep hostPort)
      (System.initial fun _ => 0xFF) blankSteps
    let after := systemStep hostPort committed ⟨.request lateWrite 64, []⟩
    (∃ hdr, blCoreValidateSlot hostLayout committed.flash blSlotA =
      .ok hdr) ∧
    ¬ lateWrite.Erases blSlotA ∧
    answer hostPort committed ⟨.request lateWrite 64, []⟩ =
      some BlResult.ok.code ∧
    blCoreValidateSlot hostLayout after.flash blSlotA =
      .error .errImageCrc := by
  have valid : Validates hostLayout (run (systemStep hostPort)
      (System.initial fun _ => 0xFF) blankSteps).flash blSlotA := by
    decide +kernel
  exact ⟨valid, by decide +kernel, by decide +kernel, by decide +kernel⟩

end Stm32Bootloader
