/-
Updates on a faultless link and on flash that works.

The host and the device check an image by different code.  Whatever the host
accepts the device takes, request by request, and the slot ends up with the
bytes of the image and nothing else.
-/

import Stm32Bootloader.FaultlessLink
import Stm32Bootloader.HostContract
import Stm32Bootloader.Sealed

namespace Stm32Bootloader

open Interruptible Fallible LittleEndian Memory Blflash TransitionRun

/-! ### The installed image -/

/-- The flash with a slot that was erased for this image and filled. -/
def imageFlash (port : Port) (flash : Flash) (slot : U8) (header : BlImgHdr)
    (image : List U8) : Flash :=
  let base := (port.layout.slot slot).base.toNat
  store
    (store (erasedFlash port flash slot)
      (base + header.entryOffset.toNat)
      (image.drop header.entryOffset.toNat))
    base (image.take Blimage.hdrStructSize)

section Image

variable {port : Port} {slot : U8} {image : List U8} {slotSize : Option Nat}
  {header : BlImgHdr} (accepted : Blimage.Accepted image slotSize header)

include accepted

theorem accepted_coveredBytes :
    image.take (Blimage.hdrStructSize - 4) = header.coveredBytes := by
  have whole := accepted.header_length
  have encoded := BlImgHdr.toBytes_ofBytes whole
  rw [accepted.decoded] at encoded
  have size : Blimage.hdrStructSize = 40 := rfl
  have covered := congrArg (List.take 36) encoded
  rw [BlImgHdr.toBytes, List.take_left' header.coveredBytes_length,
    List.take_take] at covered
  rw [size]
  exact covered.symm

theorem accepted_entryAligned :
    header.entryOffset &&& (blImgHdrRegion - 1) = 0 :=
  entryAligned_iff.mpr accepted.entryAligned

variable (flash : Flash)
  (fits : header.entryOffset.toNat + header.imgSize.toNat ≤
    (port.layout.slot slot).size.toNat)

theorem imageFlash_header :
    load (imageFlash port flash slot header image)
        (port.layout.slot slot).base.toNat 40 =
      image.take Blimage.hdrStructSize := by
  have stored := load_store
    (store (erasedFlash port flash slot)
      ((port.layout.slot slot).base.toNat + header.entryOffset.toNat)
      (image.drop header.entryOffset.toNat))
    (port.layout.slot slot).base.toNat (image.take Blimage.hdrStructSize)
  rw [accepted.header_length] at stored
  exact stored

theorem imageFlash_payload :
    load (imageFlash port flash slot header image)
        ((port.layout.slot slot).base.toNat + header.entryOffset.toNat)
        header.imgSize.toNat =
      image.drop header.entryOffset.toNat := by
  have behind := accepted.behind
  have apart : Apart (port.layout.slot slot).base.toNat
      (image.take Blimage.hdrStructSize).length
      ((port.layout.slot slot).base.toNat + header.entryOffset.toNat)
      header.imgSize.toNat := by
    rw [accepted.header_length]
    exact Or.inl (by omega)
  have kept := (store_agreesOutside
    (store (erasedFlash port flash slot)
      ((port.layout.slot slot).base.toNat + header.entryOffset.toNat)
      (image.drop header.entryOffset.toNat))
    (port.layout.slot slot).base.toNat
    (image.take Blimage.hdrStructSize)).load apart
  refine kept.trans ?_
  rw [← accepted.payload]
  exact load_store _ _ _

include fits

theorem imageFlash_agreesOutside :
    AgreesOutside (port.layout.slot slot).base.toNat
      (port.layout.slot slot).size.toNat flash
      (imageFlash port flash slot header image) := by
  have behind := accepted.behind
  have payload := accepted.payload
  have whole := accepted.header_length
  have erase : AgreesOutside (port.layout.slot slot).base.toNat
      (port.layout.slot slot).size.toNat flash
      (erasedFlash port flash slot) :=
    apply_erase_agreesOutside port flash _ _ .success
  have filled : AgreesOutside (port.layout.slot slot).base.toNat
      (port.layout.slot slot).size.toNat (erasedFlash port flash slot)
      (store (erasedFlash port flash slot)
        ((port.layout.slot slot).base.toNat + header.entryOffset.toNat)
        (image.drop header.entryOffset.toNat)) :=
    (store_agreesOutside _ _ _).widen (Nat.le_add_right _ _) (by omega)
  exact (erase.trans filled).trans
    ((store_agreesOutside _ _ _).widen (Nat.le_refl _) (by omega))

omit fits in
theorem imageFlash_byte {place : Nat}
    (inside : place < (port.layout.slot slot).size.toNat) :
    (header.Covers place →
      imageFlash port flash slot header image
          ((port.layout.slot slot).base.toNat + place) =
        image.getD place 0) ∧
    (¬ header.Covers place →
      imageFlash port flash slot header image
        ((port.layout.slot slot).base.toNat + place) = 0xFF) := by
  have behind := accepted.behind
  have payload := accepted.payload
  have whole := accepted.header_length
  have long : header.entryOffset.toNat + header.imgSize.toNat =
      image.length := by
    have positive := accepted.payload_positive
    rw [List.length_drop] at payload
    omega
  constructor
  · rintro (inHeader | ⟨lower, upper⟩)
    · have item := congrArg (fun bytes => bytes[place]?)
        (@imageFlash_header port slot image slotSize header accepted flash)
      have early : place < Blimage.hdrStructSize := inHeader
      rw [getElem?_load _ _ _ _ inHeader,
        List.getElem?_take_of_lt early] at item
      rw [List.getD_eq_getElem?_getD, ← item, Option.getD_some]
    · obtain ⟨index, rfl⟩ := Nat.exists_eq_add_of_le lower
      have item := congrArg (fun bytes => bytes[index]?)
        (@imageFlash_payload port slot image slotSize header accepted flash)
      rw [getElem?_load _ _ _ _ (by omega), List.getElem?_drop] at item
      rw [List.getD_eq_getElem?_getD, ← item, Option.getD_some,
        Nat.add_assoc]
  · intro uncovered
    unfold BlImgHdr.Covers at uncovered
    unfold imageFlash
    rw [store_agreesOutside _ _ _ _ (by omega),
      store_agreesOutside _ _ _ _ (by omega)]
    exact fill_inside _ _ _ _ _ (Nat.le_add_right _ _) (by
      rw [FlashOutcome.extent_success]
      omega)

theorem imageFlash_valid (slotOk : slotIsValid slot = true) :
    blCoreValidateSlot port.layout
      (imageFlash port flash slot header image) slot = .ok header := by
  have positive := accepted.payload_positive
  refine (blCoreValidateSlot_ok_iff port).mpr {
    slotOk := slotOk
    header := ?_
    magic := accepted.magic
    version := accepted.version
    hdrCrc := ?_
    entryLower := accepted.entryLower
    entryAligned := accepted_entryAligned accepted
    entryUpper := by omega
    imgNonempty := positive
    imgFits := fits
    imgCrc := ?_ }
  · rw [imageFlash_header accepted flash]
    exact accepted.decoded
  · rw [← accepted_coveredBytes accepted]
    exact accepted.hdrCrc
  · rw [imageFlash_payload accepted flash]
    exact accepted.imgCrc

end Image

/-! ### Filling the slot -/

/-- The slot is erased and holds so much of the payload. -/
structure Filling (port : Port) (flash : Flash) (slot : U8)
    (header : BlImgHdr) (image : List U8) (sent : Nat)
    (system : System) : Prop where
  target : system.session.targetSlot = slot
  erased : system.session.erased = true
  unwritten : system.session.headerWritten = false
  highest : system.session.highestOffset.toNat ≤
    header.entryOffset.toNat + sent
  flashEq : system.flash = store (erasedFlash port flash slot)
    ((port.layout.slot slot).base.toNat + header.entryOffset.toNat)
    ((image.drop header.entryOffset.toNat).take sent)

section Filling

variable {port : Port} {flash : Flash} {slot : U8} {image : List U8}
  {slotSize : Option Nat} {header : BlImgHdr} {sent : Nat} {system : System}

theorem erased_filling (session : BlSession) (calls : List PortCall) :
    Filling port flash slot header image 0
      ⟨session.eraseSlot slot, erasedFlash port flash slot, calls⟩ :=
  { target := rfl
    erased := rfl
    unwritten := rfl
    highest := Nat.zero_le _
    flashEq := by
      funext address
      rw [List.take_zero]
      exact (store_agreesOutside _ _ _ address (by
        rw [List.length_nil]
        omega)).symm }

variable (accepted : Blimage.Accepted image slotSize header)
  (slotOk : slotIsValid slot = true)
  (fits : header.entryOffset.toNat + header.imgSize.toNat ≤
    (port.layout.slot slot).size.toNat)
  (filling : Filling port flash slot header image sent system)

include accepted slotOk fits filling

section Chunk

variable {data : List U8} (short : data.length ≤ blMaxWriteData)
  (nonempty : 0 < data.length) (aligned : data.length % 8 = 0)
  (whole : sent % 8 = 0) (inside : sent + data.length ≤ header.imgSize.toNat)

include nonempty aligned whole inside

theorem Filling.admitted :
    WriteAdmitted port system.session
      (writeRequest (BitVec.ofNat 32 (header.entryOffset.toNat + sent)) data
        short) := by
  have behind := accepted.behind
  have entryAligned : header.entryOffset.toNat % 512 = 0 :=
    accepted.entryAligned
  have slotFits := port.slotFits slot slotOk
  have highest := filling.highest
  have offset : (BitVec.ofNat 32 (header.entryOffset.toNat + sent)).toNat =
      header.entryOffset.toNat + sent := by
    rw [BitVec.toNat_ofNat]
    omega
  have nonzero : BitVec.ofNat 32 (header.entryOffset.toNat + sent) ≠ 0 := by
    intro zero
    rw [zero] at offset
    have none : (0 : U32).toNat = 0 := rfl
    omega
  refine writeRequest_admitted short nonempty filling.erased ?_ aligned ?_ ?_
  · rw [offset]
    omega
  · rw [if_neg nonzero, offset]
    exact highest
  · rw [offset, filling.target]
    omega

theorem Filling.chunk (calls : List PortCall)
    (next : data =
      ((image.drop header.entryOffset.toNat).drop sent).take data.length) :
    let request := writeRequest
      (BitVec.ofNat 32 (header.entryOffset.toNat + sent)) data short
    Filling port flash slot header image (sent + data.length)
      ⟨system.session.advance request.writeOffset request.writeLength,
        (writeCall port system.session request .success).apply port
          system.flash, calls⟩ := by
  intro request
  have admitted := filling.admitted accepted slotOk fits short nonempty
    aligned whole inside
  have behind := accepted.behind
  have slotFits := port.slotFits slot slotOk
  have highest := filling.highest
  have length : request.writeLength.toNat = data.length :=
    writeRequest_length _ data short
  have offset : request.writeOffset.toNat =
      header.entryOffset.toNat + sent := by
    rw [writeRequest_offset, BitVec.toNat_ofNat]
    omega
  have nonzero : request.writeOffset ≠ 0 := by
    intro zero
    rw [zero] at offset
    have none : (0 : U32).toNat = 0 := rfl
    omega
  refine ⟨filling.target, filling.erased, ?_, ?_, ?_⟩
  · unfold BlSession.advance
    dsimp only
    rw [if_neg nonzero]
    exact filling.unwritten
  · unfold BlSession.advance
    dsimp only
    split
    · bv_omega
    · omega
  · have start : ((image.drop header.entryOffset.toNat).take sent).length =
        sent := by
      have payload := accepted.payload
      rw [List.length_take]
      omega
    have place : (port.layout.slot slot).base.toNat +
        (header.entryOffset.toNat + sent) =
          (port.layout.slot slot).base.toNat + header.entryOffset.toNat +
            ((image.drop header.entryOffset.toNat).take sent).length := by
      rw [start, Nat.add_assoc]
    dsimp only
    rw [writeCall_apply admitted (by rw [filling.target]; exact slotOk),
      filling.target, offset, writeRequest_data, filling.flashEq, place,
      store_append, List.take_add, ← next]

end Chunk

end Filling

/-! ### Installing the image -/

section Install

variable {port : Port} {flash : Flash} {slot : U8} {image : List U8}
  {slotSize : Option Nat} {header : BlImgHdr} {responseSize retries : Nat}
  (accepted : Blimage.Accepted image slotSize header)
  (slotOk : slotIsValid slot = true)
  (fits : header.entryOffset.toNat + header.imgSize.toNat ≤
    (port.layout.slot slot).size.toNat)
  (room : blMinResponseSize ≤ responseSize) (attempts : retries ≠ 0)

include accepted slotOk fits room attempts

theorem sendChunks_ready (count fuel sent : Nat)
    (enough : header.imgSize.toNat ≤ sent + fuel) (whole : sent % 8 = 0)
    (within : sent ≤ header.imgSize.toNat) :
    Ensures
      (fun bench => ∃ system,
        bench.Ready (count + (header.imgSize.toNat - sent)) system ∧
        Filling port flash slot header image sent system)
      ((hostOf port responseSize retries).sendChunks
        header.entryOffset.toNat (image.drop header.entryOffset.toNat)
        blMaxWriteData fuel sent)
      (fun _ bench => ∃ system, bench.Ready count system ∧
        Filling port flash slot header image header.imgSize.toNat system)
      (fun _ _ => False) := by
  have payload := accepted.payload
  have aligned : header.imgSize.toNat % 8 = 0 := accepted.aligned
  have slotFits := port.slotFits slot slotOk
  have chunkSize : blMaxWriteData = 504 := rfl
  induction fuel generalizing sent with
  | zero =>
      have done : sent = header.imgSize.toNat := by omega
      subst done
      unfold Bootloader.sendChunks
      rw [payload, if_neg (Nat.lt_irrefl _)]
      refine Ensures.pure ?_
      rintro bench ⟨system, ready, filling⟩
      exact ⟨system, ready.fewer (Nat.le_add_right _ _), filling⟩
  | succ fuel ih =>
      unfold Bootloader.sendChunks
      rw [payload]
      by_cases more : sent < header.imgSize.toNat
      swap
      · have done : sent = header.imgSize.toNat := by omega
        subst done
        rw [if_neg more]
        refine Ensures.pure ?_
        rintro bench ⟨system, ready, filling⟩
        exact ⟨system, ready.fewer (Nat.le_add_right _ _), filling⟩
      rw [if_pos more]
      generalize chunkEq : slice (image.drop header.entryOffset.toNat) sent
        blMaxWriteData = chunk
      have length : chunk.length =
          min 504 (header.imgSize.toNat - sent) := by
        rw [← chunkEq, slice, List.length_take, List.length_drop, payload,
          chunkSize]
      have short : chunk.length ≤ blMaxWriteData := by omega
      have next : chunk = ((image.drop header.entryOffset.toNat).drop
          sent).take chunk.length := by
        rw [length, ← chunkEq, slice, chunkSize]
        have left : ((image.drop header.entryOffset.toNat).drop
            sent).length = header.imgSize.toNat - sent := by
          rw [List.length_drop, payload]
        rw [← left, ← List.take_eq_take_min]
      have rest := ih (sent + chunk.length) (by omega) (by omega) (by omega)
      refine Ensures.bind (Ensures.each ?_) fun _ => rest
      rintro bench ⟨system, ready, filling⟩
      have admitted := filling.admitted accepted slotOk fits short
        (by omega) (by omega) whole (by omega)
      have wrote := @write_ready port responseSize retries
        (count + (header.imgSize.toNat - (sent + chunk.length))) system room
        attempts _ chunk short (by omega) admitted
      refine wrote.weaken ?_ ?_ (fun _ _ impossible => impossible)
      · rintro _ rfl
        exact ready.fewer (by omega)
      · intro _ after ready
        exact ⟨_, ready, filling.chunk accepted slotOk fits short (by omega)
          (by omega) whole (by omega) _ next⟩

theorem header_ready (count : Nat) :
    Ensures
      (fun bench => ∃ system, bench.Ready (count + 1) system ∧
        Filling port flash slot header image header.imgSize.toNat system)
      ((hostOf port responseSize retries).write 0
        (image.take Blimage.hdrStructSize))
      (fun _ bench => ∃ system, bench.Ready count system ∧
        system.flash = imageFlash port flash slot header image)
      (fun _ _ => False) := by
  have whole := accepted.header_length
  have behind := accepted.behind
  have chunkSize : blMaxWriteData = 504 := rfl
  have short : (image.take Blimage.hdrStructSize).length ≤
      blMaxWriteData := by
    omega
  have first : BitVec.ofNat 32 0 = (0 : U32) := rfl
  have zero : (BitVec.ofNat 32 0).toNat = 0 := rfl
  refine Ensures.each ?_
  rintro bench ⟨system, ready, filling⟩
  have admitted : WriteAdmitted port system.session
      (writeRequest (BitVec.ofNat 32 0) (image.take Blimage.hdrStructSize)
        short) := by
    refine writeRequest_admitted short (by omega) filling.erased
      (Nat.zero_mod 8) (by omega) ?_ ?_
    · rw [if_pos first]
      exact filling.unwritten
    · rw [filling.target]
      omega
  have wrote := @write_ready port responseSize retries count system room
    attempts 0 _ short (by omega) admitted
  refine wrote.weaken ?_ ?_ (fun _ _ impossible => impossible)
  · rintro _ rfl
    exact ready
  · intro _ after ready
    refine ⟨_, ready, ?_⟩
    have complete : (image.drop header.entryOffset.toNat).take
        header.imgSize.toNat = image.drop header.entryOffset.toNat :=
      List.take_of_length_le (Nat.le_of_eq accepted.payload)
    rw [writeCall_apply admitted (by rw [filling.target]; exact slotOk),
      filling.target, writeRequest_offset, writeRequest_data, zero,
      filling.flashEq, complete, Nat.add_zero]
    rfl

theorem install_ready (count fuel : Nat)
    (enough : header.imgSize.toNat ≤ fuel) (before : Flash) :
    Ensures
      (fun bench => ∃ system,
        bench.Ready (count + 3 + header.imgSize.toNat) system ∧
        Filling port flash slot header image 0 system)
      ((hostOf port responseSize retries).install fuel
        (deviceInfo port before) header image slot.toNat)
      (fun installed bench => installed = slot.toNat ∧
        bench.system.flash = committed port
          (imageFlash port flash slot header image) slot blBootTrial 0)
      (fun _ _ => False) := by
  have chunkSize : min (deviceInfo port before).maxWrite
      Blproto.maxWriteData = blMaxWriteData := rfl
  have granularity : (deviceInfo port before).writeGranularity = 8 :=
    congrArg BitVec.toNat port.granule
  have whole : (modulo blMaxWriteData 8 : HostM Bench Nat) = pure 0 := rfl
  have valid := @imageFlash_valid port slot image slotSize header accepted
    flash fits slotOk
  unfold Bootloader.install
  dsimp only
  rw [chunkSize, granularity, whole, Fallible.pure_bind,
    if_neg (not_not_intro rfl)]
  refine Ensures.bind (sendChunks_ready accepted slotOk fits room attempts
    (count + 3) fuel 0 (by omega) (Nat.zero_mod 8) (Nat.zero_le _))
    fun _ => ?_
  refine Ensures.bind (header_ready accepted slotOk fits room attempts
    (count + 2)) fun _ => ?_
  refine Ensures.each ?_
  rintro bench ⟨system, ready, flashEq⟩
  rw [← flashEq] at valid
  have verified := @verify_ready port responseSize retries (count + 1)
    system room attempts slot header valid
  refine Ensures.bind_known (verified.weaken ?_ (fun _ _ holds => holds)
    (fun _ _ impossible => impossible)) ?_
  · rintro _ rfl
    exact ready
  rw [if_neg (not_not_intro rfl)]
  refine Ensures.bind (setActive_ready room attempts valid) fun _ => ?_
  rw [flashEq]
  exact Ensures.pure fun _ armed => ⟨rfl, armed⟩

end Install

/-! ### The whole update -/

section Host

variable {start : System} {slot : U8} {responseSize retries : Nat}

/-- Besides, the device keeps the contracts of its flash. -/
structure Bench.Clean (start : System) (slot : U8) (header : List U8)
    (bench : Bench) : Prop where
  faultless : bench.outcomes = []
  obeys : Obeys bench.system
  updating : Updating hostPort start slot bench.system
  prepared : Prepared hostPort slot header bench.system

theorem serve_clean {header : List U8} (whole : header.length = 40)
    {request : BlFrame} (updates : request.Updates slot header) :
    (hostOf hostPort responseSize retries).Stable
      (Bench.Clean start slot header) request := by
  intro bench clean
  have powered : ∀ units, .powerLoss units ∉ ([] : List FlashOutcome) :=
    fun _ impossible => by cases impossible
  unfold hostOf Bench.serve
  dsimp only
  split
  · exact clean
  · have faultless : bench.outcomes.headD [] = [] := by
      rw [clean.faultless]
      rfl
    obtain ⟨updating, prepared⟩ := @systemStep_updates hostPort start
      bench.system slot header request [] powered responseSize
      clean.updating (Or.inr ⟨clean.prepared, updates⟩) whole
    rw [faultless]
    exact {
      faultless := by
        change bench.outcomes.tail = []
        rw [clean.faultless]
        rfl
      obeys := systemStep_obeys clean.obeys
        ⟨.request request responseSize, []⟩
      updating := updating
      prepared := prepared clean.prepared }

theorem erased_clean {header : List U8} (obeys : Obeys start)
    (tracks : Tracks hostPort start.session start.calls)
    (slotOk : slotIsValid slot = true) (whole : header.length = 40)
    {bench : Bench} {count : Nat}
    (ready : bench.Ready count
      ⟨start.session.eraseSlot slot, erasedFlash hostPort start.flash slot,
        start.calls ++ [eraseCall hostPort slot .success]⟩) :
    bench.Clean start slot header := by
  have stepped := @systemStep_erases hostPort _ slot
    (eraseRequest_erases slot) slotOk start blMinResponseSize
  have powered : ∀ units, .powerLoss units ∉ ([] : List FlashOutcome) :=
    fun _ impossible => by cases impossible
  have begun : Updating hostPort start slot start :=
    ⟨tracks, .refl start, fun _ _ _ => rfl⟩
  obtain ⟨updating, _prepared⟩ := @systemStep_updates hostPort start start
    slot header _ [] powered blMinResponseSize begun
    (Or.inl (Or.inr (Or.inr (eraseRequest_erases slot)))) whole
  have obeyed := systemStep_obeys obeys
    ⟨.request (eraseRequest slot) blMinResponseSize, []⟩
  rw [stepped] at updating obeyed
  obtain ⟨same, faultless, _enough⟩ := ready
  refine ⟨faultless, ?_, ?_, ?_⟩
  · rw [same]
    exact obeyed
  · rw [same]
    exact updating
  · rw [same]
    exact erased_prepared slotOk _ _ _

/-- What a faultless update leaves behind. -/
structure Installed (start : System) (slot : U8) (header : BlImgHdr)
    (image : List U8) (after : System) : Prop where
  valid : blCoreValidateSlot hostLayout after.flash slot = .ok header
  image : ∀ place, place < (hostLayout.slot slot).size.toNat →
    header.Covers place →
      after.flash ((hostLayout.slot slot).base.toNat + place) =
        image.getD place 0
  erased : ∀ place, place < (hostLayout.slot slot).size.toNat →
    ¬ header.Covers place →
      after.flash ((hostLayout.slot slot).base.toNat + place) = 0xFF
  nominated : ∃ record, blMetaRead hostLayout after.flash = .ok record ∧
    record.activeSlot = slot ∧ record.state = blBootTrial ∧
    record.bootAttempts = 0
  others : ∀ other, slotIsValid other = true → other ≠ slot →
    slotBytes hostLayout after.flash other =
      slotBytes hostLayout start.flash other
  permitted : ∀ call, call ∈ after.calls → call.Permitted
  once : ProgramsOnce start after

/-- Besides, the record that nominates the slot has the next number. -/
structure InstalledNext (start : System) (slot : U8) (header : BlImgHdr)
    (image : List U8) (after : System) : Prop extends
    Installed start slot header image after where
  numbered : ∃ record, blMetaRead hostLayout after.flash = .ok record ∧
    record.seq = (commitPlan hostLayout start.flash).1

variable {image : List U8} {slotSize : Option Nat} {header : BlImgHdr}
  (accepted : Blimage.Accepted image slotSize header)

include accepted

theorem install_clean (fuel : Nat) (info : DeviceInfo) :
    Ensures (Bench.Clean start slot (image.take Blimage.hdrStructSize))
      ((hostOf hostPort responseSize retries).install fuel info header image
        slot.toNat)
      (fun _ => Bench.Clean start slot (image.take Blimage.hdrStructSize))
      (fun _ => Bench.Clean start slot
        (image.take Blimage.hdrStructSize)) := by
  have stable : ∀ request : BlFrame,
      request.Updates slot (image.take Blimage.hdrStructSize) →
        (hostOf hostPort responseSize retries).Stable
          (Bench.Clean start slot (image.take Blimage.hdrStructSize))
          request := fun request updates =>
    serve_clean accepted.header_length updates
  have arms := setActive_slot fun fits =>
    (stable _ (Or.inr (Or.inr (setActive_arms slot fits)))).yields
  have contract := (installs_stable accepted.behind
    stable).contract arms fuel info
  exact contract.weaken (fun _ holds => holds)
    (fun _ _ holds => holds.2.1) (fun _ _ holds => holds)

variable (slotOk : slotIsValid slot = true)
  (fits : header.entryOffset.toNat + header.imgSize.toNat ≤
    (hostLayout.slot slot).size.toNat)

include slotOk fits

theorem installed_committed
    (unexhausted : ∀ held, blMetaRead hostLayout start.flash = .ok held →
      held.seq ≠ 0xFFFFFFFF)
    {bench : Bench}
    (clean : bench.Clean start slot (image.take Blimage.hdrStructSize))
    (flashEq : bench.system.flash = committed hostPort
      (imageFlash hostPort start.flash slot header image) slot blBootTrial
      0) :
    InstalledNext start slot header image bench.system := by
  have outside := @imageFlash_agreesOutside hostPort slot image slotSize
    header accepted start.flash fits
  have commit : CommitCalls hostPort
      (imageFlash hostPort start.flash slot header image) slot blBootTrial 0
      _ := .written .success
  have kept := commit.slotBytes slotOk
  have unread := blMetaRead_outside slotOk outside
  have planned := commitPlan_outside slotOk outside
  have room : ∀ held, blMetaRead hostLayout
      (imageFlash hostPort start.flash slot header image) = .ok held →
      held.seq ≠ 0xFFFFFFFF := by
    intro held read
    exact unexhausted held (unread.symm.trans read)
  have bytes := @imageFlash_byte hostPort slot image slotSize header accepted
    start.flash
  have stored : ∀ place, place < (hostLayout.slot slot).size.toNat →
      bench.system.flash ((hostLayout.slot slot).base.toNat + place) =
        imageFlash hostPort start.flash slot header image
          ((hostLayout.slot slot).base.toNat + place) := by
    intro place inside
    rw [flashEq]
    exact slotBytes_at kept
      ⟨Nat.le_add_right _ _, Nat.add_lt_add_left inside _⟩
  have read : blMetaRead hostLayout (committed hostPort
      (imageFlash hostPort start.flash slot header image) slot blBootTrial
        0) = .ok (commitRecord hostPort
      (imageFlash hostPort start.flash slot header image) slot blBootTrial
        0) := committed_read slotOk rfl room
  refine ⟨⟨?_, ?_, ?_, ?_, ?_, ?_, ?_⟩, ?_⟩
  · rw [flashEq]
    exact (blCoreValidateSlot_congr hostPort kept).trans
      (imageFlash_valid accepted start.flash fits slotOk)
  · intro place inside covered
    rw [stored place inside]
    exact (bytes inside).1 covered
  · intro place inside uncovered
    rw [stored place inside]
    exact (bytes inside).2 uncovered
  · rw [flashEq]
    exact ⟨_, read, rfl, rfl, rfl⟩
  · exact fun other otherOk differs =>
      clean.updating.others other otherOk differs
  · exact clean.obeys.permitted
  · exact clean.updating.once
  · rw [flashEq]
    exact ⟨_, read, congrArg Prod.fst planned⟩

variable (room : blMinResponseSize ≤ responseSize) (attempts : retries ≠ 0)
  (obeys : Obeys start)
  (tracks : Tracks hostPort start.session start.calls)
  (unexhausted : ∀ held, blMetaRead hostLayout start.flash = .ok held →
    held.seq ≠ 0xFFFFFFFF)

include room attempts obeys tracks unexhausted

theorem updateSlot_ready
    (inactive : slot.toNat ≠ (metaReport hostLayout start.flash).1.toNat)
    {fuel : Nat} (enough : header.imgSize.toNat ≤ fuel) (count : Nat) :
    Ensures
      (Bench.Ready (count + 3 + header.imgSize.toNat + 1) start)
      ((hostOf hostPort responseSize retries).updateSlot fuel
        (deviceInfo hostPort start.flash) header image slot.toNat)
      (fun installed bench => installed = slot.toNat ∧
        InstalledNext start slot header image bench.system)
      (fun _ _ => False) := by
  have slots : (deviceInfo hostPort start.flash).slotCount = 2 := rfl
  have active : (deviceInfo hostPort start.flash).activeSlot =
      (metaReport hostLayout start.flash).1.toNat := rfl
  have inRange : ¬ (slot.toNat : Int) ≥ (2 : Nat) := by
    rcases slotIsValid_cases slotOk with rfl | rfl
    · decide
    · decide
  have differs : ¬ (slot.toNat : Int) =
      (metaReport hostLayout start.flash).1.toNat := by
    intro same
    exact inactive (Int.ofNat.inj same)
  have whole := accepted.header_length
  unfold Bootloader.updateSlot
  rw [slots, active, if_neg inRange, if_neg differs]
  refine Ensures.bind (eraseSlot_ready room attempts slotOk) fun _ => ?_
  have filled := @install_ready hostPort start.flash slot image slotSize
    header responseSize retries accepted slotOk fits room attempts count fuel
    enough start.flash
  have cleanly := @install_clean start slot responseSize retries image
    slotSize header accepted fuel (deviceInfo hostPort start.flash)
  refine (filled.and cleanly).weaken ?_ ?_
    (fun _ _ impossible => impossible.1.elim)
  · intro bench ready
    exact ⟨⟨_, ready, erased_filling _ _⟩,
      erased_clean obeys tracks slotOk whole ready⟩
  · rintro installed bench ⟨⟨same, flashEq⟩, clean⟩
    exact ⟨same, installed_committed accepted slotOk fits unexhausted clean
      flashEq⟩

end Host

/-- A slot of the device that is not reported active. -/
def Eligible (flash : Flash) (target : U8) : Prop :=
  slotIsValid target = true ∧ target ≠ (metaReport hostLayout flash).1

instance (flash : Flash) (target : U8) : Decidable (Eligible flash target) :=
  inferInstanceAs (Decidable (_ ∧ _))

section Update

variable {start : System} {image : List U8} {header : BlImgHdr}
  {slot : Option Int} {responseSize retries fuel : Nat}
  (accepted : Blimage.validate image
    (some (hostLayout.slot blSlotA).size.toNat) = .ok header)
  (unexhausted : ∀ held, blMetaRead hostLayout start.flash = .ok held →
    held.seq ≠ 0xFFFFFFFF)
  (named : ∀ chosen, slot = some chosen →
    ∃ target, Eligible start.flash target ∧ chosen = target.toNat)
  (room : blMinResponseSize ≤ responseSize) (attempts : retries ≠ 0)
  (enough : header.imgSize.toNat ≤ fuel)
  (obeys : Obeys start)
  (tracks : Tracks hostPort start.session start.calls)

include accepted unexhausted named room attempts enough obeys tracks

/-- HELLO, two questions, the erase, the chunks, the header, VERIFY and
SET_ACTIVE. -/
theorem update_ready (count : Nat) :
    Ensures (Bench.Ready (count + 3 + header.imgSize.toNat + 1 + 2 + 1) start)
      ((hostOf hostPort responseSize retries).update fuel image slot)
      (fun installed bench => ∃ target, Eligible start.flash target ∧
        installed = target.toNat ∧
        (∀ chosen, slot = some chosen → chosen = target.toNat) ∧
        InstalledNext start target header image bench.system)
      (fun _ _ => False) := by
  have checked := Blimage.validate_ok accepted
  have slotSize : (deviceInfo hostPort start.flash).slotSize =
      (hostLayout.slot blSlotA).size.toNat := rfl
  have updates : ∀ {target : U8}, Eligible start.flash target →
      Ensures (Bench.Ready (count + 3 + header.imgSize.toNat + 1) start)
        ((hostOf hostPort responseSize retries).updateSlot fuel
          (deviceInfo hostPort start.flash) header image target.toNat)
        (fun installed bench => installed = target.toNat ∧
          InstalledNext start target header image bench.system)
        (fun _ _ => False) := by
    intro target eligible
    have fits : header.entryOffset.toNat + header.imgSize.toNat ≤
        (hostLayout.slot target).size.toNat := by
      rcases slotIsValid_cases eligible.1 with rfl | rfl
      · exact checked.fits _ rfl
      · exact checked.fits _ rfl
    exact updateSlot_ready checked eligible.1 fits room attempts obeys tracks
      unexhausted (fun same => eligible.2 (BitVec.eq_of_toNat_eq same))
      enough count
  unfold Bootloader.update
  refine Ensures.bind_known (hello_ready room attempts) ?_
  rw [slotSize, accepted]
  cases slot with
  | some chosen =>
      obtain ⟨target, eligible, rfl⟩ := named chosen rfl
      refine (updates eligible).weaken
        (fun _ ready => ready.fewer (Nat.le_add_right _ 2)) ?_
        (fun _ _ impossible => impossible)
      rintro installed bench ⟨same, done⟩
      exact ⟨target, eligible, same,
        (fun _ given => (Option.some.inj given).symm), done⟩
  | none =>
      refine Ensures.bind (chooseTargetSlot_ready room attempts)
        fun chosen => Ensures.each ?_
      rintro bench ⟨⟨target, slotOk, inactive, rfl⟩, ready⟩
      have eligible : Eligible start.flash target :=
        ⟨slotOk, fun same => inactive (congrArg BitVec.toNat same)⟩
      refine (updates eligible).weaken ?_ ?_
        (fun _ _ impossible => impossible)
      · rintro _ rfl
        exact ready
      · rintro installed after ⟨same, done⟩
        exact ⟨target, eligible, same,
          (fun _ impossible => by cases impossible), done⟩

end Update

/-- The host installs every image that it accepts. -/
theorem update_installsImage (flash : Flash) (earlier : List Step)
    (image : List U8) (header : BlImgHdr) (slot : Option Int)
    (responseSize retries fuel requests : Nat)
    (room : blMinResponseSize ≤ responseSize) (attempts : retries ≠ 0)
    (turns : image.length ≤ fuel) (service : image.length ≤ requests)
    (accepted : Blimage.validate image
      (some (hostLayout.slot blSlotA).size.toNat) = .ok header)
    (unexhausted : ∀ held, blMetaRead hostLayout
      (run (systemStep hostPort) (System.initial flash) earlier).flash =
        .ok held → held.seq.toNat < 2 ^ 32 - 1)
    (named : ∀ chosen, slot = some chosen → ∃ target, Eligible
      (run (systemStep hostPort) (System.initial flash) earlier).flash
        target ∧ chosen = target.toNat) :
    let start := run (systemStep hostPort) (System.initial flash) earlier
    ∃ target bench,
      ((hostOf hostPort responseSize retries).update fuel image slot).run
          ⟨start, [], requests⟩ = .returned (.ok target.toNat) bench ∧
      Eligible start.flash target ∧
      (∀ chosen, slot = some chosen → chosen = target.toNat) ∧
      Installed start target header image bench.system := by
  intro start
  have checked := Blimage.validate_ok accepted
  have behind := checked.behind
  have nonempty := checked.payload_positive
  have payload := checked.payload
  rw [List.length_drop] at payload
  have seqs : ∀ held, blMetaRead hostLayout start.flash = .ok held →
      held.seq ≠ 0xFFFFFFFF := by
    rintro held read last
    have below := unexhausted held read
    rw [last] at below
    exact absurd below (by decide)
  have ready : Bench.Ready (0 + 3 + header.imgSize.toNat + 1 + 2 + 1) start
      ⟨start, [], requests⟩ := by
    refine ⟨rfl, rfl, ?_⟩
    dsimp only
    omega
  have loops : header.imgSize.toNat ≤ fuel := by omega
  obtain ⟨installed, bench, ran, target, eligible, rfl, same, done⟩ :=
    (update_ready accepted seqs named room attempts loops
      (obeys_run flash earlier) (tracks_run hostPort flash earlier)
      0).returns ready
  exact ⟨target, bench, ran, eligible, same, done.toInstalled⟩

/-- Slot A is reported active, and the host is told to update slot B. -/
theorem update_installsImage_fallback :
    ∃ header target bench,
      ((hostOf hostPort blMinResponseSize 3).update newImage.length newImage
          (some blSlotB.toNat)).run
        ⟨.initial fallbackFlash, [], newImage.length⟩ =
          .returned (.ok (BitVec.toNat target)) bench ∧
      Eligible fallbackFlash target ∧
      (∀ chosen, some (blSlotB.toNat : Int) = some chosen →
        chosen = target.toNat) ∧
      Installed (.initial fallbackFlash) target header newImage
        bench.system := by
  obtain ⟨header, accepted⟩ := newImage_accepted
  have reported : (metaReport hostLayout fallbackFlash).1 = blSlotA := by
    have read : blMetaRead hostLayout fallbackFlash = _ := fallbackFlash_read
    simp only [metaReport, read]
    rfl
  have unexhausted : ∀ held,
      blMetaRead hostLayout fallbackFlash = .ok held →
        held.seq.toNat < 2 ^ 32 - 1 := by
    intro held read
    cases fallbackFlash_read.symm.trans read
    decide
  refine ⟨header, update_installsImage fallbackFlash [] newImage header
    (some blSlotB.toNat) blMinResponseSize 3 newImage.length newImage.length
    (Nat.le_refl _) (by decide) (Nat.le_refl _) (Nat.le_refl _) accepted
    unexhausted ?_⟩
  rintro chosen given
  cases given
  refine ⟨blSlotB, ⟨rfl, ?_⟩, rfl⟩
  change blSlotB ≠ (metaReport hostLayout fallbackFlash).1
  rw [reported]
  decide

end Stm32Bootloader
