/-
The requests of an update, and what they do to the device.

Before it has erased its slot an update only asks.  From the erase on, the
bytes of the header are erased or those of the image, payload is kept out of
the header region, and the other slot is out of reach, whichever of the
requests are lost, repeated or refused.
-/

import Stm32Bootloader.CommitPoint
import Stm32Bootloader.DoubleProgram
import Stm32Bootloader.Response

namespace Stm32Bootloader

open Interruptible Fallible Memory LittleEndian WriteOnce Blflash

/-! ### Requests -/

/-- A query, or the erase of this slot. -/
def BlFrame.Prepares (request : BlFrame) (slot : U8) : Prop :=
  request.cmd = blCmdHello ∨ request.cmd = blCmdVerify ∨ request.Erases slot

/-- A WRITE behind the header region, or of this header. -/
def BlFrame.Programs (request : BlFrame) (header : List U8) : Prop :=
  request.cmd = blCmdWrite ∧
    (512 ≤ request.writeOffset.toNat ∨
      (request.writeOffset = 0 ∧ request.writeData = header))

/-- A request of an update of this slot. -/
def BlFrame.Updates (request : BlFrame) (slot : U8)
    (header : List U8) : Prop :=
  request.Prepares slot ∨ request.Programs header ∨ request.Arms slot

/-- A request of an update of any slot. -/
def BlFrame.OfUpdate (request : BlFrame) : Prop :=
  ∃ slot header, List.length header = 40 ∧ request.Updates slot header

section Requests

variable {request : BlFrame} {slot : U8} {header : List U8}

theorem BlFrame.Prepares.notWrite (prepares : request.Prepares slot) :
    request.cmd ≠ blCmdWrite := by
  intro isWrite
  rcases prepares with isHello | isVerify | erases
  · exact BlFrame.cmd_clash isWrite isHello
  · exact BlFrame.cmd_clash isWrite isVerify
  · exact BlFrame.cmd_clash isWrite erases.1

theorem BlFrame.Prepares.notArms (prepares : request.Prepares slot) :
    request.cmd ≠ blCmdSetActive := by
  intro isArm
  rcases prepares with isHello | isVerify | erases
  · exact BlFrame.cmd_clash isArm isHello
  · exact BlFrame.cmd_clash isArm isVerify
  · exact BlFrame.cmd_clash isArm erases.1

theorem BlFrame.Prepares.ofErase (prepares : request.Prepares slot)
    (isErase : request.cmd = blCmdEraseSlot) : request.Erases slot := by
  rcases prepares with isHello | isVerify | erases
  · exact (BlFrame.cmd_clash isErase isHello).elim
  · exact (BlFrame.cmd_clash isErase isVerify).elim
  · exact erases

theorem BlFrame.Updates.ofErase (updates : request.Updates slot header)
    (isErase : request.cmd = blCmdEraseSlot) : request.Erases slot := by
  rcases updates with prepares | programs | arms
  · exact prepares.ofErase isErase
  · exact (BlFrame.cmd_clash isErase programs.1).elim
  · exact (BlFrame.cmd_clash isErase arms.1).elim

theorem BlFrame.Updates.ofArm (updates : request.Updates slot header)
    (isArm : request.cmd = blCmdSetActive) : request.Arms slot := by
  rcases updates with prepares | programs | arms
  · exact absurd isArm prepares.notArms
  · exact (BlFrame.cmd_clash isArm programs.1).elim
  · exact arms

theorem BlFrame.Updates.programs (updates : request.Updates slot header)
    (isWrite : request.cmd = blCmdWrite) : request.Programs header := by
  rcases updates with prepares | programs | arms
  · exact absurd isWrite prepares.notWrite
  · exact programs
  · exact (BlFrame.cmd_clash isWrite arms.1).elim

theorem BlFrame.OfUpdate.notReset (ofUpdate : request.OfUpdate) :
    request.cmd ≠ blCmdReset := by
  intro isReset
  obtain ⟨slot, header, _whole, prepares | programs | arms⟩ := ofUpdate
  · rcases prepares with isHello | isVerify | erases
    · exact BlFrame.cmd_clash isReset isHello
    · exact BlFrame.cmd_clash isReset isVerify
    · exact BlFrame.cmd_clash isReset erases.1
  · exact BlFrame.cmd_clash isReset programs.1
  · exact BlFrame.cmd_clash isReset arms.1

theorem BlFrame.Updates.erases (updates : request.Updates slot header)
    {other : U8} (erases : request.Erases other) : other = slot :=
  erases.2.2.symm.trans (updates.ofErase erases.1).2.2

end Requests

/-! ### The device during an update -/

/-- The calls since the start program no byte that is programmed already. -/
def ProgramsOnce (start after : System) : Prop :=
  ∃ new, after.calls = start.calls ++ new ∧
    Respects (Programmed start.calls) (new.flatMap PortCall.events)

theorem ProgramsOnce.refl (start : System) : ProgramsOnce start start :=
  ⟨[], (List.append_nil _).symm, trivial⟩

theorem ProgramsOnce.append {start middle : System} {session : BlSession}
    {flash : Flash} {new : List PortCall} (once : ProgramsOnce start middle)
    (respects : Respects (Programmed middle.calls)
      (new.flatMap PortCall.events)) :
    ProgramsOnce start ⟨session, flash, middle.calls ++ new⟩ := by
  obtain ⟨earlier, log, before⟩ := once
  refine ⟨earlier ++ new, ?_, ?_⟩
  · rw [log, List.append_assoc]
  · rw [List.flatMap_append, respects_append, ← programmed_append, ← log]
    exact ⟨before, respects⟩

/-- Since the start nothing was programmed twice, and only this slot has
changed. -/
structure Updating (port : Port) (start : System) (slot : U8)
    (system : System) : Prop where
  tracks : Tracks port system.session system.calls
  once : ProgramsOnce start system
  others : ∀ other, slotIsValid other = true → other ≠ slot →
    slotBytes port.layout system.flash other =
      slotBytes port.layout start.flash other

/-- The slot has been erased for an image with this header. -/
structure Prepared (port : Port) (slot : U8) (header : List U8)
    (system : System) : Prop where
  slotOk : slotIsValid slot = true
  target : system.session.erased = true → system.session.targetSlot = slot
  floor : ∀ floor, payloadFloor (port.layout.slot slot) system.calls =
    some floor → 512 ≤ floor
  stored : load system.flash (port.layout.slot slot).base.toNat 40 =
      List.replicate 40 0xFF ∨
    load system.flash (port.layout.slot slot).base.toNat 40 = header

/-- The update may send the request to the device in this state. -/
def Sendable (port : Port) (slot : U8) (header : List U8) (system : System)
    (request : BlFrame) : Prop :=
  request.Prepares slot ∨
    (Prepared port slot header system ∧ request.Updates slot header)

section Effects

variable {port : Port} {start system : System} {slot : U8}
  {header : List U8} {request : BlFrame}

theorem Sendable.erases (sendable : Sendable port slot header system request)
    {other : U8} (erases : request.Erases other) : other = slot := by
  have updates : request.Updates slot header := by
    rcases sendable with prepares | ⟨_prepared, updates⟩
    · exact Or.inl prepares
    · exact updates
  exact updates.erases erases

theorem Sendable.programs
    (sendable : Sendable port slot header system request)
    (admitted : WriteAdmitted port system.session request) :
    Prepared port slot header system ∧ request.Programs header ∧
      system.session.targetSlot = slot := by
  rcases sendable with prepares | ⟨prepared, updates⟩
  · exact absurd admitted.isWrite prepares.notWrite
  · exact ⟨prepared, updates.programs admitted.isWrite,
      prepared.target admitted.erased⟩

/-- A header never reaches into payload. -/
theorem Sendable.headerFits
    (sendable : Sendable port slot header system request)
    (whole : header.length = 40) (responseSize : Nat)
    (outcomes : List FlashOutcome) :
    HeaderFits port system ⟨.request request responseSize, outcomes⟩ := by
  intro admitted zero floor found
  obtain ⟨prepared, ⟨_isWrite, behind | ⟨_zero, same⟩⟩, target⟩ :=
    sendable.programs admitted
  · rw [zero] at behind
    exact absurd behind (by decide)
  · rw [target] at found
    have low := prepared.floor floor found
    have length := request.writeData_length admitted.nonempty
    rw [same, whole] at length
    omega

variable {after : BlSession} {new : List PortCall} {status : Option BlResult}
  (calls : RequestCalls port system.session system.flash request after new
    status)

include calls

theorem RequestCalls.updating
    (updating : Updating port start slot system)
    (sendable : Sendable port slot header system request)
    (whole : header.length = 40) (answered : status ≠ none) :
    Updating port start slot
      ⟨after, replay port system.flash new, system.calls ++ new⟩ := by
  obtain ⟨tracks, _zeroed, fits⟩ :=
    request_tracks updating.tracks 0 [] calls
  refine ⟨tracks answered,
    updating.once.append (fits.mpr (sendable.headerFits whole 0 [])),
    fun other otherOk different =>
      Eq.trans ?_ (updating.others other otherOk different)⟩
  · cases calls with
    | refused status failed unadmitted => rfl
    | answered isQuery status => rfl
    | reset isReset => rfl
    | erase erased erases slotOk outcome =>
        obtain rfl := sendable.erases erases
        exact (apply_erase_agreesOutside port system.flash _ _ outcome).load
          (port.slots_apart slotOk otherOk different)
    | write admitted outcome =>
        obtain ⟨prepared, _programs, rfl⟩ := sendable.programs admitted
        have within := writeCall_agreesOutside admitted prepared.slotOk
          system.flash outcome
        have inside := admitted.inside
        exact within.load ((port.slots_apart prepared.slotOk otherOk
          different).of_within (Nat.le_add_right _ _) (by omega))
    | arm isArm oneByte validates new commit status =>
        exact commit.slotBytes otherOk

end Effects

/-! ### From the erase on -/

section Prepared

variable {port : Port} {slot : U8} {header : List U8}

theorem erased_prepared (slotOk : slotIsValid slot = true)
    (session : BlSession) (flash : Flash) (calls : List PortCall) :
    Prepared port slot header
      ⟨session.eraseSlot slot,
        (eraseCall port slot .success).apply port flash,
        calls ++ [eraseCall port slot .success]⟩ := by
  refine ⟨slotOk, fun _ => rfl, fun floor found => ?_, Or.inl ?_⟩
  · have cleared : payloadFloor (port.layout.slot slot)
        (calls ++ [eraseCall port slot .success]) = none := by
      rw [payloadFloor_append]
      exact if_pos ⟨rfl, rfl⟩
    rw [cleared] at found
    cases found
  · have room := port.slotHoldsImage slot slotOk
    have region : blImgHdrRegion.toNat = 512 := rfl
    rw [eraseCall, apply_erase, FlashOutcome.extent_success]
    exact load_fill _ _ _ _ _ _ (Nat.le_refl _) (by omega)

theorem erase_prepares {system : System} {erase : BlFrame}
    {responseSize : Nat} {outcomes : List FlashOutcome}
    (erases : erase.Erases slot)
    (answered : answer port system
      ⟨.request erase responseSize, outcomes⟩ = some BlResult.ok.code) :
    Prepared port slot header
      (systemStep port system ⟨.request erase responseSize, outcomes⟩) := by
  obtain ⟨slotOk, session, log, flashEq⟩ := erase_answered_ok erases answered
  revert session log flashEq
  generalize systemStep port system ⟨.request erase responseSize, outcomes⟩ =
    after
  obtain ⟨session, flash, calls⟩ := after
  rintro rfl rfl rfl
  exact erased_prepared slotOk _ _ _

variable {system : System} (prepared : Prepared port slot header system)

include prepared

theorem Prepared.neutral {session : BlSession} {flash : Flash}
    {new : List PortCall}
    (kept : session.erased = true → session.targetSlot = slot)
    (neutral : SlotNeutral port system.calls new)
    (same : load flash (port.layout.slot slot).base.toNat 40 =
      load system.flash (port.layout.slot slot).base.toNat 40) :
    Prepared port slot header ⟨session, flash, system.calls ++ new⟩ :=
  { slotOk := prepared.slotOk
    target := kept
    floor := by
      rw [neutral.floor slot prepared.slotOk]
      exact prepared.floor
    stored := by
      rw [same]
      exact prepared.stored }

theorem Prepared.powerCycle :
    Prepared port slot header { system with session := .zeroed } :=
  { slotOk := prepared.slotOk
    target := fun impossible => absurd impossible Bool.false_ne_true
    floor := prepared.floor
    stored := prepared.stored }

section Write

variable {request : BlFrame} (whole : header.length = 40)
  (programs : request.Programs header)
  (admitted : WriteAdmitted port system.session request)

include admitted programs

theorem Prepared.write_floor (floor : Nat)
    (found : payloadFloor (port.layout.slot slot) (system.calls ++
      [writeCall port system.session request .success]) = some floor) :
    512 ≤ floor := by
  have target := prepared.target admitted.erased
  have low := prepared.floor
  have slotOk := prepared.slotOk
  rw [← target] at found low slotOk
  exact payloadFloor_write_low admitted slotOk low (fun behind =>
    programs.2.resolve_right fun header => behind header.1) floor found

include whole

theorem Prepared.write_stored :
    load ((writeCall port system.session request .success).apply port
        system.flash) (port.layout.slot slot).base.toNat 40 =
      load system.flash (port.layout.slot slot).base.toNat 40 ∨
    load ((writeCall port system.session request .success).apply port
        system.flash) (port.layout.slot slot).base.toNat 40 = header := by
  have target := prepared.target admitted.erased
  have slotOk := prepared.slotOk
  rw [← target] at slotOk
  rcases programs.2 with behind | ⟨zero, same⟩
  · have within := writeCall_agreesOutside admitted slotOk system.flash
      .success
    rw [target] at within
    exact Or.inl (within.load (Or.inr (by omega)))
  · have base : (0 : U32).toNat = 0 := rfl
    rw [writeCall_apply admitted slotOk, target, zero, base, same,
      Nat.add_zero, ← whole]
    exact Or.inr (load_store _ _ _)

theorem Prepared.write :
    Prepared port slot header
      ⟨system.session.advance request.writeOffset request.writeLength,
        (writeCall port system.session request .success).apply port
          system.flash,
        system.calls ++ [writeCall port system.session request .success]⟩ :=
  { slotOk := prepared.slotOk
    target := prepared.target
    floor := prepared.write_floor programs admitted
    stored := by
      rcases prepared.write_stored whole programs admitted with same | same
      · rw [same]
        exact prepared.stored
      · exact Or.inr same }

end Write

theorem RequestCalls.keepsPrepared {request : BlFrame} {after : BlSession}
    {new : List PortCall} {status : BlResult}
    (calls : RequestCalls port system.session system.flash request after new
      (some status))
    (updates : request.Updates slot header) (whole : header.length = 40) :
    Prepared port slot header
      ⟨after, replay port system.flash new, system.calls ++ new⟩ := by
  generalize answerEq : some status = answer at calls
  cases calls with
  | refused status failed unadmitted =>
      exact prepared.neutral prepared.target .nil rfl
  | answered isQuery status =>
      exact prepared.neutral prepared.target .nil rfl
  | reset isReset => exact prepared.neutral prepared.target .nil rfl
  | erase other erases slotOk outcome =>
      obtain rfl := updates.erases erases
      cases outcome with
      | success => exact erased_prepared slotOk _ _ _
      | failure error =>
          have same : replay port system.flash
              [eraseCall port other (.failure error)] = system.flash :=
            apply_erase_failure port system.flash _ _ error
          refine prepared.neutral prepared.target
            (.erase_unfinished other ?_) ?_
          · intro impossible
            cases impossible
          · rw [same]
      | powerLoss units => cases answerEq
  | write admitted outcome =>
      have programs := updates.programs admitted.isWrite
      have target := prepared.target admitted.erased
      cases outcome with
      | success => exact prepared.write whole programs admitted
      | failure error =>
          have same : replay port system.flash
              [writeCall port system.session request (.failure error)] =
                system.flash :=
            apply_write_failure port system.flash _ _ error
          refine prepared.neutral prepared.target
            (.write_failed admitted (by rw [target]; exact prepared.slotOk)
              error) ?_
          rw [same]
      | powerLoss units => cases answerEq
  | arm isArm oneByte validates new commit status =>
      have room := port.slotHoldsImage slot prepared.slotOk
      have region : blImgHdrRegion.toNat = 512 := rfl
      exact prepared.neutral prepared.target (commit.neutral _)
        (load_of_slotBytes (commit.slotBytes prepared.slotOk) 0 40 (by omega))

/-! ### Arming -/

/-- The slot holds this header and the payload it describes. -/
structure Holds (layout : BlLayout) (flash : Flash) (slot : U8)
    (header : List U8) : Prop where
  stored : load flash (layout.slot slot).base.toNat 40 = header
  payload : blCrc32 0 (load flash
      ((layout.slot slot).base.toNat +
        (BlImgHdr.ofBytes header).entryOffset.toNat)
      (BlImgHdr.ofBytes header).imgSize.toNat) =
    (BlImgHdr.ofBytes header).imgCrc32

/-- A slot that is armed holds the image it was erased for. -/
theorem Prepared.armed {arm : BlFrame} (arms : arm.Arms slot)
    {responseSize : Nat} {outcomes : List FlashOutcome}
    (answered : answer port system ⟨.request arm responseSize, outcomes⟩ =
      some BlResult.ok.code) :
    Holds port.layout system.flash slot header := by
  cases verdict : blCoreValidateSlot port.layout system.flash slot with
  | error result =>
      have ran := @blCoreHandleFrame_arm_refused port system.session arm slot
        (system.device outcomes) result arms prepared.slotOk verdict
        responseSize
      unfold answer at answered
      dsimp only at answered
      rw [ran] at answered
      have isOk := BlResult.code_injective (respond_status answered)
      rw [isOk] at verdict
      exact absurd verdict (blCoreValidateSlot_error _ _ _)
  | ok hdr =>
      have stored := prepared.stored.resolve_left fun erased =>
        blCoreValidateSlot_erased erased hdr verdict
      have image := (blCoreValidateSlot_ok_iff port).mp verdict
      have decoded := image.header
      rw [stored] at decoded
      refine ⟨stored, ?_⟩
      rw [decoded]
      exact image.imgCrc

end Prepared

/-! ### Steps while the power stays on -/

section Steps

variable {port : Port} {start system : System} {slot : U8}
  {header : List U8} {request : BlFrame} {outcomes : List FlashOutcome}
  (powered : ∀ units, .powerLoss units ∉ outcomes) (responseSize : Nat)

include powered

theorem request_powered :
    ∃ after new status data device,
      blCoreHandleFrame port system.session request responseSize
          (system.device outcomes) =
        .returned (after, respond request.cmd status data responseSize)
          device ∧
      RequestCalls port system.session system.flash request after new
        (some status) ∧
      device.calls = system.calls ++ new ∧
      device.flash = replay port system.flash new := by
  obtain ⟨_result, _device, ran, _powered, _answers⟩ :=
    @blCoreHandleFrame_handles port system.session request responseSize
      (system.device outcomes) powered
  have effect : RequestEffect port system.session request responseSize
      (system.device outcomes) _ := blCoreHandleFrame_effect
  rw [ran] at effect ⊢
  cases effect with
  | returned after new status data device calls log flashEq =>
      exact ⟨after, new, status, data, _, rfl, calls, log, flashEq⟩

theorem systemStep_updates
    (updating : Updating port start slot system)
    (sendable : Sendable port slot header system request)
    (whole : header.length = 40) :
    let after := systemStep port system
      ⟨.request request responseSize, outcomes⟩
    Updating port start slot after ∧
      (Prepared port slot header system →
        Prepared port slot header after) := by
  obtain ⟨session, new, status, data, device, ran, calls, log, flashEq⟩ :=
    @request_powered port system request outcomes powered responseSize
  have stepped : systemStep port system
      ⟨.request request responseSize, outcomes⟩ =
        ⟨session, replay port system.flash new, system.calls ++ new⟩ := by
    unfold systemStep
    dsimp only
    rw [ran, ← flashEq, ← log]
    rfl
  dsimp only
  rw [stepped]
  refine ⟨calls.updating updating sendable whole (Option.some_ne_none _),
    fun prepared => calls.keepsPrepared prepared ?_ whole⟩
  rcases sendable with prepares | ⟨_prepared, updates⟩
  · exact Or.inl prepares
  · exact updates

end Steps

/-! ### The requests of the host -/

section Host

variable {σ : Type} {loader : Bootloader σ} {invariant : σ → Prop}

theorem setActive_arms (slot : U8)
    (fits : [slot].length ≤ Blproto.maxPayload) :
    (BlFrame.ofBytes Blproto.cmdSetActive [slot] fits).Arms slot :=
  ⟨rfl, rfl, BlFrame.ofBytes_byte _ _ _⟩

theorem setActive_slot {slot : U8} {told : U8 → σ → Prop}
    (yields : ∀ fits, loader.Yields invariant
      (BlFrame.ofBytes Blproto.cmdSetActive [slot] fits) told) :
    Ensures invariant (loader.setActive slot.toNat)
      (fun _ state => invariant state ∧ told Blproto.ok state)
      (fun _ => invariant) :=
  Bootloader.setActive_yields fun fits _inByte => by
    rw [BitVec.ofInt_natCast, BitVec.ofNat_toNat, BitVec.setWidth_eq]
    exact yields fits

theorem queries_stable
    (stable : ∀ request : BlFrame, (∀ slot, request.Prepares slot) →
      loader.Stable invariant request) :
    loader.Queries invariant :=
  { hello := fun _ => stable _ fun _ => Or.inl rfl
    verify := fun _ _ => stable _ fun _ => Or.inr (Or.inl rfl) }

theorem installs_stable {slot : U8} {header : BlImgHdr} {image : List U8}
    (behind : 512 ≤ header.entryOffset.toNat)
    (stable : ∀ request : BlFrame,
      request.Updates slot (image.take Blimage.hdrStructSize) →
        loader.Stable invariant request) :
    loader.Installs invariant header image :=
  { chunk := by
      intro offset data fits lower upper
      refine stable _ (Or.inr (Or.inl ⟨rfl, Or.inl ?_⟩))
      have named : (BlFrame.ofBytes Blproto.cmdWrite
          (bytes32 (BitVec.ofNat 32 offset) ++ data) fits).writeOffset =
            BitVec.ofNat 32 offset := ofBytes_writeOffset _ _ _
      rw [named, BitVec.toNat_ofNat, Nat.mod_eq_of_lt upper]
      exact Nat.le_trans behind lower
    header := fun fits => stable _ (Or.inr (Or.inl ⟨rfl,
      Or.inr ⟨ofBytes_writeOffset _ _ _, ofBytes_writeData _ _ _⟩⟩))
    queries := queries_stable fun _ prepares =>
      stable _ (Or.inl (prepares slot)) }

end Host

end Stm32Bootloader
