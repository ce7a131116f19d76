/-
The host tool on one port and on another.

Everything that class Bootloader does of the device, it does through attempts
of transactions.  On two ports that answer alike, from related states, it
comes to the same end.
-/

import Stm32Bootloader.Library.Simulation
import Stm32Bootloader.Tools.Blflash

namespace Stm32Bootloader.Blflash

open Interruptible Fallible Blimage LittleEndian

/-- Both answer every request alike. -/
structure Bootloader.Mirrors {σ τ : Type} (loader : Bootloader σ)
    (other : Bootloader τ) (related : σ → τ → Prop) : Prop where
  retries : loader.retries = other.retries
  port : ∀ request, Alike related (loader.port request) (other.port request)

section Mirrored

variable {σ τ : Type} {loader : Bootloader σ} {other : Bootloader τ}
  {related : σ → τ → Prop}

theorem slotPayload_mirrored (slot : Int) :
    Simulates related (slotPayload slot : HostM σ (List U8))
      (slotPayload slot : HostM τ (List U8)) := by
  unfold slotPayload
  exact .ite (.pure _) (.throw _)

theorem modulo_mirrored (left right : Nat) :
    Simulates related (modulo left right : HostM σ Nat)
      (modulo left right : HostM τ Nat) := by
  unfold modulo
  exact .ite (.throw _) (.pure _)

variable (mirrors : loader.Mirrors other related)

include mirrors

theorem attempt_mirrored (request : BlFrame) (left number : Nat)
    (last : Option AttemptError) :
    Simulates related (loader.attempt request left number last)
      (other.attempt request left number last) := by
  induction left generalizing number last with
  | zero =>
      unfold Bootloader.attempt
      rw [mirrors.retries]
      exact .throw _
  | succ left ih =>
      unfold Bootloader.attempt
      refine .bind (.lift (mirrors.port request)) fun received => ?_
      cases awaitResponse request.cmd received with
      | error error => exact ih _ _
      | ok response =>
          cases response with
          | nil => exact ih _ _
          | cons status data => exact .pure _

theorem transact_mirrored (cmd : U8) (payload : List U8) :
    Simulates related (loader.transact cmd payload)
      (other.transact cmd payload) := by
  unfold Bootloader.transact
  rw [mirrors.retries]
  split
  · exact attempt_mirrored mirrors _ _ _ _
  · exact .throw _

theorem expectOk_mirrored (cmd : U8) (payload : List U8) :
    Simulates related (loader.expectOk cmd payload)
      (other.expectOk cmd payload) :=
  .bind (transact_mirrored mirrors cmd payload) fun _response =>
    .ite (.throw _) (.pure _)

theorem hello_mirrored : Simulates related loader.hello other.hello := by
  refine .bind (expectOk_mirrored mirrors _ _) fun data => ?_
  exact .ite (.throw _) (.ite (.throw _) (.ite (.throw _) (.pure _)))

theorem eraseSlot_mirrored (slot : Int) :
    Simulates related (loader.eraseSlot slot) (other.eraseSlot slot) :=
  .bind (slotPayload_mirrored slot) fun _payload =>
    .bind (expectOk_mirrored mirrors _ _) fun _data => .pure _

theorem write_mirrored (offset : Nat) (data : List U8) :
    Simulates related (loader.write offset data)
      (other.write offset data) := by
  unfold Bootloader.write
  refine .ite (.bind (transact_mirrored mirrors _ _) fun response => ?_)
    (.throw _)
  exact .ite (.ite (.throw _) (.pure _)) (.ite (.pure _) (.throw _))

theorem verify_mirrored (slot : Int) :
    Simulates related (loader.verify slot) (other.verify slot) :=
  .bind (slotPayload_mirrored slot) fun _payload =>
    .bind (expectOk_mirrored mirrors _ _) fun _data =>
      .ite (.throw _) (.pure _)

theorem slotStatus_mirrored (slot : Int) :
    Simulates related (loader.slotStatus slot) (other.slotStatus slot) :=
  .bind (slotPayload_mirrored slot) fun _payload =>
    .bind (transact_mirrored mirrors _ _) fun _response =>
      .ite (.pure _) (.pure _)

theorem setActive_mirrored (slot : Int) :
    Simulates related (loader.setActive slot) (other.setActive slot) :=
  .bind (slotPayload_mirrored slot) fun _payload =>
    .bind (expectOk_mirrored mirrors _ _) fun _data => .pure _

theorem validSlots_mirrored (slots : List Nat) :
    Simulates related (loader.validSlots slots)
      (other.validSlots slots) := by
  induction slots with
  | nil => exact .pure _
  | cons slot later ih =>
      refine .bind (slotStatus_mirrored mirrors slot) fun status => ?_
      refine .bind ih fun valid => ?_
      cases status with
      | ok info => exact .pure _
      | error code => exact .pure _

theorem chooseTargetSlot_mirrored (info : DeviceInfo) :
    Simulates related (loader.chooseTargetSlot info)
      (other.chooseTargetSlot info) := by
  unfold Bootloader.chooseTargetSlot
  refine .ite (modulo_mirrored _ _)
    (.bind (validSlots_mirrored mirrors _) fun valid => ?_)
  match valid with
  | [] => exact .pure _
  | [_occupied] => exact modulo_mirrored _ _
  | _first :: _second :: _later => exact .pure _

theorem sendChunks_mirrored (entryOffset : Nat) (payload : List U8)
    (chunkSize fuel sent : Nat) :
    Simulates related
      (loader.sendChunks entryOffset payload chunkSize fuel sent)
      (other.sendChunks entryOffset payload chunkSize fuel sent) := by
  induction fuel generalizing sent with
  | zero =>
      unfold Bootloader.sendChunks
      exact .ite (.throw _) (.pure _)
  | succ fuel ih =>
      unfold Bootloader.sendChunks
      exact .ite (.bind (write_mirrored mirrors _ _) fun _ => ih _) (.pure _)

theorem install_mirrored (fuel : Nat) (info : DeviceInfo)
    (header : BlImgHdr) (image : List U8) (slot : Int) :
    Simulates related (loader.install fuel info header image slot)
      (other.install fuel info header image slot) := by
  refine .bind (modulo_mirrored _ _) fun remainder => .ite (.throw _) ?_
  refine .bind (sendChunks_mirrored mirrors _ _ _ _ _) fun _ => ?_
  refine .bind (write_mirrored mirrors _ _) fun _ => ?_
  refine .bind (verify_mirrored mirrors _) fun stored => .ite (.throw _) ?_
  exact .bind (setActive_mirrored mirrors _) fun _ => .pure _

theorem updateSlot_mirrored (fuel : Nat) (info : DeviceInfo)
    (header : BlImgHdr) (image : List U8) (slot : Int) :
    Simulates related (loader.updateSlot fuel info header image slot)
      (other.updateSlot fuel info header image slot) := by
  unfold Bootloader.updateSlot
  refine .ite (.throw _) (.ite (.throw _) ?_)
  exact .bind (eraseSlot_mirrored mirrors _) fun _ =>
    install_mirrored mirrors _ _ _ _ _

theorem update_mirrored (fuel : Nat) (image : List U8)
    (slot : Option Int) :
    Simulates related (loader.update fuel image slot)
      (other.update fuel image slot) := by
  refine .bind (hello_mirrored mirrors) fun info => ?_
  cases validate image (some info.slotSize) with
  | error error => exact .throw _
  | ok header =>
      cases slot with
      | some slot => exact updateSlot_mirrored mirrors _ _ _ _ _
      | none =>
          exact .bind (chooseTargetSlot_mirrored mirrors info) fun _slot =>
            updateSlot_mirrored mirrors _ _ _ _ _

end Mirrored

end Stm32Bootloader.Blflash
