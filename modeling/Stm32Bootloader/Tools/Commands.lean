/-
The commands flash and reset of tools/blflash.py.

Whatever it is given and whatever the device went through before, flash does
one of two things on a device whose flash works.  It installs the image,
leaves it on trial and, unless it was told not to, asks for a restart; or it
stops with an error that says what was wrong, and the device is as it was.
-/

import Stm32Bootloader.LossyUpdate
import Stm32Bootloader.ResetRequest
import Stm32Bootloader.Tools.Blsim

namespace Stm32Bootloader

open Interruptible Fallible Framing TransitionRun

namespace Blflash

section Commands

variable {σ : Type}

def Bootloader.reset (loader : Bootloader σ) : HostM σ Unit := do
  let _data ← loader.expectOk Blproto.cmdReset []
  pure ()

/-- `_cmd_flash` on the bytes of the image. -/
def cmdFlash (loader : Bootloader σ) (fuel : Nat) (image : List U8)
    (slot : Option Int) (noReset : Bool) : HostM σ Int := do
  let written ← loader.update fuel image slot
  if noReset then pure written
  else do
    loader.reset
    pure written

theorem cmdFlash_mirrored {τ : Type} {loader : Bootloader σ}
    {other : Bootloader τ} {related : σ → τ → Prop}
    (mirrors : loader.Mirrors other related) (fuel : Nat) (image : List U8)
    (slot : Option Int) (noReset : Bool) :
    Simulates related (cmdFlash loader fuel image slot noReset)
      (cmdFlash other fuel image slot noReset) := by
  refine .bind (update_mirrored mirrors fuel image slot) fun written => ?_
  refine .ite (.pure _) (.bind ?_ fun _ => .pure _)
  exact .bind (expectOk_mirrored mirrors _ _) fun _data => .pure _

end Commands

end Blflash

open Blflash

/-! ### How many requests an update takes -/

/-- No fault is to come, and so many requests may still be handled. -/
def Bench.Serves (count : Nat) (bench : Bench) : Prop :=
  bench.outcomes = [] ∧ count ≤ bench.requests

/-- On flash that works the program needs so many requests at most. -/
def Takes {α : Type} (count : Nat) (program : HostM Bench α) : Prop :=
  ∀ left, Ensures (Bench.Serves (left + count)) program
    (fun _ => Bench.Serves left)
    (fun reason bench => reason ≠ none ∧ bench.Serves left)

section Takes

variable {α β : Type} {count more : Nat} {program : HostM Bench α}

theorem Bench.Serves.fewer {bench : Bench} (serves : bench.Serves more)
    (less : count ≤ more) : bench.Serves count :=
  ⟨serves.1, Nat.le_trans less serves.2⟩

theorem Takes.pure (value : α) : Takes 0 (pure value : HostM Bench α) :=
  fun _left => Ensures.pure fun _ serves => serves

theorem Takes.throw (error : HostError) :
    Takes 0 (throw error : HostM Bench α) :=
  fun _left => Ensures.throw fun _ serves =>
    ⟨Option.some_ne_none error, serves⟩

theorem Takes.within (takes : Takes count program) (less : count ≤ more) :
    Takes more program := by
  intro left
  exact (takes left).weaken
    (fun _ serves => serves.fewer (Nat.add_le_add_left less left))
    (fun _ _ serves => serves) (fun _ _ serves => serves)

theorem Takes.bind {next : α → HostM Bench β}
    (first : Takes count program) (second : ∀ value, Takes more (next value)) :
    Takes (count + more) (program >>= next) := by
  intro left
  refine Ensures.bind ((first (left + more)).weaken ?_
    (fun _ _ serves => serves) ?_) fun value => second value left
  · intro bench serves
    exact serves.fewer (by omega)
  · rintro reason bench ⟨raised, serves⟩
    exact ⟨raised, serves.fewer (Nat.le_add_right left more)⟩

theorem Takes.bind_free {next : α → HostM Bench β}
    (first : Takes count program) (second : ∀ value, Takes 0 (next value)) :
    Takes count (program >>= next) :=
  .bind first second

theorem Takes.free_bind {next : α → HostM Bench β}
    (first : Takes 0 program) (second : ∀ value, Takes count (next value)) :
    Takes count (program >>= next) :=
  (Takes.bind first second).within (Nat.le_of_eq (Nat.zero_add count))

theorem Takes.ite {condition : Prop} [Decidable condition]
    {other : HostM Bench α} (whenTrue : Takes count program)
    (whenFalse : Takes count other) :
    Takes count (if condition then program else other) := by
  split
  · exact whenTrue
  · exact whenFalse

theorem slotPayload_takes (slot : Int) :
    Takes 0 (slotPayload slot : HostM Bench (List U8)) := by
  unfold slotPayload
  exact .ite (.pure _) (.throw _)

theorem modulo_takes (left right : Nat) :
    Takes 0 (modulo left right : HostM Bench Nat) := by
  unfold modulo
  exact .ite (.throw _) (.pure _)

variable {port : Port} {responseSize retries : Nat}
  (room : blMinResponseSize ≤ responseSize) (attempts : retries ≠ 0)

include room attempts

theorem exchange_takes (cmd : U8) (payload : List U8) :
    Takes 1 ((hostOf port responseSize retries).transact cmd payload) := by
  by_cases fits : payload.length ≤ Blproto.maxPayload
  swap
  · unfold Bootloader.transact
    rw [dif_neg fits]
    exact (Takes.throw _).within (Nat.zero_le 1)
  intro left
  refine Ensures.each ?_
  rintro bench ⟨faultless, enough⟩
  have powered : bench.device.Powered := by
    unfold Device.Powered Bench.device
    rw [faultless]
    exact fun _ impossible => by cases impossible
  obtain ⟨⟨session, reply⟩, device, ran, _still, status, data, short, same⟩ :=
    @blCoreHandleFrame_handles port bench.system.session
      (BlFrame.ofBytes cmd payload fits) responseSize _ powered
  dsimp only at same
  subst same
  have answered := @transact_answered port responseSize retries room bench
    cmd payload fits status data short session device ran
  refine answered.weaken (fun _ same => same) ?_ ?_
  · rintro _response _ ⟨_, _loud, rfl⟩
    refine ⟨?_, Nat.le_sub_of_add_le enough⟩
    change bench.outcomes.tail = []
    rw [faultless]
    rfl
  · rintro _reason _ ⟨_same, silent⟩
    rcases silent with never | cut
    · exact absurd never attempts
    · omega

theorem expectOk_takes (cmd : U8) (payload : List U8) :
    Takes 1 ((hostOf port responseSize retries).expectOk cmd payload) :=
  .bind_free (exchange_takes room attempts cmd payload) fun _response =>
    .ite (.throw _) (.pure _)

theorem expectOk_slot_takes (cmd : U8) (slot : Int) :
    Takes 1 (do
      let payload ← slotPayload slot
      let _data ← (hostOf port responseSize retries).expectOk cmd payload
      pure () : HostM Bench Unit) :=
  .free_bind (slotPayload_takes slot) fun payload =>
    .bind_free (expectOk_takes room attempts cmd payload) fun _data =>
      .pure ()

theorem write_takes (offset : Nat) (data : List U8) :
    Takes 1 ((hostOf port responseSize retries).write offset data) := by
  unfold Bootloader.write
  refine .ite (.bind_free (exchange_takes room attempts _ _)
    fun response => ?_) ((Takes.throw _).within (Nat.zero_le 1))
  exact .ite (.ite (.throw _) (.pure _)) (.ite (.pure _) (.throw _))

theorem verify_takes (slot : Int) :
    Takes 1 ((hostOf port responseSize retries).verify slot) :=
  .free_bind (slotPayload_takes slot) fun payload =>
    .bind_free (expectOk_takes room attempts _ payload) fun _data =>
      .ite (.throw _) (.pure _)

theorem slotStatus_takes (slot : Int) :
    Takes 1 ((hostOf port responseSize retries).slotStatus slot) :=
  .free_bind (slotPayload_takes slot) fun payload =>
    .bind_free (exchange_takes room attempts _ payload) fun _response =>
      .ite (.pure _) (.pure _)

theorem validSlots_takes (slots : List Nat) :
    Takes slots.length
      ((hostOf port responseSize retries).validSlots slots) := by
  induction slots with
  | nil => exact .pure _
  | cons slot later ih =>
      refine (Takes.bind (slotStatus_takes room attempts slot)
        fun status => Takes.bind_free ih fun valid => ?_).within
          (Nat.le_of_eq (Nat.add_comm 1 later.length))
      cases status with
      | ok info => exact .pure _
      | error code => exact .pure _

theorem chooseTargetSlot_takes (info : DeviceInfo) :
    Takes info.slotCount
      ((hostOf port responseSize retries).chooseTargetSlot info) := by
  unfold Bootloader.chooseTargetSlot
  refine .ite ((modulo_takes _ _).within (Nat.zero_le _)) ?_
  have asked := @validSlots_takes port responseSize retries room attempts
    (List.range info.slotCount)
  rw [List.length_range] at asked
  refine .bind_free asked fun valid => ?_
  split
  · exact .pure _
  · exact modulo_takes _ _
  · exact .pure _

theorem sendChunks_takes (entryOffset : Nat) (payload : List U8)
    (chunkSize fuel sent : Nat) :
    Takes fuel ((hostOf port responseSize retries).sendChunks entryOffset
      payload chunkSize fuel sent) := by
  induction fuel generalizing sent with
  | zero =>
      unfold Bootloader.sendChunks
      exact .ite (.throw _) (.pure _)
  | succ fuel ih =>
      unfold Bootloader.sendChunks
      refine .ite ?_ ((Takes.pure _).within (Nat.zero_le _))
      exact (Takes.bind (write_takes room attempts _ _)
        fun _ => ih _).within (Nat.le_of_eq (Nat.add_comm 1 fuel))

theorem install_takes (fuel : Nat) (info : DeviceInfo) (header : BlImgHdr)
    (image : List U8) (slot : Int) :
    Takes (fuel + (1 + (1 + 1))) ((hostOf port responseSize retries).install
      fuel info header image slot) := by
  have last : Takes 1 (do
      (hostOf port responseSize retries).setActive slot
      pure slot : HostM Bench Int) :=
    .bind_free (expectOk_slot_takes room attempts _ slot) fun _ => .pure slot
  unfold Bootloader.install
  refine .free_bind (modulo_takes _ _) fun remainder =>
    .ite ((Takes.throw _).within (Nat.zero_le _)) ?_
  exact .bind (sendChunks_takes room attempts _ _ _ fuel 0) fun _ =>
    .bind (write_takes room attempts _ _) fun _ =>
      .bind (verify_takes room attempts slot) fun _stored =>
        .ite ((Takes.throw _).within (Nat.zero_le _)) last

theorem updateSlot_takes (fuel : Nat) (info : DeviceInfo)
    (header : BlImgHdr) (image : List U8) (slot : Int) :
    Takes (fuel + 4) ((hostOf port responseSize retries).updateSlot fuel info
      header image slot) := by
  unfold Bootloader.updateSlot
  refine .ite ((Takes.throw _).within (Nat.zero_le _))
    (.ite ((Takes.throw _).within (Nat.zero_le _)) ?_)
  exact (Takes.bind (expectOk_slot_takes room attempts _ slot)
    fun _ => install_takes room attempts fuel info header image slot).within
      (by omega)

/-- HELLO, a question for each slot, the erase, at most `fuel` chunks and the
rest. -/
theorem update_takes {start : System} (fuel : Nat) (image : List U8)
    (slot : Option Int) (left : Nat) :
    Ensures (Bench.Ready (left + (fuel + 6) + 1) start)
      ((hostOf port responseSize retries).update fuel image slot)
      (fun _ => Bench.Serves left)
      (fun reason bench => reason ≠ none ∧ bench.Serves left) := by
  have updates : ∀ header (target : Int), Takes (fuel + 6)
      ((hostOf port responseSize retries).updateSlot fuel
        (deviceInfo port start.flash) header image target) :=
    fun header target => (updateSlot_takes room attempts fuel _ header image
      target).within (Nat.add_le_add_left (by decide) fuel)
  refine Ensures.bind_known ((hello_ready room attempts).weaken
    (fun _ ready => ready) (fun _ _ answered => answered)
    fun _ _ impossible => impossible.elim) ?_
  refine Ensures.weaken ((show Takes (fuel + 6) _ from ?_) left)
    (fun _ ready => ready.2) (fun _ _ serves => serves)
    (fun _ _ serves => serves)
  cases Blimage.validate image
      (some (deviceInfo port start.flash).slotSize) with
  | error error => exact (Takes.throw _).within (Nat.zero_le _)
  | ok header =>
      cases slot with
      | some target => exact updates header target
      | none =>
          have chosen := @chooseTargetSlot_takes port responseSize retries
            room attempts (deviceInfo port start.flash)
          exact (Takes.bind chosen fun target => updateSlot_takes room
            attempts fuel _ header image target).within
              (Nat.le_of_eq (Nat.add_comm 2 (fuel + 4)))

end Takes

/-! ### What makes flash stop -/

/-- Why `update` stops before it has changed anything, if it does. -/
def declines (flash : Flash) (image : List U8) (slot : Option Int) :
    Option HostError :=
  match Blimage.validate image (some (hostLayout.slot blSlotA).size.toNat),
      slot with
  | .error error, _ => some (.invalidImage error)
  | .ok _, none => none
  | .ok _, some chosen =>
      if chosen ≥ 2 then some (.noSuchSlot chosen)
      else if chosen = (metaReport hostLayout flash).1.toNat then
        some (.slotIsActive chosen)
      else if chosen < 0 then some (.notAByte chosen)
      else none

section Flash

variable {start : System} {image : List U8} {slot : Option Int}
  {responseSize retries : Nat}

theorem declines_none (taken : declines start.flash image slot = none) :
    ∃ header, Blimage.validate image
        (some (hostLayout.slot blSlotA).size.toNat) = .ok header ∧
      ∀ chosen, slot = some chosen →
        ∃ target, Eligible start.flash target ∧ chosen = target.toNat := by
  unfold declines at taken
  split at taken
  · cases taken
  · rename_i header accepted
    exact ⟨header, accepted, nofun⟩
  · rename_i header chosen accepted
    refine ⟨header, accepted, ?_⟩
    intro named same
    cases same
    split at taken
    · cases taken
    rename_i within
    split at taken
    · cases taken
    rename_i inactive
    split at taken
    · cases taken
    rename_i nonnegative
    have slots : chosen = (blSlotA.toNat : Int) ∨
        chosen = (blSlotB.toNat : Int) := by
      have first : (blSlotA.toNat : Int) = 0 := rfl
      have second : (blSlotB.toNat : Int) = 1 := rfl
      omega
    rcases slots with rfl | rfl
    · exact ⟨blSlotA, ⟨rfl, fun same => inactive (by rw [same])⟩, rfl⟩
    · exact ⟨blSlotB, ⟨rfl, fun same => inactive (by rw [same])⟩, rfl⟩

variable (room : blMinResponseSize ≤ responseSize) (attempts : retries ≠ 0)

include room attempts

theorem update_declined {error : HostError}
    (declined : declines start.flash image slot = some error)
    (fuel : Nat) :
    Ensures (Bench.Ready 1 start)
      ((hostOf hostPort responseSize retries).update fuel image slot)
      (fun _ _ => False)
      (fun reason bench => reason = some error ∧ bench.system = start) := by
  have slotSize : (deviceInfo hostPort start.flash).slotSize =
      (hostLayout.slot blSlotA).size.toNat := rfl
  have slots : (deviceInfo hostPort start.flash).slotCount = 2 := rfl
  have active : (deviceInfo hostPort start.flash).activeSlot =
      (metaReport hostLayout start.flash).1.toNat := rfl
  have greeted : Ensures (Bench.Ready (0 + 1) start)
      (hostOf hostPort responseSize retries).hello
      (fun info bench => info = deviceInfo hostPort start.flash ∧
        bench.Ready 0 start)
      (fun reason bench => reason = some error ∧ bench.system = start) :=
    (hello_ready room attempts).weaken (fun _ ready => ready)
      (fun _ _ answered => answered) fun _ _ impossible => impossible.elim
  unfold Bootloader.update
  refine Ensures.bind_known greeted ?_
  have stops : ∀ {α : Type} {raised : HostError}, raised = error →
      Ensures (Bench.Ready 0 start) (throw raised : HostM Bench α)
        (fun _ _ => False)
        (fun reason bench => reason = some error ∧ bench.system = start) :=
    fun same => Ensures.throw fun _ ready => ⟨congrArg some same, ready.1⟩
  rw [slotSize]
  unfold declines at declined
  cases checked : Blimage.validate image
      (some (hostLayout.slot blSlotA).size.toNat) with
  | error refused =>
      rw [checked] at declined
      exact stops (Option.some.inj declined)
  | ok header =>
      rw [checked] at declined
      cases slot with
      | none => cases declined
      | some chosen =>
          dsimp only at declined ⊢
          unfold Bootloader.updateSlot
          rw [slots, active]
          by_cases beyond : chosen ≥ 2
          · rw [if_pos beyond] at declined
            rw [if_pos (show chosen ≥ (2 : Nat) from beyond)]
            exact stops (Option.some.inj declined)
          rw [if_neg beyond] at declined
          rw [if_neg (show ¬ chosen ≥ (2 : Nat) from beyond)]
          by_cases isActive :
              chosen = (metaReport hostLayout start.flash).1.toNat
          · rw [if_pos isActive] at declined
            rw [if_pos isActive]
            exact stops (Option.some.inj declined)
          rw [if_neg isActive] at declined
          rw [if_neg isActive]
          by_cases negative : chosen < 0
          · rw [if_pos negative] at declined
            have noByte : ¬ (0 ≤ chosen ∧ chosen < 256) := by omega
            unfold Bootloader.eraseSlot slotPayload
            rw [if_neg noByte, throw_bind, throw_bind]
            exact stops (Option.some.inj declined)
          · rw [if_neg negative] at declined
            cases declined

theorem reset_ready (port : Port) (count : Nat) (system : System) :
    Ensures (Bench.Ready (count + 1) system)
      (hostOf port responseSize retries).reset
      (fun _ => Bench.Ready count
        { system with
          session := { system.session with resetRequested := true } })
      (fun _ _ => False) := by
  have empty : ([] : List U8).length ≤ Blproto.maxPayload := Nat.zero_le _
  have ran : blCoreHandleFrame port system.session
      (BlFrame.ofBytes Blproto.cmdReset [] empty) responseSize
        (system.device []) =
      .returned ({ system.session with resetRequested := true },
        respond Blproto.cmdReset .ok [] responseSize) (system.device []) :=
    rfl
  refine Ensures.bind_known
    (expectOk_ready room attempts empty (Nat.zero_le _) ran) ?_
  exact Ensures.pure fun _ ready => ready

omit room attempts in
theorem serve_resetRequested (port : Port) (noted : Bool)
    {request : BlFrame} (other : request.cmd ≠ blCmdReset) :
    (hostOf port responseSize retries).Stable
      (fun bench => bench.outcomes = [] ∧
        bench.system.session.resetRequested = noted) request := by
  rintro bench ⟨faultless, same⟩
  unfold hostOf Bench.serve
  dsimp only
  split
  · exact ⟨faultless, same⟩
  · have stepped := @request_resetRequested port request []
      (fun _ impossible => by cases impossible) bench.system responseSize
    have resets : ¬ request.Resets := fun resets => other resets.1
    rw [or_iff_right resets, ← Bool.eq_iff_iff, same] at stepped
    have head : bench.outcomes.headD [] = [] := by
      rw [faultless]
      rfl
    rw [head]
    refine ⟨?_, stepped⟩
    change bench.outcomes.tail = []
    rw [faultless]
    rfl

theorem cmdFlash_ready {header : BlImgHdr}
    (accepted : Blimage.validate image
      (some (hostLayout.slot blSlotA).size.toNat) = .ok header)
    (unexhausted : ∀ held, blMetaRead hostLayout start.flash = .ok held →
      held.seq ≠ 0xFFFFFFFF)
    (named : ∀ chosen, slot = some chosen →
      ∃ target, Eligible start.flash target ∧ chosen = target.toNat)
    {fuel : Nat} (loops : image.length ≤ fuel) (obeys : Obeys start)
    (tracks : Tracks hostPort start.session start.calls) (noReset : Bool) :
    Ensures (Bench.Ready (1 + (fuel + 6) + 1) start)
      (cmdFlash (hostOf hostPort responseSize retries) fuel image slot
        noReset)
      (fun installed bench => ∃ target, Eligible start.flash target ∧
        installed = target.toNat ∧
        (∀ chosen, slot = some chosen → chosen = target.toNat) ∧
        Installed start target header image bench.system ∧
        bench.system.session.resetRequested =
          (!noReset || start.session.resetRequested))
      (fun _ _ => False) := by
  have checked := Blimage.validate_ok accepted
  have behind := checked.behind
  have nonempty := checked.payload_positive
  have payload := checked.payload
  rw [List.length_drop] at payload
  have installs := @update_ready start image header slot responseSize retries
    fuel accepted unexhausted named room attempts (by omega) obeys tracks
  have unnoted := @update_keeps Bench
    (hostOf hostPort responseSize retries) _ (fun request ofUpdate =>
      @serve_resetRequested responseSize retries hostPort
        start.session.resetRequested request ofUpdate.notReset) fuel image slot
  have left := @update_takes hostPort responseSize retries room attempts
    start fuel image slot 1
  have updated := ((installs (fuel - header.imgSize.toNat)).and unnoted).and
    left
  refine Ensures.bind (updated.weaken (fun bench ready => ⟨⟨?_, ?_⟩, ready⟩)
    (fun _ _ done => done) fun _ _ stopped => stopped.1.1.elim)
    fun installed => Ensures.each ?_
  · exact ready.fewer (by omega)
  · obtain ⟨rfl, faultless, _enough⟩ := ready
    exact ⟨faultless, rfl⟩
  rintro bench ⟨⟨⟨target, eligible, rfl, same, done⟩, _faultless, noted⟩,
    serves⟩
  cases noReset with
  | true =>
      refine Ensures.pure ?_
      rintro _ rfl
      exact ⟨target, eligible, rfl, same, done.toInstalled, noted⟩
  | false =>
      have asked := @reset_ready responseSize retries room attempts hostPort 0
        bench.system
      refine Ensures.bind (asked.weaken ?_ (fun _ _ noted => noted)
        fun _ _ impossible => impossible) fun _ => Ensures.pure ?_
      · rintro _ rfl
        exact ⟨rfl, serves⟩
      · rintro after ⟨system, _faultless, _enough⟩
        rw [system]
        exact ⟨target, eligible, rfl, same,
          ⟨done.valid, done.image, done.erased, done.nominated, done.others,
            done.permitted, done.once⟩, rfl⟩

end Flash

namespace Blsim

/-- After any calls, `flash` over the bytes of the serial port either stops
with the error that `declines` names, the bootloader being as it was, or
returns, has installed the image and has asked for a restart unless it was
told not to. -/
theorem cmdFlash_decides (parser : BlFrameParser) (calls : List SimCall)
    (rx image : List U8) (slot : Option Int) (noReset : Bool)
    (turns : BlFrame → SimulatedDevice → Nat) (retries fuel writes : Nat)
    (waits : (run (simStep hostPort) (simInit parser) calls).gParser.state =
      .waitSof)
    (patient : ∀ request device, blMinResponseSize ≤ turns request device)
    (attempts : retries ≠ 0) (loops : image.length ≤ fuel)
    (service : fuel + 8 ≤ writes)
    (unexhausted : ∀ held, blMetaRead hostLayout
      (run (simStep hostPort) (simInit parser) calls).system.flash =
        .ok held → held.seq ≠ 0xFFFFFFFF) :
    let start := run (simStep hostPort) (simInit parser) calls
    let ran := (cmdFlash ((serialPort hostPort).loader turns retries) fuel
      image slot noReset).run ⟨start, rx, [], writes⟩
    (∀ error, declines start.system.flash image slot = some error →
      ∃ device, ran = .returned (.error error) device ∧
        device.lib.system = start.system) ∧
    (declines start.system.flash image slot = none →
      ∃ header target device,
        ran = .returned (.ok target.toNat) device ∧
        Blimage.validate image
          (some (hostLayout.slot blSlotA).size.toNat) = .ok header ∧
        Eligible start.system.flash target ∧
        (∀ chosen, slot = some chosen → chosen = target.toNat) ∧
        Installed start.system target header image device.lib.system ∧
        simMeta hostPort device.lib =
          .ok (target.setWidth 32, blBootTrial.setWidth 32, 0) ∧
        simResetRequested device.lib =
          (if noReset then simResetRequested start else 1)) := by
  intro start ran
  have room : blMinResponseSize ≤ responseCapacity := by decide
  have overBytes := (cmdFlash_mirrored
    (@loader_mirrors hostPort turns patient retries) fuel image slot
      noReset).alike ⟨start, rx, [], writes⟩ ⟨start.system, [], writes⟩
        ⟨waits, rfl, rfl, rfl⟩
  have ready : ∀ {count}, count ≤ writes →
      Bench.Ready count start.system ⟨start.system, [], writes⟩ :=
    fun enough => ⟨rfl, rfl, enough⟩
  constructor
  · intro error declined
    obtain ⟨bench, stopped, same⟩ := (update_declined room attempts declined
      fuel).raises (ready (by omega))
    have flashed : (cmdFlash (hostOf hostPort responseCapacity retries) fuel
        image slot noReset).run ⟨start.system, [], writes⟩ =
          .returned (.error error) bench := run_bind_error stopped
    rw [flashed] at overBytes
    obtain ⟨device, returned, corresponds⟩ := overBytes.of_returned
    exact ⟨device, returned, corresponds.system.trans same⟩
  · intro taken
    obtain ⟨header, accepted, named⟩ := declines_none taken
    obtain ⟨obeys, tracks⟩ := simRun_reaches parser calls
    obtain ⟨installed, bench, flashed, target, eligible, rfl, same, done,
        noted⟩ := (cmdFlash_ready room attempts accepted unexhausted named
      loops obeys tracks noReset).returns (ready (by omega))
    rw [flashed] at overBytes
    obtain ⟨device, returned, corresponds⟩ := overBytes.of_returned
    rw [← corresponds.system] at done noted
    refine ⟨header, target, device, returned, accepted, eligible, same, done,
      ?_, ?_⟩
    · obtain ⟨record, read, rfl, trial, unused⟩ := done.nominated
      unfold simMeta
      change blMetaRead hostPort.layout _ = _ at read
      rw [read]
      dsimp only
      rw [trial, unused]
      rfl
    · unfold simResetRequested
      rw [noted]
      cases noReset with
      | true => rfl
      | false => rfl

/-- The first image of a device fresh from the factory. -/
theorem cmdFlash_decides_factory :
    ∃ (target : U8) (device : SimulatedDevice),
      (cmdFlash ((serialPort hostPort).loader (fun _ _ => 29) 3)
          newImage.length newImage none false).run
          ⟨simInit .zeroed, [], [], newImage.length + 8⟩ =
        .returned (.ok target.toNat) device ∧
      simMeta hostPort device.lib =
        .ok (target.setWidth 32, blBootTrial.setWidth 32, 0) ∧
      simResetRequested device.lib = 1 := by
  obtain ⟨header, checked⟩ := newImage_accepted
  have accepted : Blimage.validate newImage
      (some (hostLayout.slot blSlotA).size.toNat) = .ok header := checked
  have taken : declines (simInit .zeroed).system.flash newImage none =
      none := by
    unfold declines
    rw [accepted]
  have decided := cmdFlash_decides .zeroed [] [] newImage none false
    (fun _ _ => 29) 3 newImage.length (newImage.length + 8) rfl
    (fun _ _ => by decide) (by decide) (Nat.le_refl _) (Nat.le_refl _)
    (fun held read => absurd read (factory_unread held))
  obtain ⟨_header, target, device, returned, _accepted, _eligible, _same,
    _installed, shown, requested⟩ := decided.2 taken
  exact ⟨target, device, returned, shown, requested⟩

end Blsim

end Stm32Bootloader
