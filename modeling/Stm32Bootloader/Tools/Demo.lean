/-
The flow of demo.py: an update over the bytes of the serial port, then power
cycles and boots.

Whatever the device went through before, what it shows from then on follows
from the image, the slot that it went to and what the other slot held.
-/

import Stm32Bootloader.PowerUp
import Stm32Bootloader.Tools.Blsim

namespace Stm32Bootloader.Blsim

open HostJump LittleEndian Memory TransitionRun

/-- Where an image starts in a slot, or zero if its vector table does not fit
that slot. -/
def imageEntry (slot : U8) (header : BlImgHdr) (image : List U8) : U32 :=
  let table := image.drop header.entryOffset.toNat
  if VectorTable (hostLayout.slot slot) (word32At table 0)
      (word32At table 4) then appBase hostLayout slot header
  else 0

theorem installed_entry {start after : System} {slot : U8}
    {header : BlImgHdr} {image : List U8} {slotSize : Option Nat}
    (accepted : Blimage.Accepted image slotSize header)
    (installed : Installed start slot header image after) :
    entryOf after.flash slot header = imageEntry slot header image := by
  have valid : ValidImage hostLayout after.flash slot header :=
    (blCoreValidateSlot_ok_iff hostPort).mp installed.valid
  have long : 8 ≤ header.imgSize.toNat := by
    have positive := accepted.payload_positive
    have aligned : header.imgSize.toNat % 8 = 0 := accepted.aligned
    omega
  have payload := accepted.payload
  have table : load after.flash (appBase hostLayout slot header).toNat 8 =
      (image.drop header.entryOffset.toNat).take 8 := by
    rw [List.length_drop] at payload
    apply List.ext_getElem
    · rw [load_length, List.length_take, List.length_drop]
      omega
    · intro index bound _bound'
      rw [load_length] at bound
      have fits := valid.imgFits
      have inside : header.entryOffset.toNat + index < image.length := by
        omega
      have byte := installed.image (header.entryOffset.toNat + index)
        (by omega) (Or.inr ⟨by omega, by omega⟩)
      rw [List.getD_eq_getElem?_getD, List.getElem?_eq_getElem inside,
        Option.getD_some] at byte
      simp only [load, List.getElem_map, List.getElem_range,
        List.getElem_take, List.getElem_drop, valid.base, Nat.add_assoc]
      exact byte
  have word : ∀ place, place + 4 ≤ 8 →
      word32At ((image.drop header.entryOffset.toNat).take 8) place =
        word32At (image.drop header.entryOffset.toNat) place := by
    intro place inside
    have byte : ∀ index, index < 8 →
        ((image.drop header.entryOffset.toNat).take 8).getD index 0 =
          (image.drop header.entryOffset.toNat).getD index 0 := by
      intro index within
      rw [List.getD_eq_getElem?_getD, List.getD_eq_getElem?_getD,
        List.getElem?_take_of_lt within]
    unfold word32At
    rw [byte _ (by omega), byte _ (by omega), byte _ (by omega),
      byte _ (by omega)]
  have starts : Startable after.flash slot header ↔
      VectorTable (hostLayout.slot slot)
        (word32At (image.drop header.entryOffset.toNat) 0)
        (word32At (image.drop header.entryOffset.toNat) 4) := by
    unfold Startable
    dsimp only
    rw [table, word 0 (by decide), word 4 (by decide)]
  exact if_congr starts rfl rfl

/-- Where boots land once an image that did not confirm itself has used up its
attempts. -/
def fallbackEntry (start : Flash) (slot : U8) (own : U32) : U32 :=
  match blCoreValidateSlot hostLayout start (otherSlot slot) with
  | .ok otherHdr => entryOf start (otherSlot slot) otherHdr
  | .error _ => own

theorem commitPlan_below {flash : Flash}
    (unused : ∀ held, blMetaRead hostLayout flash = .ok held →
      held.seq.toNat ≤ 2 ^ 32 - 7) :
    (commitPlan hostLayout flash).1.toNat ≤ 2 ^ 32 - 6 := by
  rw [commitPlan_eq]
  cases newest : PingPong.newest metaRank (metaCells hostLayout flash) with
  | none =>
      have first : (1 : U32).toNat = 1 := rfl
      dsimp only
      omega
  | some entry =>
      have below := unused entry.1
        (blMetaRead_ok_iff.mpr ⟨entry.2, newest⟩)
      dsimp only
      bv_omega

theorem installed_life {start : System} {sim : Simulator} {slot : U8}
    {header : BlImgHdr} {image : List U8} {slotSize : Option Nat}
    (accepted : Blimage.Accepted image slotSize header)
    (installed : InstalledNext start slot header image sim.system)
    (unused : ∀ held, blMetaRead hostLayout start.flash = .ok held →
      held.seq.toNat ≤ 2 ^ 32 - 7) :
    TrialLife sim 3 (imageEntry slot header image)
      (fallbackEntry start.flash slot (imageEntry slot header image))
      (¬ Validates hostLayout start.flash (otherSlot slot)) := by
  obtain ⟨record', read, rfl, trial, fresh⟩ := installed.nominated
  have room : record'.seq.toNat ≤ 2 ^ 32 - 6 := by
    obtain ⟨record, read', seq⟩ := installed.numbered
    cases read.symm.trans read'
    rw [seq]
    exact commitPlan_below unused
  have slotOk := (blMetaRead_valid read).1
  have otherOk := otherSlot_valid record'.activeSlot
  have bytes := installed.others _ otherOk (otherSlot_ne slotOk)
  have otherVerdict := @blCoreValidateSlot_congr hostPort _ _ _ bytes
  change blCoreValidateSlot hostLayout _ _ =
    blCoreValidateSlot hostLayout _ _ at otherVerdict
  have life := trial_life read trial room installed.valid
  have granted : 3 - record'.bootAttempts.toNat = 3 := by
    rw [fresh]
    rfl
  have fallback : rollbackEntry sim.system.flash record'.activeSlot header =
      fallbackEntry start.flash record'.activeSlot
        (imageEntry record'.activeSlot header image) := by
    unfold rollbackEntry fallbackEntry
    rw [otherVerdict]
    cases verdict : blCoreValidateSlot hostLayout start.flash
        (otherSlot record'.activeSlot) with
    | ok otherHdr => exact entryOf_congr verdict bytes
    | error result => exact installed_entry accepted installed.toInstalled
  have sole : Validates hostLayout sim.system.flash
      (otherSlot record'.activeSlot) =
        Validates hostLayout start.flash (otherSlot record'.activeSlot) := by
    unfold Validates
    rw [otherVerdict]
  rw [granted, installed_entry accepted installed.toInstalled, fallback, sole] at life
  exact life

/-- After any calls, an update over the bytes of the serial port decides what
the device shows from then on.  The next three boots land in the image; then
the device goes back to the other slot, if that slot held a valid image before
the update, and otherwise stays.  Once the image has confirmed itself while
it was running, every boot lands in it. -/
theorem update_life (parser : BlFrameParser) (calls : List SimCall)
    (rx image : List U8) (header : BlImgHdr) (slot : Option Int)
    (turns : BlFrame → SimulatedDevice → Nat) (retries fuel writes : Nat)
    (waits : (run (simStep hostPort) (simInit parser) calls).gParser.state =
      .waitSof)
    (patient : ∀ request device, blMinResponseSize ≤ turns request device)
    (attempts : retries ≠ 0) (loops : image.length ≤ fuel)
    (service : image.length ≤ writes)
    (accepted : Blimage.validate image
      (some (hostLayout.slot blSlotA).size.toNat) = .ok header)
    (unused : ∀ held, blMetaRead hostLayout
      (run (simStep hostPort) (simInit parser) calls).system.flash =
        .ok held → held.seq.toNat ≤ 2 ^ 32 - 7)
    (named : ∀ chosen, slot = some chosen → ∃ target, Eligible
      (run (simStep hostPort) (simInit parser) calls).system.flash target ∧
        chosen = target.toNat) :
    let start := run (simStep hostPort) (simInit parser) calls
    ∃ target device,
      (((serialPort hostPort).loader turns retries).update fuel image
          slot).run ⟨start, rx, [], writes⟩ =
        .returned (.ok target.toNat) device ∧
      Eligible start.system.flash target ∧
      (∀ chosen, slot = some chosen → chosen = target.toNat) ∧
      TrialLife device.lib 3 (imageEntry target header image)
        (fallbackEntry start.system.flash target
          (imageEntry target header image))
        (¬ Validates hostLayout start.system.flash (otherSlot target)) := by
  intro start
  obtain ⟨obeys, tracks⟩ := simRun_reaches parser calls
  have unexhausted : ∀ held, blMetaRead hostLayout start.system.flash =
      .ok held → held.seq ≠ 0xFFFFFFFF := by
    intro held read last
    have below := unused held read
    rw [last] at below
    exact absurd below (by decide)
  obtain ⟨target, device, returned, eligible, same, installed⟩ :=
    @update_overBytes_done start rx _ _ _ _ _ _ _ waits obeys tracks patient
      attempts loops service accepted unexhausted named
  exact ⟨target, device, returned, eligible, same,
    installed_life (Blimage.validate_ok accepted) installed unused⟩

def demoImage : List U8 :=
  Blimage.mkimage 0x00010000 [0x00, 0x10, 0x00, 0x20, 0x09, 0x92, 0x00, 0x08]

/-- Put into slot A of a device fresh from the factory, it is what every boot
lands in. -/
theorem update_life_factory :
    ∃ device,
      (((serialPort hostPort).loader (fun _ _ => 29) 3).update
          demoImage.length demoImage (some 0)).run
          ⟨simInit .zeroed, [], [], demoImage.length⟩ =
        .returned (.ok 0) device ∧
      ∀ count, (powerUps count device.lib).2 =
        List.replicate count 0x08009200 := by
  have accepted : Blimage.validate demoImage
      (some (hostLayout.slot blSlotA).size.toNat) =
        .ok (BlImgHdr.ofBytes (demoImage.take 40)) := by
    decide +kernel
  obtain ⟨target, device, returned, _eligible, same, life⟩ :=
    update_life .zeroed [] [] demoImage _ (some 0) (fun _ _ => 29) 3
      demoImage.length demoImage.length rfl (fun _ _ => by decide)
      (by decide) (Nat.le_refl _) (Nat.le_refl _) accepted
      (fun held read => absurd read (factory_unread held))
      (fun chosen asked => ⟨blSlotA, by decide +kernel, by
        cases asked
        rfl⟩)
  have zero := same 0 rfl
  obtain rfl : target = blSlotA := by
    apply BitVec.eq_of_toNat_eq
    exact_mod_cast zero.symm
  refine ⟨device, returned, fun count => ?_⟩
  have entry : imageEntry blSlotA
      (BlImgHdr.ofBytes (demoImage.take 40)) demoImage = 0x08009200 := by
    decide +kernel
  have fallback : fallbackEntry (simInit .zeroed).system.flash blSlotA
      0x08009200 = 0x08009200 := by
    decide +kernel
  have landings := life.trial count
  rw [entry] at landings
  change _ = (List.range count).map fun index =>
    if index < 3 then (0x08009200 : U32)
    else fallbackEntry (simInit .zeroed).system.flash blSlotA 0x08009200
      at landings
  rw [landings, List.eq_replicate_iff]
  refine ⟨by rw [List.length_map, List.length_range], fun address shown => ?_⟩
  obtain ⟨index, _inside, rfl⟩ := List.mem_map.mp shown
  rw [fallback]
  exact ite_self _

end Stm32Bootloader.Blsim
