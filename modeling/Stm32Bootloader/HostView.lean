/-
What the host learns of a device and the slot that it overwrites.

HELLO and VERIFY report the device as its port describes it and its flash
holds it.  Without a metadata record the host overwrites the lower version and
the device boots the higher one, but on a tie both settle on the first slot.
-/

import Stm32Bootloader.FaultlessLink

namespace Stm32Bootloader

open Interruptible Fallible Blflash

/-! ### Reports -/

/-- What HELLO says about the port and the metadata of the device. -/
structure Describes (port : Port) (flash : Flash) (info : DeviceInfo) :
    Prop where
  protoVersion : info.protoVersion = blProtoVersion.toNat
  hdrVersion : info.hdrVersion = blImgHdrVersion.toNat
  slotCount : info.slotCount = blSlotCount.toNat
  slotSize : info.slotSize = (port.layout.slot blSlotA).size.toNat
  writeGranularity : info.writeGranularity = port.writeGranularity.toNat
  eraseGranularity : info.eraseGranularity =
    (port.eraseGranularity (port.layout.slot blSlotA).base).toNat
  maxWrite : info.maxWrite = blMaxWriteData
  recorded : ∀ record, blMetaRead port.layout flash = .ok record →
    info.activeSlot = record.activeSlot.toNat ∧
      info.bootState = record.state.toNat ∧
      info.bootAttempts = record.bootAttempts.toNat
  unrecorded : blMetaRead port.layout flash = .error .errNoMetadata ↔
    info.activeSlot = 0xFF ∧ info.bootState = 0xFF ∧ info.bootAttempts = 0

theorem deviceInfo_describes (port : Port) (flash : Flash) :
    Describes port flash (deviceInfo port flash) := by
  constructor
  case recorded =>
    intro record read
    simp only [deviceInfo, metaReport, read, and_self]
  case unrecorded =>
    cases read : blMetaRead port.layout flash with
    | ok record =>
        -- A valid record names a slot that exists.
        have bound := (slotIsValid_iff _).mp (blMetaRead_valid read).1
        simp only [deviceInfo, metaReport, read]
        constructor
        · intro impossible
          cases impossible
        · rintro ⟨active, _state, _attempts⟩
          omega
    | error result =>
        simp only [deviceInfo, metaReport, read, blMetaRead_error read]
        exact iff_of_true trivial ⟨rfl, rfl, rfl⟩
  all_goals rfl

/-- What `slot_status` says about a slot. -/
structure Appraises (layout : BlLayout) (flash : Flash) (slot : U8)
    (status : Except U8 SlotInfo) : Prop where
  accepted : ∀ hdr, blCoreValidateSlot layout flash slot = .ok hdr →
    status = .ok ⟨hdr.imgSize.toNat, hdr.imgCrc32.toNat,
      hdr.fwVersion.toNat⟩
  refused : ∀ result, blCoreValidateSlot layout flash slot = .error result →
    status = .error result.code

theorem slotReport_appraises (layout : BlLayout) (flash : Flash)
    (slot : U8) : Appraises layout flash slot (slotReport layout flash slot) := by
  constructor
  · intro hdr verdict
    simp only [slotReport, verdict]
  · intro result verdict
    simp only [slotReport, verdict]

/-- The host reads what the device holds. -/
theorem host_reads_device (port : Port) (system : System)
    {responseSize retries requests : Nat}
    (room : blMinResponseSize ≤ responseSize) (attempts : retries ≠ 0)
    (inService : requests ≠ 0) :
    let loader := hostOf port responseSize retries
    let bench : Bench := ⟨system, [], requests⟩
    (∃ info after, loader.hello.run bench = .returned (.ok info) after ∧
      Describes port system.flash info ∧ after.system = system) ∧
    ∀ slot : U8, ∃ status after,
      (loader.slotStatus slot.toNat).run bench =
          .returned (.ok status) after ∧
        Appraises port.layout system.flash slot status ∧
        after.system = system := by
  intro loader bench
  have ready : bench.Ready (0 + 1) system :=
    ⟨rfl, rfl, Nat.pos_of_ne_zero inService⟩
  constructor
  · obtain ⟨info, after, ran, rfl, still⟩ :=
      (hello_ready room attempts).returns ready
    exact ⟨_, after, ran, deviceInfo_describes port system.flash, still.1⟩
  · intro slot
    obtain ⟨status, after, ran, rfl, still⟩ :=
      (slotStatus_ready room attempts slot).returns ready
    exact ⟨_, after, ran, slotReport_appraises port.layout system.flash slot,
      still.1⟩

theorem host_reads_device_fallback :
    (∃ info after,
      (hostOf hostPort blMinResponseSize defaultRetries).hello.run
          ⟨.initial fallbackFlash, [], 1⟩ = .returned (.ok info) after ∧
      Describes hostPort fallbackFlash info ∧
      after.system = .initial fallbackFlash) ∧
    ∀ slot : U8, ∃ status after,
      ((hostOf hostPort blMinResponseSize defaultRetries).slotStatus
          slot.toNat).run ⟨.initial fallbackFlash, [], 1⟩ =
        .returned (.ok status) after ∧
      Appraises hostPort.layout fallbackFlash slot status ∧
      after.system = .initial fallbackFlash :=
  host_reads_device hostPort (.initial fallbackFlash)
    (Nat.le_refl blMinResponseSize) (by decide) Nat.one_ne_zero

/-! ### The choice without a record -/

/-- Both slots hold images, of the same version. -/
def Tied (layout : BlLayout) (flash : Flash) : Prop :=
  ∃ hdrA hdrB, blCoreValidateSlot layout flash blSlotA = .ok hdrA ∧
    blCoreValidateSlot layout flash blSlotB = .ok hdrB ∧
    hdrA.fwVersion = hdrB.fwVersion

theorem Tied.versions {layout : BlLayout} {flash : Flash}
    {hdrA hdrB : BlImgHdr} (tied : Tied layout flash)
    (acceptedA : blCoreValidateSlot layout flash blSlotA = .ok hdrA)
    (acceptedB : blCoreValidateSlot layout flash blSlotB = .ok hdrB) :
    hdrA.fwVersion = hdrB.fwVersion := by
  obtain ⟨first, second, sameA, sameB, same⟩ := tied
  rw [acceptedA] at sameA
  rw [acceptedB] at sameB
  cases sameA
  cases sameB
  exact same

/-- What the host overwrites is not what the device selects, but on a tie. -/
theorem unnominatedTarget_selected {layout : BlLayout} {flash : Flash}
    (unrecorded : blMetaRead layout flash = .error .errNoMetadata)
    (present : ∃ slot, Validates layout flash slot) :
    ∃ selected, blCoreSelectSlot layout flash = .ok selected ∧
      (unnominatedTarget layout flash ≠ selected.1 ↔ ¬ Tied layout flash) := by
  have apart : blSlotA ≠ blSlotB := by decide
  simp only [blCoreSelectSlot, unrecorded, selectByVersion,
    unnominatedTarget, slotReport]
  cases acceptedA : blCoreValidateSlot layout flash blSlotA with
  | ok hdrA =>
      cases acceptedB : blCoreValidateSlot layout flash blSlotB with
      | ok hdrB =>
          have tie : Tied layout flash ↔ hdrA.fwVersion = hdrB.fwVersion :=
            ⟨fun tied => tied.versions acceptedA acceptedB,
              fun same => ⟨hdrA, hdrB, acceptedA, acceptedB, same⟩⟩
          dsimp only
          rw [tie]
          by_cases higher : hdrB.fwVersion > hdrA.fwVersion
          · have notLower : ¬ hdrB.fwVersion.toNat < hdrA.fwVersion.toNat := by
              bv_omega
            rw [if_pos higher, if_neg notLower]
            exact ⟨_, rfl, iff_of_true apart (by bv_omega)⟩
          · rw [if_neg higher]
            by_cases lower : hdrB.fwVersion.toNat < hdrA.fwVersion.toNat
            · rw [if_pos lower]
              exact ⟨_, rfl, iff_of_true apart.symm (by bv_omega)⟩
            · rw [if_neg lower]
              exact ⟨_, rfl, iff_of_false (fun differ => differ rfl)
                (not_not_intro (by bv_omega))⟩
      | error result =>
          refine ⟨_, rfl, iff_of_true apart.symm ?_⟩
          rintro ⟨_first, second, _sameA, sameB, _same⟩
          rw [acceptedB] at sameB
          cases sameB
  | error result =>
      have untied : ¬ Tied layout flash := by
        rintro ⟨first, _second, sameA, _sameB, _same⟩
        rw [acceptedA] at sameA
        cases sameA
      cases acceptedB : blCoreValidateSlot layout flash blSlotB with
      | ok hdrB => exact ⟨_, rfl, iff_of_true apart untied⟩
      | error result =>
          obtain ⟨slot, validates⟩ := present
          obtain ⟨hdr, accepted⟩ := validates
          rcases slotIsValid_cases (blCoreValidateSlot_valid accepted) with
            rfl | rfl
          · rw [acceptedA] at accepted
            cases accepted
          · rw [acceptedB] at accepted
            cases accepted

/-- `choose_target_slot(hello())`. -/
def helloAndChoose (loader : Bootloader Bench) : HostM Bench Nat := do
  let info ← loader.hello
  loader.chooseTargetSlot info

/-- The host overwrites a slot that the device would not boot. -/
def OverwritesIdle (port : Port) (system : System)
    (responseSize retries requests : Nat) : Prop :=
  ∃ chosen after selected,
    (helloAndChoose (hostOf port responseSize retries)).run
        ⟨system, [], requests⟩ = .returned (.ok chosen) after ∧
      blCoreSelectSlot port.layout system.flash = .ok selected ∧
      chosen ≠ selected.1.toNat

theorem helloAndChoose_unrecorded {port : Port} {system : System}
    {responseSize retries requests : Nat}
    (room : blMinResponseSize ≤ responseSize) (attempts : retries ≠ 0)
    (inService : 3 ≤ requests)
    (unrecorded : blMetaRead port.layout system.flash =
      .error .errNoMetadata) :
    ∃ after, (helloAndChoose (hostOf port responseSize retries)).run
        ⟨system, [], requests⟩ =
      .returned (.ok (unnominatedTarget port.layout system.flash).toNat)
        after := by
  have chosen := @chooseTargetSlot_unnominated port responseSize retries
    system.flash _ unrecorded (fun count => Bench.Ready count system) _
    (fun _ slot => slotStatus_ready room attempts slot) 0
  have both := Ensures.bind_known (hello_ready room attempts) chosen
  have ready : Bench.Ready (0 + 2 + 1) system ⟨system, [], requests⟩ :=
    ⟨rfl, rfl, inService⟩
  obtain ⟨_, after, ran, rfl, _still⟩ := both.returns ready
  exact ⟨after, ran⟩

/-- Without a record the host spares what the device boots, exactly when the
two slots do not hold images of the same version. -/
theorem chooseTargetSlot_idle_iff {port : Port} {system : System}
    (unrecorded : blMetaRead port.layout system.flash =
      .error .errNoMetadata)
    (present : ∃ slot, Validates port.layout system.flash slot)
    {responseSize retries requests : Nat}
    (room : blMinResponseSize ≤ responseSize) (attempts : retries ≠ 0)
    (inService : 3 ≤ requests) :
    OverwritesIdle port system responseSize retries requests ↔
      ¬ Tied port.layout system.flash := by
  obtain ⟨selected, select, differs⟩ :=
    unnominatedTarget_selected unrecorded present
  obtain ⟨after, ran⟩ :=
    helloAndChoose_unrecorded room attempts inService unrecorded
  rw [← differs]
  constructor
  · rintro ⟨chosen, ended, other, ran', select', differ⟩ same
    rw [ran] at ran'
    rw [select] at select'
    cases ran'
    cases select'
    exact differ (congrArg BitVec.toNat same)
  · intro differ
    exact ⟨_, after, selected, ran, select,
      fun same => differ (BitVec.eq_of_toNat_eq same)⟩

/-- A factory-programmed device with the same image in both slots. -/
def twinFlash : Flash :=
  let image := Blimage.mkimage 1 [0x10, 0x20, 0x30]
  installed hostLayout
    (installed hostLayout (fun _ => 0xFF) blSlotA image) blSlotB image

theorem twinFlash_unrecorded :
    blMetaRead hostPort.layout twinFlash = .error .errNoMetadata := by
  decide +kernel

theorem twinFlash_validates : Validates hostPort.layout twinFlash blSlotA := by
  decide +kernel

theorem chooseTargetSlot_idle_twin :
    OverwritesIdle hostPort (.initial twinFlash) blMinResponseSize
        defaultRetries 3 ↔
      ¬ Tied hostPort.layout twinFlash :=
  @chooseTargetSlot_idle_iff hostPort (.initial twinFlash)
    twinFlash_unrecorded ⟨blSlotA, twinFlash_validates⟩ blMinResponseSize
    defaultRetries 3 (Nat.le_refl blMinResponseSize) (by decide)
    (Nat.le_refl 3)

/-- The host would overwrite the slot that boots. -/
theorem twinFlash_overwritten :
    blMetaRead hostPort.layout twinFlash = .error .errNoMetadata ∧
      (∃ slot, Validates hostPort.layout twinFlash slot) ∧
      ¬ OverwritesIdle hostPort (.initial twinFlash) blMinResponseSize
        defaultRetries 3 := by
  refine ⟨twinFlash_unrecorded, ⟨blSlotA, twinFlash_validates⟩, ?_⟩
  rintro ⟨chosen, ended, selected, ran, select, differ⟩
  obtain ⟨after, first⟩ := @helloAndChoose_unrecorded hostPort
    (.initial twinFlash) _ defaultRetries 3 (Nat.le_refl blMinResponseSize)
    (by decide) (Nat.le_refl 3) twinFlash_unrecorded
  have flashEq : (System.initial twinFlash).flash = twinFlash := rfl
  rw [flashEq] at first select
  have chosenEq := Except.ok.inj
    (Outcome.returned.inj (first.symm.trans ran)).1
  have target : unnominatedTarget hostPort.layout twinFlash = blSlotA := by
    decide +kernel
  have boots : (blCoreSelectSlot hostPort.layout twinFlash).map Prod.fst =
      .ok blSlotA := by
    decide +kernel
  have named : selected.1 = blSlotA := by
    rw [select] at boots
    exact Except.ok.inj boots
  rw [← chosenEq, target, named] at differ
  exact differ rfl

end Stm32Bootloader
