/-
Updates that are cut off on a faultless link.

Every request of an update but its one ERASE_SLOT leaves all images alone, and
that request names the slot the host has chosen.  Until the header is written
the device is left with the other slot, and whether that one validates is not
what the host has asked.
-/

import Stm32Bootloader.Confirm
import Stm32Bootloader.Containment
import Stm32Bootloader.HostLink

namespace Stm32Bootloader

open Interruptible Fallible Blflash

def Bootable (layout : BlLayout) (flash : Flash) : Prop :=
  ∃ selected, blCoreSelectSlot layout flash = .ok selected

/-- However long an update runs, and however it ends, the device can boot. -/
def KeepsBootable (port : Port) (flash : Flash) (image : List U8)
    (slot : Option Int) : Prop :=
  ∀ responseSize retries fuel outcomes requests,
    blMinResponseSize ≤ responseSize →
    Bootable port.layout
      (((hostOf port responseSize retries).update fuel image slot).run
        (Bench.initial flash outcomes requests)).state.system.flash

/-- The host refuses before it erases, or an image stays out of its way. -/
def SparesImage (port : Port) (flash : Flash) (image : List U8)
    (slot : Option Int) : Prop :=
  (∀ header, Blimage.validate image
      (some (port.layout.slot blSlotA).size.toNat) ≠ .ok header) ∨
  match slot with
  | none => ∀ record, blMetaRead port.layout flash = .ok record →
      Validates port.layout flash record.activeSlot
  | some slot => slot = (metaReport port.layout flash).1.toNat ∨
      ∃ spare, Validates port.layout flash spare ∧
        (spare.toNat : Int) ≠ slot

/-! ### The spared slot -/

/-- The slot is closed and holds the bytes it held. -/
def Bench.Spares (port : Port) (flash : Flash) (slot : U8)
    (bench : Bench) : Prop :=
  slotIsValid bench.system.session.targetSlot = true ∧
  ¬ bench.system.session.Opened slot ∧
  slotBytes port.layout bench.system.flash slot =
    slotBytes port.layout flash slot

theorem Bench.initial_spares (port : Port) (flash : Flash)
    (outcomes : List (List FlashOutcome)) (requests : Nat) (slot : U8) :
    (Bench.initial flash outcomes requests).Spares port flash slot :=
  ⟨BlSession.zeroed_targetOk, zeroed_unopened slot, rfl⟩

theorem serve_spares {port : Port} {flash : Flash} {slot : U8}
    (slotOk : slotIsValid slot = true) {request : BlFrame}
    (kept : ¬ request.Erases slot) (responseSize : Nat) (bench : Bench)
    (spares : bench.Spares port flash slot) :
    (Bench.serve port responseSize request bench).state.Spares port flash
      slot := by
  obtain ⟨targetOk, closed, same⟩ := spares
  unfold Bench.serve
  split
  · exact ⟨targetOk, closed, same⟩
  · let step : Step :=
      ⟨.request request responseSize, bench.outcomes.headD []⟩
    obtain ⟨new, calls, _log, _flashEq⟩ :=
      systemStep_calls port bench.system step
    exact ⟨systemStep_targetOk port bench.system step targetOk,
      calls.unopened closed kept,
      ((systemStep_contained port bench.system step targetOk).slotBytes
        targetOk slotOk closed kept).trans same⟩

theorem Bench.Spares.bootable {port : Port} {flash : Flash} {slot : U8}
    {bench : Bench} (spares : bench.Spares port flash slot)
    (validates : Validates port.layout flash slot) :
    Bootable port.layout bench.system.flash := by
  obtain ⟨hdr, accepted⟩ := validates
  refine blCoreSelectSlot_ok_iff.mpr ⟨slot, hdr, ?_⟩
  rw [blCoreValidateSlot_congr port spares.2.2]
  exact accepted

theorem updateSlot_spares (port : Port) (flash : Flash) {spare : U8}
    (spareOk : slotIsValid spare = true) {slot : Int}
    (other : (spare.toNat : Int) ≠ slot) (responseSize retries fuel : Nat)
    (info : DeviceInfo) (header : BlImgHdr) (image : List U8) :
    Keeps (Bench.Spares port flash spare)
      ((hostOf port responseSize retries).updateSlot fuel info header image
        slot) := by
  have passive : (hostOf port responseSize retries).Passive
      (Bench.Spares port flash spare) := by
    intro request notErase bench spares
    exact serve_spares spareOk (fun erases => notErase erases.1)
      responseSize bench spares
  unfold Bootloader.updateSlot
  split
  · exact Keeps.throw _
  rename_i exists_
  split
  · exact Keeps.throw _
  refine Keeps.bind (Bootloader.eraseSlot_keeps ?_) fun _ =>
    passive.install fuel info header image slot
  intro fits inByte bench spares
  refine serve_spares spareOk (fun erases => other ?_) responseSize bench
    spares
  have named : BitVec.ofInt 8 slot = spare :=
    (BlFrame.ofBytes_byte _ _ fits).symm.trans erases.2.2
  rw [← named, BitVec.toNat_ofInt]
  omega

/-! ### The choice of a slot -/

def validReports (layout : BlLayout) (flash : Flash) :
    List U8 → List (Nat × SlotInfo)
  | [] => []
  | slot :: later =>
      match slotReport layout flash slot with
      | .ok info => (slot.toNat, info) :: validReports layout flash later
      | .error _ => validReports layout flash later

/-- The states between the queries are indexed by how many are to come. -/
theorem validSlots_contract {port : Port} {responseSize retries : Nat}
    {flash : Flash} {before : Nat → Bench → Prop}
    {stopped : Option HostError → Bench → Prop}
    (answered : ∀ count slot,
      Ensures (before (count + 1))
        ((hostOf port responseSize retries).slotStatus slot.toNat)
        (fun status bench => status = slotReport port.layout flash slot ∧
          before count bench) stopped)
    (count : Nat) (slots : List U8) :
    Ensures (before (count + slots.length))
      ((hostOf port responseSize retries).validSlots
        (slots.map BitVec.toNat))
      (fun valid bench => valid = validReports port.layout flash slots ∧
        before count bench) stopped := by
  induction slots with
  | nil =>
      rw [List.map_nil, Bootloader.validSlots]
      exact Ensures.pure fun bench holds => ⟨rfl, holds⟩
  | cons slot later ih =>
      have first := answered (count + later.length) slot
      rw [List.map_cons, Bootloader.validSlots]
      refine Ensures.bind_known first (Ensures.bind_known ih ?_)
      rw [validReports]
      cases slotReport port.layout flash slot with
      | ok info => exact Ensures.pure fun bench holds => ⟨rfl, holds⟩
      | error status => exact Ensures.pure fun bench holds => ⟨rfl, holds⟩

theorem slotStatus_unchanged {port : Port} {responseSize retries : Nat}
    (room : blMinResponseSize ≤ responseSize) (system : System) (slot : U8) :
    Ensures (fun bench : Bench => bench.system = system)
      ((hostOf port responseSize retries).slotStatus slot.toNat)
      (fun status bench =>
        status = slotReport port.layout system.flash slot ∧
        bench.system = system)
      (fun _ bench => bench.system = system) := by
  refine Ensures.each fun bench same => ?_
  subst same
  refine (slotStatus_answered room bench slot).weaken
    (fun _ holds => holds) ?_ ?_
  · rintro status after ⟨rfl, _loud, rfl⟩
    exact ⟨rfl, rfl⟩
  · rintro reason after ⟨rfl, _silent⟩
    rfl

theorem slotReport_ok_iff {layout : BlLayout} {flash : Flash} {slot : U8} :
    (∃ info, slotReport layout flash slot = .ok info) ↔
      Validates layout flash slot := by
  unfold slotReport Validates
  cases blCoreValidateSlot layout flash slot with
  | ok hdr => exact ⟨fun _ => ⟨hdr, rfl⟩, fun _ => ⟨_, rfl⟩⟩
  | error result => simp

theorem chooseTargetSlot_nominated {port : Port} {flash : Flash}
    {record : BlMeta} (read : blMetaRead port.layout flash = .ok record)
    (loader : Bootloader Bench) :
    loader.chooseTargetSlot (deviceInfo port flash) =
      pure (otherSlot record.activeSlot).toNat := by
  have active : (deviceInfo port flash).activeSlot =
      record.activeSlot.toNat := by
    simp only [deviceInfo, metaReport, read]
  have count : (deviceInfo port flash).slotCount = 2 := rfl
  unfold Bootloader.chooseTargetSlot
  rw [active, count]
  rcases slotIsValid_cases (blMetaRead_valid read).1 with slotEq | slotEq <;>
    rw [slotEq] <;> rfl

/-- The slot that the host overwrites when no record nominates one. -/
def unnominatedTarget (layout : BlLayout) (flash : Flash) : U8 :=
  match slotReport layout flash blSlotA, slotReport layout flash blSlotB with
  | .ok infoA, .ok infoB =>
      if infoB.fwVersion < infoA.fwVersion then blSlotB else blSlotA
  | .ok _, .error _ => blSlotB
  | .error _, _ => blSlotA

theorem chooseTargetSlot_unnominated {port : Port}
    {responseSize retries : Nat} {flash : Flash} {result : BlResult}
    (read : blMetaRead port.layout flash = .error result)
    {before : Nat → Bench → Prop}
    {stopped : Option HostError → Bench → Prop}
    (answered : ∀ count slot,
      Ensures (before (count + 1))
        ((hostOf port responseSize retries).slotStatus slot.toNat)
        (fun status bench => status = slotReport port.layout flash slot ∧
          before count bench) stopped)
    (count : Nat) :
    Ensures (before (count + 2))
      ((hostOf port responseSize retries).chooseTargetSlot
        (deviceInfo port flash))
      (fun chosen bench =>
        chosen = (unnominatedTarget port.layout flash).toNat ∧
        before count bench)
      stopped := by
  have active : (deviceInfo port flash).activeSlot = Blproto.slotNone := by
    simp only [deviceInfo, metaReport, read]
    rfl
  have slotCount : (deviceInfo port flash).slotCount = 2 := rfl
  have slots : List.range 2 = [blSlotA, blSlotB].map BitVec.toNat := rfl
  have asked := validSlots_contract answered count [blSlotA, blSlotB]
  unfold Bootloader.chooseTargetSlot
  rw [active, if_neg (not_not_intro rfl), slotCount, slots]
  refine Ensures.bind_known asked ?_
  simp only [validReports, unnominatedTarget]
  cases slotReport port.layout flash blSlotA with
  | ok infoA =>
      cases slotReport port.layout flash blSlotB with
      | ok infoB =>
          refine Ensures.pure fun bench holds => ⟨?_, holds⟩
          simp only [lowestVersion, List.foldl_cons, List.foldl_nil]
          split <;> rfl
      | error status => exact Ensures.pure fun bench holds => ⟨rfl, holds⟩
  | error status =>
      cases slotReport port.layout flash blSlotB with
      | ok infoB => exact Ensures.pure fun bench holds => ⟨rfl, holds⟩
      | error status => exact Ensures.pure fun bench holds => ⟨rfl, holds⟩

theorem unnominatedTarget_valid (layout : BlLayout) (flash : Flash) :
    slotIsValid (unnominatedTarget layout flash) = true := by
  unfold unnominatedTarget
  split
  · split <;> rfl
  · rfl
  · rfl

/-- While some slot validates, one that does is not overwritten. -/
theorem unnominatedTarget_spares {layout : BlLayout} {flash : Flash}
    (bootable : Bootable layout flash) :
    ∃ spare, Validates layout flash spare ∧
      spare ≠ unnominatedTarget layout flash := by
  have apart : blSlotA ≠ blSlotB := by decide
  obtain ⟨spare, validates⟩ := blCoreSelectSlot_ok_iff.mp bootable
  unfold unnominatedTarget
  cases reportA : slotReport layout flash blSlotA with
  | ok infoA =>
      have validA := slotReport_ok_iff.mp ⟨infoA, reportA⟩
      cases reportB : slotReport layout flash blSlotB with
      | ok infoB =>
          have validB := slotReport_ok_iff.mp ⟨infoB, reportB⟩
          dsimp only
          split
          · exact ⟨blSlotA, validA, apart⟩
          · exact ⟨blSlotB, validB, apart.symm⟩
      | error status => exact ⟨blSlotA, validA, apart⟩
  | error status =>
      rcases slotIsValid_cases validates.valid with rfl | rfl
      · obtain ⟨info, report⟩ := slotReport_ok_iff.mpr validates
        rw [reportA] at report
        cases report
      · exact ⟨blSlotB, validates, apart.symm⟩

/-! ### Updates that spare an image -/

theorem updateSlot_bootable {port : Port} {flash : Flash} {spare : U8}
    (validates : Validates port.layout flash spare) {slot : Int}
    (other : (spare.toNat : Int) ≠ slot) (responseSize retries fuel : Nat)
    (info : DeviceInfo) (header : BlImgHdr) (image : List U8) :
    Ensures (fun bench : Bench => bench.system = .initial flash)
      ((hostOf port responseSize retries).updateSlot fuel info header image
        slot)
      (fun _ bench => Bootable port.layout bench.system.flash)
      (fun _ bench => Bootable port.layout bench.system.flash) := by
  have kept := updateSlot_spares port flash validates.valid other
    responseSize retries fuel info header image
  refine kept.weaken ?_ (fun _ _ spares => spares.bootable validates)
    (fun _ _ spares => spares.bootable validates)
  rintro ⟨system, outcomes, requests⟩ rfl
  exact Bench.initial_spares port flash outcomes requests spare

theorem SparesImage.keepsBootable {port : Port} {flash : Flash}
    (bootable : Bootable port.layout flash) {image : List U8}
    {slot : Option Int} (spares : SparesImage port flash image slot) :
    KeepsBootable port flash image slot := by
  intro responseSize retries fuel outcomes requests room
  have still : ∀ bench : Bench, bench.system = .initial flash →
      Bootable port.layout bench.system.flash := by
    intro bench same
    rw [same]
    exact bootable
  have hello : Ensures (fun bench : Bench => bench.system = .initial flash)
      (hostOf port responseSize retries).hello
      (fun info bench => info = deviceInfo port flash ∧
        bench.system = .initial flash)
      (fun _ bench => Bootable port.layout bench.system.flash) := by
    refine Ensures.each fun bench same => ?_
    refine (hello_answered room bench).weaken (fun _ holds => holds) ?_ ?_
    · rintro info after ⟨rfl, _loud, rfl⟩
      rw [same]
      exact ⟨rfl, rfl⟩
    · rintro reason after ⟨rfl, _silent⟩
      exact still after same
  have contract : Ensures (fun bench : Bench => bench.system = .initial flash)
      ((hostOf port responseSize retries).update fuel image slot)
      (fun _ bench => Bootable port.layout bench.system.flash)
      (fun _ bench => Bootable port.layout bench.system.flash) := by
    refine Ensures.bind_known hello ?_
    have size : (deviceInfo port flash).slotSize =
        (port.layout.slot blSlotA).size.toNat := rfl
    rw [size]
    cases checked : Blimage.validate image
        (some (port.layout.slot blSlotA).size.toNat) with
    | error error => exact Ensures.throw still
    | ok header =>
        have kept := spares.resolve_left (fun refused => refused header checked)
        cases slot with
        | some slot =>
            rcases kept with active | ⟨spare, validates, other⟩
            · have named : slot = (deviceInfo port flash).activeSlot := active
              dsimp only
              unfold Bootloader.updateSlot
              rw [if_pos named]
              split
              · exact Ensures.throw still
              · exact Ensures.throw still
            · exact updateSlot_bootable validates other responseSize retries
                fuel _ header image
        | none =>
            cases read : blMetaRead port.layout flash with
            | ok record =>
                have apart := otherSlot_ne (blMetaRead_valid read).1
                dsimp only
                rw [chooseTargetSlot_nominated read, Fallible.pure_bind]
                exact updateSlot_bootable (kept record read)
                  (fun same => apart (BitVec.eq_of_toNat_eq
                    (Int.ofNat.inj same).symm))
                  responseSize retries fuel _ header image
            | error result =>
                obtain ⟨spare, validates, other⟩ :=
                  unnominatedTarget_spares bootable
                have chosen := @chooseTargetSlot_unnominated port responseSize
                  retries flash _ read
                  (fun _ bench => bench.system = .initial flash) _
                  (fun _ slot => slotStatus_unchanged room (.initial flash)
                    slot) 0
                refine Ensures.bind_known (chosen.weaken (fun _ same => same)
                  (fun _ _ holds => holds) (fun _ bench same =>
                    still bench same)) ?_
                exact updateSlot_bootable validates (fun same =>
                  other (BitVec.eq_of_toNat_eq (Int.ofNat.inj same)))
                  responseSize retries fuel _ header image
  exact contract.state rfl

/-! ### Updates that are cut after the erase -/

def erasedFlash (port : Port) (flash : Flash) (slot : U8) : Flash :=
  (eraseCall port slot .success).apply port flash

theorem erasedFlash_bootable {port : Port} {flash : Flash} {slot : U8}
    (slotOk : slotIsValid slot = true)
    (bootable : Bootable port.layout (erasedFlash port flash slot)) :
    ∃ spare, Validates port.layout flash spare ∧ spare ≠ slot := by
  obtain ⟨spare, hdr, accepted⟩ := blCoreSelectSlot_ok_iff.mp bootable
  have different : spare ≠ slot := by
    rintro rfl
    have room : 512 + 8 ≤ (port.layout.slot spare).size.toNat :=
      port.slotHoldsImage spare slotOk
    have whole : erasedFlash port flash spare = Memory.fill flash
        (port.layout.slot spare).base.toNat
        (port.layout.slot spare).size.toNat 0xFF := rfl
    rw [whole] at accepted
    exact blCoreValidateSlot_erased (Memory.load_fill flash _ _ 0xFF _ 40
      (Nat.le_refl _) (by omega)) hdr accepted
  refine ⟨spare, ⟨hdr, ?_⟩, different⟩
  have spareOk := blCoreValidateSlot_valid accepted
  have kept : slotBytes port.layout (erasedFlash port flash slot) spare =
      slotBytes port.layout flash spare :=
    (apply_erase_agreesOutside port flash _ _ .success).load
      (port.slots_apart slotOk spareOk different)
  rw [← blCoreValidateSlot_congr port kept]
  exact accepted

theorem updateSlot_cut (port : Port) (flash : Flash) {slot : U8}
    (slotOk : slotIsValid slot = true)
    (inactive : slot.toNat ≠ (metaReport port.layout flash).1.toNat)
    (fuel : Nat) (header : BlImgHdr) (image : List U8) :
    Ensures (fun bench => bench = ⟨.initial flash, [], 1⟩)
      ((hostOf port blMinResponseSize defaultRetries).updateSlot fuel
        (deviceInfo port flash) header image slot.toNat)
      (fun _ bench => bench.system.flash = erasedFlash port flash slot)
      (fun _ bench => bench.system.flash = erasedFlash port flash slot) := by
  have passive : (hostOf port blMinResponseSize defaultRetries).Passive
      (fun bench => bench.requests = 0 ∧
        bench.system.flash = erasedFlash port flash slot) := by
    intro request _notErase bench cut
    simp only [hostOf, Bench.serve, if_pos cut.1]
    exact cut
  have byteFits := byte_fits slot
  have ran : blCoreHandleFrame port BlSession.zeroed
      (BlFrame.ofBytes Blproto.cmdEraseSlot [slot] byteFits)
      blMinResponseSize (Bench.mk (.initial flash) [] 1).device =
      .returned (BlSession.zeroed.eraseSlot slot,
        respond Blproto.cmdEraseSlot .ok [] blMinResponseSize)
        ⟨erasedFlash port flash slot, [], [eraseCall port slot .success]⟩ := by
    have erases : (BlFrame.ofBytes Blproto.cmdEraseSlot [slot]
        byteFits).Erases slot := eraseRequest_erases slot
    rw [blCoreHandleFrame_erases erases slotOk]
    rfl
  have inRange : ¬ (slot.toNat : Int) ≥
      (deviceInfo port flash).slotCount := by
    have count : (deviceInfo port flash).slotCount = 2 := rfl
    have bound : slot.toNat < 2 := (slotIsValid_iff slot).mp slotOk
    omega
  have notActive : ¬ (slot.toNat : Int) =
      (deviceInfo port flash).activeSlot :=
    fun same => inactive (Int.ofNat.inj same)
  have erase : Ensures (fun bench => bench = ⟨.initial flash, [], 1⟩)
      ((hostOf port blMinResponseSize defaultRetries).eraseSlot slot.toNat)
      (fun _ bench => bench.requests = 0 ∧
        bench.system.flash = erasedFlash port flash slot)
      (fun _ bench =>
        bench.system.flash = erasedFlash port flash slot) := by
    unfold Bootloader.eraseSlot
    rw [slotPayload_byte, Fallible.pure_bind]
    have answered := @expectOk_answered port _ defaultRetries
      (Nat.le_refl blMinResponseSize) ⟨.initial flash, [], 1⟩
      Blproto.cmdEraseSlot [slot] byteFits [] (Nat.zero_le _) _ _ ran
    refine Ensures.bind_known (answered.weaken (fun _ same => same)
      (fun _ _ holds => holds) ?_) (Ensures.pure ?_)
    · rintro reason bench ⟨_same, none | cut⟩
      · exact absurd none (by decide)
      · exact absurd cut Nat.one_ne_zero
    · rintro bench ⟨_loud, rfl⟩
      exact ⟨rfl, rfl⟩
  unfold Bootloader.updateSlot
  rw [if_neg inRange, if_neg notActive]
  refine Ensures.bind erase fun _ => ?_
  exact (passive.install fuel _ header image slot.toNat).weaken
    (fun _ cut => cut) (fun _ _ cut => cut.2) (fun _ _ cut => cut.2)

/-- The slot that the host erases, named or chosen from the metadata. -/
def HostTarget (port : Port) (flash : Flash) (target : U8) :
    Option Int → Prop
  | some slot => slot = target.toNat
  | none => ∃ record, blMetaRead port.layout flash = .ok record ∧
      target = otherSlot record.activeSlot

theorem update_cut {port : Port} {flash : Flash} {image : List U8}
    {header : BlImgHdr} (checked : Blimage.validate image
      (some (port.layout.slot blSlotA).size.toNat) = .ok header)
    {target : U8} (targetOk : slotIsValid target = true)
    (inactive : target.toNat ≠ (metaReport port.layout flash).1.toNat)
    {slot : Option Int} (chosen : HostTarget port flash target slot)
    (fuel : Nat) :
    Ensures (fun bench => bench = Bench.initial flash [] 2)
      ((hostOf port blMinResponseSize defaultRetries).update fuel image slot)
      (fun _ bench => bench.system.flash = erasedFlash port flash target)
      (fun _ bench =>
        bench.system.flash = erasedFlash port flash target) := by
  have hello := @hello_answered port _ defaultRetries
    (Nat.le_refl blMinResponseSize) (Bench.initial flash [] 2)
  have size : (deviceInfo port flash).slotSize =
      (port.layout.slot blSlotA).size.toNat := rfl
  have flashEq : (Bench.initial flash [] 2).system.flash = flash := rfl
  rw [flashEq] at hello
  refine Ensures.bind_known (hello.weaken (fun _ same => same)
    (fun _ _ holds => holds) ?_) ?_
  · rintro reason bench ⟨_same, none | cut⟩
    · exact absurd none (by decide)
    · exact absurd cut (Nat.succ_ne_zero 1)
  rw [size, checked]
  have rest := updateSlot_cut port flash targetOk inactive fuel header image
  cases slot with
  | some slot =>
      cases chosen
      exact rest.weaken (fun _ holds => holds.2) (fun _ _ holds => holds)
        (fun _ _ holds => holds)
  | none =>
      obtain ⟨record, read, rfl⟩ := chosen
      dsimp only
      rw [chooseTargetSlot_nominated read, Fallible.pure_bind]
      exact rest.weaken (fun _ holds => holds.2) (fun _ _ holds => holds)
        (fun _ _ holds => holds)

theorem KeepsBootable.spares {port : Port} {flash : Flash}
    (bootable : Bootable port.layout flash) {image : List U8}
    {slot : Option Int} (keeps : KeepsBootable port flash image slot) :
    SparesImage port flash image slot := by
  cases checked : Blimage.validate image
      (some (port.layout.slot blSlotA).size.toNat) with
  | error error =>
      left
      intro header accepted
      rw [checked] at accepted
      cases accepted
  | ok header =>
      have other : ∀ target, slotIsValid target = true →
          target.toNat ≠ (metaReport port.layout flash).1.toNat →
          HostTarget port flash target slot →
          ∃ spare, Validates port.layout flash spare ∧ spare ≠ target := by
        intro target targetOk inactive chosen
        apply erasedFlash_bootable targetOk
        rw [← (update_cut checked targetOk inactive chosen
          image.length).state rfl]
        exact keeps _ _ _ _ _ (Nat.le_refl _)
      right
      cases slot with
      | none =>
          intro record read
          have activeOk := (blMetaRead_valid read).1
          have inactive : (otherSlot record.activeSlot).toNat ≠
              (metaReport port.layout flash).1.toNat := by
            simp only [metaReport, read]
            exact fun same =>
              otherSlot_ne activeOk (BitVec.eq_of_toNat_eq same)
          obtain ⟨spare, validates, different⟩ := other _
            (otherSlot_valid _) inactive ⟨record, read, rfl⟩
          have nominated := eq_otherSlot (otherSlot_valid record.activeSlot)
            validates.valid different
          rw [otherSlot_otherSlot activeOk] at nominated
          exact nominated ▸ validates
      | some slot =>
          by_cases active : slot = (metaReport port.layout flash).1.toNat
          · exact Or.inl active
          right
          obtain ⟨selected, validates⟩ := blCoreSelectSlot_ok_iff.mp bootable
          by_cases named : (selected.toNat : Int) = slot
          · subst named
            obtain ⟨spare, spareValidates, different⟩ := other selected
              validates.valid (fun same => active (congrArg _ same)) rfl
            exact ⟨spare, spareValidates, fun same =>
              different (BitVec.eq_of_toNat_eq (Int.ofNat.inj same))⟩
          · exact ⟨selected, validates, named⟩

/-- An update that may be cut off anywhere leaves the device bootable exactly
when the host refuses before it erases or some image is out of its way. -/
theorem update_keepsBootable_iff {port : Port} {flash : Flash}
    (bootable : Bootable port.layout flash) (image : List U8)
    (slot : Option Int) :
    KeepsBootable port flash image slot ↔
      SparesImage port flash image slot :=
  ⟨KeepsBootable.spares bootable, SparesImage.keepsBootable bootable⟩

def newImage : List U8 := Blimage.mkimage 2 [0x10, 0x20, 0x30]

theorem fallbackFlash_bootable : Bootable hostPort.layout fallbackFlash :=
  blCoreSelectSlot_ok_iff.mpr ⟨blSlotB, fallbackFlash_validates⟩

theorem newImage_accepted :
    ∃ header, Blimage.validate newImage
      (some (hostPort.layout.slot blSlotA).size.toNat) = .ok header := by
  have accepted : (Blimage.validate newImage
      (some (hostPort.layout.slot blSlotA).size.toNat)).isOk = true := by
    decide +kernel
  cases checked : Blimage.validate newImage
      (some (hostPort.layout.slot blSlotA).size.toNat) with
  | ok header => exact ⟨header, rfl⟩
  | error error => rw [checked] at accepted; cases accepted

theorem factory_unread (held : BlMeta) :
    blMetaRead hostLayout (fun _ => 0xFF) ≠ .ok held := by
  intro read
  have erased : (blMetaRead hostLayout fun _ => 0xFF).isOk = false := by
    decide +kernel
  rw [read] at erased
  cases erased

theorem update_keepsBootable_fallback :
    KeepsBootable hostPort fallbackFlash newImage none ↔
      SparesImage hostPort fallbackFlash newImage none :=
  update_keepsBootable_iff fallbackFlash_bootable newImage none

/-- The nominated slot is damaged, and the host erases the other one. -/
theorem update_fallback_unbootable :
    Bootable hostPort.layout fallbackFlash ∧
      ¬ KeepsBootable hostPort fallbackFlash newImage none := by
  refine ⟨fallbackFlash_bootable, fun keeps => ?_⟩
  rcases keeps.spares fallbackFlash_bootable with refused | nominated
  · obtain ⟨header, accepted⟩ := newImage_accepted
    exact refused header accepted
  · exact fallbackFlash_damaged (nominated _ fallbackFlash_read)

end Stm32Bootloader
