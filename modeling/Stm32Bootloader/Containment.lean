/-
Where a step may change the flash.

An erase stays in the slot it names, a program call in the part of the target
slot it addresses, and a commit in the metadata region that is not
authoritative.  Everything that no step of a run addresses is as it was.
-/

import Stm32Bootloader.System

namespace Stm32Bootloader

open TransitionRun Memory

/-- The operation is a request to erase this slot. -/
def Op.Erases (op : Op) (slot : U8) : Prop :=
  match op with
  | .request frame _ => frame.Erases slot
  | _ => False

/-- The operation may commit a metadata record. -/
def Op.MayCommit : Op → Prop
  | .request frame _ => frame.cmd = blCmdSetActive
  | .boot => True
  | .confirm => True
  | .powerCycle => False

/-- The only bytes in which the flash after an operation may differ. -/
inductive Contained (port : Port) (system : System) : Op → Flash → Prop where
  | untouched (op : Op) : Contained port system op system.flash
  | slot (op : Op) (after : Flash) (slot : U8) (erases : op.Erases slot)
      (slotOk : slotIsValid slot = true)
      (within : AgreesOutside (port.layout.slot slot).base.toNat
        (port.layout.slot slot).size.toNat system.flash after) :
      Contained port system op after
  | data (frame : BlFrame) (responseSize : Nat) (after : Flash)
      (isWrite : frame.cmd = blCmdWrite)
      (erased : system.session.erased = true)
      (inside : frame.writeOffset.toNat + frame.writeData.length ≤
        (port.layout.slot system.session.targetSlot).size.toNat)
      (within : AgreesOutside
        ((port.layout.slot system.session.targetSlot).base.toNat +
          frame.writeOffset.toNat)
        frame.writeData.length system.flash after) :
      Contained port system (.request frame responseSize) after
  | metadata (op : Op) (after : Flash) (mayCommit : op.MayCommit)
      (index : U32) (indexOk : index < blMetaCount)
      (spare : ∀ held authoritative,
        findNewest port.layout system.flash = some (held, authoritative) →
          authoritative ≠ index)
      (within : AgreesOutside (port.layout.metaRegion index).base.toNat
        (port.layout.metaRegion index).size.toNat system.flash after) :
      Contained port system op after

/-! ### The target slot -/

def BlSession.Opened (session : BlSession) (slot : U8) : Prop :=
  session.erased = true ∧ session.targetSlot = slot

theorem zeroed_unopened (slot : U8) : ¬ BlSession.zeroed.Opened slot :=
  fun opened => Bool.false_ne_true opened.1

/-- What becomes of the session's target slot. -/
theorem StepCalls.target {port : Port} {system : System} {op : Op}
    {session : BlSession} {new : List PortCall}
    (calls : StepCalls port system op session new) :
    (session.erased = system.session.erased ∧
      session.targetSlot = system.session.targetSlot) ∨
    session = .zeroed ∨
    ∃ slot, op.Erases slot ∧ slotIsValid slot = true ∧
      session.Opened slot ∧ new = [eraseCall port slot .success] := by
  cases calls with
  | request frame responseSize after new status calls =>
      generalize (some status) = answer at calls
      cases calls with
      | refused status failed unadmitted => exact Or.inl ⟨rfl, rfl⟩
      | answered isQuery status => exact Or.inl ⟨rfl, rfl⟩
      | reset isReset => exact Or.inl ⟨rfl, rfl⟩
      | erase slot erases slotOk outcome =>
          by_cases success : outcome = .success
          · subst success
            exact Or.inr (Or.inr ⟨slot, erases, slotOk, ⟨rfl, rfl⟩, rfl⟩)
          · rw [if_neg success]
            exact Or.inl ⟨rfl, rfl⟩
      | write admitted outcome =>
          left
          split <;> exact ⟨rfl, rfl⟩
      | arm isArm oneByte validates new commit status =>
          exact Or.inl ⟨rfl, rfl⟩
  | cutOff frame responseSize after new calls => exact Or.inr (Or.inl rfl)
  | boot session kept new trial jump =>
      rcases kept with rfl | rfl
      · exact Or.inl ⟨rfl, rfl⟩
      · exact Or.inr (Or.inl rfl)
  | confirm session kept new calls =>
      rcases kept with rfl | rfl
      · exact Or.inl ⟨rfl, rfl⟩
      · exact Or.inr (Or.inl rfl)
  | powerCycle => exact Or.inr (Or.inl rfl)

theorem systemStep_targetOk (port : Port) (system : System) (step : Step)
    (targetOk : slotIsValid system.session.targetSlot = true) :
    slotIsValid (systemStep port system step).session.targetSlot = true := by
  obtain ⟨new, calls, _log, _flashEq⟩ := systemStep_calls port system step
  rcases calls.target with ⟨_erased, same⟩ | zeroed |
    ⟨slot, _erases, slotOk, opened, _calls⟩
  · rw [same]
    exact targetOk
  · rw [zeroed]
    decide
  · rw [opened.2]
    exact slotOk

theorem targetOk_run (port : Port) (flash : Flash) (steps : List Step) :
    slotIsValid (run (systemStep port) (System.initial flash)
      steps).session.targetSlot = true :=
  run_invariant
    (fun system : System => slotIsValid system.session.targetSlot = true)
    BlSession.zeroed_targetOk
    (systemStep_targetOk port) steps

theorem StepCalls.unopened {port : Port} {system : System} {op : Op}
    {session : BlSession} {new : List PortCall}
    (calls : StepCalls port system op session new) {slot : U8}
    (unopened : ¬ system.session.Opened slot) (kept : ¬ op.Erases slot) :
    ¬ session.Opened slot := by
  rcases calls.target with ⟨erased, target⟩ | rfl |
    ⟨other, erases, _slotOk, opened, _calls⟩
  · unfold BlSession.Opened at unopened ⊢
    rwa [erased, target]
  · exact zeroed_unopened slot
  · intro reopened
    have same : other = slot := opened.2.symm.trans reopened.2
    subst same
    exact kept erases

/-! ### Containment of one step -/

theorem writeCall_address {port : Port} {session : BlSession}
    {request : BlFrame} (admitted : WriteAdmitted port session request)
    (targetOk : slotIsValid session.targetSlot = true) :
    ((port.layout.slot session.targetSlot).base +
        request.writeOffset).toNat =
      (port.layout.slot session.targetSlot).base.toNat +
        request.writeOffset.toNat := by
  have fits := port.slotFits _ targetOk
  have inside := admitted.inside
  have nonempty := admitted.nonempty
  have length := request.writeData_length nonempty
  have bytes := request.bytes_length
  simp only [BlFrame.writeData, List.length_drop] at length
  bv_omega

theorem writeCall_apply {port : Port} {session : BlSession}
    {request : BlFrame} (admitted : WriteAdmitted port session request)
    (targetOk : slotIsValid session.targetSlot = true) (flash : Flash) :
    (writeCall port session request .success).apply port flash =
      store flash ((port.layout.slot session.targetSlot).base.toNat +
        request.writeOffset.toNat) request.writeData := by
  rw [writeCall, apply_write, writeCall_address admitted targetOk,
    FlashOutcome.extent_success, List.take_length]

theorem writeCall_agreesOutside {port : Port} {session : BlSession}
    {request : BlFrame} (admitted : WriteAdmitted port session request)
    (targetOk : slotIsValid session.targetSlot = true) (flash : Flash)
    (outcome : FlashOutcome) :
    AgreesOutside
      ((port.layout.slot session.targetSlot).base.toNat +
        request.writeOffset.toNat)
      request.writeLength.toNat flash
      ((writeCall port session request outcome).apply port flash) := by
  have within := apply_write_agreesOutside port flash
    ((port.layout.slot session.targetSlot).base + request.writeOffset)
    request.writeData outcome
  rw [writeCall_address admitted targetOk,
    request.writeData_length admitted.nonempty] at within
  exact within

private theorem commit_contained {port : Port} {system : System} {op : Op}
    {slot state attempts : U8} {new : List PortCall}
    (mayCommit : op.MayCommit)
    (commit : CommitCalls port system.flash slot state attempts new) :
    Contained port system op (replay port system.flash new) := by
  refine .metadata op _ mayCommit _ (commitPlan_valid port system.flash) ?_
    commit.agreesOutside
  intro held authoritative newest
  rw [findNewest_eq] at newest
  cases found : PingPong.newest metaRank
      (metaCells port.layout system.flash) with
  | none => rw [found] at newest; cases newest
  | some entry =>
      rw [found] at newest
      cases newest
      rw [commitPlan_eq, PingPong.spare_ne found]
      exact fun same => Bool.not_ne_self entry.2
        (regionIndex_injective same).symm

theorem AsideCalls.contained {port : Port} {system : System} {op : Op}
    {new : List PortCall} (mayCommit : op.MayCommit)
    (calls : AsideCalls port system.flash new) :
    Contained port system op (replay port system.flash new) := by
  cases calls with
  | none jump =>
      rw [replay_jump]
      exact .untouched _
  | commit slot state attempts new commit jump =>
      rw [replay_append, replay_jump]
      exact commit_contained mayCommit commit

theorem RequestCalls.contained {port : Port} {system : System}
    {frame : BlFrame} {responseSize : Nat} {after : BlSession}
    {new : List PortCall} {status : Option BlResult}
    (targetOk : slotIsValid system.session.targetSlot = true)
    (calls : RequestCalls port system.session system.flash frame after new
      status) :
    Contained port system (.request frame responseSize)
      (replay port system.flash new) := by
  cases calls with
  | refused status failed unadmitted => exact .untouched _
  | answered isQuery status => exact .untouched _
  | reset isReset => exact .untouched _
  | erase slot erases slotOk outcome =>
      exact .slot _ _ slot erases slotOk
        (apply_erase_agreesOutside port system.flash _ _ outcome)
  | write admitted outcome =>
      have length := frame.writeData_length admitted.nonempty
      have inside := admitted.inside
      have within := writeCall_agreesOutside admitted targetOk system.flash
        outcome
      rw [← length] at within
      exact .data frame responseSize _ admitted.isWrite admitted.erased
        (by omega) within
  | arm isArm oneByte validates new commit status =>
      exact commit_contained isArm commit

theorem StepCalls.contained {port : Port} {system : System} {op : Op}
    {session : BlSession} {new : List PortCall}
    (targetOk : slotIsValid system.session.targetSlot = true)
    (calls : StepCalls port system op session new) :
    Contained port system op (replay port system.flash new) := by
  cases calls with
  | request frame responseSize after new status calls =>
      exact calls.contained targetOk
  | cutOff frame responseSize after new calls =>
      exact calls.contained targetOk
  | boot session kept new trial jump =>
      exact (trial.aside jump).contained trivial
  | confirm session kept new calls => exact calls.aside.contained trivial
  | powerCycle => exact .untouched _

theorem systemStep_contained (port : Port) (system : System) (step : Step)
    (targetOk : slotIsValid system.session.targetSlot = true) :
    Contained port system step.op (systemStep port system step).flash := by
  obtain ⟨new, calls, _log, flashEq⟩ := systemStep_calls port system step
  rw [flashEq]
  exact calls.contained targetOk

/-! ### What a step leaves alone -/

theorem Contained.slotBytes {port : Port} {system : System} {op : Op}
    {after : Flash} (contained : Contained port system op after)
    (targetOk : slotIsValid system.session.targetSlot = true)
    {slot : U8} (valid : slotIsValid slot = true)
    (unopened : ¬ system.session.Opened slot) (kept : ¬ op.Erases slot) :
    slotBytes port.layout after slot =
      slotBytes port.layout system.flash slot := by
  cases contained with
  | untouched op => rfl
  | slot op after other erases slotOk within =>
      refine within.load (port.slots_apart slotOk valid fun same => ?_)
      subst same
      exact kept erases
  | data frame responseSize after isWrite erased inside within =>
      refine within.load ((port.slots_apart targetOk valid
        fun same => ?_).of_within (Nat.le_add_right _ _) (by omega))
      exact unopened ⟨erased, same.symm⟩
  | metadata op after mayCommit index indexOk spare within =>
      exact within.load (port.slotMetaApart slot index valid indexOk).symm

section Outside

variable {port : Port} {slot : U8} {before after : Flash}
  (slotOk : slotIsValid slot = true)
  (within : AgreesOutside (port.layout.slot slot).base.toNat
    (port.layout.slot slot).size.toNat before after)

include slotOk within

theorem metaCells_outside :
    metaCells port.layout after = metaCells port.layout before := by
  apply metaCells_congr
  intro index valid
  apply within.load
  exact ((port.slotMetaApart slot index slotOk valid).symm.of_within
    (Nat.le_refl _) (Nat.add_le_add_left
      (port.metaHoldsRecord index valid) _)).symm

theorem blMetaRead_outside :
    blMetaRead port.layout after = blMetaRead port.layout before := by
  rw [blMetaRead_eq, blMetaRead_eq, metaCells_outside slotOk within]

theorem commitPlan_outside :
    commitPlan port.layout after = commitPlan port.layout before := by
  rw [commitPlan_eq, commitPlan_eq, metaCells_outside slotOk within]

end Outside

theorem Contained.read {port : Port} {system : System} {op : Op}
    {after : Flash} (contained : Contained port system op after)
    (targetOk : slotIsValid system.session.targetSlot = true)
    (noCommit : ¬ op.MayCommit) :
    blMetaRead port.layout after = blMetaRead port.layout system.flash := by
  cases contained with
  | untouched op => rfl
  | slot op after slot erases slotOk within =>
      exact blMetaRead_outside slotOk within
  | data frame responseSize after isWrite erased inside within =>
      exact blMetaRead_outside targetOk
        (within.widen (Nat.le_add_right _ _) (by omega))
  | metadata op after mayCommit index indexOk spare within =>
      exact absurd mayCommit noCommit

theorem Contained.outside {port : Port} {system : System} {op : Op}
    {after : Flash} (contained : Contained port system op after)
    (targetOk : slotIsValid system.session.targetSlot = true)
    {address : Nat}
    (noSlot : ∀ slot, slotIsValid slot = true →
      ¬ (port.layout.slot slot).Holds address)
    (noMeta : ∀ index, index < blMetaCount →
      ¬ (port.layout.metaRegion index).Holds address) :
    after address = system.flash address := by
  unfold BlRegion.Holds at noSlot noMeta
  cases contained with
  | untouched op => rfl
  | slot op after slot erases slotOk within =>
      have free := noSlot slot slotOk
      exact within address (by omega)
  | data frame responseSize after isWrite erased inside within =>
      have free := noSlot _ targetOk
      exact within address (by omega)
  | metadata op after mayCommit index indexOk spare within =>
      have free := noMeta index indexOk
      exact within address (by omega)

theorem Contained.passive {port : Port} {system : System} {frame : BlFrame}
    {responseSize : Nat} {after : Flash}
    (contained : Contained port system (.request frame responseSize) after)
    (noErase : frame.cmd ≠ blCmdEraseSlot) (noWrite : frame.cmd ≠ blCmdWrite)
    (noArm : frame.cmd ≠ blCmdSetActive) : after = system.flash := by
  cases contained with
  | untouched op => rfl
  | slot op after slot erases slotOk within => exact absurd erases.1 noErase
  | data frame responseSize after isWrite erased inside within =>
      exact absurd isWrite noWrite
  | metadata op after mayCommit index indexOk spare within =>
      exact absurd mayCommit noArm

/-! ### Containment of runs -/

/-- A slot that no step of a run erases keeps its bytes, as long as it is not
open at the start. -/
theorem slotBytes_run (port : Port) {system : System} {slot : U8}
    (valid : slotIsValid slot = true)
    (targetOk : slotIsValid system.session.targetSlot = true)
    (unopened : ¬ system.session.Opened slot) (steps : List Step)
    (kept : ∀ step, step ∈ steps → ¬ step.op.Erases slot) :
    slotBytes port.layout (run (systemStep port) system steps).flash slot =
      slotBytes port.layout system.flash slot := by
  have spared : AllAlong (systemStep port)
      (fun _ step => ¬ step.op.Erases slot) system steps :=
    AllAlong.of_forall fun _ step member => kept step member
  have invariant := spared.invariant
    (fun reached : System =>
      slotIsValid reached.session.targetSlot = true ∧
      ¬ reached.session.Opened slot ∧
      slotBytes port.layout reached.flash slot =
        slotBytes port.layout system.flash slot)
    ⟨targetOk, unopened, rfl⟩
    (fun reached step holds spares => by
      obtain ⟨reachedOk, closed, same⟩ := holds
      obtain ⟨new, calls, _log, _flashEq⟩ :=
        systemStep_calls port reached step
      exact ⟨systemStep_targetOk port reached step reachedOk,
        calls.unopened closed spares,
        ((systemStep_contained port reached step reachedOk).slotBytes
          reachedOk valid closed spares).trans same⟩)
  exact invariant.2.2

/-- The slot was erased by a request of this run, and the session has kept it
as its target ever since. -/
def ErasedSince (port : Port) (initial : System) (steps : List Step)
    (slot : U8) : Prop :=
  ∃ earlier next later, steps = earlier ++ next :: later ∧
    next.op.Erases slot ∧
    (run (systemStep port) initial (earlier ++ [next])).calls =
      (run (systemStep port) initial earlier).calls ++
        [eraseCall port slot .success] ∧
    ∀ middle, middle <+: later →
      (run (systemStep port) initial
        (earlier ++ next :: middle)).session.Opened slot

theorem erasedSince_run (port : Port) (flash : Flash) (steps : List Step)
    (slot : U8)
    (opened : (run (systemStep port) (System.initial flash)
      steps).session.Opened slot) :
    ErasedSince port (System.initial flash) steps slot := by
  obtain ⟨earlier, next, later, stepsEq, closed, since⟩ := entered_since
    (fun system : System => system.session.Opened slot)
    (zeroed_unopened slot) steps opened
  refine ⟨earlier, next, later, stepsEq, ?_⟩
  have entered := since [] (List.nil_prefix)
  rw [run_snoc] at entered ⊢
  obtain ⟨new, calls, log, _flashEq⟩ := systemStep_calls port
    (run (systemStep port) (System.initial flash) earlier) next
  rcases calls.target with ⟨erased, target⟩ | zeroed |
    ⟨other, erases, _slotOk, reopened, newEq⟩
  · unfold BlSession.Opened at entered closed
    rw [erased, target] at entered
    exact absurd entered closed
  · rw [zeroed] at entered
    exact absurd entered (zeroed_unopened slot)
  · have same : other = slot := reopened.2.symm.trans entered.2
    subst same
    rw [newEq] at log
    exact ⟨erases, log, since⟩

/-- Every step of an update session is contained, the target slot exists and
was erased in this session before it is written, the flash outside the
regions never changes, and a slot that is never erased stays valid. -/
theorem updateSession_contained (port : Port) (flash : Flash)
    (steps : List Step) :
    let reached := run (systemStep port) (System.initial flash) steps
    slotIsValid reached.session.targetSlot = true ∧
    (∀ step, Contained port reached step.op
      (systemStep port reached step).flash) ∧
    (∀ frame responseSize outcomes, frame.cmd ≠ blCmdEraseSlot →
      frame.cmd ≠ blCmdWrite → frame.cmd ≠ blCmdSetActive →
      (systemStep port reached
        ⟨.request frame responseSize, outcomes⟩).flash = reached.flash) ∧
    (reached.session.erased = true → ErasedSince port (System.initial flash)
      steps reached.session.targetSlot) ∧
    (∀ address,
      (∀ slot, slotIsValid slot = true →
        ¬ (port.layout.slot slot).Holds address) →
      (∀ index, index < blMetaCount →
        ¬ (port.layout.metaRegion index).Holds address) →
      reached.flash address = flash address) ∧
    ∀ slot hdr, blCoreValidateSlot port.layout flash slot = .ok hdr →
      (∀ step, step ∈ steps → ¬ step.op.Erases slot) →
      blCoreValidateSlot port.layout reached.flash slot = .ok hdr := by
  intro reached
  have targetOk := targetOk_run port flash steps
  refine ⟨targetOk, fun step => systemStep_contained port reached step targetOk,
    fun frame responseSize outcomes noErase noWrite noArm =>
      (systemStep_contained port reached ⟨.request frame responseSize, outcomes⟩
        targetOk).passive noErase noWrite noArm,
    fun erased => erasedSince_run port flash steps _ ⟨erased, rfl⟩, ?_, ?_⟩
  · intro address noSlot noMeta
    have start : slotIsValid (System.initial flash).session.targetSlot =
        true ∧ (System.initial flash).flash address = flash address :=
      ⟨BlSession.zeroed_targetOk, rfl⟩
    have invariant := run_invariant
      (fun system : System =>
        slotIsValid system.session.targetSlot = true ∧
        system.flash address = flash address)
      start
      (fun system step holds =>
        ⟨systemStep_targetOk port system step holds.1,
          ((systemStep_contained port system step holds.1).outside holds.1
            noSlot noMeta).trans holds.2⟩)
      steps
    exact invariant.2
  · intro slot hdr accepted kept
    have same : slotBytes port.layout reached.flash slot =
        slotBytes port.layout flash slot := slotBytes_run port
      (blCoreValidateSlot_valid accepted)
      BlSession.zeroed_targetOk
      (zeroed_unopened slot) steps kept
    rw [blCoreValidateSlot_congr port same]
    exact accepted

end Stm32Bootloader
