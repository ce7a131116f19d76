/-
Where a confirmed record comes from.

Over a run from a factory-erased device only a confirmation and an automatic
revert make the metadata read as confirmed for a slot, and the record then
reads so at every later point up to the one at which it is seen.
-/

import Stm32Bootloader.Containment
import Stm32Bootloader.Trial

namespace Stm32Bootloader

open Interruptible LittleEndian TransitionRun

/-- An operation on flash that works. -/
def opStep (port : Port) (system : System) (op : Op) : System :=
  systemStep port system ⟨op, []⟩

def ReadsConfirmed (port : Port) (slot : U8) (system : System) : Prop :=
  ∃ record, blMetaRead port.layout system.flash = .ok record ∧
    record.activeSlot = slot ∧ record.state = blBootConfirmed

/-- A confirmation made in this state is of the slot and succeeds. -/
def ConfirmsSlot (port : Port) (slot : U8) (system : System) : Prop :=
  (∃ record, blMetaRead port.layout system.flash = .ok record ∧
    record.activeSlot = slot) ∧
  ∃ after, blCoreConfirm port (system.device []) = .returned .ok after

/-- A boot in this state gives up the trial of the other slot. -/
def RevertsTo (port : Port) (slot : U8) (system : System) : Prop :=
  ∃ record, blMetaRead port.layout system.flash = .ok record ∧
    record.state = blBootTrial ∧ ¬ record.bootAttempts < blMaxBootAttempts ∧
    slot = otherSlot record.activeSlot ∧
    Validates port.layout system.flash slot

/-- The slot confirmed itself after it was last erased. -/
def ConfirmedItself (port : Port) (initial : System) (ops : List Op)
    (slot : U8) : Prop :=
  ∃ earlier later, ops = earlier ++ .confirm :: later ∧
    ConfirmsSlot port slot (run (opStep port) initial earlier) ∧
    ∀ op, op ∈ later → ¬ op.Erases slot

/-! ### How a record becomes confirmed -/

private theorem request_read {port : Port} {system : System}
    {after : BlSession} {frame : BlFrame} {new : List PortCall}
    {status : Option BlResult}
    (targetOk : slotIsValid system.session.targetSlot = true)
    (calls : RequestCalls port system.session system.flash frame after new
      status) :
    blMetaRead port.layout (replay port system.flash new) =
        blMetaRead port.layout system.flash ∨
      ∃ record, blMetaRead port.layout (replay port system.flash new) =
          .ok record ∧ record.state = blBootTrial := by
  by_cases isArm : frame.cmd = blCmdSetActive
  · cases calls with
    | refused status failed unadmitted => exact Or.inl rfl
    | answered isQuery status => exact Or.inl rfl
    | reset isReset => exact Or.inl rfl
    | erase slot erases slotOk outcome =>
        exact (BlFrame.cmd_clash isArm erases.1).elim
    | write admitted outcome =>
        exact (BlFrame.cmd_clash isArm admitted.isWrite).elim
    | arm isArm oneByte validates new commit status =>
        rcases commit.read with same | ⟨record, read, fields⟩
        · exact Or.inl same
        · exact Or.inr ⟨record, read, fields.2.2.1⟩
  · have contained : Contained port system (.request frame 0) _ :=
      calls.contained targetOk
    exact Or.inl (contained.read targetOk isArm)

private theorem commit_confirms {port : Port} {flash : Flash}
    {slot state attempts : U8} {new : List PortCall} {record : BlMeta}
    (commit : CommitCalls port flash slot state attempts new)
    (read : blMetaRead port.layout (replay port flash new) = .ok record)
    (confirmed : record.state = blBootConfirmed) :
    blMetaRead port.layout flash = .ok record ∨
      (record.activeSlot = slot ∧ state = blBootConfirmed) := by
  rcases commit.read with same | ⟨found, foundRead, fields⟩
  · exact Or.inl (same.symm.trans read)
  · rw [read] at foundRead
    cases foundRead
    exact Or.inr ⟨fields.2.1, fields.2.2.1.symm.trans confirmed⟩

/-- A boot commits a confirmation only when it reverts. -/
private theorem trialCommit_reverts {port : Port} {system : System}
    {slot attempts : U8}
    (plan : trialCommit port.layout system.flash =
      some (slot, blBootConfirmed, attempts)) :
    RevertsTo port slot system := by
  unfold trialCommit at plan
  split at plan
  · cases plan
  · rename_i record read
    split at plan
    · cases plan
    · rename_i trial
      split at plan
      · have states : blBootTrial = blBootConfirmed :=
          congrArg (fun commit => commit.2.1) (Option.some.inj plan)
        exact absurd states (by decide)
      · rename_i exhausted
        split at plan
        · rename_i fallback
          cases plan
          exact ⟨record, read, Decidable.not_not.mp trial, exhausted, rfl,
            fallback⟩
        · cases plan

theorem opStep_confirms {port : Port} {system : System} {op : Op}
    {slot : U8} (targetOk : slotIsValid system.session.targetSlot = true)
    (before : ¬ ReadsConfirmed port slot system)
    (after : ReadsConfirmed port slot (opStep port system op)) :
    (op = .confirm ∧ ConfirmsSlot port slot system) ∨
      (op = .boot ∧ RevertsTo port slot system) := by
  obtain ⟨record, read, slotEq, stateEq⟩ := after
  have unread : blMetaRead port.layout system.flash ≠ .ok record :=
    fun already => before ⟨record, already, slotEq, stateEq⟩
  obtain ⟨session, new, made, calls⟩ :=
    systemStep_made port system ⟨op, []⟩
  rw [opStep, made] at read
  have noRequest : ∀ {frame : BlFrame} {session : BlSession} {new status},
      RequestCalls port system.session system.flash frame session new
        status →
      blMetaRead port.layout (replay port system.flash new) = .ok record →
      False := by
    intro frame session new status calls read
    rcases request_read targetOk calls with same |
      ⟨found, foundRead, trial⟩
    · exact unread (same.symm.trans read)
    · rw [read] at foundRead
      cases foundRead
      rw [stateEq] at trial
      exact absurd trial (by decide)
  cases calls with
  | request frame responseSize after new status calls =>
      exact (noRequest calls read).elim
  | cutOff frame responseSize after new calls =>
      exact (noRequest calls read).elim
  | boot session kept new trial jump =>
      have same : replay port system.flash
          (new ++ jump.toList.map PortCall.jump) =
            replay port system.flash new := by
        rw [replay_append]
        cases jump <;> rfl
      rw [same] at read
      rcases trial with ⟨_none, rfl⟩ | ⟨target, state, attempts, plan, commit⟩
      · exact absurd read unread
      · rcases commit_confirms commit read stateEq with
          already | ⟨targetEq, confirms⟩
        · exact absurd already unread
        · subst confirms
          rw [← slotEq, targetEq]
          exact Or.inr ⟨rfl, trialCommit_reverts plan⟩
  | confirm session kept new calls =>
      rcases calls with rfl | ⟨held, heldRead, trial, commit⟩
      · exact absurd read unread
      · rcases commit_confirms commit read stateEq with
          already | ⟨targetEq, _confirms⟩
        · exact absurd already unread
        · obtain ⟨result, calls, _quiet, ran, accepted⟩ :=
            blCoreConfirm_faultFree port system.flash system.calls
          have present : nominationOf port.layout system.flash ≠ .absent := by
            rw [nominationOf_trial heldRead trial]
            exact fun impossible => by cases impossible
          rw [accepted.mpr present] at ran
          exact Or.inl ⟨rfl, ⟨held, heldRead, targetEq.symm.trans slotEq⟩,
            _, ran⟩
  | powerCycle => exact absurd read unread

/-- The flash of a device that has never been programmed. -/
def factoryErased : System := System.initial fun _ => 0xFF

theorem factoryErased_unconfirmed (port : Port) (slot : U8) :
    ¬ ReadsConfirmed port slot factoryErased := by
  rintro ⟨record, read, _slotEq, _stateEq⟩
  obtain ⟨index, newest⟩ := blMetaRead_ok_iff.mp read
  have held : readRegion port.layout (fun _ => 0xFF) (regionIndex index) =
      some record := PingPong.newest_cell newest
  have empty : readRegion port.layout (fun _ => 0xFF) (regionIndex index) =
      none := by
    apply readRegion_erased
    rw [List.eq_replicate_iff]
    refine ⟨Memory.load_length _ _ _, fun item member => ?_⟩
    obtain ⟨_, _, same⟩ := List.mem_map.mp member
    exact same.symm
  rw [empty] at held
  cases held

/-- A record that reads as confirmed for a slot was entered by a successful
confirmation of that slot or by a revert to it, and has read so ever
since. -/
theorem confirmed_record_origin (port : Port) (ops : List Op) (slot : U8)
    (confirmed : ReadsConfirmed port slot
      (run (opStep port) factoryErased ops)) :
    ∃ earlier op later, ops = earlier ++ op :: later ∧
      ((op = .confirm ∧
          ConfirmsSlot port slot (run (opStep port) factoryErased earlier)) ∨
        (op = .boot ∧
          RevertsTo port slot (run (opStep port) factoryErased earlier))) ∧
      ∀ middle, middle <+: later →
        ReadsConfirmed port slot
          (run (opStep port) factoryErased (earlier ++ op :: middle)) := by
  obtain ⟨earlier, op, later, opsEq, before, since⟩ := entered_since
    (ReadsConfirmed port slot) (factoryErased_unconfirmed port slot) ops
    confirmed
  refine ⟨earlier, op, later, opsEq, ?_, since⟩
  have entered := since [] List.nil_prefix
  rw [run_snoc] at entered
  have targetOk := run_invariant
    (fun system : System => slotIsValid system.session.targetSlot = true)
    (show slotIsValid factoryErased.session.targetSlot = true from
      BlSession.zeroed_targetOk)
    (fun system op ok => systemStep_targetOk port system ⟨op, []⟩ ok)
    earlier
  exact opStep_confirms targetOk before entered

/-! ### Confirmed without a confirmation -/

/-- The requests of an update of the slot with a small image. -/
def updateOps (slot : U8) : List Op :=
  installOps slot (Blimage.mkimage 1 [0x10, 0x20, 0x30])
      (by decide +kernel) ++
    [.request (setActiveRequest slot) 64]

/-- Both slots are updated in turn and neither image confirms itself. -/
def revertRun : List Op :=
  updateOps blSlotA ++ updateOps blSlotB ++ [.boot, .boot, .boot, .boot]

/-- Slot A is erased after it has been confirmed. -/
def reerasedRun : List Op :=
  updateOps blSlotA ++ [.confirm, .request (eraseRequest blSlotA) 64]

private theorem readsConfirmed_of_fields {port : Port} {slot : U8}
    {system : System}
    (fields : (blMetaRead port.layout system.flash).toOption.map
      (fun record => (record.activeSlot, record.state)) =
        some (slot, blBootConfirmed)) :
    ReadsConfirmed port slot system := by
  unfold ReadsConfirmed
  cases read : blMetaRead port.layout system.flash with
  | error result => rw [read] at fields; cases fields
  | ok record =>
      rw [read] at fields
      have both := Option.some.inj fields
      exact ⟨record, rfl, congrArg Prod.fst both, congrArg Prod.snd both⟩

theorem revertRun_confirmed :
    ReadsConfirmed hostPort blSlotA
      (run (opStep hostPort) factoryErased revertRun) :=
  readsConfirmed_of_fields (by decide +kernel)

theorem reerasedRun_confirmed :
    ReadsConfirmed hostPort blSlotA
      (run (opStep hostPort) factoryErased reerasedRun) :=
  readsConfirmed_of_fields (by decide +kernel)

theorem confirmed_record_origin_revert :
    ∃ earlier op later, revertRun = earlier ++ op :: later ∧
      ((op = .confirm ∧ ConfirmsSlot hostPort blSlotA
          (run (opStep hostPort) factoryErased earlier)) ∨
        (op = .boot ∧ RevertsTo hostPort blSlotA
          (run (opStep hostPort) factoryErased earlier))) ∧
      ∀ middle, middle <+: later → ReadsConfirmed hostPort blSlotA
        (run (opStep hostPort) factoryErased (earlier ++ op :: middle)) :=
  confirmed_record_origin hostPort revertRun blSlotA revertRun_confirmed

/-- A revert confirms an image that never confirmed itself, and a confirmed
slot may be erased while its record stands. -/
theorem confirmed_without_confirmation :
    (ReadsConfirmed hostPort blSlotA
        (run (opStep hostPort) factoryErased revertRun) ∧
      ¬ ConfirmedItself hostPort factoryErased revertRun blSlotA) ∧
    ReadsConfirmed hostPort blSlotA
        (run (opStep hostPort) factoryErased reerasedRun) ∧
      ¬ ConfirmedItself hostPort factoryErased reerasedRun blSlotA := by
  refine ⟨⟨revertRun_confirmed, ?_⟩, reerasedRun_confirmed, ?_⟩
  · rintro ⟨earlier, later, opsEq, _confirms, _kept⟩
    have member : Op.confirm ∈ revertRun := by
      rw [opsEq]
      exact List.mem_append_right _ List.mem_cons_self
    simp only [revertRun, updateOps, installOps, List.mem_append,
      List.mem_cons, List.not_mem_nil, reduceCtorEq, or_self] at member
  · rintro ⟨earlier, later, opsEq, _confirms, kept⟩
    rcases List.eq_nil_or_concat later with rfl | ⟨rest, last, rfl⟩
    · have lastEq := congrArg List.getLast? opsEq
      simp only [reerasedRun, List.getLast?_append, List.getLast?_cons,
        List.getLast?_nil] at lastEq
      cases lastEq
    · have lastEq := congrArg List.getLast? opsEq
      rw [List.concat_eq_append, ← List.cons_append, ← List.append_assoc,
        List.getLast?_concat] at lastEq
      cases lastEq
      refine kept (.request (eraseRequest blSlotA) 64) ?_
        (eraseRequest_erases blSlotA)
      rw [List.concat_eq_append]
      exact List.mem_append_right _ List.mem_cons_self

end Stm32Bootloader
