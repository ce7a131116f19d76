/-
A WRITE is applied at most once.

Until the next successful erase the session remembers, in its high-water mark
or in its header flag, every WRITE it has applied.  A repeated one is refused,
and what it wrote stays as long as nothing is programmed twice.
-/

import Stm32Bootloader.DoubleProgram
import Stm32Bootloader.Refusal

namespace Stm32Bootloader

open Interruptible TransitionRun WriteOnce

/-! ### Cells that keep their value -/

def PortCall.Spares (cell : Nat) : PortCall → Prop
  | .erase address length outcome =>
      (∃ error, outcome = .failure error) ∨ cell < address.toNat ∨
        address.toNat + length.toNat ≤ cell
  | _ => True

section Keeping

variable {port : Port} {cell : Nat} {programmed : Nat → Prop}

theorem PortCall.keeps {call : PortCall} (flash : Flash)
    (spares : call.Spares cell) (held : programmed cell)
    (allowed : Respects programmed call.events) :
    call.apply port flash cell = flash cell ∧
      programmedAfter programmed call.events cell := by
  cases call with
  | erase address length outcome =>
      rcases spares with ⟨error, rfl⟩ | outside
      · exact ⟨congrFun (apply_erase_failure port flash _ _ error) cell, held⟩
      · refine ⟨apply_erase_agreesOutside port flash _ _ outcome cell outside,
          ?_⟩
        simp only [PortCall.events]
        by_cases success : outcome = .success
        · rw [if_pos success]
          exact ⟨held, by omega⟩
        · rw [if_neg success]
          exact held
  | write address data outcome =>
      have free := allowed.1 cell
      refine ⟨apply_write_agreesOutside port flash address data outcome cell
        ?_, Or.inl held⟩
      by_contra inside
      exact free (by omega) (by omega) held
  | jump address => exact ⟨rfl, held⟩

/-- As long as nothing is programmed twice, a programmed cell that no call
erases keeps its value. -/
theorem replay_keeps {calls : List PortCall} (flash : Flash)
    (spares : ∀ call, call ∈ calls → call.Spares cell)
    (held : programmed cell)
    (allowed : Respects programmed (calls.flatMap PortCall.events)) :
    replay port flash calls cell = flash cell := by
  induction calls generalizing flash programmed with
  | nil => rfl
  | cons call later ih =>
      rw [List.flatMap_cons, respects_append] at allowed
      obtain ⟨same, still⟩ := @PortCall.keeps port cell _ call flash
        (spares call List.mem_cons_self) held allowed.1
      exact (ih (call.apply port flash)
        (fun other member => spares other (List.mem_cons_of_mem _ member))
        still allowed.2).trans same

end Keeping

/-! ### Sessions that go on -/

/-- The later session is closed, or it is the earlier one with more
written. -/
def Continues (earlier later : BlSession) : Prop :=
  later.erased = true → earlier.erased = true ∧
    earlier.highestOffset.toNat ≤ later.highestOffset.toNat ∧
    (earlier.headerWritten = true → later.headerWritten = true)

theorem Continues.refl (session : BlSession) : Continues session session :=
  fun erased => ⟨erased, Nat.le_refl _, id⟩

theorem Continues.trans {first second third : BlSession}
    (left : Continues first second) (right : Continues second third) :
    Continues first third := by
  intro erased
  obtain ⟨middle, higher, kept⟩ := right erased
  obtain ⟨start, high, keeps⟩ := left middle
  exact ⟨start, Nat.le_trans high higher, fun written => kept (keeps written)⟩

theorem Continues.zeroed (session : BlSession) :
    Continues session .zeroed :=
  fun impossible => absurd impossible Bool.false_ne_true

theorem continues_advance (session : BlSession) (offset length : U32) :
    Continues session (session.advance offset length) := by
  intro erased
  refine ⟨erased, ?_, fun written => ?_⟩
  · unfold BlSession.advance
    dsimp only
    split
    · rename_i higher
      exact Nat.le_of_lt higher
    · exact Nat.le_refl _
  · unfold BlSession.advance
    dsimp only
    split
    · rfl
    · exact written

def Op.IsErase : Op → Prop
  | .request frame _ => frame.cmd = blCmdEraseSlot
  | _ => False

/-- Every ERASE_SLOT is answered with an error. -/
def ErasesRefused (port : Port) (system : System) (step : Step) : Prop :=
  step.op.IsErase → Refused port system step

/-- New calls that erase no cell of a slot. -/
def SparesSlots (port : Port) (new : List PortCall) : Prop :=
  ∀ call, call ∈ new → ∀ slot, slotIsValid slot = true → ∀ cell,
    (port.layout.slot slot).Holds cell → call.Spares cell

section Steps

variable {port : Port}

theorem SparesSlots.nil : SparesSlots port [] :=
  fun _ impossible => by cases impossible

theorem SparesSlots.append {left right : List PortCall}
    (first : SparesSlots port left) (second : SparesSlots port right) :
    SparesSlots port (left ++ right) := by
  intro call member
  rcases List.mem_append.mp member with member | member
  · exact first call member
  · exact second call member

theorem CommitCalls.sparesSlots {flash : Flash} {slot state attempts : U8}
    {new : List PortCall}
    (commit : CommitCalls port flash slot state attempts new) :
    SparesSlots port new := by
  have erase : ∀ outcome slot, slotIsValid slot = true → ∀ cell,
      (port.layout.slot slot).Holds cell →
        (commitErase port flash outcome).Spares cell := by
    intro outcome slot valid cell inside
    have apart := port.slotMetaApart slot _ valid
      (commitPlan_valid port flash)
    unfold BlRegion.Apart Memory.Apart at apart
    unfold BlRegion.Holds at inside
    right
    unfold commitRegion
    omega
  cases commit with
  | refused => exact .nil
  | erased outcome unfinished =>
      intro call member
      rw [List.mem_singleton] at member
      rw [member]
      exact erase outcome
  | written outcome =>
      intro call member
      rcases List.mem_pair.mp member with rfl | rfl
      · exact erase .success
      · exact fun _ _ _ _ => trivial

theorem sparesSlots_jump (jump : Option U32) :
    SparesSlots port (jump.toList.map PortCall.jump) := by
  intro call member
  obtain ⟨address, _member, rfl⟩ := List.mem_map.mp member
  exact fun _ _ _ _ => trivial

theorem AsideCalls.sparesSlots {flash : Flash} {new : List PortCall}
    (calls : AsideCalls port flash new) : SparesSlots port new := by
  cases calls with
  | none jump => exact sparesSlots_jump jump
  | commit slot state attempts new commit jump =>
      exact commit.sparesSlots.append (sparesSlots_jump jump)

theorem RequestCalls.continues {session after : BlSession} {flash : Flash}
    {request : BlFrame} {new : List PortCall} {status : Option BlResult}
    (calls : RequestCalls port session flash request after new status)
    (noErase : request.cmd = blCmdEraseSlot →
      ∃ error, status = some error ∧ error ≠ .ok) :
    Continues session after ∧ SparesSlots port new := by
  cases calls with
  | refused status failed unadmitted => exact ⟨.refl _, .nil⟩
  | answered isQuery status => exact ⟨.refl _, .nil⟩
  | reset isReset => exact ⟨fun erased => ⟨erased, Nat.le_refl _, id⟩, .nil⟩
  | erase slot erases slotOk outcome =>
      obtain ⟨status, answered, failed⟩ := noErase erases.1
      cases outcome with
      | success => exact absurd (Option.some.inj answered).symm failed
      | failure error =>
          refine ⟨.refl _, fun call member => ?_⟩
          rw [List.mem_singleton.mp member]
          exact fun _ _ _ _ => Or.inl ⟨error, rfl⟩
      | powerLoss units => cases answered
  | write admitted outcome =>
      refine ⟨?_, fun call member => ?_⟩
      · split
        · exact continues_advance _ _ _
        · exact .refl _
      · rw [List.mem_singleton.mp member]
        exact fun _ _ _ _ => trivial
  | arm isArm oneByte validates new commit status =>
      exact ⟨.refl _, commit.sparesSlots⟩

/-- What the calls and the session of a later state are made of. -/
structure Onward (port : Port) (earlier later : System) : Prop where
  continues : Continues earlier.session later.session
  calls : ∃ new, later.calls = earlier.calls ++ new ∧
    later.flash = replay port earlier.flash new ∧ SparesSlots port new

theorem Onward.refl (port : Port) (system : System) :
    Onward port system system :=
  ⟨.refl _, [], (List.append_nil _).symm, rfl, .nil⟩

theorem Onward.trans {first second third : System}
    (left : Onward port first second) (right : Onward port second third) :
    Onward port first third := by
  obtain ⟨new, log, flashEq, spares⟩ := left.calls
  obtain ⟨newer, logs, flashEqs, sparesMore⟩ := right.calls
  refine ⟨left.continues.trans right.continues, new ++ newer, ?_, ?_,
    spares.append sparesMore⟩
  · rw [logs, log, List.append_assoc]
  · rw [flashEqs, flashEq, replay_append]

theorem systemStep_onward {system : System} {step : Step}
    (refused : ErasesRefused port system step) :
    Onward port system (systemStep port system step) := by
  obtain ⟨op, outcomes⟩ := step
  by_cases isErase : op.IsErase
  · cases op with
    | request frame responseSize =>
        obtain ⟨code, answered, failed⟩ := refused isErase
        obtain ⟨new, status, codeEq, calls, log, flashEq⟩ :=
          request_answered answered
        have notOk : status ≠ .ok := fun isOk => failed (by rw [← codeEq, isOk])
        obtain ⟨continues, spares⟩ :=
          calls.continues fun _ => ⟨status, rfl, notOk⟩
        exact ⟨continues, new, log, flashEq, spares⟩
    | boot => exact absurd isErase id
    | confirm => exact absurd isErase id
    | powerCycle => exact absurd isErase id
  · obtain ⟨after, new, made, calls⟩ :=
      systemStep_made port system ⟨op, outcomes⟩
    rw [made]
    have both : Continues system.session after ∧ SparesSlots port new := by
      have kept (same : after = system.session ∨ after = .zeroed) :
          Continues system.session after := by
        rcases same with rfl | rfl
        · exact .refl _
        · exact .zeroed _
      cases calls with
      | request frame responseSize after new status calls =>
          exact calls.continues fun erases => absurd erases isErase
      | cutOff frame responseSize after new calls =>
          exact ⟨.zeroed _,
            (calls.continues fun erases => absurd erases isErase).2⟩
      | boot session same new trial jump =>
          exact ⟨kept same, (trial.aside jump).sparesSlots⟩
      | confirm session same new calls =>
          exact ⟨kept same, calls.aside.sparesSlots⟩
      | powerCycle => exact ⟨.zeroed _, .nil⟩
    exact ⟨both.1, new, rfl, rfl, both.2⟩

theorem run_onward {initial : System} {steps : List Step}
    (refused : AllAlong (systemStep port) (ErasesRefused port) initial
      steps) :
    Onward port initial (run (systemStep port) initial steps) :=
  refused.invariant (Onward port initial) (.refl port initial)
    fun _ _ onward refuses => onward.trans (systemStep_onward refuses)

end Steps

/-! ### Repeated WRITEs -/

/-- A session in which this WRITE has been applied, or which is closed. -/
def Spent (session : BlSession) (request : BlFrame) : Prop :=
  session.erased = true →
    if request.writeOffset = 0 then session.headerWritten = true
    else request.writeOffset.toNat < session.highestOffset.toNat

theorem Spent.continues {earlier later : BlSession} {request : BlFrame}
    (spent : Spent earlier request) (continues : Continues earlier later) :
    Spent later request := by
  intro erased
  obtain ⟨before, higher, kept⟩ := continues erased
  have applied := spent before
  by_cases zero : request.writeOffset = 0
  · rw [if_pos zero] at applied ⊢
    exact kept applied
  · rw [if_neg zero] at applied ⊢
    exact Nat.lt_of_lt_of_le applied higher

section Repeats

variable {port : Port} {session : BlSession} {request : BlFrame}
  (admitted : WriteAdmitted port session request)

include admitted

/-- The guard that let a WRITE pass refuses it from then on. -/
theorem spent_advance (targetOk : slotIsValid session.targetSlot = true) :
    Spent (session.advance request.writeOffset request.writeLength)
      request := by
  intro _erased
  have inside := admitted.inside
  have fits := port.slotFits _ targetOk
  have positive := writeLength_positive admitted
  by_cases zero : request.writeOffset = 0
  · rw [if_pos zero]
    exact if_pos zero
  · rw [if_neg zero]
    unfold BlSession.advance
    dsimp only
    split <;> bv_omega

theorem blCoreHandleFrame_spent {later : BlSession}
    (spent : Spent later request) (responseSize : Nat) :
    blCoreHandleFrame port later request responseSize =
      pure (later, respond request.cmd .errNotErased [] responseSize) := by
  have isWrite := admitted.isWrite
  have nonempty := admitted.nonempty
  have granule : port.writeGranularity = 8 := port.granule
  rw [blCoreHandleFrame_write _ _ _ isWrite]
  unfold handleWrite
  rw [if_neg (by bv_omega)]
  by_cases erased : later.erased = true
  swap
  · rw [if_pos erased]
  have applied := spent erased
  have repeated : (if request.writeOffset = 0 then later.headerWritten
      else decide (request.writeOffset < later.highestOffset)) = true := by
    by_cases zero : request.writeOffset = 0
    · rw [if_pos zero] at applied ⊢
      exact applied
    · rw [if_neg zero] at applied ⊢
      exact decide_eq_true applied
  rw [if_neg (not_not_intro erased)]
  dsimp only
  rw [granule, if_neg admitted.aligned, if_pos repeated]

end Repeats

/-- From the moment a WRITE is answered with OK until an erase is, it is
refused whenever it is repeated, and what it wrote stays unless something is
programmed twice. -/
theorem write_appliedOnce (port : Port) (flash : Flash)
    (earlier later : List Step) (frame : BlFrame) (responseSize : Nat)
    (outcomes : List FlashOutcome)
    (isWrite : frame.cmd = blCmdWrite)
    (answered : answer port
        (run (systemStep port) (System.initial flash) earlier)
        ⟨.request frame responseSize, outcomes⟩ = some BlResult.ok.code)
    (refused : AllAlong (systemStep port) (ErasesRefused port)
      (systemStep port (run (systemStep port) (System.initial flash) earlier)
        ⟨.request frame responseSize, outcomes⟩) later) :
    let before := run (systemStep port) (System.initial flash) earlier
    let written := systemStep port before
      ⟨.request frame responseSize, outcomes⟩
    let reached := run (systemStep port) written later
    let slot := port.layout.slot before.session.targetSlot
    (∀ repeats : List (Nat × List FlashOutcome),
      let repeated := run (systemStep port) reached
        (repeats.map fun entry => ⟨.request frame entry.1, entry.2⟩)
      repeated = reached ∧
      ∀ size outcomes, 9 ≤ size →
        answer port repeated ⟨.request frame size, outcomes⟩ =
          some BlResult.errNotErased.code) ∧
    ∃ new, reached.calls = written.calls ++ new ∧
      (Respects (Programmed written.calls) (new.flatMap PortCall.events) →
        Memory.load reached.flash
            (slot.base.toNat + frame.writeOffset.toNat)
            frame.writeData.length = frame.writeData) := by
  intro before written reached slot
  obtain ⟨admitted, session, log, flashEq⟩ :=
    write_answered_ok isWrite answered
  have targetOk := targetOk_run port flash earlier
  have onward : Onward port written reached := run_onward refused
  have spent : Spent reached.session frame := by
    refine Spent.continues ?_ onward.continues
    rw [show written.session = _ from session]
    exact spent_advance admitted targetOk
  have idle : ∀ size outcomes,
      systemStep port reached ⟨.request frame size, outcomes⟩ = reached := by
    intro size outcomes
    unfold systemStep
    dsimp only
    rw [blCoreHandleFrame_spent admitted spent]
    rfl
  refine ⟨fun repeats => ?_, ?_⟩
  · have same : run (systemStep port) reached
        (repeats.map fun entry => ⟨.request frame entry.1, entry.2⟩) =
          reached := by
      induction repeats with
      | nil => rfl
      | cons entry repeats ih =>
          rw [List.map_cons, run_cons, idle]
          exact ih
    dsimp only
    rw [same]
    refine ⟨rfl, fun size outcomes room => ?_⟩
    unfold answer
    dsimp only
    rw [blCoreHandleFrame_spent admitted spent]
    exact respond_answered frame.cmd .errNotErased (Nat.zero_le _) room
  · obtain ⟨new, logs, flashEqs, spares⟩ := onward.calls
    refine ⟨new, logs, fun respects => ?_⟩
    have stored : Memory.load written.flash
        (slot.base.toNat + frame.writeOffset.toNat)
        frame.writeData.length = frame.writeData := by
      rw [show written.flash = _ from flashEq,
        writeCall_apply admitted targetOk]
      exact Memory.load_store _ _ _
    refine (Memory.load_congr fun index inside => ?_).trans stored
    rw [flashEqs]
    have within : frame.writeOffset.toNat + frame.writeLength.toNat ≤
        slot.size.toNat := admitted.inside
    have length := frame.writeData_length admitted.nonempty
    have held : slot.Holds
        (slot.base.toNat + frame.writeOffset.toNat + index) :=
      ⟨by omega, by omega⟩
    refine replay_keeps written.flash
      (fun call member => spares call member _ targetOk _ held) ?_ respects
    rw [show written.calls = _ from log,
      programmed_writeCall admitted targetOk]
    refine Or.inr ⟨rfl, Nat.le_add_right _ _, ?_⟩
    exact Nat.add_lt_add_left (by omega) _

/-- An erased slot, a WRITE and another one behind it. -/
theorem write_appliedOnce_retransmitted :
    let written := systemStep hostPort
      (run (systemStep hostPort) (System.initial fun _ => 0xFF)
        [⟨.request (eraseRequest blSlotA) 64, []⟩])
      ⟨.request (writeRequest 8 (List.replicate 8 1) (by decide)) 64, []⟩
    let reached := run (systemStep hostPort) written
      [⟨.request (writeRequest 16 (List.replicate 8 2) (by decide)) 64, []⟩]
    answer hostPort reached
      ⟨.request (writeRequest 8 (List.replicate 8 1) (by decide)) 64, []⟩ =
        some BlResult.errNotErased.code := by
  have repeats := (write_appliedOnce hostPort (fun _ => 0xFF)
    [⟨.request (eraseRequest blSlotA) 64, []⟩]
    [⟨.request (writeRequest 16 (List.replicate 8 2) (by decide)) 64, []⟩]
    (writeRequest 8 (List.replicate 8 1) (by decide)) 64 [] rfl
    (by decide +kernel)
    (AllAlong.of_forall fun state next member => by
      rw [List.mem_singleton.mp member]
      intro isErase
      have same : blCmdWrite = blCmdEraseSlot := isErase
      exact absurd same (by decide))).1
  have first := (repeats []).2 64 [] (by decide)
  rw [List.map_nil, run_nil] at first
  exact first

end Stm32Bootloader
