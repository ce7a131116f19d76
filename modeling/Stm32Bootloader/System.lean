/-
The bootloader over time: requests, boots, confirmations and power cycles in
any order, each with its own flash outcomes.

One lemma says which port calls a step makes and what session it leaves.  The
invariants of the session and the frame conditions of the flash follow from
it.
-/

import Stm32Bootloader.Library.TransitionRun
import Stm32Bootloader.Session

namespace Stm32Bootloader

open Interruptible LittleEndian TransitionRun

structure System where
  session : BlSession
  flash : Flash
  calls : List PortCall

def System.initial (flash : Flash) : System := ⟨.zeroed, flash, []⟩

inductive Op where
  | request (frame : BlFrame) (responseSize : Nat)
  | boot
  | confirm
  | powerCycle

/-- An operation and how its erase and program calls end. -/
structure Step where
  op : Op
  outcomes : List FlashOutcome

def System.device (system : System) (outcomes : List FlashOutcome) : Device :=
  ⟨system.flash, outcomes, system.calls⟩

/-- A loss of power zeroes the session and keeps the flash. -/
def System.ended {α : Type} (session : α → BlSession) :
    Outcome Device α → System
  | .returned value device => ⟨session value, device.flash, device.calls⟩
  | .lost device => ⟨.zeroed, device.flash, device.calls⟩

def systemStep (port : Port) (system : System) (step : Step) : System :=
  let device := system.device step.outcomes
  match step.op with
  | .request frame responseSize =>
      System.ended Prod.fst
        (blCoreHandleFrame port system.session frame responseSize device)
  | .boot => System.ended (fun _ => system.session) (blCoreBoot port device)
  | .confirm =>
      System.ended (fun _ => system.session) (blCoreConfirm port device)
  | .powerCycle => { system with session := .zeroed }

/-! ### What a step does -/

def ConfirmCalls (port : Port) (flash : Flash) (new : List PortCall) : Prop :=
  new = [] ∨ ∃ record, blMetaRead port.layout flash = .ok record ∧
    record.state = blBootTrial ∧
    CommitCalls port flash record.activeSlot blBootConfirmed 0 new

theorem blCoreConfirm_calls (port : Port) (device : Device) :
    ∃ new, ConfirmCalls port device.flash new ∧
      (blCoreConfirm port device).state.calls = device.calls ++ new ∧
      (blCoreConfirm port device).state.flash =
        replay port device.flash new := by
  unfold blCoreConfirm
  rw [readFlash_bind]
  cases read : blMetaRead port.layout device.flash with
  | error result => exact ⟨[], Or.inl rfl, (List.append_nil _).symm, rfl⟩
  | ok record =>
      dsimp only
      by_cases confirmed : record.state = blBootConfirmed
      · rw [if_pos confirmed]
        exact ⟨[], Or.inl rfl, (List.append_nil _).symm, rfl⟩
      · rw [if_neg confirmed]
        have trial := (blMetaRead_valid read).2.resolve_left confirmed
        obtain ⟨new, commit, log, flashEq⟩ := blMetaCommit_calls port
          record.activeSlot blBootConfirmed 0 device
        exact ⟨new, Or.inr ⟨record, read, trial, commit⟩, log, flashEq⟩

/-- The session and the port calls of one step.  Power that is lost during a
step leaves a zeroed session. -/
inductive StepCalls (port : Port) (system : System) :
    Op → BlSession → List PortCall → Prop where
  | request (frame : BlFrame) (responseSize : Nat) (after : BlSession)
      (new : List PortCall) (status : BlResult)
      (calls : RequestCalls port system.session system.flash frame after new
        (some status)) :
      StepCalls port system (.request frame responseSize) after new
  | cutOff (frame : BlFrame) (responseSize : Nat) (after : BlSession)
      (new : List PortCall)
      (calls : RequestCalls port system.session system.flash frame after new
        none) :
      StepCalls port system (.request frame responseSize) .zeroed new
  | boot (session : BlSession)
      (kept : session = system.session ∨ session = .zeroed)
      (new : List PortCall) (trial : TrialCalls port system.flash new)
      (jump : Option U32) :
      StepCalls port system .boot session
        (new ++ jump.toList.map PortCall.jump)
  | confirm (session : BlSession)
      (kept : session = system.session ∨ session = .zeroed)
      (new : List PortCall) (calls : ConfirmCalls port system.flash new) :
      StepCalls port system .confirm session new
  | powerCycle : StepCalls port system .powerCycle .zeroed []

/-- The calls of a step that is no request: one metadata commit at most, and
then perhaps a jump. -/
inductive AsideCalls (port : Port) (flash : Flash) : List PortCall → Prop where
  | none (jump : Option U32) :
      AsideCalls port flash (jump.toList.map PortCall.jump)
  | commit (slot state attempts : U8) (new : List PortCall)
      (commit : CommitCalls port flash slot state attempts new)
      (jump : Option U32) :
      AsideCalls port flash (new ++ jump.toList.map PortCall.jump)

section Aside

variable {port : Port} {flash : Flash} {new : List PortCall}

theorem AsideCalls.nil : AsideCalls port flash [] := .none Option.none

theorem TrialCalls.aside (trial : TrialCalls port flash new)
    (jump : Option U32) :
    AsideCalls port flash (new ++ jump.toList.map PortCall.jump) := by
  rcases trial with ⟨_none, rfl⟩ | ⟨slot, state, attempts, _plan, commit⟩
  · exact .none jump
  · exact .commit slot state attempts new commit jump

theorem ConfirmCalls.aside (calls : ConfirmCalls port flash new) :
    AsideCalls port flash new := by
  rcases calls with rfl | ⟨record, _read, _trial, commit⟩
  · exact .nil
  · have alone := AsideCalls.commit _ _ _ new commit Option.none
    rw [Option.toList_none, List.map_nil, List.append_nil] at alone
    exact alone

theorem replay_jump (port : Port) (flash : Flash) (jump : Option U32) :
    replay port flash (jump.toList.map PortCall.jump) = flash := by
  cases jump <;> rfl

theorem AsideCalls.slotBytes (calls : AsideCalls port flash new) {slot : U8}
    (valid : slotIsValid slot = true) :
    slotBytes port.layout (replay port flash new) slot =
      slotBytes port.layout flash slot := by
  cases calls with
  | none jump => rw [replay_jump]
  | commit slot state attempts new commit jump =>
      rw [replay_append, replay_jump]
      exact commit.slotBytes valid

end Aside

theorem systemStep_calls (port : Port) (system : System) (step : Step) :
    ∃ new,
      StepCalls port system step.op (systemStep port system step).session
        new ∧
      (systemStep port system step).calls = system.calls ++ new ∧
      (systemStep port system step).flash =
        replay port system.flash new := by
  obtain ⟨op, outcomes⟩ := step
  cases op with
  | request frame responseSize =>
      have effect : RequestEffect port system.session frame responseSize
          (system.device outcomes) _ := blCoreHandleFrame_effect
      simp only [systemStep]
      revert effect
      generalize blCoreHandleFrame port system.session frame responseSize
        (system.device outcomes) = outcome
      intro effect
      cases effect with
      | returned after new status data device' calls log flashEq =>
          exact ⟨new, .request frame responseSize after new status calls,
            log, flashEq⟩
      | lost after new device' calls log flashEq =>
          exact ⟨new, .cutOff frame responseSize after new calls, log,
            flashEq⟩
  | boot =>
      obtain ⟨new, trial, log, flashEq⟩ :=
        advanceTrialState_calls port (system.device outcomes)
      simp only [systemStep]
      cases advanced : advanceTrialState port (system.device outcomes) with
      | returned _ device' =>
          rw [advanced] at log flashEq
          rw [blCoreBoot_returned advanced]
          have logEq : device'.calls = system.calls ++ new := log
          cases bootTarget port.layout device'.flash with
          | none =>
              refine ⟨_, .boot _ (Or.inl rfl) new trial none, ?_, ?_⟩
              · rw [Option.toList_none, List.map_nil, List.append_nil]
                exact log
              · rw [Option.toList_none, List.map_nil, List.append_nil]
                exact flashEq
          | some address =>
              refine ⟨_, .boot _ (Or.inl rfl) new trial (some address),
                ?_, ?_⟩
              · simp only [System.ended, logEq, Option.toList_some,
                  List.map_cons, List.map_nil, List.append_assoc]
              · rw [replay_append]
                exact flashEq
      | lost device' =>
          rw [advanced] at log flashEq
          rw [blCoreBoot_lost advanced]
          refine ⟨_, .boot _ (Or.inr rfl) new trial none, ?_, ?_⟩
          · rw [Option.toList_none, List.map_nil, List.append_nil]
            exact log
          · rw [Option.toList_none, List.map_nil, List.append_nil]
            exact flashEq
  | confirm =>
      obtain ⟨new, calls, log, flashEq⟩ :=
        blCoreConfirm_calls port (system.device outcomes)
      simp only [systemStep]
      cases ran : blCoreConfirm port (system.device outcomes) with
      | returned _ device' =>
          rw [ran] at log flashEq
          exact ⟨new, .confirm _ (Or.inl rfl) new calls, log, flashEq⟩
      | lost device' =>
          rw [ran] at log flashEq
          exact ⟨new, .confirm _ (Or.inr rfl) new calls, log, flashEq⟩
  | powerCycle =>
      exact ⟨[], .powerCycle, (List.append_nil _).symm, rfl⟩

theorem systemStep_made (port : Port) (system : System) (step : Step) :
    ∃ session new,
      systemStep port system step =
        ⟨session, replay port system.flash new, system.calls ++ new⟩ ∧
      StepCalls port system step.op session new := by
  obtain ⟨new, calls, log, flashEq⟩ := systemStep_calls port system step
  refine ⟨_, new, ?_, calls⟩
  rw [← log, ← flashEq]

/-! ### Requests on flash that works -/

theorem request_erases {port : Port} {frame : BlFrame} {slot : U8}
    (erases : frame.Erases slot) (slotOk : slotIsValid slot = true)
    (system : System) (responseSize : Nat) :
    blCoreHandleFrame port system.session frame responseSize
        (system.device []) =
      .returned (system.session.eraseSlot slot,
          respond frame.cmd .ok [] responseSize)
        ⟨(eraseCall port slot .success).apply port system.flash, [],
          system.calls ++ [eraseCall port slot .success]⟩ := by
  rw [blCoreHandleFrame_erases erases slotOk]
  rfl

theorem systemStep_erases {port : Port} {frame : BlFrame} {slot : U8}
    (erases : frame.Erases slot) (slotOk : slotIsValid slot = true)
    (system : System) (responseSize : Nat) :
    systemStep port system ⟨.request frame responseSize, []⟩ =
      { session := system.session.eraseSlot slot
        flash := (eraseCall port slot .success).apply port system.flash
        calls := system.calls ++ [eraseCall port slot .success] } := by
  unfold systemStep
  dsimp only
  rw [request_erases erases slotOk]
  rfl

theorem request_admitted {port : Port} {system : System} {frame : BlFrame}
    (admitted : WriteAdmitted port system.session frame)
    (responseSize : Nat) :
    blCoreHandleFrame port system.session frame responseSize
        (system.device []) =
      .returned (system.session.advance frame.writeOffset frame.writeLength,
          respond frame.cmd .ok (bytes32 frame.writeOffset) responseSize)
        ⟨(writeCall port system.session frame .success).apply port
            system.flash, [],
          system.calls ++
            [writeCall port system.session frame .success]⟩ := by
  rw [blCoreHandleFrame_admitted admitted]
  rfl

theorem systemStep_admitted {port : Port} {system : System}
    {frame : BlFrame} (admitted : WriteAdmitted port system.session frame)
    (responseSize : Nat) :
    systemStep port system ⟨.request frame responseSize, []⟩ =
      { session :=
          system.session.advance frame.writeOffset frame.writeLength
        flash := (writeCall port system.session frame .success).apply port
          system.flash
        calls := system.calls ++
          [writeCall port system.session frame .success] } := by
  unfold systemStep
  dsimp only
  rw [request_admitted admitted]
  rfl

theorem request_arms {port : Port} {frame : BlFrame} {slot : U8}
    {hdr : BlImgHdr} (arms : frame.Arms slot) (system : System)
    (accepted : blCoreValidateSlot port.layout system.flash slot = .ok hdr)
    (responseSize : Nat) :
    blCoreHandleFrame port system.session frame responseSize
        (system.device []) =
      .returned (system.session, respond frame.cmd .ok [] responseSize)
        ⟨committed port system.flash slot blBootTrial 0, [],
          system.calls ++ [commitErase port system.flash .success,
            commitWrite port system.flash slot blBootTrial 0 .success]⟩ := by
  have slotOk := blCoreValidateSlot_valid accepted
  have commit := @blMetaCommit_faultFree port slot blBootTrial 0
    (system.device []) slotOk rfl rfl
  have verdict : blCoreValidateSlot port.layout (system.device []).flash
      slot = .ok hdr := accepted
  have marked : blCoreMarkPending port slot (system.device []) =
      blMetaCommit port slot blBootTrial 0 (system.device []) := by
    unfold blCoreMarkPending
    rw [if_neg (not_not_intro slotOk), readFlash_bind, verdict]
  rw [commit] at marked
  rw [blCoreHandleFrame_arms arms, Prog.bind_returned marked]
  rfl

/-- The requests that install an image whose payload fits one WRITE: erase
the slot, program the payload, commit the header. -/
def installOps (slot : U8) (image : List U8)
    (fits : image.length ≤ 512 + blMaxWriteData) : List Op :=
  [.request (eraseRequest slot) 64,
    .request (writeRequest blImgHdrRegion
      (image.drop blImgHdrRegion.toNat) (by
        rw [List.length_drop]
        exact Nat.sub_le_of_le_add (Nat.le_trans fits
          (Nat.le_of_eq (Nat.add_comm _ _))))) 64,
    .request (writeRequest 0 (image.take BlImgHdr.byteSize) (by
        rw [List.length_take]
        exact Nat.le_trans (Nat.min_le_left _ _) (by decide))) 64]

end Stm32Bootloader
