/-
Requests that are refused or fail.

The status byte of a response tells whether the request has taken effect.  A
request that is answered with an error leaves the session and both slots as
they were, and the metadata reads as before, although a failed commit may have
erased the spare metadata region.
-/

import Stm32Bootloader.System

namespace Stm32Bootloader

open Interruptible LittleEndian

/-! ### Statuses -/

def Reply.status : Reply → Option U8
  | .ok bytes => bytes[4]?
  | .error _ => none

theorem respond_ok_status {cmd : U8} {status : BlResult} {data : List U8}
    {responseSize : Nat} {bytes : List U8}
    (answered : respond cmd status data responseSize = .ok bytes) :
    bytes[4]? = some status.code := by
  obtain ⟨_short, _room, rfl⟩ :=
    blFrameEncode_inv (respond_encoded_as answered)
  rfl

theorem respond_status {cmd : U8} {status : BlResult} {data : List U8}
    {responseSize : Nat} {code : U8}
    (answered : (respond cmd status data responseSize).status = some code) :
    status.code = code := by
  cases reply : respond cmd status data responseSize with
  | error result =>
      rw [reply] at answered
      cases answered
  | ok bytes =>
      rw [reply] at answered
      exact Option.some.inj ((respond_ok_status reply).symm.trans answered)

theorem respond_answered (cmd : U8) (status : BlResult) {data : List U8}
    {responseSize : Nat} (short : data.length ≤ blMaxResponseData)
    (room : 9 + data.length ≤ responseSize) :
    (respond cmd status data responseSize).status = some status.code := by
  have dataShort : data.length ≤ 20 := short
  unfold respond
  rw [if_neg (Nat.not_lt.mpr short), blFrameEncode_some
    (by rw [List.length_cons, blMaxPayload]; omega)
    (by rw [List.length_cons]; omega)]
  rfl

/-- The status with which the request of a step is answered. -/
def answer (port : Port) (system : System) (step : Step) : Option U8 :=
  match step.op with
  | .request frame responseSize =>
      match blCoreHandleFrame port system.session frame responseSize
          (system.device step.outcomes) with
      | .returned (_, reply) _ => reply.status
      | .lost _ => none
  | _ => none

/-- The request of the step is answered with an error. -/
def Refused (port : Port) (system : System) (step : Step) : Prop :=
  ∃ code, answer port system step = some code ∧ code ≠ BlResult.ok.code

/-! ### Requests that succeed -/

section Successes

variable {port : Port} {session after : BlSession} {flash : Flash}
  {request : BlFrame} {new : List PortCall}
  (calls : RequestCalls port session flash request after new (some .ok))

include calls

theorem RequestCalls.erased {slot : U8} (erases : request.Erases slot) :
    slotIsValid slot = true ∧ after = session.eraseSlot slot ∧
      new = [eraseCall port slot .success] := by
  generalize answerEq : some BlResult.ok = answer at calls
  have isErase := erases.1
  cases calls with
  | refused status failed unadmitted =>
      exact absurd (Option.some.inj answerEq).symm failed
  | answered isQuery status =>
      rw [isErase] at isQuery
      exact absurd isQuery (by decide)
  | reset isReset => exact (BlFrame.cmd_clash isErase isReset).elim
  | erase other otherErases slotOk outcome =>
      have same : other = slot := otherErases.2.2.symm.trans erases.2.2
      subst same
      cases outcome with
      | success => exact ⟨slotOk, rfl, rfl⟩
      | failure error =>
          exact absurd (Option.some.inj answerEq).symm error.result_ne_ok
      | powerLoss units => cases answerEq
  | write admitted outcome =>
      exact (BlFrame.cmd_clash isErase admitted.isWrite).elim
  | arm isArm oneByte validates new commit status =>
      exact (BlFrame.cmd_clash isErase isArm).elim

theorem RequestCalls.wrote (isWrite : request.cmd = blCmdWrite) :
    WriteAdmitted port session request ∧
      after = session.advance request.writeOffset request.writeLength ∧
      new = [writeCall port session request .success] := by
  generalize answerEq : some BlResult.ok = answer at calls
  cases calls with
  | refused status failed unadmitted =>
      exact absurd (Option.some.inj answerEq).symm failed
  | answered isQuery status =>
      rw [isWrite] at isQuery
      exact absurd isQuery (by decide)
  | reset isReset => exact (BlFrame.cmd_clash isWrite isReset).elim
  | erase slot erases slotOk outcome =>
      exact (BlFrame.cmd_clash isWrite erases.1).elim
  | write admitted outcome =>
      cases outcome with
      | success => exact ⟨admitted, rfl, rfl⟩
      | failure error =>
          exact absurd (Option.some.inj answerEq).symm error.result_ne_ok
      | powerLoss units => cases answerEq
  | arm isArm oneByte validates new commit status =>
      exact (BlFrame.cmd_clash isWrite isArm).elim

end Successes

section Answers

variable {port : Port} {system : System} {frame : BlFrame}
  {responseSize : Nat} {outcomes : List FlashOutcome}

theorem request_answered {code : U8}
    (answered : answer port system
      ⟨.request frame responseSize, outcomes⟩ = some code) :
    let after := systemStep port system ⟨.request frame responseSize, outcomes⟩
    ∃ new status, status.code = code ∧
      RequestCalls port system.session system.flash frame after.session new
        (some status) ∧
      after.calls = system.calls ++ new ∧
      after.flash = replay port system.flash new := by
  have effect : RequestEffect port system.session frame responseSize
      (system.device outcomes) _ := blCoreHandleFrame_effect
  unfold answer at answered
  unfold systemStep
  dsimp only at answered ⊢
  revert effect answered
  generalize blCoreHandleFrame port system.session frame responseSize
    (system.device outcomes) = outcome
  intro answered effect
  cases effect with
  | returned after new status data device' calls log flashEq =>
      exact ⟨new, status, respond_status answered, calls, log, flashEq⟩
  | lost after new device' calls log flashEq => cases answered

theorem request_succeeded
    (answered : answer port system
      ⟨.request frame responseSize, outcomes⟩ = some BlResult.ok.code) :
    let after := systemStep port system ⟨.request frame responseSize, outcomes⟩
    ∃ new,
      RequestCalls port system.session system.flash frame after.session new
        (some .ok) ∧
      after.calls = system.calls ++ new ∧
      after.flash = replay port system.flash new := by
  obtain ⟨new, status, codeEq, calls, effects⟩ := request_answered answered
  have isOk : status = .ok := BlResult.code_injective codeEq
  rw [isOk] at calls
  exact ⟨new, calls, effects⟩

theorem erase_answered_ok {slot : U8} (erases : frame.Erases slot)
    (answered : answer port system
      ⟨.request frame responseSize, outcomes⟩ = some BlResult.ok.code) :
    let after := systemStep port system ⟨.request frame responseSize, outcomes⟩
    slotIsValid slot = true ∧
      after.session = system.session.eraseSlot slot ∧
      after.calls = system.calls ++ [eraseCall port slot .success] ∧
      after.flash = (eraseCall port slot .success).apply port
        system.flash := by
  obtain ⟨new, calls, log, flashEq⟩ := request_succeeded answered
  obtain ⟨slotOk, session, rfl⟩ := calls.erased erases
  exact ⟨slotOk, session, log, flashEq⟩

theorem write_answered_ok (isWrite : frame.cmd = blCmdWrite)
    (answered : answer port system
      ⟨.request frame responseSize, outcomes⟩ = some BlResult.ok.code) :
    let after := systemStep port system ⟨.request frame responseSize, outcomes⟩
    WriteAdmitted port system.session frame ∧
      after.session =
        system.session.advance frame.writeOffset frame.writeLength ∧
      after.calls = system.calls ++
        [writeCall port system.session frame .success] ∧
      after.flash = (writeCall port system.session frame .success).apply port
        system.flash := by
  obtain ⟨new, calls, log, flashEq⟩ := request_succeeded answered
  obtain ⟨admitted, session, rfl⟩ := calls.wrote isWrite
  exact ⟨admitted, session, log, flashEq⟩

end Answers

/-! ### Failed requests -/

theorem RequestCalls.failed {port : Port} {session after : BlSession}
    {flash : Flash} {request : BlFrame} {new : List PortCall}
    {status : BlResult}
    (calls : RequestCalls port session flash request after new (some status))
    (notArm : request.cmd ≠ blCmdSetActive) (failed : status ≠ .ok) :
    after = session ∧ replay port flash new = flash := by
  generalize answerEq : some status = answer at calls
  cases calls with
  | refused status failed unadmitted => exact ⟨rfl, rfl⟩
  | answered isQuery status => exact ⟨rfl, rfl⟩
  | reset isReset => exact absurd (Option.some.inj answerEq) failed
  | erase slot erases slotOk outcome =>
      cases outcome with
      | success => exact absurd (Option.some.inj answerEq) failed
      | failure error =>
          exact ⟨rfl, apply_erase_failure port flash _ _ error⟩
      | powerLoss units => cases answerEq
  | write admitted outcome =>
      cases outcome with
      | success => exact absurd (Option.some.inj answerEq) failed
      | failure error =>
          exact ⟨rfl, apply_write_failure port flash _ _ error⟩
      | powerLoss units => cases answerEq
  | arm isArm oneByte validates new commit status => exact absurd isArm notArm

/-- The slots and what the metadata reads as are the same. -/
structure Unaffected (port : Port) (before after : Flash) : Prop where
  slots : ∀ slot, slotIsValid slot = true →
    slotBytes port.layout after slot = slotBytes port.layout before slot
  metadata : blMetaRead port.layout after = blMetaRead port.layout before

theorem Unaffected.refl (port : Port) (flash : Flash) :
    Unaffected port flash flash := ⟨fun _ _ => rfl, rfl⟩

/-- A nomination that fails has at most erased the spare region. -/
theorem blCoreMarkPending_failed {port : Port} {slot : U8}
    {device device' : Device} {result : BlResult}
    (ran : blCoreMarkPending port slot device = .returned result device')
    (failed : result ≠ .ok) :
    Unaffected port device.flash device'.flash := by
  unfold blCoreMarkPending at ran
  by_cases slotOk : slotIsValid slot = true
  swap
  · rw [if_pos slotOk] at ran
    cases ran
    exact .refl port _
  rw [if_neg (not_not_intro slotOk), readFlash_bind] at ran
  cases verdict : blCoreValidateSlot port.layout device.flash slot with
  | error result =>
      rw [verdict] at ran
      cases ran
      exact .refl port _
  | ok hdr =>
      rw [verdict] at ran
      have committed : blMetaCommit port slot blBootTrial 0 device =
          .returned result device' := ran
      obtain ⟨new, commit, _log, flashEq⟩ := blMetaCommit_calls port slot
        blBootTrial 0 device
      rw [committed] at flashEq
      refine ⟨fun other valid => ?_, blMetaCommit_failed committed failed⟩
      have flashAfter : device'.flash = replay port device.flash new := flashEq
      rw [flashAfter]
      exact commit.slotBytes valid

/-- A request that is answered with an error has no effect. -/
theorem blCoreHandleFrame_refused {port : Port} {session after : BlSession}
    {request : BlFrame} {responseSize : Nat} {device device' : Device}
    {reply : Reply} {code : U8}
    (ran : blCoreHandleFrame port session request responseSize device =
      .returned (after, reply) device')
    (answered : reply.status = some code) (failed : code ≠ BlResult.ok.code) :
    after = session ∧ Unaffected port device.flash device'.flash := by
  by_cases isArm : request.cmd = blCmdSetActive
  · rw [blCoreHandleFrame_setActive _ _ _ isArm] at ran
    unfold handleSetActive at ran
    by_cases oneByte : request.len = 1
    swap
    · rw [if_pos oneByte] at ran
      cases ran
      exact ⟨rfl, .refl port _⟩
    rw [if_neg (not_not_intro oneByte), Prog.bind_apply,
      Prog.bind_apply] at ran
    cases marked : blCoreMarkPending port request.payload[0] device with
    | lost device => rw [marked] at ran; cases ran
    | returned result device =>
        rw [marked] at ran
        cases ran
        refine ⟨rfl, blCoreMarkPending_failed marked fun isOk => failed ?_⟩
        rw [← respond_status answered, isOk]
  · have effect : RequestEffect port session request responseSize device _ :=
      blCoreHandleFrame_effect
    rw [ran] at effect
    cases effect with
    | returned after new status data device' calls log flashEq =>
        obtain ⟨kept, same⟩ := calls.failed isArm fun isOk => failed (by
          rw [← respond_status answered, isOk])
        refine ⟨kept, ?_⟩
        rw [flashEq, same]
        exact .refl port _

/-- An ERASE_SLOT that the flash fails. -/
theorem failedErase_refused :
    Unaffected hostPort (fun _ => 0xFF)
      ((eraseCall hostPort blSlotA (.failure .erase)).apply hostPort
        fun _ => 0xFF) := by
  have ran : blCoreHandleFrame hostPort .zeroed (eraseRequest blSlotA) 64
      ⟨fun _ => 0xFF, [.failure .erase], []⟩ =
        .returned (.zeroed, respond blCmdEraseSlot .errFlashErase [] 64)
          ⟨(eraseCall hostPort blSlotA (.failure .erase)).apply hostPort
            fun _ => 0xFF, [],
            [eraseCall hostPort blSlotA (.failure .erase)]⟩ := by
    rw [blCoreHandleFrame_erases (eraseRequest_erases blSlotA) rfl]
    rfl
  exact (@blCoreHandleFrame_refused hostPort _ _ _ _ _ _ _ 0x31 ran
    (by decide +kernel) (by decide)).2

end Stm32Bootloader
