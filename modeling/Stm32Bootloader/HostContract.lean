/-
The flash contract that the host port asserts, bl_port_host.c.

The host aborts on an erase or a write that leaves its flash or is not
aligned.  No request, boot or confirmation makes such a call, whatever state
the device is in.  The assertion on bytes that are programmed twice depends on
the calls before; it is `NoDoubleProgram`.
-/

import Stm32Bootloader.Containment

namespace Stm32Bootloader

open TransitionRun

def hostFlashBase : U32 := 0x08000000
def hostFlashSize : U32 := 0x00040000

def flashRangeValid (address length : U32) : Bool :=
  let flashEnd := hostFlashBase + hostFlashSize
  if length = 0 then hostFlashBase ≤ address && address ≤ flashEnd
  else if address < hostFlashBase ∨ flashEnd ≤ address then false
  else
    let offset := address - hostFlashBase
    length ≤ hostFlashSize - offset

/-- A range whose ends lie on the boundaries of such granules. -/
def RangeAligned (granularity address length : U32) : Prop :=
  length = 0 ∨ ((address - hostFlashBase) % granularity = 0 ∧
    length % granularity = 0)

instance (granularity address length : U32) :
    Decidable (RangeAligned granularity address length) :=
  inferInstanceAs (Decidable (_ ∨ _))

def PortCall.Permitted : PortCall → Prop
  | .erase address length _ =>
      flashRangeValid address length = true ∧
        RangeAligned (hostPort.eraseGranularity address) address length
  | .write address data _ =>
      let length : U32 := BitVec.ofNat 32 data.length
      flashRangeValid address length = true ∧
        RangeAligned hostPort.writeGranularity address length
  | .jump _ => True

theorem hostFlashBase_toNat : hostFlashBase.toNat = 0x08000000 := rfl

theorem hostFlashSize_toNat : hostFlashSize.toNat = 0x00040000 := rfl

/-- The check is exact for every address and length, also where their sum
does not fit 32 bits. -/
theorem flashRangeValid_iff (addr len : U32) :
    flashRangeValid addr len = true ↔
      hostFlashBase.toNat ≤ addr.toNat ∧
        addr.toNat + len.toNat ≤
          hostFlashBase.toNat + hostFlashSize.toNat := by
  have base := hostFlashBase_toNat
  have size := hostFlashSize_toNat
  unfold flashRangeValid
  dsimp only
  split
  · rw [Bool.and_eq_true, decide_eq_true_eq, decide_eq_true_eq]
    bv_omega
  · split
    · refine iff_of_false Bool.false_ne_true ?_
      bv_omega
    · rw [decide_eq_true_eq]
      bv_omega

theorem flashRangeValid_inside {address length : U32}
    (lower : 0x08000000 ≤ address.toNat)
    (upper : address.toNat + length.toNat ≤ 0x08040000) :
    flashRangeValid address length = true :=
  (flashRangeValid_iff address length).mpr ⟨lower, upper⟩

theorem write_permitted {address : U32} {data : List U8}
    (outcome : FlashOutcome) (lower : 0x08000000 ≤ address.toNat)
    (upper : address.toNat + data.length ≤ 0x08040000)
    (addressAligned : address.toNat % 8 = 0)
    (lengthAligned : data.length % 8 = 0) :
    (PortCall.write address data outcome).Permitted := by
  have length : (BitVec.ofNat 32 data.length).toNat = data.length := by
    rw [BitVec.toNat_ofNat]
    omega
  have offset : (address - hostFlashBase).toNat =
      address.toNat - 0x08000000 := by
    have base := hostFlashBase_toNat
    bv_omega
  have granularity : hostPort.writeGranularity.toNat = 8 := rfl
  refine ⟨flashRangeValid_inside lower (by rw [length]; exact upper),
    Or.inr ⟨BitVec.eq_of_toNat_eq ?_, BitVec.eq_of_toNat_eq ?_⟩⟩
  · rw [BitVec.toNat_umod, offset, granularity]
    exact (Nat.sub_mod_eq_zero_of_mod_eq (by omega))
  · rw [BitVec.toNat_umod, length, granularity]
    exact lengthAligned

section Calls

variable {flash : Flash} {slot state attempts : U8} {new : List PortCall}

theorem commitErase_permitted (flash : Flash) (outcome : FlashOutcome) :
    (commitErase hostPort flash outcome).Permitted := by
  unfold commitErase commitRegion
  rcases metaIndex_cases (commitPlan_valid hostPort flash) with same | same
  · rw [same]
    exact ⟨by decide, by decide⟩
  · rw [same]
    exact ⟨by decide, by decide⟩

theorem commitWrite_permitted (flash : Flash) (slot state attempts : U8)
    (outcome : FlashOutcome) :
    (commitWrite hostPort flash slot state attempts outcome).Permitted := by
  have length : (commitRecord hostPort flash slot state attempts).toBytes.length
      = 16 := commitRecord_length
  have region : (commitRegion hostPort flash).base.toNat = 0x08008000 ∨
      (commitRegion hostPort flash).base.toNat = 0x08008800 := by
    unfold commitRegion
    rcases metaIndex_cases (commitPlan_valid hostPort flash) with same | same
    · rw [same]
      exact Or.inl rfl
    · rw [same]
      exact Or.inr rfl
  exact write_permitted outcome (by omega) (by omega) (by omega) (by omega)

theorem CommitCalls.permitted
    (commit : CommitCalls hostPort flash slot state attempts new)
    {call : PortCall} (made : call ∈ new) : call.Permitted := by
  cases commit with
  | refused => cases made
  | erased outcome unfinished =>
      obtain rfl := List.mem_singleton.mp made
      exact commitErase_permitted flash outcome
  | written outcome =>
      rcases List.mem_cons.mp made with rfl | later
      · exact commitErase_permitted flash .success
      · obtain rfl := List.mem_singleton.mp later
        exact commitWrite_permitted flash slot state attempts outcome

theorem eraseCall_permitted (slotOk : slotIsValid slot = true)
    (outcome : FlashOutcome) :
    (eraseCall hostPort slot outcome).Permitted := by
  rcases slotIsValid_cases slotOk with rfl | rfl
  · exact ⟨by decide, by decide⟩
  · exact ⟨by decide, by decide⟩

theorem writeCall_permitted {session : BlSession} {request : BlFrame}
    (admitted : WriteAdmitted hostPort session request)
    (targetOk : slotIsValid session.targetSlot = true)
    (outcome : FlashOutcome) :
    (writeCall hostPort session request outcome).Permitted := by
  have address := writeCall_address admitted targetOk
  have length := request.writeData_length admitted.nonempty
  have inside := admitted.inside
  have offsetAligned := admitted.offsetAligned
  have lengthAligned := admitted.lengthAligned
  have region : (hostPort.layout.slot session.targetSlot).base.toNat +
        (hostPort.layout.slot session.targetSlot).size.toNat ≤ 0x08040000 ∧
      0x08000000 ≤ (hostPort.layout.slot session.targetSlot).base.toNat ∧
      (hostPort.layout.slot session.targetSlot).base.toNat % 8 = 0 := by
    rcases slotIsValid_cases targetOk with same | same
    · rw [same]
      decide
    · rw [same]
      decide
  exact write_permitted outcome (by omega) (by omega) (by omega) (by omega)

end Calls

/-! ### Steps and runs -/

theorem RequestCalls.permitted {session after : BlSession} {flash : Flash}
    {request : BlFrame} {new : List PortCall} {status : Option BlResult}
    (targetOk : slotIsValid session.targetSlot = true)
    (calls : RequestCalls hostPort session flash request after new status)
    {call : PortCall} (made : call ∈ new) : call.Permitted := by
  cases calls with
  | refused status failed unadmitted => cases made
  | answered isQuery status => cases made
  | reset isReset => cases made
  | erase slot erases slotOk outcome =>
      obtain rfl := List.mem_singleton.mp made
      exact eraseCall_permitted slotOk outcome
  | write admitted outcome =>
      obtain rfl := List.mem_singleton.mp made
      exact writeCall_permitted admitted targetOk outcome
  | arm isArm oneByte validates new commit status => exact commit.permitted made

theorem AsideCalls.permitted {flash : Flash} {new : List PortCall}
    (calls : AsideCalls hostPort flash new) {call : PortCall}
    (made : call ∈ new) : call.Permitted := by
  have jumps : ∀ {jump : Option U32},
      call ∈ jump.toList.map PortCall.jump → call.Permitted := by
    intro jump jumped
    obtain ⟨address, _taken, rfl⟩ := List.mem_map.mp jumped
    trivial
  cases calls with
  | none jump => exact jumps made
  | commit slot state attempts new commit jump =>
      rcases List.mem_append.mp made with early | jumped
      · exact commit.permitted early
      · exact jumps jumped

theorem StepCalls.permitted {system : System} {op : Op} {session : BlSession}
    {new : List PortCall}
    (targetOk : slotIsValid system.session.targetSlot = true)
    (calls : StepCalls hostPort system op session new) {call : PortCall}
    (made : call ∈ new) : call.Permitted := by
  cases calls with
  | request frame responseSize after new status calls =>
      exact calls.permitted targetOk made
  | cutOff frame responseSize after new calls =>
      exact calls.permitted targetOk made
  | boot session kept new trial jump =>
      exact (trial.aside jump).permitted made
  | confirm session kept new calls => exact calls.aside.permitted made
  | powerCycle => cases made

/-- The session names a slot, and every call so far is permitted. -/
structure Obeys (system : System) : Prop where
  targetOk : slotIsValid system.session.targetSlot = true
  permitted : ∀ call, call ∈ system.calls → call.Permitted

theorem systemStep_obeys {system : System} (obeys : Obeys system)
    (step : Step) : Obeys (systemStep hostPort system step) := by
  obtain ⟨new, calls, log, _flashEq⟩ :=
    systemStep_calls hostPort system step
  refine ⟨systemStep_targetOk hostPort system step obeys.targetOk,
    fun call made => ?_⟩
  rw [log] at made
  rcases List.mem_append.mp made with old | recent
  · exact obeys.permitted call old
  · exact calls.permitted obeys.targetOk recent

theorem obeys_run (flash : Flash) (steps : List Step) :
    Obeys (run (systemStep hostPort) (System.initial flash) steps) :=
  run_invariant Obeys
    ⟨BlSession.zeroed_targetOk, fun _ impossible => by cases impossible⟩
    (fun _ step obeys => systemStep_obeys obeys step) steps

end Stm32Bootloader
