/-
Update sessions, `bl_core_handle_frame` of bl_core.c and its six handlers.

A request either makes no port call, erases one slot, programs one stretch of
the session's target slot, or commits one metadata record.  The session
changes only when the erase or the program call has succeeded, or when a reset
was asked for.
-/

import Stm32Bootloader.Boot
import Stm32Bootloader.Frame

namespace Stm32Bootloader

open Interruptible LittleEndian

structure BlSession where
  targetSlot : U8
  erased : Bool
  highestOffset : U32
  headerWritten : Bool
  resetRequested : Bool
  deriving DecidableEq, Repr

def BlSession.zeroed : BlSession :=
  { targetSlot := 0
    erased := false
    highestOffset := 0
    headerWritten := false
    resetRequested := false }

theorem BlSession.zeroed_targetOk :
    slotIsValid BlSession.zeroed.targetSlot = true := rfl

def BlSession.eraseSlot (session : BlSession) (slot : U8) : BlSession :=
  { session with
    targetSlot := slot
    erased := true
    highestOffset := 0
    headerWritten := false }

/-- The session after `length` bytes at `offset` have been programmed. -/
def BlSession.advance (session : BlSession) (offset length : U32) :
    BlSession :=
  { session with
    headerWritten := if offset = 0 then true else session.headerWritten
    highestOffset :=
      if offset + length > session.highestOffset then offset + length
      else session.highestOffset }

/-! ### Handlers -/

def blMaxResponseData : Nat := 20

/-- An encoded response frame, or the result of a request that could not be
answered. -/
abbrev Reply := Except BlResult (List U8)

def respond (cmd : U8) (status : BlResult) (data : List U8)
    (responseSize : Nat) : Reply :=
  if data.length > blMaxResponseData then .error .errUnknown
  else
    match blFrameEncode cmd (status.code :: data) responseSize with
    | none => .error .errUnknown
    | some bytes => .ok bytes

theorem respond_encoded_as {cmd : U8} {status : BlResult} {data : List U8}
    {responseSize : Nat} {bytes : List U8}
    (answered : respond cmd status data responseSize = .ok bytes) :
    blFrameEncode cmd (status.code :: data) responseSize = some bytes := by
  unfold respond at answered
  split at answered
  · cases answered
  split at answered
  · cases answered
  · rename_i encoded
    cases answered
    exact encoded

def helloData (port : Port) (flash : Flash) : List U8 :=
  [blProtoVersion, blImgHdrVersion.setWidth 8, blSlotCount] ++
    bytes32 (port.layout.slot blSlotA).size ++
    bytes32 port.writeGranularity ++
    bytes32 (port.eraseGranularity (port.layout.slot blSlotA).base) ++
    bytes16 (BitVec.ofNat 16 blMaxWriteData) ++
    match blMetaRead port.layout flash with
    | .ok record => [record.activeSlot, record.state, record.bootAttempts]
    | .error _ => [blSlotNone, blBootStateNone, 0]

def handleHello (port : Port) (request : BlFrame) (responseSize : Nat) :
    PortM Reply :=
  if request.len ≠ 0 then
    pure (respond request.cmd .errInvalidPacket [] responseSize)
  else do
    let flash ← readFlash
    pure (respond request.cmd .ok (helloData port flash) responseSize)

def handleEraseSlot (port : Port) (session : BlSession) (request : BlFrame)
    (responseSize : Nat) : PortM (BlSession × Reply) :=
  if request.len ≠ 1 then
    pure (session, respond request.cmd .errInvalidPacket [] responseSize)
  else
    let slot := request.payload[0]
    if ¬ slotIsValid slot then
      pure (session, respond request.cmd .errInvalidArgument [] responseSize)
    else
      let base := (port.layout.slot slot).base
      let size := (port.layout.slot slot).size
      if ¬ regionIsErasable port.eraseGranularity base size then
        pure (session,
          respond request.cmd .errInvalidArgument [] responseSize)
      else do
        let result ← blFlashErase port base size
        if result ≠ .ok then
          pure (session, respond request.cmd result [] responseSize)
        else
          pure (session.eraseSlot slot,
            respond request.cmd .ok [] responseSize)

def BlFrame.writeOffset (request : BlFrame) : U32 :=
  word32 request.payload[0] request.payload[1] request.payload[2]
    request.payload[3]

/-- `request->len - 4u`, the number of data bytes of a WRITE. -/
def BlFrame.writeLength (request : BlFrame) : U32 :=
  request.len.setWidth 32 - 4

def BlFrame.writeData (request : BlFrame) : List U8 :=
  request.bytes.drop 4

def handleWrite (port : Port) (session : BlSession) (request : BlFrame)
    (responseSize : Nat) : PortM (BlSession × Reply) :=
  if request.len < 5 then
    pure (session, respond request.cmd .errInvalidPacket [] responseSize)
  else if ¬ session.erased then
    pure (session, respond request.cmd .errNotErased [] responseSize)
  else
    let offset := request.writeOffset
    let dataLen := request.writeLength
    let granularity := port.writeGranularity
    if offset % granularity ≠ 0 ∨ dataLen % granularity ≠ 0 then
      pure (session, respond request.cmd .errInvalidArgument [] responseSize)
    -- Offset zero may come out of order, once; other offsets ascend.
    else if (if offset = 0 then session.headerWritten
        else decide (offset < session.highestOffset)) then
      pure (session, respond request.cmd .errNotErased [] responseSize)
    else
      let slotBase := (port.layout.slot session.targetSlot).base
      let slotSize := (port.layout.slot session.targetSlot).size
      if offset > slotSize ∨ dataLen > slotSize - offset then
        pure (session, respond request.cmd .errImageSize [] responseSize)
      else do
        let result ← blFlashWrite port (slotBase + offset) request.writeData
        if result ≠ .ok then
          pure (session, respond request.cmd result [] responseSize)
        else
          pure (session.advance offset dataLen,
            respond request.cmd .ok (bytes32 offset) responseSize)

def handleVerify (port : Port) (request : BlFrame) (responseSize : Nat) :
    PortM Reply :=
  if request.len ≠ 1 then
    pure (respond request.cmd .errInvalidPacket [] responseSize)
  else
    let slot := request.payload[0]
    if ¬ slotIsValid slot then
      pure (respond request.cmd .errInvalidArgument [] responseSize)
    else do
      let flash ← readFlash
      match blCoreValidateSlot port.layout flash slot with
      | .error result => pure (respond request.cmd result [] responseSize)
      | .ok hdr =>
          pure (respond request.cmd .ok
            (bytes32 hdr.imgSize ++ bytes32 hdr.imgCrc32 ++
              bytes32 hdr.fwVersion) responseSize)

def handleSetActive (port : Port) (request : BlFrame) (responseSize : Nat) :
    PortM Reply :=
  if request.len ≠ 1 then
    pure (respond request.cmd .errInvalidPacket [] responseSize)
  else do
    let result ← blCoreMarkPending port request.payload[0]
    pure (respond request.cmd result [] responseSize)

/-- The reset itself is left to the caller. -/
def handleReset (session : BlSession) (request : BlFrame)
    (responseSize : Nat) : BlSession × Reply :=
  if request.len ≠ 0 then
    (session, respond request.cmd .errInvalidPacket [] responseSize)
  else
    ({ session with resetRequested := true },
      respond request.cmd .ok [] responseSize)

def blCoreHandleFrame (port : Port) (session : BlSession) (request : BlFrame)
    (responseSize : Nat) : PortM (BlSession × Reply) :=
  if request.cmd = blCmdHello then do
    let reply ← handleHello port request responseSize
    pure (session, reply)
  else if request.cmd = blCmdEraseSlot then
    handleEraseSlot port session request responseSize
  else if request.cmd = blCmdWrite then
    handleWrite port session request responseSize
  else if request.cmd = blCmdVerify then do
    let reply ← handleVerify port request responseSize
    pure (session, reply)
  else if request.cmd = blCmdSetActive then do
    let reply ← handleSetActive port request responseSize
    pure (session, reply)
  else if request.cmd = blCmdReset then
    pure (handleReset session request responseSize)
  else
    pure (session, respond request.cmd .errInvalidPacket [] responseSize)

def BlFrame.Erases (request : BlFrame) (slot : U8) : Prop :=
  request.cmd = blCmdEraseSlot ∧ request.len = 1 ∧ request.payload[0] = slot

instance (request : BlFrame) (slot : U8) : Decidable (request.Erases slot) :=
  inferInstanceAs (Decidable (_ ∧ _ ∧ _))

def BlFrame.Arms (request : BlFrame) (slot : U8) : Prop :=
  request.cmd = blCmdSetActive ∧ request.len = 1 ∧ request.payload[0] = slot

instance (request : BlFrame) (slot : U8) : Decidable (request.Arms slot) :=
  inferInstanceAs (Decidable (_ ∧ _ ∧ _))

theorem BlFrame.cmd_clash {request : BlFrame} {cmd other : U8}
    (isCmd : request.cmd = cmd) (isOther : request.cmd = other)
    (differ : cmd ≠ other := by decide) : False :=
  differ (isCmd.symm.trans isOther)

section Dispatch

variable (port : Port) (session : BlSession) {request : BlFrame}
  (responseSize : Nat)

theorem blCoreHandleFrame_eraseSlot
    (isErase : request.cmd = blCmdEraseSlot) :
    blCoreHandleFrame port session request responseSize =
      handleEraseSlot port session request responseSize := by
  unfold blCoreHandleFrame
  rw [if_neg fun isHello => BlFrame.cmd_clash isErase isHello, if_pos isErase]

theorem blCoreHandleFrame_write (isWrite : request.cmd = blCmdWrite) :
    blCoreHandleFrame port session request responseSize =
      handleWrite port session request responseSize := by
  unfold blCoreHandleFrame
  rw [if_neg fun isHello => BlFrame.cmd_clash isWrite isHello,
    if_neg fun isErase => BlFrame.cmd_clash isWrite isErase,
    if_pos isWrite]

theorem blCoreHandleFrame_query (isVerify : request.cmd = blCmdVerify) :
    blCoreHandleFrame port session request responseSize = (do
      let reply ← handleVerify port request responseSize
      pure (session, reply)) := by
  unfold blCoreHandleFrame
  rw [if_neg fun isHello => BlFrame.cmd_clash isVerify isHello,
    if_neg fun isErase => BlFrame.cmd_clash isVerify isErase,
    if_neg fun isWrite => BlFrame.cmd_clash isVerify isWrite,
    if_pos isVerify]

theorem blCoreHandleFrame_setActive
    (isArm : request.cmd = blCmdSetActive) :
    blCoreHandleFrame port session request responseSize = (do
      let reply ← handleSetActive port request responseSize
      pure (session, reply)) := by
  unfold blCoreHandleFrame
  rw [if_neg fun isHello => BlFrame.cmd_clash isArm isHello,
    if_neg fun isErase => BlFrame.cmd_clash isArm isErase,
    if_neg fun isWrite => BlFrame.cmd_clash isArm isWrite,
    if_neg fun isVerify => BlFrame.cmd_clash isArm isVerify,
    if_pos isArm]

end Dispatch

/-! ### What a request does -/

def eraseCall (port : Port) (slot : U8) (outcome : FlashOutcome) : PortCall :=
  .erase (port.layout.slot slot).base (port.layout.slot slot).size outcome

def writeCall (port : Port) (session : BlSession) (request : BlFrame)
    (outcome : FlashOutcome) : PortCall :=
  .write ((port.layout.slot session.targetSlot).base + request.writeOffset)
    request.writeData outcome

/-- The checks that a WRITE has passed when it reaches the flash. -/
structure WriteAdmitted (port : Port) (session : BlSession)
    (request : BlFrame) : Prop where
  isWrite : request.cmd = blCmdWrite
  nonempty : 5 ≤ request.len.toNat
  erased : session.erased = true
  offsetAligned : request.writeOffset.toNat % 8 = 0
  lengthAligned : request.writeLength.toNat % 8 = 0
  ordered : if request.writeOffset = 0 then session.headerWritten = false
    else session.highestOffset.toNat ≤ request.writeOffset.toNat
  inside : request.writeOffset.toNat + request.writeLength.toNat ≤
    (port.layout.slot session.targetSlot).size.toNat

section Admitted

variable {port : Port} {session : BlSession} {request : BlFrame}

theorem WriteAdmitted.aligned (admitted : WriteAdmitted port session request) :
    ¬ (request.writeOffset % 8 ≠ 0 ∨ request.writeLength % 8 ≠ 0) := by
  rintro (offset | length)
  · exact offset (BitVec.eq_of_toNat_eq admitted.offsetAligned)
  · exact length (BitVec.eq_of_toNat_eq admitted.lengthAligned)

theorem WriteAdmitted.fresh (admitted : WriteAdmitted port session request) :
    ¬ (if request.writeOffset = 0 then session.headerWritten
      else decide (request.writeOffset < session.highestOffset)) = true := by
  have ordered := admitted.ordered
  by_cases zero : request.writeOffset = 0
  · rw [if_pos zero] at ordered ⊢
    rw [ordered]
    exact Bool.false_ne_true
  · rw [if_neg zero] at ordered ⊢
    rw [decide_eq_true_eq]
    bv_omega

end Admitted

/-! ### Requests of the protocol -/

def eraseRequest (slot : U8) : BlFrame :=
  .ofBytes blCmdEraseSlot [slot] (Nat.le_add_left 1 511)

def writeRequest (offset : U32) (data : List U8)
    (fits : data.length ≤ blMaxWriteData) : BlFrame :=
  .ofBytes blCmdWrite (bytes32 offset ++ data) (by
    simp only [blMaxWriteData, blMaxPayload] at fits
    simp only [List.length_append, bytes32_length, blMaxPayload]
    omega)

section WritePayload

variable (offset : U32) (data : List U8)
  (fits : (bytes32 offset ++ data).length ≤ blMaxPayload)

theorem ofBytes_writeOffset :
    (BlFrame.ofBytes blCmdWrite (bytes32 offset ++ data) fits).writeOffset =
      offset := by
  simp only [BlFrame.writeOffset, BlFrame.ofBytes, Vector.getElem_ofFn,
    bytes32_eq]
  exact word32_setWidth offset

theorem ofBytes_writeData :
    (BlFrame.ofBytes blCmdWrite (bytes32 offset ++ data) fits).writeData =
      data := by
  rw [BlFrame.writeData, BlFrame.ofBytes_bytes]
  exact List.drop_left' (bytes32_length offset)

end WritePayload

theorem writeRequest_offset (offset : U32) (data : List U8)
    (fits : data.length ≤ blMaxWriteData) :
    (writeRequest offset data fits).writeOffset = offset :=
  ofBytes_writeOffset offset data _

theorem writeRequest_data (offset : U32) (data : List U8)
    (fits : data.length ≤ blMaxWriteData) :
    (writeRequest offset data fits).writeData = data :=
  ofBytes_writeData offset data _

theorem writeRequest_length (offset : U32) (data : List U8)
    (fits : data.length ≤ blMaxWriteData) :
    (writeRequest offset data fits).writeLength.toNat = data.length := by
  have short : data.length ≤ 504 := fits
  simp only [BlFrame.writeLength, writeRequest, BlFrame.ofBytes,
    List.length_append, bytes32_length]
  bv_omega

/-- A WRITE of whole granules to the erased target slot, above everything
written before or at offset zero for the first time, passes its checks. -/
theorem writeRequest_admitted {port : Port} {session : BlSession}
    {offset : U32} {data : List U8} (fits : data.length ≤ blMaxWriteData)
    (nonempty : 0 < data.length) (erased : session.erased = true)
    (offsetAligned : offset.toNat % 8 = 0)
    (lengthAligned : data.length % 8 = 0)
    (ordered : if offset = 0 then session.headerWritten = false
      else session.highestOffset.toNat ≤ offset.toNat)
    (inside : offset.toNat + data.length ≤
      (port.layout.slot session.targetSlot).size.toNat) :
    WriteAdmitted port session (writeRequest offset data fits) := by
  have short : data.length ≤ 504 := fits
  have offsetEq := writeRequest_offset offset data fits
  have lengthEq := writeRequest_length offset data fits
  exact {
    isWrite := rfl
    nonempty := by
      simp only [writeRequest, BlFrame.ofBytes, List.length_append,
        bytes32_length, BitVec.toNat_ofNat]
      omega
    erased := erased
    offsetAligned := by rw [offsetEq]; exact offsetAligned
    lengthAligned := by rw [lengthEq]; exact lengthAligned
    ordered := by rw [offsetEq]; exact ordered
    inside := by rw [offsetEq, lengthEq]; exact inside }

def setActiveRequest (slot : U8) : BlFrame :=
  .ofBytes blCmdSetActive [slot] (Nat.le_add_left 1 511)

theorem eraseRequest_erases (slot : U8) :
    (eraseRequest slot).Erases slot :=
  ⟨rfl, rfl, BlFrame.ofBytes_byte _ _ _⟩

/-! ### The effect of a request -/

/-- The status that a handler answers with, unless the power was lost. -/
def FlashOutcome.status : FlashOutcome → Option BlResult
  | .success => some .ok
  | .failure error => some error.result
  | .powerLoss _ => none

/-- The session, the port calls and the status of one request. -/
inductive RequestCalls (port : Port) (session : BlSession) (flash : Flash)
    (request : BlFrame) :
    BlSession → List PortCall → Option BlResult → Prop where
  | refused (status : BlResult) (failed : status ≠ .ok)
      (unadmitted : ¬ WriteAdmitted port session request) :
      RequestCalls port session flash request session [] (some status)
  | answered (isQuery : request.cmd = blCmdHello ∨
      request.cmd = blCmdVerify ∨ request.cmd = blCmdSetActive)
      (status : BlResult) :
      RequestCalls port session flash request session [] (some status)
  | reset (isReset : request.cmd = blCmdReset) :
      RequestCalls port session flash request
        { session with resetRequested := true } [] (some .ok)
  | erase (slot : U8) (erases : request.Erases slot)
      (slotOk : slotIsValid slot = true) (outcome : FlashOutcome) :
      RequestCalls port session flash request
        (if outcome = .success then session.eraseSlot slot else session)
        [eraseCall port slot outcome] outcome.status
  | write (admitted : WriteAdmitted port session request)
      (outcome : FlashOutcome) :
      RequestCalls port session flash request
        (if outcome = .success then
          session.advance request.writeOffset request.writeLength
        else session)
        [writeCall port session request outcome] outcome.status
  | arm (isArm : request.cmd = blCmdSetActive) (oneByte : request.len = 1)
      (validates : Validates port.layout flash request.payload[0])
      (new : List PortCall)
      (commit : CommitCalls port flash request.payload[0] blBootTrial 0 new)
      (status : Option BlResult) :
      RequestCalls port session flash request session new status

/-- How the handling of a request ends: with a response frame, or with the
power lost. -/
inductive RequestEffect (port : Port) (session : BlSession)
    (request : BlFrame) (responseSize : Nat) (device : Device) :
    Outcome Device (BlSession × Reply) → Prop where
  | returned (after : BlSession) (new : List PortCall) (status : BlResult)
      (data : List U8) (device' : Device)
      (calls : RequestCalls port session device.flash request after new
        (some status))
      (log : device'.calls = device.calls ++ new)
      (flashEq : device'.flash = replay port device.flash new) :
      RequestEffect port session request responseSize device
        (.returned (after, respond request.cmd status data responseSize)
          device')
  | lost (after : BlSession) (new : List PortCall) (device' : Device)
      (calls : RequestCalls port session device.flash request after new none)
      (log : device'.calls = device.calls ++ new)
      (flashEq : device'.flash = replay port device.flash new) :
      RequestEffect port session request responseSize device (.lost device')

section Effects

variable {port : Port} {session : BlSession} {request : BlFrame}
  {responseSize : Nat} {device : Device}

private theorem RequestEffect.quiet {after : BlSession} {status : BlResult}
    (data : List U8)
    (calls : RequestCalls port session device.flash request after []
      (some status)) :
    RequestEffect port session request responseSize device
      (.returned (after, respond request.cmd status data responseSize)
        device) :=
  .returned after [] status data device calls (List.append_nil _).symm rfl

private theorem RequestEffect.called {call : FlashOutcome → PortCall}
    {action : PortM BlResult} {after : BlSession} (data : List U8)
    (ran : action device =
      device.outcome.conclude (device.called port (call device.outcome)))
    (calls : ∀ outcome : FlashOutcome,
      RequestCalls port session device.flash request
        (if outcome = .success then after else session) [call outcome]
        outcome.status) :
    RequestEffect port session request responseSize device
      ((do
        let result ← action
        if result ≠ .ok then
          pure (session, respond request.cmd result [] responseSize)
        else
          pure (after, respond request.cmd .ok data responseSize) :
        PortM (BlSession × Reply)) device) := by
  have effect := calls device.outcome
  rw [Prog.bind_apply, ran]
  cases outcome : device.outcome with
  | success =>
      rw [outcome] at effect
      exact .returned _ _ .ok data _ effect rfl rfl
  | failure error =>
      rw [outcome] at effect
      simp only [FlashOutcome.conclude]
      rw [if_pos error.result_ne_ok]
      exact .returned _ _ error.result [] _ effect rfl rfl
  | powerLoss units =>
      rw [outcome] at effect
      exact .lost _ _ _ effect rfl rfl

theorem unadmitted_cmd (notWrite : request.cmd ≠ blCmdWrite) :
    ¬ WriteAdmitted port session request :=
  fun admitted => notWrite admitted.isWrite

theorem handleEraseSlot_effect (isErase : request.cmd = blCmdEraseSlot) :
    RequestEffect port session request responseSize device
      (handleEraseSlot port session request responseSize device) := by
  have notWrite : request.cmd ≠ blCmdWrite :=
    fun isWrite => BlFrame.cmd_clash isErase isWrite
  unfold handleEraseSlot
  by_cases oneByte : request.len = 1
  · rw [if_neg (not_not_intro oneByte)]
    dsimp only
    by_cases slotOk : slotIsValid request.payload[0] = true
    · rw [if_neg (not_not_intro slotOk)]
      rw [if_neg (not_not_intro (port.slotPages _ slotOk))]
      exact RequestEffect.called [] rfl
        (.erase _ ⟨isErase, oneByte, rfl⟩ slotOk)
    · rw [if_pos slotOk]
      exact .quiet [] (.refused _ (by decide) (unadmitted_cmd notWrite))
  · rw [if_pos oneByte]
    exact .quiet [] (.refused _ (by decide) (unadmitted_cmd notWrite))

theorem handleWrite_effect (isWrite : request.cmd = blCmdWrite) :
    RequestEffect port session request responseSize device
      (handleWrite port session request responseSize device) := by
  have granule : port.writeGranularity = 8 := port.granule
  unfold handleWrite
  by_cases short : request.len < 5
  · rw [if_pos short]
    refine .quiet [] (.refused _ (by decide) fun admitted => ?_)
    have nonempty := admitted.nonempty
    bv_omega
  rw [if_neg short]
  by_cases erased : session.erased = true
  swap
  · rw [if_pos erased]
    exact .quiet [] (.refused _ (by decide)
      fun admitted => erased admitted.erased)
  rw [if_neg (not_not_intro erased)]
  dsimp only
  rw [granule]
  by_cases unaligned : request.writeOffset % 8 ≠ 0 ∨
      request.writeLength % 8 ≠ 0
  · rw [if_pos unaligned]
    exact .quiet [] (.refused _ (by decide)
      fun admitted => admitted.aligned unaligned)
  rw [if_neg unaligned]
  by_cases repeated : (if request.writeOffset = 0 then session.headerWritten
      else decide (request.writeOffset < session.highestOffset)) = true
  · rw [if_pos repeated]
    exact .quiet [] (.refused _ (by decide)
      fun admitted => admitted.fresh repeated)
  rw [if_neg repeated]
  by_cases outside : request.writeOffset >
      (port.layout.slot session.targetSlot).size ∨
      request.writeLength > (port.layout.slot session.targetSlot).size -
        request.writeOffset
  · rw [if_pos outside]
    refine .quiet [] (.refused _ (by decide) fun admitted => ?_)
    have inside := admitted.inside
    rcases outside with offset | length <;> bv_omega
  rw [if_neg outside]
  rw [not_or] at unaligned outside
  refine RequestEffect.called _ rfl (.write ?_)
  exact {
    isWrite := isWrite
    nonempty := by bv_omega
    erased := erased
    offsetAligned := by
      have aligned := Decidable.not_not.mp unaligned.1
      bv_omega
    lengthAligned := by
      have aligned := Decidable.not_not.mp unaligned.2
      bv_omega
    ordered := by
      by_cases zero : request.writeOffset = 0
      · rw [if_pos zero] at repeated ⊢
        exact Bool.not_eq_true _ |>.mp repeated
      · rw [if_neg zero, decide_eq_true_eq] at repeated
        rw [if_neg zero]
        bv_omega
    inside := by bv_omega }

theorem handleSetActive_effect (isArm : request.cmd = blCmdSetActive) :
    RequestEffect port session request responseSize device
      ((do
        let reply ← handleSetActive port request responseSize
        pure (session, reply) : PortM (BlSession × Reply)) device) := by
  have query : request.cmd = blCmdHello ∨ request.cmd = blCmdVerify ∨
      request.cmd = blCmdSetActive := Or.inr (Or.inr isArm)
  unfold handleSetActive
  by_cases oneByte : request.len = 1
  swap
  · rw [if_pos oneByte]
    exact .quiet [] (.answered query _)
  rw [if_neg (not_not_intro oneByte)]
  unfold blCoreMarkPending
  by_cases slotOk : slotIsValid request.payload[0] = true
  swap
  · rw [if_pos slotOk]
    exact .quiet [] (.answered query _)
  rw [if_neg (not_not_intro slotOk), Prog.bind_apply, Prog.bind_apply,
    readFlash_bind]
  cases verdict : blCoreValidateSlot port.layout device.flash
      request.payload[0] with
  | error result => exact .quiet [] (.answered query result)
  | ok hdr =>
      dsimp only
      obtain ⟨new, commit, log, flashEq⟩ := blMetaCommit_calls port
        request.payload[0] blBootTrial 0 device
      have calls : ∀ status, RequestCalls port session device.flash request
          session new status :=
        .arm isArm oneByte ⟨hdr, verdict⟩ new commit
      cases ran : blMetaCommit port request.payload[0] blBootTrial 0
          device with
      | returned result device' =>
          rw [ran] at log flashEq
          exact .returned session new result [] device' (calls _) log flashEq
      | lost device' =>
          rw [ran] at log flashEq
          exact .lost session new device' (calls _) log flashEq

/-- Every request has the effect of one of the calls above. -/
theorem blCoreHandleFrame_effect :
    RequestEffect port session request responseSize device
      (blCoreHandleFrame port session request responseSize device) := by
  unfold blCoreHandleFrame
  by_cases isHello : request.cmd = blCmdHello
  · rw [if_pos isHello]
    unfold handleHello
    split
    · exact .quiet [] (.answered (Or.inl isHello) _)
    · exact .quiet _ (.answered (Or.inl isHello) _)
  rw [if_neg isHello]
  by_cases isErase : request.cmd = blCmdEraseSlot
  · rw [if_pos isErase]
    exact handleEraseSlot_effect isErase
  rw [if_neg isErase]
  by_cases isWrite : request.cmd = blCmdWrite
  · rw [if_pos isWrite]
    exact handleWrite_effect isWrite
  rw [if_neg isWrite]
  by_cases isVerify : request.cmd = blCmdVerify
  · rw [if_pos isVerify]
    have query : request.cmd = blCmdHello ∨ request.cmd = blCmdVerify ∨
        request.cmd = blCmdSetActive := Or.inr (Or.inl isVerify)
    unfold handleVerify
    split
    · exact .quiet [] (.answered query _)
    · dsimp only
      split
      · exact .quiet [] (.answered query _)
      · rw [Prog.bind_apply, readFlash_bind]
        cases blCoreValidateSlot port.layout device.flash
          request.payload[0] with
        | error result => exact .quiet [] (.answered query _)
        | ok hdr => exact .quiet _ (.answered query _)
  rw [if_neg isVerify]
  by_cases isArm : request.cmd = blCmdSetActive
  · rw [if_pos isArm]
    exact handleSetActive_effect isArm
  rw [if_neg isArm]
  by_cases isReset : request.cmd = blCmdReset
  · rw [if_pos isReset]
    unfold handleReset
    split
    · exact .quiet [] (.refused _ (by decide) (unadmitted_cmd isWrite))
    · exact .quiet [] (.reset isReset)
  · rw [if_neg isReset]
    exact .quiet [] (.refused _ (by decide) (unadmitted_cmd isWrite))

end Effects

theorem BlFrame.writeData_length (request : BlFrame)
    (nonempty : 5 ≤ request.len.toNat) :
    request.writeData.length = request.writeLength.toNat := by
  have fits := request.lenFits
  simp only [blMaxPayload] at fits
  simp only [writeData, writeLength, List.length_drop, bytes_length]
  bv_omega

/-! ### Requests that pass their checks -/

theorem blCoreHandleFrame_erases {port : Port} {request : BlFrame}
    {slot : U8} (erases : request.Erases slot)
    (slotOk : slotIsValid slot = true) (session : BlSession)
    (responseSize : Nat) :
    blCoreHandleFrame port session request responseSize =
      (do
        let result ← blFlashErase port (port.layout.slot slot).base
          (port.layout.slot slot).size
        if result ≠ .ok then
          pure (session, respond request.cmd result [] responseSize)
        else
          pure (session.eraseSlot slot,
            respond request.cmd .ok [] responseSize)) := by
  obtain ⟨isErase, oneByte, rfl⟩ := erases
  rw [blCoreHandleFrame_eraseSlot _ _ _ isErase]
  unfold handleEraseSlot
  rw [if_neg (not_not_intro oneByte)]
  dsimp only
  rw [if_neg (not_not_intro slotOk),
    if_neg (not_not_intro (port.slotPages _ slotOk))]

theorem blCoreHandleFrame_admitted {port : Port} {session : BlSession}
    {request : BlFrame} (admitted : WriteAdmitted port session request)
    (responseSize : Nat) :
    blCoreHandleFrame port session request responseSize =
      (do
        let result ← blFlashWrite port
          ((port.layout.slot session.targetSlot).base + request.writeOffset)
          request.writeData
        if result ≠ .ok then
          pure (session, respond request.cmd result [] responseSize)
        else
          pure (session.advance request.writeOffset request.writeLength,
            respond request.cmd .ok (bytes32 request.writeOffset)
              responseSize)) := by
  have isWrite := admitted.isWrite
  have nonempty := admitted.nonempty
  have inside := admitted.inside
  have granule : port.writeGranularity = 8 := port.granule
  rw [blCoreHandleFrame_write _ _ _ isWrite]
  unfold handleWrite
  rw [if_neg (by bv_omega), if_neg (not_not_intro admitted.erased)]
  dsimp only
  rw [granule, if_neg admitted.aligned, if_neg admitted.fresh,
    if_neg (by bv_omega)]

theorem blCoreHandleFrame_arms {port : Port} {request : BlFrame}
    {slot : U8} (arms : request.Arms slot) (session : BlSession)
    (responseSize : Nat) (device : Device) :
    blCoreHandleFrame port session request responseSize device =
      (blCoreMarkPending port slot >>= fun result =>
        pure (session, respond request.cmd result [] responseSize))
          device := by
  obtain ⟨isArm, oneByte, rfl⟩ := arms
  rw [blCoreHandleFrame_setActive _ _ _ isArm]
  unfold handleSetActive
  rw [if_neg (not_not_intro oneByte), Prog.bind_apply, Prog.bind_apply,
    Prog.bind_apply]
  cases blCoreMarkPending port request.payload[0] device <;> rfl

theorem blCoreHandleFrame_verify {port : Port} {request : BlFrame}
    {slot : U8} (isVerify : request.cmd = blCmdVerify)
    (oneByte : request.len = 1) (named : request.payload[0] = slot)
    (session : BlSession) (responseSize : Nat) (device : Device) :
    blCoreHandleFrame port session request responseSize device =
      .returned (session,
        match blCoreValidateSlot port.layout device.flash slot with
        | .error result => respond request.cmd result [] responseSize
        | .ok hdr => respond request.cmd .ok
            (bytes32 hdr.imgSize ++ bytes32 hdr.imgCrc32 ++
              bytes32 hdr.fwVersion) responseSize) device := by
  subst named
  rw [blCoreHandleFrame_query _ _ _ isVerify]
  unfold handleVerify
  rw [if_neg (not_not_intro oneByte)]
  dsimp only
  by_cases slotOk : slotIsValid request.payload[0] = true
  · rw [if_neg (not_not_intro slotOk), Prog.bind_apply, readFlash_bind]
    cases blCoreValidateSlot port.layout device.flash request.payload[0] <;> rfl
  · rw [if_pos slotOk, blCoreValidateSlot_invalid slotOk]
    rfl

end Stm32Bootloader
