/-
Responses to requests.

While the power stays on, every handler returns, and answers through
`respond` with at most twenty bytes of data.  What it puts into the caller's
buffer is one frame, or the buffer is left as it was.
-/

import Stm32Bootloader.FrameStream
import Stm32Bootloader.HostLink

namespace Stm32Bootloader

open Interruptible Framing LittleEndian

/-! ### Programs that run to their end -/

/-- No call to come is cut off. -/
def Device.Powered (device : Device) : Prop :=
  ∀ units, .powerLoss units ∉ device.outcomes

/-- With the power on, the program returns a value of which this holds. -/
def Completes {α : Type} (program : PortM α) (post : α → Prop) : Prop :=
  ∀ device : Device, device.Powered → ∃ value device',
    program device = .returned value device' ∧ device'.Powered ∧ post value

theorem powered_faults (flash : Flash) (faults : List (Option FlashError))
    (calls : List PortCall) :
    Device.Powered ⟨flash, faults.map .ofFault, calls⟩ := by
  intro units member
  obtain ⟨fault, _member, same⟩ := List.mem_map.mp member
  cases fault <;> cases same

section Completion

variable {α β : Type} {post : α → Prop}

theorem Completes.pure {value : α} (holds : post value) :
    Completes (pure value) post :=
  fun device powered => ⟨value, device, rfl, powered, holds⟩

theorem Completes.bind {program : PortM α} {next : α → PortM β}
    {finally_ : β → Prop} (first : Completes program post)
    (second : ∀ value, post value → Completes (next value) finally_) :
    Completes (program >>= next) finally_ := by
  intro device powered
  obtain ⟨value, device', ran, still, holds⟩ := first device powered
  rw [Prog.bind_returned ran]
  exact second value holds device' still

theorem Completes.ite {condition : Prop} [Decidable condition]
    {first second : PortM α} (whenTrue : Completes first post)
    (whenFalse : Completes second post) :
    Completes (if condition then first else second) post := by
  split
  · exact whenTrue
  · exact whenFalse

theorem readFlash_completes : Completes readFlash fun _ => True :=
  fun device powered => ⟨device.flash, device, rfl, powered, trivial⟩

private theorem conclude_completes {call : FlashOutcome → PortCall}
    (port : Port) :
    Completes (fun device => device.outcome.conclude
      (device.called port (call device.outcome))) fun _ => True := by
  intro device powered
  have still : ∀ call, (device.called port call).Powered :=
    fun call units member => powered units (List.mem_of_mem_tail member)
  dsimp only
  cases outcome : device.outcome with
  | success => exact ⟨.ok, _, rfl, still _, trivial⟩
  | failure error => exact ⟨error.result, _, rfl, still _, trivial⟩
  | powerLoss units =>
      have lost : .powerLoss units ∈ device.outcomes := by
        rw [Device.outcome] at outcome
        cases listed : device.outcomes with
        | nil => rw [listed] at outcome; cases outcome
        | cons first later =>
            rw [listed] at outcome
            cases outcome
            exact List.mem_cons_self
      exact absurd lost (powered units)

theorem blFlashErase_completes (port : Port) (address length : U32) :
    Completes (blFlashErase port address length) fun _ => True :=
  @conclude_completes (PortCall.erase address length) port

theorem blFlashWrite_completes (port : Port) (address : U32)
    (data : List U8) :
    Completes (blFlashWrite port address data) fun _ => True :=
  @conclude_completes (PortCall.write address data) port

end Completion

theorem blMetaCommit_completes (port : Port)
    (activeSlot state bootAttempts : U8) :
    Completes (blMetaCommit port activeSlot state bootAttempts)
      fun _ => True := by
  unfold blMetaCommit
  refine .ite (.pure trivial) (readFlash_completes.bind fun flash _ => ?_)
  refine .ite (.pure trivial)
    ((blFlashErase_completes port _ _).bind fun erased _ => ?_)
  refine .ite (.pure trivial)
    ((blFlashWrite_completes port _ _).bind fun written _ => ?_)
  refine .ite (.pure trivial) (readFlash_completes.bind fun flash _ => ?_)
  split
  · exact .pure trivial
  · exact .ite (.pure trivial) (.pure trivial)

theorem blCoreMarkPending_completes (port : Port) (slot : U8) :
    Completes (blCoreMarkPending port slot) fun _ => True := by
  unfold blCoreMarkPending
  refine .ite (.pure trivial) (readFlash_completes.bind fun flash _ => ?_)
  split
  · exact .pure trivial
  · exact blMetaCommit_completes port _ _ _

/-! ### Every request is answered -/

/-- The reply carries some status and at most twenty bytes of data. -/
def Answers (cmd : U8) (responseSize : Nat) (reply : Reply) : Prop :=
  ∃ status data, data.length ≤ blMaxResponseData ∧
    reply = respond cmd status data responseSize

section Handlers

variable {port : Port} {session : BlSession} {request : BlFrame}
  {responseSize : Nat}

/-- The handlers that leave the session alone. -/
abbrev Replies (request : BlFrame) (responseSize : Nat)
    (handler : PortM Reply) : Prop :=
  Completes handler (Answers request.cmd responseSize)

abbrev Handles (request : BlFrame) (responseSize : Nat)
    (handler : PortM (BlSession × Reply)) : Prop :=
  Completes handler fun result =>
    Answers request.cmd responseSize result.2

theorem answers_status (cmd : U8) (responseSize : Nat)
    (status : BlResult) :
    Answers cmd responseSize (respond cmd status [] responseSize) :=
  ⟨status, [], Nat.zero_le _, rfl⟩

theorem handleHello_replies :
    Replies request responseSize
      (handleHello port request responseSize) := by
  unfold handleHello
  refine .ite (.pure (answers_status _ _ _))
    (readFlash_completes.bind fun flash _ => .pure ?_)
  exact ⟨.ok, _, Nat.le_of_eq (helloData_length port flash), rfl⟩

theorem handleVerify_replies :
    Replies request responseSize
      (handleVerify port request responseSize) := by
  unfold handleVerify
  refine .ite (.pure (answers_status _ _ _))
    (.ite (.pure (answers_status _ _ _))
      (readFlash_completes.bind fun flash _ => ?_))
  split
  · exact .pure (answers_status _ _ _)
  · refine .pure ⟨.ok, _, ?_, rfl⟩
    exact Nat.le_add_left 12 8

theorem handleSetActive_replies :
    Replies request responseSize
      (handleSetActive port request responseSize) := by
  unfold handleSetActive
  exact .ite (.pure (answers_status _ _ _))
    ((blCoreMarkPending_completes port _).bind fun result _ =>
      .pure (answers_status _ _ _))

theorem handleEraseSlot_handles :
    Handles request responseSize
      (handleEraseSlot port session request responseSize) := by
  unfold handleEraseSlot
  refine .ite (.pure (answers_status _ _ _))
    (.ite (.pure (answers_status _ _ _))
      (.ite (.pure (answers_status _ _ _))
        ((blFlashErase_completes port _ _).bind fun result _ => ?_)))
  exact .ite (.pure (answers_status _ _ _)) (.pure (answers_status _ _ _))

theorem handleWrite_handles :
    Handles request responseSize
      (handleWrite port session request responseSize) := by
  unfold handleWrite
  refine .ite (.pure (answers_status _ _ _))
    (.ite (.pure (answers_status _ _ _))
      (.ite (.pure (answers_status _ _ _))
        (.ite (.pure (answers_status _ _ _))
          (.ite (.pure (answers_status _ _ _))
            ((blFlashWrite_completes port _ _).bind fun result _ => ?_)))))
  exact .ite (.pure (answers_status _ _ _)) (.pure
    ⟨.ok, bytes32 request.writeOffset, Nat.le_add_left 4 16, rfl⟩)

theorem handleReset_answers :
    Answers request.cmd responseSize
      (handleReset session request responseSize).2 := by
  unfold handleReset
  split <;> exact answers_status _ _ _

theorem Replies.unchanged {handler : PortM Reply}
    (replies : Replies request responseSize handler) :
    Handles request responseSize (do
      let reply ← handler
      pure (session, reply)) :=
  replies.bind fun _ answers => .pure answers

/-- While the power stays on, every request is answered. -/
theorem blCoreHandleFrame_handles :
    Handles request responseSize
      (blCoreHandleFrame port session request responseSize) := by
  unfold blCoreHandleFrame
  refine .ite handleHello_replies.unchanged ?_
  refine .ite handleEraseSlot_handles ?_
  refine .ite handleWrite_handles ?_
  refine .ite handleVerify_replies.unchanged ?_
  refine .ite handleSetActive_replies.unchanged ?_
  exact .ite (.pure handleReset_answers) (.pure (answers_status _ _ _))

end Handlers

/-! ### The caller's buffer -/

/-- `response` and `*response_len` of a caller. -/
structure ResponseBuffer where
  bytes : Nat → U8
  len : Nat

/-- `bl_frame_encode` with its stores, and its result. -/
def blFrameEncodeInto (cmd : U8) (payload : List U8) (out : Nat → U8)
    (outSize : Nat) : (Nat → U8) × Nat :=
  if payload.length > blMaxPayload then (out, 0)
  else if payload.length + 8 > outSize then (out, 0)
  else
    let len : U16 := BitVec.ofNat 16 payload.length
    let out := Memory.store out 0 [blSof]
    let out := Memory.store out 1 [cmd]
    let out := Memory.store out 2 (bytes16 len)
    let out := Memory.store out 4 payload
    let crc := blCrc32 0 (Memory.load out 1 (payload.length + 3))
    let out := Memory.store out (4 + payload.length) (bytes32 crc)
    (out, 8 + payload.length)

/-- `respond` with the caller's buffer. -/
def respondInto (cmd : U8) (status : BlResult) (data : List U8)
    (caller : ResponseBuffer) (responseSize : Nat) :
    BlResult × ResponseBuffer :=
  if data.length > blMaxResponseData then (.errUnknown, caller)
  else
    let (bytes, len) :=
      blFrameEncodeInto cmd (status.code :: data) caller.bytes responseSize
    if len = 0 then (.errUnknown, ⟨bytes, caller.len⟩)
    else (.ok, ⟨bytes, len⟩)

/-- What the caller of a handler gets to see of its reply. -/
def Reply.deliver (reply : Reply) (caller : ResponseBuffer) :
    BlResult × ResponseBuffer :=
  match reply with
  | .error result => (result, caller)
  | .ok bytes => (.ok, ⟨Memory.store caller.bytes 0 bytes, bytes.length⟩)

theorem blFrameEncodeInto_eq (cmd : U8) (payload : List U8)
    (out : Nat → U8) (outSize : Nat) :
    blFrameEncodeInto cmd payload out outSize =
      match blFrameEncode cmd payload outSize with
      | none => (out, 0)
      | some bytes => (Memory.store out 0 bytes, bytes.length) := by
  unfold blFrameEncodeInto blFrameEncode
  by_cases long : payload.length > blMaxPayload
  · rw [if_pos long, if_pos long]
  by_cases room : payload.length + 8 > outSize
  · rw [if_neg long, if_neg long, if_pos room, if_pos room]
  rw [if_neg long, if_neg long, if_neg room, if_neg room]
  dsimp only
  generalize BitVec.ofNat 16 payload.length = len
  have head : Memory.store (Memory.store (Memory.store (Memory.store out 0
      [blSof]) 1 [cmd]) 2 (bytes16 len)) 4 payload =
        Memory.store out 0 (blSof :: cmd :: (bytes16 len ++ payload)) := by
    have command : Memory.store (Memory.store out 0 [blSof]) 1 [cmd] =
        Memory.store out 0 [blSof, cmd] := Memory.store_append out 0 _ _
    have declared : Memory.store (Memory.store out 0 [blSof, cmd]) 2
        (bytes16 len) = Memory.store out 0 (blSof :: cmd :: bytes16 len) :=
      Memory.store_append out 0 _ _
    have data : Memory.store
        (Memory.store out 0 (blSof :: cmd :: bytes16 len)) 4 payload =
          Memory.store out 0 (blSof :: cmd :: (bytes16 len ++ payload)) :=
      Memory.store_append out 0 _ _
    rw [command, declared, data]
  have length : (blSof :: cmd :: (bytes16 len ++ payload)).length =
      4 + payload.length := by
    simp only [List.length_cons, List.length_append, bytes16_length]
    omega
  have covered := Memory.load_store_within out 0
    (blSof :: cmd :: (bytes16 len ++ payload)) 1 (payload.length + 3)
    (by omega)
  rw [Nat.zero_add, List.drop_succ_cons, List.drop_zero,
    List.take_of_length_le (by
      simp only [List.length_cons, List.length_append, bytes16_length]
      omega)] at covered
  rw [head, covered]
  have whole := Memory.store_append out 0
    (blSof :: cmd :: (bytes16 len ++ payload))
    (bytes32 (blCrc32 0 (cmd :: (bytes16 len ++ payload))))
  rw [length, Nat.zero_add] at whole
  refine Prod.ext whole ?_
  simp only [List.length_cons, List.length_append, bytes16_length,
    bytes32_length]
  omega

theorem respond_eq {cmd : U8} {status : BlResult} {data : List U8}
    (short : data.length ≤ blMaxResponseData) (responseSize : Nat) :
    respond cmd status data responseSize =
      if 9 + data.length ≤ responseSize then
        .ok (wireFrame cmd (status.code :: data))
      else .error .errUnknown := by
  have dataShort : data.length ≤ 20 := short
  have fits : (status.code :: data).length ≤ blMaxPayload := by
    rw [List.length_cons, blMaxPayload]
    omega
  unfold respond
  rw [if_neg (Nat.not_lt.mpr short)]
  by_cases room : 9 + data.length ≤ responseSize
  · rw [if_pos room, wireFrame_encoded fits (by
      rw [List.length_cons]
      omega)]
  · unfold blFrameEncode
    rw [if_neg room, if_neg (Nat.not_lt.mpr fits), if_pos (by
      rw [List.length_cons]
      omega)]

theorem respondInto_eq (cmd : U8) (status : BlResult) (data : List U8)
    (caller : ResponseBuffer) (responseSize : Nat) :
    respondInto cmd status data caller responseSize =
      Reply.deliver (respond cmd status data responseSize) caller := by
  unfold respondInto
  by_cases long : data.length > blMaxResponseData
  · unfold respond
    rw [if_pos long, if_pos long]
    rfl
  have fits : (status.code :: data).length ≤ blMaxPayload := by
    unfold blMaxResponseData at long
    rw [List.length_cons, blMaxPayload]
    omega
  rw [if_neg long, respond_eq (Nat.le_of_not_lt long), blFrameEncodeInto_eq]
  by_cases room : 9 + data.length ≤ responseSize
  · have length := @wireFrame_length cmd _ fits
    rw [if_pos room, wireFrame_encoded fits (by
      rw [List.length_cons]
      omega)]
    dsimp only
    rw [if_neg (by omega)]
    rfl
  · unfold blFrameEncode
    rw [if_neg room, if_neg (Nat.not_lt.mpr fits), if_pos (by
      rw [List.length_cons]
      omega)]
    rfl

def blCoreHandleFrameInto (port : Port) (session : BlSession)
    (request : BlFrame) (caller : ResponseBuffer) (responseSize : Nat) :
    PortM (BlSession × BlResult × ResponseBuffer) := do
  let (session, reply) ← blCoreHandleFrame port session request responseSize
  pure (session, reply.deliver caller)

/-- What a parser that waits for a frame makes of the response: nothing up to
its last byte, and then one frame with the status in front. -/
structure Decodes (response : List U8) (cmd : U8) (status : BlResult)
    (data : List U8) : Prop where
  reported : ∀ parser : BlFrameParser, parser.state = .waitSof →
    reports frameFeed parser response =
      List.replicate (response.length - 1) none ++
        [some (.complete cmd (status.code :: data))]

theorem wireFrame_decodes {cmd : U8} {status : BlResult} {data : List U8}
    (fits : (status.code :: data).length ≤ blMaxPayload) :
    Decodes (wireFrame cmd (status.code :: data)) cmd status data :=
  ⟨fun _ waits => (reports_waiting waits _).1.trans
    (wireFrame_frames fits).reported.1⟩

/-- Every request is answered with one frame that decodes, or, for want of
room, with an error that leaves the buffer alone. -/
theorem blCoreHandleFrame_answersFrame (port : Port) (session : BlSession)
    (request : BlFrame) (caller : ResponseBuffer) (responseSize : Nat)
    (flash : Flash) (faults : List (Option FlashError))
    (calls : List PortCall) :
    ∃ after result buffer device',
      blCoreHandleFrameInto port session request caller responseSize
          ⟨flash, faults.map .ofFault, calls⟩ =
        .returned (after, result, buffer) device' ∧
      ((result = .ok ∧ buffer.len ≤ min 29 responseSize ∧
          Memory.AgreesOutside 0 buffer.len caller.bytes buffer.bytes ∧
          ∃ status data, Decodes (Memory.load buffer.bytes 0 buffer.len)
            request.cmd status data) ∨
        (result = .errUnknown ∧ buffer = caller)) ∧
      (29 ≤ responseSize → result = .ok) := by
  obtain ⟨⟨after, reply⟩, device', ran, _powered, status, data, short,
    replyEq⟩ := @blCoreHandleFrame_handles port session request responseSize
      _ (powered_faults flash faults calls)
  have dataShort : data.length ≤ 20 := short
  have fits : (status.code :: data).length ≤ blMaxPayload := by
    rw [List.length_cons, blMaxPayload]
    omega
  have length := @wireFrame_length request.cmd _ fits
  rw [List.length_cons] at length
  dsimp only at replyEq
  refine ⟨after, (reply.deliver caller).1, (reply.deliver caller).2, device',
    Prog.bind_returned ran, ?_⟩
  rw [replyEq, respond_eq short]
  by_cases room : 9 + data.length ≤ responseSize
  · rw [if_pos room]
    refine ⟨Or.inl ⟨rfl, ?_, ?_, status, data, ?_⟩, fun _ => rfl⟩
    · simp only [Reply.deliver, length]
      omega
    · exact Memory.store_agreesOutside _ _ _
    · simp only [Reply.deliver, Memory.load_store]
      exact wireFrame_decodes fits
  · rw [if_neg room]
    exact ⟨Or.inr ⟨rfl, rfl⟩, fun enough => by omega⟩

end Stm32Bootloader
