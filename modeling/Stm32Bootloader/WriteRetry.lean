/-
A WRITE that is retried over a link which loses requests and answers.

The host takes a refusal of a retry for the trace of an earlier attempt.  The
device gives that refusal for an earlier attempt that it has performed, but
also for a WRITE that it would not have performed at all.
-/

import Stm32Bootloader.UnreliableLink

namespace Stm32Bootloader

open Interruptible Fallible LittleEndian Memory Blflash LossyLink
  TransitionRun

/-! ### What becomes of an attempt -/

/-- Errors of the flash may befall a request that the device handles. -/
inductive Delivery where
  | answered (faults : List (Option FlashError))
  | answerLost (faults : List (Option FlashError))
  | requestLost
  deriving DecidableEq, Repr

def Delivery.Answered : Delivery → Prop
  | .answered _ => True
  | _ => False

/-- Nothing is delayed, and the device keeps its power. -/
def Delivery.events : Delivery → List BlEvent × List BlEvent
  | .answered faults => ([], [.handle faults, .deliver])
  | .answerLost faults => ([], [.handle faults, .loseResponse 0])
  | .requestLost => ([], [.loseRequest 0])

/-- The device between two attempts, with nothing on its way. -/
structure Wire.Idle (system : System)
    (schedule : List (List BlEvent × List BlEvent)) (wire : Wire) :
    Prop where
  system : wire.link.server.system = system
  requests : wire.link.requests = []
  responses : wire.link.responses = []
  schedule : wire.schedule = schedule

def System.after (port : Port) (responseSize : Nat) (request : BlFrame)
    (system : System) (faults : List (Option FlashError)) : System :=
  systemStep port system
    ⟨.request request responseSize, faults.map .ofFault⟩

def System.afterLost (port : Port) (responseSize : Nat) (request : BlFrame)
    (system : System) (lost : List Delivery) : System :=
  lost.foldl (fun system delivery =>
    match delivery with
    | .answerLost faults => system.after port responseSize request faults
    | _ => system) system

section Attempts

variable {port : Port} {responseSize retries : Nat} {request : BlFrame}
  {system : System} {rest : List (List BlEvent × List BlEvent)}

theorem serve_answered {faults : List (Option FlashError)}
    {status : BlResult} {data bytes : List U8} {wire : Wire}
    (idle : wire.Idle system ((Delivery.answered faults).events :: rest))
    (reply : (Moment.mk system request faults).reply port responseSize =
      some bytes)
    (encoded : respond request.cmd status data responseSize = .ok bytes) :
    ∃ wire', Wire.serve port responseSize request wire =
        .returned [.frame request.cmd (status.code :: data)] wire' ∧
      wire'.Idle (system.after port responseSize request faults) rest := by
  obtain ⟨⟨⟨server, history⟩, requests, responses, arrived⟩, schedule⟩ := wire
  obtain ⟨rfl, rfl, rfl, rfl⟩ := idle
  have ran := attempt_answered (blMachine port responseSize)
    ⟨server, history⟩ arrived request faults
  have answer : ((blMachine port responseSize).handle ⟨server, history⟩
      request faults).2 = some bytes := reply
  rw [answer] at ran
  unfold Wire.serve
  simp only [List.headD_cons, Delivery.events, ran, Option.toList_some,
    List.flatten_singleton, List.tail_cons]
  rw [respond_frames encoded]
  exact ⟨_, rfl, rfl, rfl, rfl, rfl⟩

theorem serve_lost {delivery : Delivery} (lost : ¬ delivery.Answered)
    {wire : Wire} (idle : wire.Idle system (delivery.events :: rest)) :
    ∃ wire', Wire.serve port responseSize request wire = .returned [] wire' ∧
      wire'.Idle (system.afterLost port responseSize request [delivery])
        rest := by
  obtain ⟨⟨⟨server, history⟩, requests, responses, arrived⟩, schedule⟩ := wire
  obtain ⟨rfl, rfl, rfl, rfl⟩ := idle
  unfold Wire.serve
  cases delivery with
  | answered faults => exact absurd trivial lost
  | answerLost faults =>
      simp only [List.headD_cons, Delivery.events, attempt_answerLost,
        List.flatten_nil, List.tail_cons]
      exact ⟨_, rfl, rfl, rfl, rfl, rfl⟩
  | requestLost =>
      simp only [List.headD_cons, Delivery.events, attempt_requestLost,
        List.flatten_nil, List.tail_cons]
      exact ⟨_, rfl, rfl, rfl, rfl, rfl⟩

theorem serve_ensures {system' : System}
    {schedule : List (List BlEvent × List BlEvent)} {yields : List Received}
    (served : ∀ wire : Wire, wire.Idle system schedule →
      ∃ wire', Wire.serve port responseSize request wire =
          .returned yields wire' ∧ wire'.Idle system' rest)
    {stopped : Option HostError → Wire → Prop} :
    Ensures (Wire.Idle system schedule)
      (ExceptT.lift ((unreliable port responseSize retries).port request) :
        HostM Wire (List Received))
      (fun received wire => received = yields ∧ wire.Idle system' rest)
      stopped := by
  refine Ensures.lift fun wire idle => ?_
  obtain ⟨wire', ran, idle'⟩ := served wire idle
  change match Wire.serve port responseSize request wire with
    | .returned received wire => received = yields ∧ wire.Idle system' rest
    | .lost wire => stopped none wire
  rw [ran]
  exact ⟨rfl, idle'⟩

variable {after : Response → Wire → Prop}
  {stopped : Option HostError → Wire → Prop}

theorem attempt_lost {lost : List Delivery}
    (silent : ∀ delivery, delivery ∈ lost → ¬ delivery.Answered)
    {number left : Nat} {last : Option AttemptError}
    (later : ∀ last, Ensures
      (Wire.Idle (system.afterLost port responseSize request lost) rest)
      ((unreliable port responseSize retries).attempt request left
        (number + lost.length) last) after stopped) :
    Ensures (Wire.Idle system (lost.map Delivery.events ++ rest))
      ((unreliable port responseSize retries).attempt request
        (lost.length + left) number last) after stopped := by
  induction lost generalizing system number last with
  | nil =>
      rw [List.length_nil, Nat.zero_add]
      exact later last
  | cons delivery more ih =>
      rw [List.forall_mem_cons] at silent
      rw [List.length_cons, Nat.add_right_comm]
      refine Ensures.bind_known (serve_ensures fun wire idle =>
        serve_lost silent.1 idle) ?_
      refine ih silent.2 fun last => ?_
      have rest := later last
      rwa [List.length_cons, Nat.add_comm more.length, ← Nat.add_assoc]
        at rest

theorem attempt_silent {lost : List Delivery}
    (silent : ∀ delivery, delivery ∈ lost → ¬ delivery.Answered)
    {number : Nat} {last : Option AttemptError} :
    Ensures (Wire.Idle system (lost.map Delivery.events))
      ((unreliable port responseSize retries).attempt request lost.length
        number last) (fun _ _ => False) (fun _ _ => True) := by
  have none_left := @attempt_lost port responseSize retries request system []
    (fun _ _ => False) (fun _ _ => True) lost silent number 0 last
    (fun _ => Ensures.throw fun _ _ => trivial)
  rwa [List.append_nil, Nat.add_zero] at none_left

theorem attempt_first {lost later : List Delivery}
    {faults : List (Option FlashError)}
    (silent : ∀ delivery, delivery ∈ lost → ¬ delivery.Answered)
    {status : BlResult} {data bytes : List U8}
    (reply : (Moment.mk (system.afterLost port responseSize request lost)
      request faults).reply port responseSize = some bytes)
    (encoded : respond request.cmd status data responseSize = .ok bytes)
    {last : Option AttemptError} :
    Ensures
      (Wire.Idle system
        ((lost ++ .answered faults :: later).map Delivery.events))
      ((unreliable port responseSize retries).attempt request
        (lost ++ .answered faults :: later).length 1 last)
      (fun response wire =>
        response = ⟨request.cmd, status.code, data, 1 + lost.length⟩ ∧
        wire.link.server.system =
          (system.afterLost port responseSize request lost).after port
            responseSize request faults)
      (fun _ _ => False) := by
  rw [List.map_append, List.length_append]
  refine attempt_lost silent fun last => ?_
  refine Ensures.bind_known (serve_ensures fun wire idle =>
    serve_answered idle reply encoded) ?_
  rw [awaitResponse_frame]
  exact Ensures.pure fun wire idle => ⟨rfl, idle.system⟩

end Attempts

/-! ### What the device answers -/

/-- The checks that refuse a WRITE as not erased: no slot is open, or the
bytes lie below what has been written. -/
def BlSession.NotErased (session : BlSession) (offset length : Nat) : Prop :=
  length ≠ 0 ∧
    (session.erased = false ∨
      (offset % 8 = 0 ∧ length % 8 = 0 ∧
        if offset = 0 then session.headerWritten = true
        else offset < session.highestOffset.toNat))

section Device

variable {port : Port} {responseSize : Nat} {request : BlFrame}
  {session : BlSession}

theorem BlFrame.writeOffset_zero :
    request.writeOffset = 0 ↔ request.writeOffset.toNat = 0 := by
  bv_omega

theorem BlFrame.writeLength_toNat (offsetSent : 4 ≤ request.len.toNat) :
    request.writeLength.toNat = request.len.toNat - 4 := by
  have bound := request.lenFits
  simp only [blMaxPayload] at bound
  simp only [BlFrame.writeLength]
  bv_omega

theorem repeated_iff :
    (if request.writeOffset = 0 then session.headerWritten
        else decide (request.writeOffset < session.highestOffset)) = true ↔
      if request.writeOffset.toNat = 0 then session.headerWritten = true
      else request.writeOffset.toNat < session.highestOffset.toNat := by
  by_cases start : request.writeOffset = 0
  · rw [if_pos start, if_pos (BlFrame.writeOffset_zero.mp start)]
  · rw [if_neg start, if_neg (mt BlFrame.writeOffset_zero.mpr start),
      decide_eq_true_eq]
    exact BitVec.lt_def

theorem BlSession.NotErased.opened {offset length : Nat}
    (refused : session.NotErased offset length)
    (erased : session.erased = true) :
    offset % 8 = 0 ∧ length % 8 = 0 ∧
      if offset = 0 then session.headerWritten = true
      else offset < session.highestOffset.toNat := by
  refine refused.2.resolve_left fun closed => ?_
  rw [erased] at closed
  cases closed

theorem write_unadmitted (isWrite : request.cmd = blCmdWrite)
    (offsetSent : 4 ≤ request.len.toNat)
    (unadmitted : ¬ WriteAdmitted port session request) :
    ∃ status, status ≠ .ok ∧
      (status = .errNotErased ↔ session.NotErased
        request.writeOffset.toNat request.writeLength.toNat) ∧
      ∀ device, blCoreHandleFrame port session request responseSize device =
        .returned (session, respond request.cmd status [] responseSize)
          device := by
  have granule : port.writeGranularity = 8 := port.granule
  have declared := BlFrame.writeLength_toNat offsetSent
  have zero := @BlFrame.writeOffset_zero request
  have aligned : ∀ value : U32, value % 8 = 0 ↔ value.toNat % 8 = 0 :=
    fun value => (@BitVec.toNat_inj 32 (value % 8) 0).symm
  rw [blCoreHandleFrame_write _ _ _ isWrite]
  unfold handleWrite
  by_cases short : request.len < 5
  · refine ⟨.errInvalidPacket, by decide, ?_, fun device => ?_⟩
    · refine iff_of_false (by decide) fun refused => refused.1 ?_
      bv_omega
    · rw [if_pos short]
      rfl
  rw [if_neg short]
  have nonempty : request.writeLength.toNat ≠ 0 := by bv_omega
  by_cases erased : session.erased = true
  swap
  · refine ⟨.errNotErased, by decide, ?_, fun device => ?_⟩
    · exact iff_of_true rfl
        ⟨nonempty, Or.inl (Bool.not_eq_true _ |>.mp erased)⟩
    · rw [if_pos erased]
      rfl
  rw [if_neg (not_not_intro erased)]
  dsimp only
  rw [granule]
  by_cases unaligned : request.writeOffset % 8 ≠ 0 ∨
      request.writeLength % 8 ≠ 0
  · refine ⟨.errInvalidArgument, by decide, ?_, fun device => ?_⟩
    · refine iff_of_false (by decide) fun refused => ?_
      obtain ⟨offset, length, _below⟩ := refused.opened erased
      rcases unaligned with other | other
      · exact other ((aligned _).mpr offset)
      · exact other ((aligned _).mpr length)
    · rw [if_pos unaligned]
      rfl
  rw [if_neg unaligned]
  rw [not_or, Decidable.not_not, Decidable.not_not, aligned, aligned]
    at unaligned
  by_cases repeated : (if request.writeOffset = 0 then session.headerWritten
      else decide (request.writeOffset < session.highestOffset)) = true
  · refine ⟨.errNotErased, by decide, ?_, fun device => ?_⟩
    · exact iff_of_true rfl ⟨nonempty,
        Or.inr ⟨unaligned.1, unaligned.2, repeated_iff.mp repeated⟩⟩
    · rw [if_pos repeated]
      rfl
  rw [if_neg repeated]
  have fresh := mt repeated_iff.mpr repeated
  by_cases outside : request.writeOffset >
      (port.layout.slot session.targetSlot).size ∨
      request.writeLength > (port.layout.slot session.targetSlot).size -
        request.writeOffset
  · refine ⟨.errImageSize, by decide, ?_, fun device => ?_⟩
    · exact iff_of_false (by decide) fun refused =>
        fresh (refused.opened erased).2.2
    · rw [if_pos outside]
      rfl
  refine absurd ?_ unadmitted
  rw [not_or] at outside
  exact {
    isWrite := isWrite
    nonempty := by bv_omega
    erased := erased
    offsetAligned := unaligned.1
    lengthAligned := unaligned.2
    ordered := by
      by_cases start : request.writeOffset = 0
      · rw [if_pos (zero.mp start)] at fresh
        rw [if_pos start]
        exact Bool.not_eq_true _ |>.mp fresh
      · rw [if_neg (mt zero.mpr start)] at fresh
        rw [if_neg start]
        omega
    inside := by bv_omega }

theorem BlSession.NotErased.unadmitted
    (refused : session.NotErased request.writeOffset.toNat
      request.writeLength.toNat) :
    ¬ WriteAdmitted port session request := by
  intro admitted
  obtain ⟨_offset, _length, below⟩ := refused.opened admitted.erased
  have ordered := admitted.ordered
  by_cases start : request.writeOffset = 0
  · rw [if_pos start] at ordered
    rw [if_pos (BlFrame.writeOffset_zero.mp start), ordered] at below
    cases below
  · rw [if_neg start] at ordered
    rw [if_neg (mt BlFrame.writeOffset_zero.mpr start)] at below
    omega

theorem BlSession.advance_notErased
    (admitted : WriteAdmitted port session request) :
    (session.advance request.writeOffset request.writeLength).NotErased
      request.writeOffset.toNat request.writeLength.toNat := by
  have four : 5 ≤ request.len.toNat := admitted.nonempty
  have declared := @BlFrame.writeLength_toNat request (by omega)
  have inside := admitted.inside
  have bound := (port.layout.slot session.targetSlot).size.isLt
  refine ⟨by omega, Or.inr ⟨admitted.offsetAligned, admitted.lengthAligned,
    ?_⟩⟩
  by_cases start : request.writeOffset = 0
  · rw [if_pos (BlFrame.writeOffset_zero.mp start)]
    exact if_pos start
  · rw [if_neg (mt BlFrame.writeOffset_zero.mpr start)]
    unfold BlSession.advance
    dsimp only
    split
    · bv_omega
    · bv_omega

theorem write_attempted {system : System}
    (admitted : WriteAdmitted port system.session request)
    (faults : List (Option FlashError)) :
    (∃ (error : FlashError) (device : Device),
      blCoreHandleFrame port system.session request responseSize
          (system.device (faults.map .ofFault)) =
        .returned (system.session,
          respond request.cmd error.result [] responseSize) device ∧
      device.flash = system.flash) ∨
    ∃ device : Device,
      blCoreHandleFrame port system.session request responseSize
          (system.device (faults.map .ofFault)) =
        .returned
          (system.session.advance request.writeOffset request.writeLength,
            respond request.cmd .ok (bytes32 request.writeOffset)
              responseSize) device ∧
      device.flash = (writeCall port system.session request .success).apply
        port system.flash := by
  have outcome : (system.device (faults.map .ofFault)).outcome =
      .ofFault (faults.headD none) := by
    cases faults <;> rfl
  rw [blCoreHandleFrame_admitted admitted]
  cases fault : faults.headD none with
  | some error =>
      have refused : blFlashWrite port
          ((port.layout.slot system.session.targetSlot).base +
            request.writeOffset) request.writeData
          (system.device (faults.map .ofFault)) =
        .returned error.result
          ((system.device (faults.map .ofFault)).called port
            (writeCall port system.session request (.failure error))) := by
        unfold blFlashWrite
        rw [outcome, fault]
        rfl
      refine Or.inl ⟨error,
        (system.device (faults.map .ofFault)).called port
          (writeCall port system.session request (.failure error)), ?_,
        apply_write_failure port system.flash _ _ error⟩
      rw [Prog.bind_returned refused, if_pos error.result_ne_ok]
      rfl
  | none =>
      have wrote : blFlashWrite port
          ((port.layout.slot system.session.targetSlot).base +
            request.writeOffset) request.writeData
          (system.device (faults.map .ofFault)) =
        .returned .ok
          ((system.device (faults.map .ofFault)).called port
            (writeCall port system.session request .success)) := by
        unfold blFlashWrite
        rw [outcome, fault]
        rfl
      refine Or.inr ⟨(system.device (faults.map .ofFault)).called port
        (writeCall port system.session request .success), ?_, rfl⟩
      rw [Prog.bind_returned wrote, if_neg (not_not_intro rfl)]
      rfl

section Handled

variable {system : System} {faults : List (Option FlashError)}
  {status : BlResult} {data : List U8} {session : BlSession}
  {device : Device}
  (ran : blCoreHandleFrame port system.session request responseSize
      (system.device (faults.map .ofFault)) =
    .returned (session, respond request.cmd status data responseSize) device)

include ran

theorem reply_handled {bytes : List U8}
    (encoded : respond request.cmd status data responseSize = .ok bytes) :
    (Moment.mk system request faults).reply port responseSize =
      some bytes := by
  unfold Moment.reply
  rw [ran, encoded]

theorem after_handled :
    system.after port responseSize request faults =
      ⟨session, device.flash, device.calls⟩ := by
  unfold System.after systemStep
  dsimp only
  rw [ran]
  rfl

end Handled

theorem afterLost_fixed {system : System}
    (fixed : ∀ faults,
      system.after port responseSize request faults = system)
    (lost : List Delivery) :
    system.afterLost port responseSize request lost = system := by
  induction lost with
  | nil => rfl
  | cons delivery later ih =>
      cases delivery with
      | answerLost faults =>
          unfold System.afterLost at ih ⊢
          rw [List.foldl_cons]
          dsimp only
          rw [fixed]
          exact ih
      | answered faults => exact ih
      | requestLost => exact ih

end Device

/-! ### The bytes of a WRITE -/

section Write

variable (port : Port) (responseSize : Nat) (start : System) (offset : Nat)
  (data : List U8)

/-- Where the device programs the data, in the arithmetic of the device. -/
def writeAddress (port : Port) (session : BlSession) (offset : Nat) : Nat :=
  ((port.layout.slot session.targetSlot).base +
    BitVec.ofNat 32 offset).toNat

def Landed (port : Port) (session : BlSession) (offset : Nat)
    (data : List U8) (flash : Flash) : Prop :=
  load flash (writeAddress port session offset) data.length = data

def hostWrite (fits : (bytes32 (BitVec.ofNat 32 offset) ++ data).length ≤
    Blproto.maxPayload) : BlFrame :=
  .ofBytes Blproto.cmdWrite (bytes32 (BitVec.ofNat 32 offset) ++ data) fits

variable {port responseSize start offset data}
  (room : blMinResponseSize ≤ responseSize) (inWord : offset < 2 ^ 32)
  (fits : (bytes32 (BitVec.ofNat 32 offset) ++ data).length ≤
    Blproto.maxPayload)

theorem hostWrite_length :
    (hostWrite offset data fits).len.toNat = 4 + data.length ∧
      (hostWrite offset data fits).writeLength.toNat = data.length := by
  have short := fits
  simp only [List.length_append, bytes32_length, Blproto.maxPayload]
    at short
  have total : (hostWrite offset data fits).len.toNat = 4 + data.length := by
    simp only [hostWrite, BlFrame.ofBytes, List.length_append,
      bytes32_length, BitVec.toNat_ofNat]
    omega
  refine ⟨total, ?_⟩
  simp only [BlFrame.writeLength]
  bv_omega

include inWord in
theorem hostWrite_offset :
    (hostWrite offset data fits).writeOffset = BitVec.ofNat 32 offset ∧
      (hostWrite offset data fits).writeOffset.toNat = offset := by
  have named : (hostWrite offset data fits).writeOffset =
      BitVec.ofNat 32 offset := ofBytes_writeOffset _ _ fits
  refine ⟨named, ?_⟩
  rw [named, BitVec.toNat_ofNat, Nat.mod_eq_of_lt inWord]

include room in
theorem hostWrite_refused {system : System}
    (unadmitted : ¬ WriteAdmitted port system.session
      (hostWrite offset data fits)) :
    (∀ faults, system.after port responseSize (hostWrite offset data fits)
        faults = system) ∧
      ∃ status bytes, status ≠ .ok ∧
        (status = .errNotErased ↔ system.session.NotErased
          (hostWrite offset data fits).writeOffset.toNat data.length) ∧
        (∀ faults, (Moment.mk system (hostWrite offset data fits)
          faults).reply port responseSize = some bytes) ∧
        respond Blproto.cmdWrite status [] responseSize = .ok bytes := by
  obtain ⟨long, length⟩ := @hostWrite_length offset data fits
  obtain ⟨status, failed, cause, ran⟩ := @write_unadmitted port responseSize
    _ system.session rfl (by omega) unadmitted
  obtain ⟨bytes, encoded⟩ := @respond_encoded Blproto.cmdWrite status []
    responseSize (Nat.zero_le _) room
  rw [length] at cause
  exact ⟨fun _ => after_handled (ran _), status, bytes, failed, cause,
    fun _ => reply_handled (ran _) encoded, encoded⟩

section Admitted

variable {system : System}
  (admitted : WriteAdmitted port system.session (hostWrite offset data fits))

include room inWord admitted

/-- A WRITE that is admitted fails in flash and leaves the device as it was,
or it programs the data and from then on is refused as not erased. -/
theorem hostWrite_attempted (faults : List (Option FlashError)) :
    let after := system.after port responseSize (hostWrite offset data fits)
      faults
    let reply := (Moment.mk system (hostWrite offset data fits)
      faults).reply port responseSize
    (after.session = system.session ∧ after.flash = system.flash ∧
        ∃ (error : FlashError) (bytes : List U8), reply = some bytes ∧
          respond Blproto.cmdWrite error.result [] responseSize =
            .ok bytes) ∨
      (Landed port system.session offset data after.flash ∧
        after.session.NotErased offset data.length ∧
        ¬ WriteAdmitted port after.session (hostWrite offset data fits) ∧
        ∃ bytes, reply = some bytes ∧
          respond Blproto.cmdWrite .ok (bytes32 (BitVec.ofNat 32 offset))
            responseSize = .ok bytes) := by
  obtain ⟨named, place⟩ := @hostWrite_offset offset data inWord fits
  obtain ⟨_long, length⟩ := @hostWrite_length offset data fits
  have stored : (hostWrite offset data fits).writeData = data :=
    ofBytes_writeData _ _ fits
  intro after reply
  rcases @write_attempted port responseSize _ system admitted faults with
    ⟨error, device, ran, same⟩ | ⟨device, ran, programmed⟩
  · obtain ⟨bytes, encoded⟩ := @respond_encoded Blproto.cmdWrite
      error.result [] responseSize (Nat.zero_le _) room
    have ended : after = _ := after_handled ran
    rw [ended]
    exact Or.inl ⟨rfl, same, error, bytes, reply_handled ran encoded,
      encoded⟩
  · obtain ⟨bytes, encoded⟩ := @respond_encoded Blproto.cmdWrite .ok
      (bytes32 (BitVec.ofNat 32 offset)) responseSize (Nat.le_add_left 4 16)
      room
    have advanced := BlSession.advance_notErased admitted
    have unadmitted := @BlSession.NotErased.unadmitted port _ _ advanced
    rw [place, length] at advanced
    rw [named] at ran
    have ended : after = _ := after_handled ran
    rw [ended]
    refine Or.inr ⟨?_, ?_, ?_, bytes, reply_handled ran encoded, encoded⟩
    · unfold Landed writeAddress
      rw [programmed, writeCall, apply_write, stored, named,
        FlashOutcome.extent_success, List.take_length]
      exact load_store _ _ _
    · rw [named] at advanced
      exact advanced
    · rw [named] at unadmitted
      exact unadmitted

theorem afterLost_admitted (lost : List Delivery) :
    let after := system.afterLost port responseSize
      (hostWrite offset data fits) lost
    (after.session = system.session ∧ after.flash = system.flash) ∨
      (lost ≠ [] ∧ Landed port system.session offset data after.flash ∧
        after.session.NotErased offset data.length ∧
        ¬ WriteAdmitted port after.session
          (hostWrite offset data fits)) := by
  induction lost generalizing system with
  | nil => exact Or.inl ⟨rfl, rfl⟩
  | cons delivery later ih =>
      cases delivery with
      | answered faults =>
          exact (ih admitted).imp_right fun ⟨_some, lands⟩ =>
            ⟨List.cons_ne_nil _ _, lands⟩
      | requestLost =>
          exact (ih admitted).imp_right fun ⟨_some, lands⟩ =>
            ⟨List.cons_ne_nil _ _, lands⟩
      | answerLost faults =>
          rcases hostWrite_attempted room inWord fits admitted faults with
            ⟨sameSession, sameFlash, _failed⟩ |
            ⟨lands, refuses, unadmitted, _acknowledged⟩
          · have still := ih (by rw [sameSession]; exact admitted)
            rw [sameSession, sameFlash] at still
            exact still.imp_right fun ⟨_some, lands⟩ =>
              ⟨List.cons_ne_nil _ _, lands⟩
          · have kept := afterLost_fixed
              (hostWrite_refused room fits unadmitted).1 later
            have ended : system.afterLost port responseSize
                (hostWrite offset data fits) (.answerLost faults :: later) =
              system.after port responseSize (hostWrite offset data fits)
                faults := kept
            dsimp only
            rw [ended]
            exact Or.inr ⟨List.cons_ne_nil _ _, lands, refuses, unadmitted⟩

end Admitted

end Write

/-! ### A write that returns -/

section Returns

variable {port : Port} {responseSize : Nat} {start : System} {offset : Nat}
  {data : List U8} {pattern : List Delivery}

/-- The WRITE would be refused as not erased without any retry. -/
def BlSession.Refuses (session : BlSession) (offset : Nat)
    (data : List U8) : Prop :=
  offset < 2 ^ 32 ∧ 4 + data.length ≤ Blproto.maxPayload ∧
    session.NotErased offset data.length

/-- The conditions under which the host misreads the refusal of a retry. -/
def Misread (port : Port) (start : System) (offset : Nat) (data : List U8)
    (pattern : List Delivery) : Prop :=
  start.session.Refuses offset data ∧
    (∃ delivery, delivery ∈ pattern ∧ delivery.Answered) ∧
    (∀ first, pattern.head? = some first → ¬ first.Answered) ∧
    ¬ Landed port start.session offset data start.flash

theorem initial_idle (system : System)
    (schedule : List (List BlEvent × List BlEvent)) :
    (Wire.initial system schedule).Idle system schedule :=
  ⟨rfl, rfl, rfl, rfl⟩

theorem first_answered {pattern : List Delivery}
    (answers : ∃ delivery, delivery ∈ pattern ∧ delivery.Answered) :
    ∃ lost faults later, pattern = lost ++ .answered faults :: later ∧
      ∀ delivery, delivery ∈ lost → ¬ delivery.Answered := by
  induction pattern with
  | nil =>
      obtain ⟨delivery, impossible, _answered⟩ := answers
      cases impossible
  | cons first more ih =>
      by_cases first_ : first.Answered
      · cases first with
        | answered faults =>
            exact ⟨[], faults, more, rfl, List.forall_mem_nil _⟩
        | answerLost faults => exact first_.elim
        | requestLost => exact first_.elim
      · obtain ⟨delivery, member, answered⟩ := answers
        have later : delivery ∈ more := by
          rcases List.mem_cons.mp member with rfl | later
          · exact absurd answered first_
          · exact later
        obtain ⟨lost, final, rest, rfl, silent⟩ :=
          ih ⟨delivery, later, answered⟩
        exact ⟨first :: lost, final, rest, rfl,
          List.forall_mem_cons.mpr ⟨first_, silent⟩⟩

variable (inWord : offset < 2 ^ 32)
  (fits : (bytes32 (BitVec.ofNat 32 offset) ++ data).length ≤
    Blproto.maxPayload)

include inWord fits

theorem write_silent
    (silent : ∀ delivery, delivery ∈ pattern → ¬ delivery.Answered) :
    Ensures (Wire.Idle start (pattern.map Delivery.events))
      ((unreliable port responseSize pattern.length).write offset data)
      (fun _ _ => False) (fun _ _ => True) := by
  unfold Bootloader.write Bootloader.transact
  rw [if_pos inWord, dif_pos fits]
  exact Ensures.bind (attempt_silent silent) fun _ =>
    ⟨fun _ impossible => impossible.elim⟩

variable {lost later : List Delivery} {faults : List (Option FlashError)}
  (silent : ∀ delivery, delivery ∈ lost → ¬ delivery.Answered)
  {status : BlResult} {reply bytes : List U8}
  (replied : (Moment.mk (start.afterLost port responseSize
      (hostWrite offset data fits) lost) (hostWrite offset data fits)
      faults).reply port responseSize = some bytes)
  (encoded : respond Blproto.cmdWrite status reply responseSize = .ok bytes)

include silent replied encoded

omit inWord in
theorem transact_first :
    Ensures
      (Wire.Idle start
        ((lost ++ .answered faults :: later).map Delivery.events))
      ((unreliable port responseSize
        (lost ++ .answered faults :: later).length).transact Blproto.cmdWrite
          (bytes32 (BitVec.ofNat 32 offset) ++ data))
      (fun response wire =>
        response =
          ⟨Blproto.cmdWrite, status.code, reply, 1 + lost.length⟩ ∧
        wire.link.server.system =
          (start.afterLost port responseSize (hostWrite offset data fits)
            lost).after port responseSize (hostWrite offset data fits) faults)
      (fun _ _ => False) := by
  unfold Bootloader.transact
  rw [dif_pos fits]
  exact attempt_first silent replied encoded

theorem write_acknowledged (isOk : status = .ok)
    (echo : reply = bytes32 (BitVec.ofNat 32 offset)) :
    Ensures
      (Wire.Idle start
        ((lost ++ .answered faults :: later).map Delivery.events))
      ((unreliable port responseSize
        (lost ++ .answered faults :: later).length).write offset data)
      (fun _ wire => wire.link.server.system =
        (start.afterLost port responseSize (hostWrite offset data fits)
          lost).after port responseSize (hostWrite offset data fits) faults)
      (fun _ _ => False) := by
  subst isOk echo
  have okCode : BlResult.ok.code = Blproto.ok := rfl
  unfold Bootloader.write
  rw [if_pos inWord]
  refine Ensures.bind_known (transact_first fits silent replied encoded) ?_
  dsimp only
  rw [if_pos okCode, natOfBytes_take inWord, if_neg (not_not_intro rfl)]
  exact Ensures.pure fun _ ends => ends

theorem write_forgiven (isNotErased : status = .errNotErased)
    (retried : lost ≠ []) :
    Ensures
      (Wire.Idle start
        ((lost ++ .answered faults :: later).map Delivery.events))
      ((unreliable port responseSize
        (lost ++ .answered faults :: later).length).write offset data)
      (fun _ wire => wire.link.server.system =
        (start.afterLost port responseSize (hostWrite offset data fits)
          lost).after port responseSize (hostWrite offset data fits) faults)
      (fun _ _ => False) := by
  subst isNotErased
  have notOk : ¬ BlResult.errNotErased.code = Blproto.ok := by decide
  have forgiven : BlResult.errNotErased.code = Blproto.errNotErased ∧
      1 + lost.length > 1 :=
    ⟨rfl, Nat.lt_add_of_pos_right (List.length_pos_iff.mpr retried)⟩
  unfold Bootloader.write
  rw [if_pos inWord]
  refine Ensures.bind_known (transact_first fits silent replied encoded) ?_
  dsimp only
  rw [if_neg notOk, if_pos forgiven]
  exact Ensures.pure fun _ ends => ends

theorem write_refused (failed : status ≠ .ok)
    (fatal : status = .errNotErased → lost = []) :
    Ensures
      (Wire.Idle start
        ((lost ++ .answered faults :: later).map Delivery.events))
      ((unreliable port responseSize
        (lost ++ .answered faults :: later).length).write offset data)
      (fun _ _ => False) (fun _ _ => True) := by
  have notOk : ¬ status.code = Blproto.ok :=
    fun same => failed (BlResult.code_injective same)
  have unforgiven : ¬ (status.code = Blproto.errNotErased ∧
      1 + lost.length > 1) := by
    rintro ⟨same, retried⟩
    rw [fatal (BlResult.code_injective same)] at retried
    exact absurd retried (Nat.lt_irrefl 1)
  unfold Bootloader.write
  rw [if_pos inWord]
  refine Ensures.bind_known ((transact_first fits silent replied
    encoded).weaken (fun _ holds => holds) (fun _ _ holds => holds)
      (fun _ _ _ => trivial)) ?_
  dsimp only
  rw [if_neg notOk, if_neg unforgiven]
  exact Ensures.throw fun _ _ => trivial

end Returns

section Landing

variable {port : Port} {responseSize : Nat}
  (room : blMinResponseSize ≤ responseSize) {start : System} {offset : Nat}
  {data : List U8} {lost : List Delivery}
  (faults : List (Option FlashError)) (later : List Delivery)
  (silent : ∀ delivery, delivery ∈ lost → ¬ delivery.Answered)
  (inWord : offset < 2 ^ 32)
  (fits : (bytes32 (BitVec.ofNat 32 offset) ++ data).length ≤
    Blproto.maxPayload)

include room silent inWord fits

/-- Of a WRITE that the device admits, the first attempt that its flash does
not refuse lands, whether it is answered or not. -/
theorem write_landed_admitted
    (admitted : WriteAdmitted port start.session
      (hostWrite offset data fits)) :
    Ensures
      (Wire.Idle start
        ((lost ++ .answered faults :: later).map Delivery.events))
      ((unreliable port responseSize
        (lost ++ .answered faults :: later).length).write offset data)
      (fun _ wire => Landed port start.session offset data
        wire.link.server.system.flash)
      (fun _ _ => True) := by
  rcases afterLost_admitted room inWord fits admitted lost with
    ⟨sameSession, _sameFlash⟩ | ⟨retried, landed, refuses, unadmitted⟩
  · have still : WriteAdmitted port
        (start.afterLost port responseSize (hostWrite offset data fits)
          lost).session (hostWrite offset data fits) := by
      rw [sameSession]
      exact admitted
    rcases hostWrite_attempted room inWord fits still faults with
      ⟨_session, _flash, error, bytes, replied, encoded⟩ |
      ⟨landed, _refuses, _unadmitted, bytes, replied, encoded⟩
    · have fatal : error.result ≠ .errNotErased := by cases error <;> decide
      exact (write_refused inWord fits silent replied encoded
        error.result_ne_ok fun same => absurd same fatal).weaken
        (fun _ holds => holds) (fun _ _ impossible => impossible.elim)
        (fun _ _ holds => holds)
    · refine (write_acknowledged inWord fits silent replied encoded rfl
        rfl).weaken (fun _ holds => holds) (fun _ wire ends => ?_)
        (fun _ _ _ => trivial)
      rw [ends, ← sameSession]
      exact landed
  · obtain ⟨fixed, status, bytes, _failed, cause, replied, encoded⟩ :=
      hostWrite_refused room fits unadmitted
    rw [(hostWrite_offset inWord fits).2] at cause
    refine (write_forgiven inWord fits silent (replied faults) encoded
      (cause.mpr refuses) retried).weaken (fun _ holds => holds)
      (fun _ wire ends => ?_) (fun _ _ _ => trivial)
    rw [ends, fixed]
    exact landed

/-- Of a WRITE that the device does not admit, no attempt changes anything,
and the host returns if the refusal of a retry is that of a repetition. -/
theorem write_landed_refused
    (unadmitted : ¬ WriteAdmitted port start.session
      (hostWrite offset data fits)) :
    Ensures
      (Wire.Idle start
        ((lost ++ .answered faults :: later).map Delivery.events))
      ((unreliable port responseSize
        (lost ++ .answered faults :: later).length).write offset data)
      (fun _ wire =>
        (start.session.NotErased offset data.length ∧ lost ≠ []) ∧
          wire.link.server.system = start)
      (fun _ _ =>
        ¬ (start.session.NotErased offset data.length ∧ lost ≠ [])) := by
  obtain ⟨_named, place⟩ := @hostWrite_offset offset data inWord fits
  obtain ⟨fixed, status, bytes, failed, cause, replied, encoded⟩ :=
    hostWrite_refused room fits unadmitted
  rw [place] at cause
  have kept := afterLost_fixed fixed lost
  have answered := replied faults
  rw [← kept] at answered
  by_cases forgiven : start.session.NotErased offset data.length ∧ lost ≠ []
  · refine (write_forgiven inWord fits silent answered encoded
      (cause.mpr forgiven.1) forgiven.2).weaken (fun _ holds => holds)
      (fun _ wire ends => ⟨forgiven, ?_⟩)
      (fun _ _ impossible => impossible.elim)
    rw [ends, kept, fixed]
  · refine (write_refused inWord fits silent answered encoded failed
      fun notErased => ?_).weaken (fun _ holds => holds)
      (fun _ _ impossible => impossible.elim) (fun _ _ _ => forgiven)
    by_contra retried
    exact forgiven ⟨cause.mp notErased, retried⟩

end Landing

/-- The bytes of a write that has returned are in flash, unless it was a
retry of a WRITE that the device refuses as not erased anyway. -/
theorem write_landed_iff (port : Port) {responseSize : Nat}
    (room : blMinResponseSize ≤ responseSize) (start : System)
    (offset : Nat) (data : List U8) (pattern : List Delivery) :
    (∀ wire,
        ((unreliable port responseSize pattern.length).write offset data).run
            (Wire.initial start (pattern.map Delivery.events)) =
          .returned (.ok ()) wire →
        Landed port start.session offset data
          wire.link.server.system.flash) ↔
      ¬ Misread port start offset data pattern := by
  have idle := initial_idle start (pattern.map Delivery.events)
  by_cases inWord : offset < 2 ^ 32
  swap
  · have raised : Ensures (Wire.Idle start (pattern.map Delivery.events))
        ((unreliable port responseSize pattern.length).write offset data)
        (fun _ _ => False) (fun _ _ => True) := by
      unfold Bootloader.write
      rw [if_neg inWord]
      exact Ensures.throw fun _ _ => trivial
    exact iff_of_true (fun wire ran => (raised.value idle ran).elim)
      (fun misread => inWord misread.1.1)
  by_cases fits : (bytes32 (BitVec.ofNat 32 offset) ++ data).length ≤
      Blproto.maxPayload
  swap
  · have raised : Ensures (Wire.Idle start (pattern.map Delivery.events))
        ((unreliable port responseSize pattern.length).write offset data)
        (fun _ _ => False) (fun _ _ => True) := by
      unfold Bootloader.write Bootloader.transact
      rw [if_pos inWord, dif_neg fits]
      exact Ensures.throw fun _ _ => trivial
    refine iff_of_true (fun wire ran => (raised.value idle ran).elim)
      (fun misread => fits ?_)
    rw [List.length_append, bytes32_length]
    exact misread.1.2.1
  have fitsNat : 4 + data.length ≤ Blproto.maxPayload := by
    rwa [List.length_append, bytes32_length] at fits
  by_cases answers : ∃ delivery, delivery ∈ pattern ∧ delivery.Answered
  swap
  · have silent : ∀ delivery, delivery ∈ pattern → ¬ delivery.Answered :=
      fun delivery member answered => answers ⟨delivery, member, answered⟩
    exact iff_of_true
      (fun wire ran => ((write_silent inWord fits silent).value idle
        ran).elim)
      (fun misread => answers misread.2.1)
  obtain ⟨lost, faults, later, rfl, silent⟩ := first_answered answers
  have retried : (∀ first, (lost ++ .answered faults :: later).head? =
      some first → ¬ first.Answered) ↔ lost ≠ [] := by
    cases lost with
    | nil =>
        exact iff_of_false (fun unanswered => unanswered _ rfl trivial)
          (fun some_ => some_ rfl)
    | cons head more =>
        refine iff_of_true (fun first isFirst => ?_) (List.cons_ne_nil _ _)
        cases isFirst
        exact silent head List.mem_cons_self
  by_cases admitted : WriteAdmitted port start.session
      (hostWrite offset data fits)
  · have lands :=
      write_landed_admitted room faults later silent inWord fits admitted
    refine iff_of_true (fun wire ran => lands.value idle ran)
      fun misread => ?_
    have refused := misread.1.2.2
    rw [← (hostWrite_offset inWord fits).2, ← (hostWrite_length fits).2]
      at refused
    exact refused.unadmitted admitted
  · have ends :=
      write_landed_refused room faults later silent inWord fits admitted
    constructor
    · intro landed misread
      have stops := ends.weaken (fun _ holds => holds)
        (fun _ _ holds => holds)
        (fun _ _ unforgiven => unforgiven
          ⟨misread.1.2.2, retried.mp misread.2.2.1⟩)
      obtain ⟨_, wire, ran, _forgiven, same⟩ := stops.returns idle
      have after := landed wire ran
      rw [same] at after
      exact misread.2.2.2 after
    · intro sound wire ran
      obtain ⟨forgiven, same⟩ := ends.value idle ran
      rw [same]
      by_contra unlanded
      exact sound ⟨⟨inWord, fitsNat, forgiven.1⟩, answers,
        retried.mpr forgiven.2, unlanded⟩

/-- The acknowledgement of a WRITE that has landed is lost. -/
theorem write_landed_iff_lostAnswer :
    (∀ wire,
        ((unreliable hostPort blMinResponseSize
            [Delivery.answerLost [], .answered []].length).write 512
              (List.replicate 8 0x5A)).run
            (Wire.initial
              ⟨BlSession.zeroed.eraseSlot blSlotA, fun _ => 0xFF, []⟩
              ([Delivery.answerLost [], .answered []].map
                Delivery.events)) =
          .returned (.ok ()) wire →
        Landed hostPort (BlSession.zeroed.eraseSlot blSlotA) 512
          (List.replicate 8 0x5A) wire.link.server.system.flash) ↔
      ¬ Misread hostPort
        ⟨BlSession.zeroed.eraseSlot blSlotA, fun _ => 0xFF, []⟩ 512
        (List.replicate 8 0x5A) [.answerLost [], .answered []] :=
  write_landed_iff hostPort (Nat.le_refl _) _ _ _ _

/-- A first attempt that is lost, and a second that is answered. -/
def retriedPattern : List Delivery := [.requestLost, .answered []]

theorem retriedWrite_returns :
    let outcome := ((unreliable hostPort blMinResponseSize
      retriedPattern.length).write 512 (List.replicate 8 0x5A)).run
        (Wire.initial (System.initial fun _ => 0xFF)
          (retriedPattern.map Delivery.events))
    Fallible.result outcome = some () ∧
      load outcome.state.link.server.system.flash
        (writeAddress hostPort BlSession.zeroed 512) 8 =
          List.replicate 8 0xFF := by
  decide +kernel

/-- A device that has not erased anything since it was reset refuses the
retry, and the host takes the write for done. -/
theorem retriedWrite_unlanded :
    ¬ ∀ (port : Port) (responseSize : Nat) (start : System) (offset : Nat)
      (data : List U8) (pattern : List Delivery) (wire : Wire),
      blMinResponseSize ≤ responseSize →
      ((unreliable port responseSize pattern.length).write offset data).run
          (Wire.initial start (pattern.map Delivery.events)) =
        .returned (.ok ()) wire →
      Landed port start.session offset data
        wire.link.server.system.flash := by
  intro landed
  obtain ⟨returns, unwritten⟩ := retriedWrite_returns
  have holds := landed hostPort blMinResponseSize
    (System.initial fun _ => 0xFF) 512 (List.replicate 8 0x5A)
    retriedPattern _ (Nat.le_refl _) (result_some returns)
  unfold Landed at holds
  rw [List.length_replicate] at holds
  exact absurd (unwritten.symm.trans holds) (by decide)

end Stm32Bootloader
