/-
The commands status and verify of tools/blflash.py on a link that delays.

Whatever becomes of their requests and answers, they leave the device as it
is.  An answer does not say which slot was asked about, so an answer that
comes late to the question about one slot may be taken for that to the
question about the next.  What status says about the first slot is true of it,
and so is what verify says on its own; what status says about the second slot
may be about the first.
-/

import Stm32Bootloader.LossyUpdate

namespace Stm32Bootloader

open Interruptible Fallible LittleEndian Blflash LossyLink TransitionRun

namespace Blflash

section Commands

variable {σ : Type}

/-- What `_cmd_status` has printed when it ends, and the error, if any, that
ended it. -/
structure StatusOutput where
  device : Option DeviceInfo
  slots : List (Except U8 SlotInfo)
  stopped : Option HostError

/-- The lines about these slots, up to an error. -/
def Bootloader.statuses (loader : Bootloader σ) :
    List Nat → HostM σ (List (Except U8 SlotInfo) × Option HostError)
  | [] => pure ([], none)
  | slot :: later => do
      match ← caught (loader.slotStatus slot) with
      | .error error => pure ([], some error)
      | .ok status => do
          let (rest, stopped) ← loader.statuses later
          pure (status :: rest, stopped)

def cmdStatus (loader : Bootloader σ) : HostM σ StatusOutput := do
  match ← caught loader.hello with
  | .error error => pure ⟨none, [], some error⟩
  | .ok info => do
      let (slots, stopped) ← loader.statuses (List.range info.slotCount)
      pure ⟨some info, slots, stopped⟩

/-- The computation was not stopped by the status of a response. -/
def Unrefused (reason : Option HostError) : Prop :=
  ∀ cmd status, reason ≠ some (.refused cmd status)

variable {loader : Bootloader σ} {invariant : σ → Prop}

theorem Bootloader.attempt_means {request : BlFrame}
    {Means : List U8 → Prop}
    (served : Ensures invariant
      (ExceptT.lift (loader.port request) : HostM σ (List Received))
      (fun received state => invariant state ∧ ∀ payload,
        .frame request.cmd payload ∈ received → Means payload)
      (fun reason state => invariant state ∧ Unrefused reason))
    (left number : Nat) (last : Option AttemptError) :
    Ensures invariant (loader.attempt request left number last)
      (fun response state => invariant state ∧
        Means (response.status :: response.data))
      (fun reason state => invariant state ∧ Unrefused reason) := by
  induction left generalizing number last with
  | zero => exact Ensures.throw fun _ holds => ⟨holds, nofun⟩
  | succ left ih =>
      refine Ensures.bind served fun received => ?_
      cases awaited : awaitResponse request.cmd received with
      | error error =>
          exact (ih _ _).weaken (fun _ holds => holds.1)
            (fun _ _ holds => holds) (fun _ _ holds => holds)
      | ok response =>
          cases response with
          | nil =>
              exact (ih _ _).weaken (fun _ holds => holds.1)
                (fun _ _ holds => holds) (fun _ _ holds => holds)
          | cons status data =>
              exact Ensures.pure fun state holds =>
                ⟨holds.1, holds.2 _ (awaitResponse_mem awaited)⟩

theorem Bootloader.transact_means {cmd : U8} {payload : List U8}
    {Means : List U8 → Prop}
    (served : ∀ fits, Ensures invariant
      (ExceptT.lift (loader.port (BlFrame.ofBytes cmd payload fits)) :
        HostM σ (List Received))
      (fun received state => invariant state ∧ ∀ payload,
        .frame cmd payload ∈ received → Means payload)
      (fun reason state => invariant state ∧ Unrefused reason)) :
    Ensures invariant (loader.transact cmd payload)
      (fun response state => invariant state ∧
        Means (response.status :: response.data))
      (fun reason state => invariant state ∧ Unrefused reason) := by
  unfold transact
  by_cases fits : payload.length ≤ Blproto.maxPayload
  · rw [dif_pos fits]
    exact attempt_means (served fits) _ _ _
  · rw [dif_neg fits]
    exact Ensures.throw fun _ holds => ⟨holds, nofun⟩

end Commands

end Blflash

/-! ### Queries and their answers -/

def verifyAnswer (layout : BlLayout) (flash : Flash) (slot : U8) :
    List U8 :=
  match blCoreValidateSlot layout flash slot with
  | .error result => [result.code]
  | .ok hdr => BlResult.ok.code :: (bytes32 hdr.imgSize ++
      bytes32 hdr.imgCrc32 ++ bytes32 hdr.fwVersion)

/-- A HELLO, or a VERIFY of one of these slots. -/
inductive Query (asked : List U8) : BlFrame → Prop where
  | hello (fits : ([] : List U8).length ≤ blMaxPayload) :
      Query asked (BlFrame.ofBytes Blproto.cmdHello [] fits)
  | verify (slot : U8) (known : slot ∈ asked)
      (fits : [slot].length ≤ blMaxPayload) :
      Query asked (BlFrame.ofBytes Blproto.cmdVerify [slot] fits)

/-- The command and the payload of an answer to such a query. -/
inductive Answered (port : Port) (flash : Flash) (asked : List U8) :
    U8 → List U8 → Prop where
  | hello : Answered port flash asked Blproto.cmdHello
      (BlResult.ok.code :: helloData port flash)
  | verify (slot : U8) (known : slot ∈ asked) :
      Answered port flash asked Blproto.cmdVerify
        (verifyAnswer port.layout flash slot)

section Answers

variable {port : Port} {flash : Flash} {asked payload : List U8} {cmd : U8}

theorem Answered.of_hello (isHello : cmd = Blproto.cmdHello)
    (answered : Answered port flash asked cmd payload) :
    payload = BlResult.ok.code :: helloData port flash := by
  cases answered with
  | hello => rfl
  | verify slot known => exact absurd isHello (by decide)

theorem Answered.of_verify (isVerify : cmd = Blproto.cmdVerify)
    (answered : Answered port flash asked cmd payload) :
    ∃ slot, slot ∈ asked ∧ verifyAnswer port.layout flash slot = payload := by
  cases answered with
  | hello => exact absurd isVerify (by decide)
  | verify slot known => exact ⟨slot, known, rfl⟩

end Answers

theorem verifyAnswer_report {layout : BlLayout} {flash : Flash} {slot : U8}
    {status : U8} {data : List U8}
    (answer : verifyAnswer layout flash slot = status :: data) :
    slotReport layout flash slot =
      if status ≠ Blproto.ok then .error status
      else .ok (SlotInfo.ofBytes data) := by
  have isOk : BlResult.ok.code = Blproto.ok := rfl
  unfold verifyAnswer at answer
  unfold slotReport
  cases verdict : blCoreValidateSlot layout flash slot with
  | ok hdr =>
      rw [verdict] at answer
      cases answer
      rw [if_neg (not_not_intro isOk), slotInfo_bytes]
  | error result =>
      rw [verdict] at answer
      cases answer
      have failed : result.code ≠ Blproto.ok := fun same =>
        blCoreValidateSlot_error _ _ _
          (verdict.trans (congrArg _ (BlResult.code_injective same)))
      rw [if_pos failed]

section Reports

variable {σ : Type} {loader : Bootloader σ} {before : σ → Prop}
  {stopped : Option HostError → σ → Prop}

theorem slotStatus_reports {layout : BlLayout} {flash : Flash} {slot : U8}
    {about : U8 → σ → Prop}
    (answered : Ensures before (loader.transact Blproto.cmdVerify [slot])
      (fun response state => ∃ known, verifyAnswer layout flash known =
        response.status :: response.data ∧ about known state) stopped) :
    Ensures before (loader.slotStatus slot.toNat)
      (fun status state => ∃ known,
        status = slotReport layout flash known ∧ about known state)
      stopped := by
  unfold Bootloader.slotStatus
  rw [slotPayload_byte, Fallible.pure_bind]
  refine Ensures.bind answered fun response => Ensures.each ?_
  rintro state ⟨known, meant, holds⟩
  have report := verifyAnswer_report meant
  by_cases failed : response.status ≠ Blproto.ok
  · rw [if_pos failed] at report ⊢
    exact Ensures.pure fun _ same => ⟨known, report.symm, same ▸ holds⟩
  · rw [if_neg failed] at report ⊢
    exact Ensures.pure fun _ same => ⟨known, report.symm, same ▸ holds⟩

end Reports

section Device

variable {port : Port} {responseSize : Nat} {asked : List U8}
  {request : BlFrame}

/-- A query is answered and changes nothing, and no flash call is made that
could fail. -/
theorem query_handled (query : Query asked request) (session : BlSession)
    (device : Device) :
    ∃ status data,
      Answered port device.flash asked request.cmd
        (BlResult.code status :: data) ∧
      blCoreHandleFrame port session request responseSize device =
        .returned (session, respond request.cmd status data responseSize)
          device := by
  cases query with
  | hello fits => exact ⟨.ok, _, .hello, rfl⟩
  | verify slot known fits =>
      have named := BlFrame.ofBytes_byte Blproto.cmdVerify slot fits
      have ran := @blCoreHandleFrame_verify port _ slot rfl rfl named session
        responseSize device
      have answer := @Answered.verify port device.flash asked slot known
      unfold verifyAnswer at answer
      cases verdict : blCoreValidateSlot port.layout device.flash slot with
      | error result =>
          rw [verdict] at ran answer
          exact ⟨result, [], answer, ran⟩
      | ok hdr =>
          rw [verdict] at ran answer
          exact ⟨.ok, _, answer, ran⟩

/-- The device has made no call since, and holds what it held. -/
def Untouched (start : System) (device : Recorded) : Prop :=
  device.system.flash = start.flash ∧ device.system.calls = start.calls

/-- The bytes are the frame of an answer. -/
def AnswerSent (port : Port) (flash : Flash) (asked : List U8)
    (bytes : List U8) : Prop :=
  ∃ cmd payload outSize, blFrameEncode cmd payload outSize = some bytes ∧
    Answered port flash asked cmd payload

theorem query_discipline (port : Port) (responseSize : Nat) (start : System)
    (asked : List U8) :
    Discipline (blMachine port responseSize) (Untouched start)
      (fun _ => Query asked)
      (fun _ => AnswerSent port start.flash asked) := by
  constructor
  · rintro device request faults ⟨flashEq, log⟩ query
    obtain ⟨status, data, _answer, ran⟩ := @query_handled port responseSize
      asked request query device.system.session
      (device.system.device (faults.map .ofFault))
    unfold blMachine Moment.after Moment.step systemStep Untouched
    dsimp only
    rw [ran]
    exact ⟨flashEq, log⟩
  · rintro device request faults response ⟨flashEq, _log⟩ query replied
    obtain ⟨status, data, answer, ran⟩ := @query_handled port responseSize
      asked request query device.system.session
      (device.system.device (faults.map .ofFault))
    have held : (device.system.device (faults.map .ofFault)).flash =
        start.flash := flashEq
    rw [held] at answer
    change (Moment.mk device.system request faults).reply port responseSize =
      some response at replied
    unfold Moment.reply at replied
    dsimp only at replied
    rw [ran] at replied
    cases sent : respond request.cmd status data responseSize with
    | error result =>
        rw [sent] at replied
        cases replied
    | ok bytes =>
        rw [sent] at replied
        cases replied
        exact ⟨_, _, responseSize, respond_encoded_as sent, answer⟩
  · exact fun _ untouched => untouched
  · exact fun _ _ _ _ query => query
  · exact fun _ _ _ _ sent => sent

end Device

/-! ### The host on this link -/

/-- Nothing but queries about these slots is or was on its way. -/
def Wire.Querying (port : Port) (start : System) (asked : List U8)
    (wire : Wire) : Prop :=
  Trusted (Untouched start) (fun _ => Query asked)
    (fun _ => AnswerSent port start.flash asked) wire.link

section Host

variable {port : Port} {responseSize retries : Nat} {start : System}
  {asked : List U8}

theorem Wire.Querying.more {others : List U8} {wire : Wire}
    (querying : wire.Querying port start asked)
    (within : ∀ slot, slot ∈ asked → slot ∈ others) :
    wire.Querying port start others := by
  have queries : ∀ {request}, Query asked request →
      Query others request := by
    intro request query
    cases query with
    | hello fits => exact .hello fits
    | verify slot known fits => exact .verify slot (within slot known) fits
  have answers : ∀ {bytes}, AnswerSent port start.flash asked bytes →
      AnswerSent port start.flash others bytes := by
    rintro bytes ⟨cmd, payload, outSize, encoded, answer⟩
    refine ⟨cmd, payload, outSize, encoded, ?_⟩
    cases answer with
    | hello => exact .hello
    | verify slot known => exact .verify slot (within slot known)
  exact {
    server := querying.server
    requests := fun request member => queries (querying.requests _ member)
    responses := fun bytes member => answers (querying.responses _ member)
    arrived := fun bytes member => answers (querying.arrived _ member) }

theorem querying_initial (schedule : List (List BlEvent × List BlEvent)) :
    (Wire.initial start schedule).Querying port start [] :=
  trusted_initial ⟨rfl, rfl⟩

/-- The response to a query is an answer to some query with its command. -/
theorem transact_querying {cmd : U8} {payload : List U8}
    (query : ∀ fits, Query asked (BlFrame.ofBytes cmd payload fits)) :
    Ensures (Wire.Querying port start asked)
      ((unreliable port responseSize retries).transact cmd payload)
      (fun response wire => wire.Querying port start asked ∧
        Answered port start.flash asked cmd
          (response.status :: response.data))
      (fun reason wire => wire.Querying port start asked ∧
        Unrefused reason) := by
  refine Bootloader.transact_means fun fits => Ensures.lift ?_
  intro wire querying
  have after : Wire.Querying port start asked
      ⟨wire.link.attempt (blMachine port responseSize)
        (BlFrame.ofBytes cmd payload fits) (wire.schedule.headD ([], [])).1
        (wire.schedule.headD ([], [])).2, wire.schedule.tail⟩ :=
    querying.attempt (query_discipline port responseSize start asked)
      (fun _ _ => query fits) _ _
  refine ⟨after, fun payload read => ?_⟩
  obtain ⟨cmd, payload, same, meant⟩ := readFrames_encoded
    (fun bytes arrived => after.arrived bytes arrived) read
  cases same
  exact meant

theorem hello_querying :
    Ensures (Wire.Querying port start asked)
      (unreliable port responseSize retries).hello
      (fun info wire => info = deviceInfo port start.flash ∧
        wire.Querying port start asked)
      (fun _ => Wire.Querying port start asked) := by
  have sent := @transact_querying port responseSize retries start asked
    Blproto.cmdHello [] fun fits => .hello fits
  refine hello_told (expectOk_told (sent.weaken (fun _ holds => holds) ?_
    fun _ _ holds => holds.1))
  rintro response wire ⟨querying, answer⟩
  exact ⟨List.cons.inj (answer.of_hello rfl), querying⟩

/-- The status is that of the slot, or of one that was asked about before. -/
theorem slotStatus_querying (slot : U8) :
    Ensures (Wire.Querying port start asked)
      ((unreliable port responseSize retries).slotStatus slot.toNat)
      (fun status wire => (∃ known, known ∈ slot :: asked ∧
          status = slotReport port.layout start.flash known) ∧
        wire.Querying port start (slot :: asked))
      (fun _ => Wire.Querying port start (slot :: asked)) := by
  have sent := @transact_querying port responseSize retries start
    (slot :: asked) Blproto.cmdVerify [slot]
    fun fits => .verify slot List.mem_cons_self fits
  have answered : Ensures (Wire.Querying port start asked)
      ((unreliable port responseSize retries).transact Blproto.cmdVerify
        [slot])
      (fun response wire => ∃ known,
        verifyAnswer port.layout start.flash known =
          response.status :: response.data ∧
        known ∈ slot :: asked ∧ wire.Querying port start (slot :: asked))
      (fun _ => Wire.Querying port start (slot :: asked)) := by
    refine sent.weaken
      (fun _ querying => querying.more fun _ => List.mem_cons_of_mem slot) ?_
      fun _ _ holds => holds.1
    rintro response wire ⟨querying, answer⟩
    obtain ⟨known, among, meant⟩ := answer.of_verify rfl
    exact ⟨known, meant, among, querying⟩
  refine (slotStatus_reports answered).weaken (fun _ querying => querying) ?_
    fun _ _ querying => querying
  rintro status wire ⟨known, report, among, querying⟩
  exact ⟨⟨known, among, report⟩, querying⟩

theorem verify_querying (slot : U8) :
    Ensures (Wire.Querying port start [])
      ((unreliable port responseSize retries).verify slot.toNat)
      (fun info wire =>
        slotReport port.layout start.flash slot = .ok info ∧
        wire.Querying port start [slot])
      (fun reason wire => wire.Querying port start [slot] ∧
        ∀ status, reason = some (.refused Blproto.cmdVerify status) →
          slotReport port.layout start.flash slot = .error status) := by
  have sent := @transact_querying port responseSize retries start [slot]
    Blproto.cmdVerify [slot] fun fits =>
      .verify slot List.mem_cons_self fits
  have told : Ensures (Wire.Querying port start [])
      ((unreliable port responseSize retries).expectOk Blproto.cmdVerify
        [slot])
      (fun data wire => slotReport port.layout start.flash slot =
          .ok (SlotInfo.ofBytes data) ∧
        wire.Querying port start [slot])
      (fun reason wire => wire.Querying port start [slot] ∧
        ∀ status, reason = some (.refused Blproto.cmdVerify status) →
          slotReport port.layout start.flash slot = .error status) := by
    refine Ensures.bind (sent.weaken
      (fun _ querying => querying.more nofun) (fun _ _ holds => holds)
      fun reason _ holds => ⟨holds.1, fun status same =>
        absurd same (holds.2 _ status)⟩) fun response => Ensures.each ?_
    rintro wire ⟨querying, answer⟩
    obtain ⟨known, among, same⟩ := answer.of_verify rfl
    obtain rfl := List.mem_singleton.mp among
    have report := verifyAnswer_report same
    by_cases failed : response.status ≠ Blproto.ok
    · rw [if_pos failed] at report ⊢
      refine Ensures.throw ?_
      rintro _ rfl
      refine ⟨querying, fun status same => ?_⟩
      cases same
      exact report
    · rw [if_neg failed] at report ⊢
      refine Ensures.pure ?_
      rintro _ rfl
      exact ⟨report, querying⟩
  unfold Bootloader.verify
  rw [slotPayload_byte, Fallible.pure_bind]
  refine Ensures.bind told fun data => ?_
  split
  · exact Ensures.throw fun _ holds => ⟨holds.2, nofun⟩
  · exact Ensures.pure fun _ holds => holds

/-- Each status is that of the slot it was asked of, or of one before it, as
far as the statuses go. -/
inductive Attributed (layout : BlLayout) (flash : Flash) :
    List U8 → List U8 → List (Except U8 SlotInfo) → Prop where
  | nil (asked slots : List U8) : Attributed layout flash asked slots []
  | cons (asked : List U8) (slot : U8) (later : List U8) (known : U8)
      (among : known ∈ slot :: asked) (rest : List (Except U8 SlotInfo))
      (others : Attributed layout flash (slot :: asked) later rest) :
      Attributed layout flash asked (slot :: later)
        (slotReport layout flash known :: rest)

theorem Attributed.slots {layout : BlLayout} {flash : Flash}
    {statuses : List (Except U8 SlotInfo)}
    (attributed : Attributed layout flash [] [blSlotA, blSlotB] statuses) :
    ∃ known, known ∈ [blSlotA, blSlotB] ∧
      statuses <+: [slotReport layout flash blSlotA,
        slotReport layout flash known] := by
  cases attributed with
  | nil => exact ⟨blSlotA, List.mem_cons_self, List.nil_prefix⟩
  | cons _ _ _ first among rest others =>
      obtain rfl := List.mem_singleton.mp among
      cases others with
      | nil =>
          exact ⟨blSlotA, List.mem_cons_self,
            List.prefix_append [slotReport layout flash blSlotA] _⟩
      | cons _ _ _ known among' rest others =>
          cases others with
          | nil =>
              exact ⟨known, (List.Perm.swap blSlotA blSlotB []).mem_iff.mp
                among', List.prefix_rfl⟩

theorem statuses_querying (slots : List U8) :
    Ensures (Wire.Querying port start asked)
      ((unreliable port responseSize retries).statuses
        (slots.map BitVec.toNat))
      (fun told wire =>
        (Attributed port.layout start.flash asked slots told.1 ∧
          (told.2 = none → told.1.length = slots.length)) ∧
        Untouched start wire.link.server)
      (fun _ wire => Untouched start wire.link.server) := by
  induction slots generalizing asked with
  | nil =>
      exact Ensures.pure fun _ querying =>
        ⟨⟨.nil asked [], fun _ => rfl⟩, querying.server⟩
  | cons slot later ih =>
      refine Ensures.bind ((slotStatus_querying slot).catches.weaken
        (fun _ querying => querying) (fun _ _ holds => holds)
        fun _ _ querying => querying.server) fun ended => Ensures.each ?_
      intro wire holds
      cases ended with
      | error error =>
          refine Ensures.pure ?_
          rintro _ rfl
          exact ⟨⟨.nil asked _, nofun⟩, holds.server⟩
      | ok status =>
          obtain ⟨⟨known, among, rfl⟩, querying⟩ := holds
          refine Ensures.bind ((@ih (slot :: asked)).weaken ?_
            (fun _ _ holds => holds) fun _ _ untouched => untouched)
            fun rest => ?_
          · rintro _ rfl
            exact querying
          · exact Ensures.pure fun _ holds =>
              ⟨⟨.cons asked slot later known among rest.1 holds.1.1,
                fun ended => congrArg Nat.succ (holds.1.2 ended)⟩, holds.2⟩

/-- What was printed is true of the device, except that the status of the
second slot may be that of another one; and nothing is missing unless there
was an error. -/
structure Blflash.StatusOutput.Tells (port : Port) (flash : Flash) (known : U8)
    (output : StatusOutput) : Prop where
  device : ∀ info, output.device = some info → info = deviceInfo port flash
  slots : output.slots <+: [slotReport port.layout flash blSlotA,
    slotReport port.layout flash known]
  whole : output.stopped = none → output =
    ⟨some (deviceInfo port flash), [slotReport port.layout flash blSlotA,
      slotReport port.layout flash known], none⟩

theorem cmdStatus_querying :
    Ensures (Wire.Querying port start [])
      (cmdStatus (unreliable port responseSize retries))
      (fun output wire =>
        (∃ known, known ∈ [blSlotA, blSlotB] ∧
          output.Tells port start.flash known) ∧
        Untouched start wire.link.server)
      (fun _ wire => Untouched start wire.link.server) := by
  refine Ensures.bind (hello_querying.catches.weaken (fun _ holds => holds)
    (fun _ _ holds => holds) fun _ _ querying => querying.server)
    fun ended => Ensures.each ?_
  intro wire holds
  cases ended with
  | error error =>
      refine Ensures.pure ?_
      rintro _ rfl
      exact ⟨⟨blSlotA, List.mem_cons_self, nofun, List.nil_prefix, nofun⟩,
        holds.server⟩
  | ok info =>
      obtain ⟨rfl, querying⟩ := holds
      have slots : List.range (deviceInfo port start.flash).slotCount =
          [blSlotA, blSlotB].map BitVec.toNat := rfl
      dsimp only
      rw [slots]
      have asked := @statuses_querying port responseSize retries start []
        [blSlotA, blSlotB]
      refine Ensures.bind (asked.weaken ?_ (fun _ _ holds => holds)
        fun _ _ untouched => untouched)
        fun told => Ensures.pure fun _ holds => ?_
      · rintro _ rfl
        exact querying
      · obtain ⟨⟨attributed, complete⟩, untouched⟩ := holds
        obtain ⟨known, among, start_⟩ := attributed.slots
        refine ⟨⟨known, among, ?_, start_, fun ended => ?_⟩, untouched⟩
        · rintro _ ⟨⟩
          rfl
        · dsimp only at ended ⊢
          rw [start_.eq_of_length (complete ended), ended]

end Host

/-! ### An answer that comes late -/

/-- The device between two attempts, with these answers on their way. -/
structure Wire.Holding (system : System) (responses : List (List U8))
    (schedule : List (List BlEvent × List BlEvent)) (wire : Wire) :
    Prop where
  system : wire.link.server.system = system
  requests : wire.link.requests = []
  responses : wire.link.responses = responses
  schedule : wire.schedule = schedule

/-- The request is handled, and the oldest answer is delivered. -/
def oldestDelivered : List BlEvent × List BlEvent :=
  ([], [.handle [], .deliver])

/-- The request is handled, and no answer is delivered in time. -/
def answerHeld : List BlEvent × List BlEvent := ([], [.handle []])

section Late

variable {port : Port} {responseSize more : Nat} {system : System}

theorem verify_reports (slot : U8) :
    ∃ status data,
      system.Answers port responseSize
        (BlFrame.ofBytes Blproto.cmdVerify [slot] (byte_fits slot)) status
        data system ∧
      verifyAnswer port.layout system.flash slot =
        BlResult.code status :: data := by
  obtain ⟨status, data, answers, verdict⟩ :=
    @verify_answers port responseSize system slot
  refine ⟨status, data, answers, ?_⟩
  unfold verifyAnswer
  cases verified : blCoreValidateSlot port.layout system.flash slot with
  | error result =>
      rw [verified] at verdict
      obtain ⟨rfl, rfl⟩ := verdict
      rfl
  | ok hdr =>
      rw [verified] at verdict
      obtain ⟨rfl, rfl⟩ := verdict
      rfl

section Attempts

variable {request : BlFrame} {status : BlResult} {data bytes : List U8}
  (answers : system.Answers port responseSize request status data system)
  (encoded : respond request.cmd status data responseSize = .ok bytes)
  {responses : List (List U8)}
  {rest : List (List BlEvent × List BlEvent)}
  {stopped : Option HostError → Wire → Prop}

include answers encoded

theorem handled_again (history : List Moment) :
    (blMachine port responseSize).handle ⟨system, history⟩ request [] =
      (⟨system, history ++ [⟨system, request, []⟩]⟩, some bytes) := by
  obtain ⟨_short, session, device, ran, ended⟩ := answers
  have after : (Moment.mk system request []).after port responseSize =
      system := Eq.trans (@after_handled port responseSize request system []
        status data session device ran) ended.symm
  have reply := @reply_handled port responseSize request system [] status
    data session device ran bytes encoded
  unfold blMachine
  dsimp only
  rw [after, reply]

theorem oldest_read {retries : Nat} {first : List U8}
    {later : List (List U8)} (oldest : responses ++ [bytes] = first :: later) :
    Ensures (Wire.Holding system responses (oldestDelivered :: rest))
      (ExceptT.lift ((unreliable port responseSize retries).port request) :
        HostM Wire (List Received))
      (fun received wire => received = readFrames first.length first ∧
        wire.Holding system later rest)
      stopped := by
  refine Ensures.lift ?_
  rintro ⟨⟨⟨server, history⟩, requests, queue, arrived⟩, schedule⟩
    ⟨same, none_, queued, scheduled⟩
  dsimp only at same none_ queued scheduled
  subst same none_ queued scheduled
  have handled := handled_again answers encoded history
  have ran := @attempt_oldest _ _ _ _ (blMachine port responseSize)
    ⟨server, history⟩ queue arrived request [] first later
    (by rw [handled]; exact oldest)
  rw [handled] at ran
  change match Wire.serve port responseSize request _ with
    | .returned received wire => received = readFrames first.length first ∧
        wire.Holding server later rest
    | .lost wire => stopped none wire
  unfold Wire.serve
  dsimp only [List.headD_cons, oldestDelivered]
  rw [ran, List.flatten_singleton]
  exact ⟨rfl, rfl, rfl, rfl, rfl⟩

theorem held_silent {retries : Nat} :
    Ensures (Wire.Holding system responses (answerHeld :: rest))
      (ExceptT.lift ((unreliable port responseSize retries).port request) :
        HostM Wire (List Received))
      (fun received wire => received = [] ∧
        wire.Holding system (responses ++ [bytes]) rest)
      stopped := by
  refine Ensures.lift ?_
  rintro ⟨⟨⟨server, history⟩, requests, queue, arrived⟩, schedule⟩
    ⟨same, none_, queued, scheduled⟩
  dsimp only at same none_ queued scheduled
  subst same none_ queued scheduled
  have handled := handled_again answers encoded history
  have ran := attempt_held (blMachine port responseSize) ⟨server, history⟩
    queue arrived request []
  rw [handled] at ran
  change match Wire.serve port responseSize request _ with
    | .returned received wire => received = [] ∧
        wire.Holding server (queue ++ [bytes]) rest
    | .lost wire => stopped none wire
  unfold Wire.serve
  dsimp only [List.headD_cons, answerHeld]
  rw [ran]
  exact ⟨rfl, rfl, rfl, rfl, rfl⟩

end Attempts

section Transactions

variable {cmd : U8} {payload : List U8}
  (fits : payload.length ≤ Blproto.maxPayload) {status : BlResult}
  {data bytes : List U8}
  (answers : system.Answers port responseSize
    (BlFrame.ofBytes cmd payload fits) status data system)
  (encoded : respond cmd status data responseSize = .ok bytes)
  {rest : List (List BlEvent × List BlEvent)}

include answers encoded

theorem transact_oldest {responses later : List (List U8)}
    {told : BlResult} {report first : List U8}
    (oldest : responses ++ [bytes] = first :: later)
    (earlier : respond cmd told report responseSize = .ok first) :
    Ensures (Wire.Holding system responses (oldestDelivered :: rest))
      ((unreliable port responseSize (more + 1)).transact cmd payload)
      (fun response wire =>
        (response.status = told.code ∧ response.data = report) ∧
        wire.Holding system later rest)
      (fun _ _ => False) := by
  unfold Bootloader.transact
  rw [dif_pos fits]
  refine Ensures.bind_known (oldest_read answers encoded oldest) ?_
  have named : (BlFrame.ofBytes cmd payload fits).cmd = cmd := rfl
  rw [respond_frames earlier, named, awaitResponse_frame]
  exact Ensures.pure fun _ holding => ⟨⟨rfl, rfl⟩, holding⟩

theorem transact_late :
    Ensures (Wire.Holding system [] (answerHeld :: oldestDelivered :: rest))
      ((unreliable port responseSize (more + 2)).transact cmd payload)
      (fun response wire =>
        (response.status = status.code ∧ response.data = data) ∧
        wire.Holding system [bytes] rest)
      (fun _ _ => False) := by
  unfold Bootloader.transact
  rw [dif_pos fits]
  refine Ensures.bind_known (held_silent answers encoded) ?_
  have named : (BlFrame.ofBytes cmd payload fits).cmd = cmd := rfl
  refine Ensures.bind_known
    (oldest_read answers encoded
      (show [bytes] ++ [bytes] = bytes :: [bytes] from rfl)) ?_
  rw [respond_frames encoded, named, awaitResponse_frame]
  exact Ensures.pure fun _ holding => ⟨⟨rfl, rfl⟩, holding⟩

end Transactions

theorem slotStatus_told {slot known : U8} {told : BlResult}
    {report : List U8} {wanted : Wire → Prop} {before : Wire → Prop}
    {retries : Nat}
    (meant : verifyAnswer port.layout system.flash known =
      told.code :: report)
    (transacted : Ensures before
      ((unreliable port responseSize retries).transact Blproto.cmdVerify
        [slot])
      (fun response wire =>
        (response.status = told.code ∧ response.data = report) ∧ wanted wire)
      (fun _ _ => False)) :
    Ensures before
      ((unreliable port responseSize retries).slotStatus slot.toNat)
      (fun status wire =>
        status = slotReport port.layout system.flash known ∧ wanted wire)
      (fun _ _ => False) := by
  have answered := transacted.weaken (fun _ holds => holds)
    (fun response wire holds => show ∃ about,
        verifyAnswer port.layout system.flash about =
          response.status :: response.data ∧ about = known ∧ wanted wire from
      ⟨known, by rw [holds.1.1, holds.1.2, meant], rfl, holds.2⟩)
    fun _ _ impossible => impossible
  refine (slotStatus_reports answered).weaken (fun _ holds => holds) ?_
    fun _ _ impossible => impossible
  rintro status wire ⟨_about, report, rfl, holds⟩
  exact ⟨report, holds⟩

variable (room : blMinResponseSize ≤ responseSize)

include room

theorem hello_prompt {rest : List (List BlEvent × List BlEvent)} :
    Ensures (Wire.Holding system [] (oldestDelivered :: rest))
      (unreliable port responseSize (more + 1)).hello
      (fun info wire => info = deviceInfo port system.flash ∧
        wire.Holding system [] rest)
      (fun _ _ => False) := by
  have answers := @hello_answers port responseSize system (Nat.zero_le _)
  obtain ⟨bytes, encoded⟩ := respond_encoded Blproto.cmdHello .ok answers.1
    room
  exact hello_told (expectOk_told
    (transact_oldest (Nat.zero_le _) answers encoded rfl encoded))

theorem cmdStatus_told {known : U8} {responses later : List (List U8)}
    {early late : List (List BlEvent × List BlEvent)}
    (first : Ensures (Wire.Holding system [] early)
      ((unreliable port responseSize (more + 1)).slotStatus blSlotA.toNat)
      (fun status wire =>
        status = slotReport port.layout system.flash blSlotA ∧
        wire.Holding system responses late)
      (fun _ _ => False))
    (second : Ensures (Wire.Holding system responses late)
      ((unreliable port responseSize (more + 1)).slotStatus blSlotB.toNat)
      (fun status wire =>
        status = slotReport port.layout system.flash known ∧
        wire.Holding system later [])
      (fun _ _ => False)) :
    Ensures (Wire.Holding system [] (oldestDelivered :: early))
      (cmdStatus (unreliable port responseSize (more + 1)))
      (fun output _ => output = ⟨some (deviceInfo port system.flash),
        [slotReport port.layout system.flash blSlotA,
          slotReport port.layout system.flash known], none⟩)
      (fun _ _ => False) := by
  refine Ensures.catches_known (hello_prompt room) ?_
  have slots : List.range (deviceInfo port system.flash).slotCount =
      [blSlotA.toNat, blSlotB.toNat] := rfl
  dsimp only
  rw [slots]
  have last : Ensures (Wire.Holding system responses late)
      ((unreliable port responseSize (more + 1)).statuses [blSlotB.toNat])
      (fun told wire =>
        told = ([slotReport port.layout system.flash known], none) ∧
        wire.Holding system later [])
      (fun _ _ => False) :=
    Ensures.catches_known second (Ensures.pure fun _ holds => ⟨rfl, holds⟩)
  have both : Ensures (Wire.Holding system [] early)
      ((unreliable port responseSize (more + 1)).statuses
        [blSlotA.toNat, blSlotB.toNat])
      (fun told wire => told =
          ([slotReport port.layout system.flash blSlotA,
            slotReport port.layout system.flash known], none) ∧
        wire.Holding system later [])
      (fun _ _ => False) := by
    refine Ensures.catches_known first (Ensures.bind_known last ?_)
    exact Ensures.pure fun _ holds => ⟨rfl, holds⟩
  refine Ensures.bind_known both ?_
  exact Ensures.pure fun _ _ => rfl

theorem cmdStatus_prompt :
    Ensures (Wire.Holding system []
        [oldestDelivered, oldestDelivered, oldestDelivered])
      (cmdStatus (unreliable port responseSize (more + 1)))
      (fun output _ => output = ⟨some (deviceInfo port system.flash),
        [slotReport port.layout system.flash blSlotA,
          slotReport port.layout system.flash blSlotB], none⟩)
      (fun _ _ => False) := by
  have told : ∀ slot rest, Ensures
      (Wire.Holding system [] (oldestDelivered :: rest))
      ((unreliable port responseSize (more + 1)).slotStatus slot.toNat)
      (fun status wire =>
        status = slotReport port.layout system.flash slot ∧
        wire.Holding system [] rest)
      (fun _ _ => False) := by
    intro slot rest
    obtain ⟨status, data, answers, meant⟩ :=
      @verify_reports port responseSize system slot
    obtain ⟨bytes, encoded⟩ := respond_encoded Blproto.cmdVerify status
      answers.1 room
    exact slotStatus_told meant
      (transact_oldest (byte_fits slot) answers encoded rfl encoded)
  exact cmdStatus_told room (told blSlotA _) (told blSlotB [])

/-- The answer about the first slot comes once late and once in time, and the
late one is taken for that about the second slot. -/
theorem cmdStatus_late :
    Ensures (Wire.Holding system []
        [oldestDelivered, answerHeld, oldestDelivered, oldestDelivered])
      (cmdStatus (unreliable port responseSize (more + 2)))
      (fun output _ => output = ⟨some (deviceInfo port system.flash),
        [slotReport port.layout system.flash blSlotA,
          slotReport port.layout system.flash blSlotA], none⟩)
      (fun _ _ => False) := by
  obtain ⟨status, data, answers, meant⟩ :=
    @verify_reports port responseSize system blSlotA
  obtain ⟨bytes, encoded⟩ := respond_encoded Blproto.cmdVerify status
    answers.1 room
  obtain ⟨statusB, dataB, answersB, _meantB⟩ :=
    @verify_reports port responseSize system blSlotB
  obtain ⟨bytesB, encodedB⟩ := respond_encoded Blproto.cmdVerify statusB
    answersB.1 room
  have oldest : [bytes] ++ [bytesB] = bytes :: [bytesB] := rfl
  exact cmdStatus_told room
    (slotStatus_told meant
      (transact_late (byte_fits blSlotA) answers encoded))
    (slotStatus_told meant
      (transact_oldest (byte_fits blSlotB) answersB encodedB oldest encoded))

end Late

/-- A status or verify that starts on an idle link leaves the device as it is.
What status prints, before an error or to the end, is true of the device and of
the first slot; the line about the second slot is true of it or of the first,
and on some link it is the one and on some the other.  What verify says is true
of the slot that it is asked about. -/
theorem status_overDelays (port : Port) (start : System)
    (responseSize retries : Nat) :
    (∀ schedule,
      Ensures (fun wire => wire = Wire.initial start schedule)
        (cmdStatus (unreliable port responseSize retries))
        (fun output wire => Untouched start wire.link.server ∧
          ∃ known, known ∈ [blSlotA, blSlotB] ∧
            output.Tells port start.flash known)
        (fun _ wire => Untouched start wire.link.server)) ∧
    (∀ schedule slot,
      Ensures (fun wire => wire = Wire.initial start schedule)
        ((unreliable port responseSize retries).verify (BitVec.toNat slot))
        (fun info wire => Untouched start wire.link.server ∧
          slotReport port.layout start.flash slot = .ok info)
        (fun reason wire => Untouched start wire.link.server ∧
          ∀ status, reason = some (.refused Blproto.cmdVerify status) →
            slotReport port.layout start.flash slot = .error status)) ∧
    (blMinResponseSize ≤ responseSize → 2 ≤ retries →
      ∀ known, known ∈ [blSlotA, blSlotB] → ∃ schedule wire,
        (cmdStatus (unreliable port responseSize retries)).run
            (Wire.initial start schedule) =
          .returned (.ok ⟨some (deviceInfo port start.flash),
            [slotReport port.layout start.flash blSlotA,
              slotReport port.layout start.flash known], none⟩) wire) := by
  have idle : ∀ schedule,
      (Wire.initial start schedule).Holding start [] schedule :=
    fun _ => ⟨rfl, rfl, rfl, rfl⟩
  refine ⟨fun schedule => ?_, fun schedule slot => ?_,
    fun room attempts known among => ?_⟩
  · refine cmdStatus_querying.weaken ?_ (fun _ _ holds => holds.symm)
      fun _ _ holds => holds
    rintro _ rfl
    exact querying_initial schedule
  · refine (verify_querying slot).weaken ?_
      (fun _ _ holds => ⟨holds.2.server, holds.1⟩)
      fun _ _ holds => ⟨holds.1.server, holds.2⟩
    rintro _ rfl
    exact querying_initial schedule
  · obtain ⟨more, rfl⟩ := Nat.exists_eq_add_of_le' attempts
    rcases List.mem_pair.mp among with rfl | rfl
    · obtain ⟨output, wire, ran, same⟩ :=
        (cmdStatus_late room).returns (idle _)
      exact ⟨_, wire, same ▸ ran⟩
    · obtain ⟨output, wire, ran, same⟩ :=
        (cmdStatus_prompt room).returns (idle _)
      exact ⟨_, wire, same ▸ ran⟩

/-- The image in slot A is shown for the empty slot B as well. -/
theorem status_overDelays_misread :
    Validates hostLayout trialFlash blSlotA ∧
    ¬ Validates hostLayout trialFlash blSlotB ∧
    ∃ schedule wire,
      (cmdStatus (unreliable hostPort 29 3)).run
          (Wire.initial (System.initial trialFlash) schedule) =
        .returned (.ok ⟨some (deviceInfo hostPort trialFlash),
          [slotReport hostLayout trialFlash blSlotA,
            slotReport hostLayout trialFlash blSlotA], none⟩) wire :=
  ⟨trialFlash_validates, by decide +kernel,
    (status_overDelays hostPort (System.initial trialFlash) 29 3).2.2
      (by decide) (by decide) blSlotA List.mem_cons_self⟩

end Stm32Bootloader
