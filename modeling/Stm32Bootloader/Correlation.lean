/-
Which request a response answers.

A response names its command and nothing else of its request.  The host
discards what has arrived before it sends, but an answer that arrives later is
taken for that to the latest request with the same command.  To tell them
apart every call of `_transact` has a number here, which its requests and
their answers carry and which the host does not see.
-/

import Stm32Bootloader.Library.NumberedLink
import Stm32Bootloader.UnreliableLink

namespace Stm32Bootloader

open Interruptible Fallible Blflash LossyLink TransitionRun

/-! ### Attempts -/

def frameCmd (bytes : List U8) : U8 := bytes.getD 1 0

/-- A request, the number of its transaction and what arrives while the host
waits.  Answers have the numbers of the requests that they answer. -/
structure Attempt where
  number : Nat
  request : BlFrame
  arrived : List (Nat × List U8)

/-- The first answer to the same command is taken. -/
def Attempt.taken (attempt : Attempt) : Option (Nat × List U8) :=
  attempt.arrived.find? fun answer =>
    frameCmd answer.2 = attempt.request.cmd

/-- No answer arrives that an earlier transaction with the same command has
been waiting for. -/
def Attempt.Punctual (attempt : Attempt) : Prop :=
  ∀ answer, answer ∈ attempt.arrived →
    frameCmd answer.2 = attempt.request.cmd →
      ¬ answer.1 < attempt.number

/-- A wire with the number of the transaction and the attempts made so far. -/
structure NumberedWire where
  link : NumberedLink Recorded BlFrame (List U8)
  schedule : List (List BlEvent × List BlEvent)
  number : Nat
  attempts : List Attempt

def NumberedWire.initial (system : System)
    (schedule : List (List BlEvent × List BlEvent)) : NumberedWire :=
  ⟨.initial ⟨⟨system, []⟩, []⟩, schedule, 0, []⟩

def NumberedWire.serve (port : Port) (responseSize : Nat)
    (request : BlFrame) : Prog NumberedWire (List Received) := fun wire =>
  let (before, during) := wire.schedule.headD ([], [])
  let link := wire.link.attempt (blMachine port responseSize).numbered
    (wire.number, request) before during
  let bytes := (link.arrived.map Prod.snd).flatten
  .returned (readFrames bytes.length bytes)
    ⟨link, wire.schedule.tail, wire.number,
      wire.attempts ++ [⟨wire.number, request, link.arrived⟩]⟩

def numbering (port : Port) (responseSize retries : Nat) :
    Bootloader NumberedWire :=
  ⟨NumberedWire.serve port responseSize, retries⟩

/-! ### The host does not see the numbers -/

def NumberedWire.forget (wire : NumberedWire) : Wire :=
  ⟨NumberedLink.forget wire.link, wire.schedule⟩

section Forget

variable {port : Port} {responseSize retries : Nat}

theorem serve_forget (request : BlFrame) (wire : NumberedWire) :
    ∃ received after,
      NumberedWire.serve port responseSize request wire =
          .returned received after ∧
        Wire.serve port responseSize request wire.forget =
          .returned received after.forget := by
  refine ⟨_, _, rfl, ?_⟩
  unfold Wire.serve NumberedWire.forget
  simp only [← forget_attempt _ _ wire.number]
  rfl

theorem attempt_forget (request : BlFrame) (left number : Nat)
    (last : Option AttemptError) (wire : NumberedWire) :
    ∃ outcome after,
      ((numbering port responseSize retries).attempt request left number
          last).run wire = .returned outcome after ∧
        ((unreliable port responseSize retries).attempt request left number
          last).run wire.forget = .returned outcome after.forget := by
  induction left generalizing number last wire with
  | zero => exact ⟨_, _, rfl, rfl⟩
  | succ left ih =>
      obtain ⟨received, after, served, plain⟩ :=
        @serve_forget port responseSize request wire
      have numbered : (ExceptT.lift
          ((numbering port responseSize retries).port request) :
            HostM NumberedWire (List Received)).run wire =
          .returned (.ok received) after := run_lift served
      have unnumbered : (ExceptT.lift
          ((unreliable port responseSize retries).port request) :
            HostM Wire (List Received)).run wire.forget =
          .returned (.ok received) after.forget := run_lift plain
      unfold Bootloader.attempt
      rw [run_bind_ok numbered, run_bind_ok unnumbered]
      cases awaited : awaitResponse request.cmd received with
      | error error => exact ih _ _ after
      | ok data =>
          cases data with
          | nil => exact ih _ _ after
          | cons status data => exact ⟨_, _, rfl, rfl⟩

theorem transact_forget (cmd : U8) (payload : List U8)
    (wire : NumberedWire) :
    ∃ outcome after,
      ((numbering port responseSize retries).transact cmd payload).run wire =
          .returned outcome after ∧
        ((unreliable port responseSize retries).transact cmd payload).run
          wire.forget = .returned outcome after.forget := by
  unfold Bootloader.transact
  by_cases fits : payload.length ≤ Blproto.maxPayload
  · rw [dif_pos fits, dif_pos fits]
    exact attempt_forget _ _ _ _ wire
  · rw [dif_neg fits, dif_neg fits]
    exact ⟨_, _, rfl, rfl⟩

end Forget

/-! ### What an attempt takes -/

theorem frameCmd_encode {cmd : U8} {payload : List U8} {outSize : Nat}
    {bytes : List U8}
    (encoded : blFrameEncode cmd payload outSize = some bytes) :
    frameCmd bytes = cmd := by
  obtain ⟨_short, _room, rfl⟩ := blFrameEncode_inv encoded
  rfl

/-- A reply of the device. -/
def WholeReply (bytes : List U8) : Prop :=
  ∃ cmd status data outSize,
    blFrameEncode cmd (status :: data) outSize = some bytes

theorem awaitResponse_replies {replies : List (List U8)}
    (whole : ∀ bytes, bytes ∈ replies → WholeReply bytes) (cmd : U8)
    {fuel : Nat} (enough : replies.length ≤ fuel) :
    match replies.find? fun bytes => frameCmd bytes = cmd with
    | none => awaitResponse cmd (readFrames fuel replies.flatten) =
        .error .timeout
    | some bytes => ∃ status data,
        Blproto.decodeFrame bytes = .ok (cmd, status :: data) ∧
          awaitResponse cmd (readFrames fuel replies.flatten) =
            .ok (status :: data) := by
  induction replies generalizing fuel with
  | nil => cases fuel <;> rfl
  | cons bytes later ih =>
      cases fuel with
      | zero => exact absurd enough (Nat.not_succ_le_zero _)
      | succ fuel =>
          obtain ⟨replyCmd, status, data, outSize, encoded⟩ :=
            whole bytes List.mem_cons_self
          have named := frameCmd_encode encoded
          have rest := ih
            (fun bytes member => whole bytes (List.mem_cons_of_mem _ member))
            (Nat.le_of_succ_le_succ enough)
          unfold readFrames awaitResponse
          rw [List.flatten_cons, readFrame_encode encoded,
            List.find?_cons]
          by_cases same : replyCmd = cmd
          · subst same
            rw [decide_eq_true named]
            exact ⟨status, data, Blproto.decodeFrame_encode encoded,
              if_pos rfl⟩
          · rw [named, decide_eq_false same]
            dsimp only
            rw [if_neg same]
            exact rest

/-- The exchanges of the device that have been numbered. -/
abbrev Exchanges := List (Exchange BlFrame (List U8))

/-- The status and the data are those of an answer that the device gave to the
request of the attempt, sent in the same transaction. -/
def Attempt.Matched (attempt : Attempt) (exchanges : Exchanges)
    (status : U8) (data : List U8) : Prop :=
  ∃ bytes, attempt.taken = some (attempt.number, bytes) ∧
    Blproto.decodeFrame bytes = .ok (attempt.request.cmd, status :: data) ∧
    ⟨attempt.number, attempt.request, some bytes⟩ ∈ exchanges

abbrev NumberedWire.exchanges (wire : NumberedWire) : Exchanges :=
  wire.link.server.exchanges

abbrev NumberedWire.Underway (port : Port) (responseSize : Nat)
    (request : BlFrame) (wire : NumberedWire) : Prop :=
  NumberedLink.Underway (blMachine port responseSize) wire.number request
    wire.link

section Attempts

variable {port : Port} {responseSize retries : Nat} {request : BlFrame}
  {wire : NumberedWire}

theorem arrived_whole {number : Nat}
    {link : NumberedLink Recorded BlFrame (List U8)}
    (underway : NumberedLink.Underway (blMachine port responseSize) number
      request link) (bytes : List U8)
    (arrived : bytes ∈ link.arrived.map Prod.snd) : WholeReply bytes := by
  obtain ⟨answer, member, rfl⟩ := List.mem_map.mp arrived
  obtain ⟨server, asked, faults, replied⟩ := underway.given member
  obtain ⟨status, data, outSize, encoded, _answered⟩ :=
    Moment.reply_encoded replied
  exact ⟨_, status, data, outSize, encoded⟩

theorem replies_short {replies : List (List U8)}
    (whole : ∀ bytes, bytes ∈ replies → WholeReply bytes) :
    replies.length ≤ replies.flatten.length := by
  induction replies with
  | nil => exact Nat.le_refl _
  | cons bytes later ih =>
      obtain ⟨cmd, status, data, outSize, encoded⟩ :=
        whole bytes List.mem_cons_self
      have nonempty : bytes ≠ [] := by
        rintro rfl
        have read := readFrame_encode encoded []
        cases read
      have positive := List.length_pos_iff.mpr nonempty
      have rest := ih fun bytes member =>
        whole bytes (List.mem_cons_of_mem _ member)
      rw [List.flatten_cons, List.length_append, List.length_cons]
      omega

/-- An attempt takes an answer to its own request, exactly when none to an
earlier transaction with the same command arrives. -/
theorem serve_takes (underway : wire.Underway port responseSize request) :
    ∃ received after attempt,
      NumberedWire.serve port responseSize request wire =
          .returned received after ∧
        after.number = wire.number ∧
        after.Underway port responseSize request ∧
        after.attempts = wire.attempts ++ [attempt] ∧
        attempt.number = wire.number ∧ attempt.request = request ∧
        match awaitResponse request.cmd received with
        | .error _ => attempt.Punctual
        | .ok [] => False
        | .ok (status :: data) =>
            attempt.Matched after.exchanges status data ↔
              attempt.Punctual := by
  rcases headEq : wire.schedule.headD ([], []) with ⟨before, during⟩
  have reached := underway.attempt before during
  generalize linkEq : wire.link.attempt
    (blMachine port responseSize).numbered (wire.number, request) before
    during = link at reached
  have served : NumberedWire.serve port responseSize request wire =
      .returned
        (readFrames (link.arrived.map Prod.snd).flatten.length
          (link.arrived.map Prod.snd).flatten)
        ⟨link, wire.schedule.tail, wire.number,
          wire.attempts ++ [⟨wire.number, request, link.arrived⟩]⟩ := by
    unfold NumberedWire.serve
    rw [headEq]
    dsimp only
    rw [linkEq]
  refine ⟨_, _, ⟨wire.number, request, link.arrived⟩, served, rfl, reached,
    rfl, rfl, rfl, ?_⟩
  have whole := arrived_whole reached
  have taken := awaitResponse_replies whole request.cmd
    (replies_short whole)
  rw [List.find?_map] at taken
  have kind : ((fun bytes => decide (frameCmd bytes = request.cmd)) ∘
      Prod.snd : Nat × List U8 → Bool) =
        fun answer => decide (frameCmd answer.2 = request.cmd) := rfl
  rw [kind] at taken
  cases found : link.arrived.find? fun answer =>
      decide (frameCmd answer.2 = request.cmd) with
  | none =>
      rw [found] at taken
      dsimp only [Option.map_none] at taken
      rw [taken]
      intro answer member same
      exact absurd (decide_eq_true same)
        (List.find?_eq_none.mp found answer member)
  | some answer =>
      obtain ⟨number, bytes⟩ := answer
      rw [found] at taken
      obtain ⟨status, data, decoded, awaited⟩ := taken
      rw [awaited]
      have first := reached.first found
      constructor
      · rintro ⟨bytes, own, _decoded, _exchanged⟩
        unfold Attempt.taken at own
        rw [found] at own
        cases own
        intro other member same
        exact first.mp rfl other member (decide_eq_true same)
      · intro punctual
        have own : number = wire.number :=
          first.mpr fun other member same =>
            punctual other member (of_decide_eq_true same)
        subst own
        exact ⟨bytes, found, decoded,
          reached.answers (List.mem_of_find?_eq_some found)⟩

theorem attempt_takes (underway : wire.Underway port responseSize request)
    (left number : Nat) (last : Option AttemptError) :
    ∃ outcome after news,
      ((numbering port responseSize retries).attempt request left number
          last).run wire = .returned outcome after ∧
        after.number = wire.number ∧
        after.Underway port responseSize request ∧
        after.attempts = wire.attempts ++ news ∧
        match outcome with
        | .error _ => ∀ attempt, attempt ∈ news → attempt.Punctual
        | .ok response => response.cmd = request.cmd ∧
            ∃ final, after.attempts.getLast? = some final ∧
              final.number = wire.number ∧ final.request = request ∧
              (final.Matched after.exchanges response.status response.data ↔
                ∀ attempt, attempt ∈ news → attempt.Punctual) := by
  induction left generalizing number last wire with
  | zero =>
      exact ⟨.error _, wire, [], rfl, rfl, underway,
        (List.append_nil _).symm, List.forall_mem_nil _⟩
  | succ left ih =>
      obtain ⟨received, middle, attempt, served, sameNumber, reached, made,
        numbered, asked, takes⟩ := serve_takes underway
      have ran : (ExceptT.lift
          ((numbering port responseSize retries).port request) :
            HostM NumberedWire (List Received)).run wire =
          .returned (.ok received) middle := run_lift served
      unfold Bootloader.attempt
      rw [run_bind_ok ran]
      cases awaited : awaitResponse request.cmd received with
      | error error =>
          rw [awaited] at takes
          obtain ⟨outcome, after, news, went, kept, still, more, ends⟩ :=
            ih reached (number + 1) (some error)
          refine ⟨outcome, after, attempt :: news, went,
            kept.trans sameNumber, still, ?_, ?_⟩
          · rw [more, made, List.append_assoc]
            rfl
          · cases outcome with
            | error error => exact List.forall_mem_cons.mpr ⟨takes, ends⟩
            | ok response =>
                obtain ⟨named, final, isLast, own, request, matched⟩ := ends
                refine ⟨named, final, isLast, own.trans sameNumber, request,
                  matched.trans ?_⟩
                rw [List.forall_mem_cons]
                exact (and_iff_right takes).symm
      | ok payload =>
          rw [awaited] at takes
          cases payload with
          | nil => exact takes.elim
          | cons status data =>
              refine ⟨_, middle, [attempt], rfl, sameNumber, reached, made,
                rfl, attempt, ?_, numbered, asked, takes.trans ?_⟩
              · rw [made, List.getLast?_concat]
              · rw [List.forall_mem_singleton]

end Attempts

/-! ### Sequences of transactions -/

/-- A call of `_transact`, what it has returned or raised, and the wire as the
call has left it. -/
structure Transaction where
  cmd : U8
  payload : List U8
  outcome : Except HostError Response
  wire : NumberedWire

/-- A response that the call has returned is an answer which the device gave
to a request with its command and payload, sent in this call. -/
def Transaction.Matched (transaction : Transaction) : Prop :=
  ∀ response, transaction.outcome = .ok response →
    response.cmd = transaction.cmd ∧
    ∃ final, transaction.wire.attempts.getLast? = some final ∧
      final.number = transaction.wire.number ∧
      final.request.cmd = transaction.cmd ∧
      final.request.bytes = transaction.payload ∧
      final.Matched transaction.wire.exchanges response.status response.data

/-- The calls through one `Bootloader` object, in order. -/
structure Dialogue where
  wire : NumberedWire
  transactions : List Transaction

def Dialogue.initial (system : System)
    (schedule : List (List BlEvent × List BlEvent)) : Dialogue :=
  ⟨.initial system schedule, []⟩

/-- Every call has a number of its own, whatever the earlier ones came to. -/
def Dialogue.step (port : Port) (responseSize retries : Nat)
    (dialogue : Dialogue) (command : U8 × List U8) : Dialogue :=
  match ((numbering port responseSize retries).transact command.1
      command.2).run
        { dialogue.wire with number := dialogue.wire.number + 1 } with
  | .returned outcome wire =>
      ⟨wire, dialogue.transactions ++
        [⟨command.1, command.2, outcome, wire⟩]⟩
  | .lost wire => { dialogue with wire := wire }

section Dialogue

variable {port : Port} {responseSize retries : Nat}

theorem transact_takes {request : BlFrame} {wire : NumberedWire}
    (underway : wire.Underway port responseSize request) (cmd : U8)
    (payload : List U8) :
    ∃ outcome after news request,
      ((numbering port responseSize retries).transact cmd payload).run
          { wire with number := wire.number + 1 } =
        .returned outcome after ∧
      after.Underway port responseSize request ∧
      after.attempts = wire.attempts ++ news ∧
      (Transaction.Matched ⟨cmd, payload, outcome, after⟩ ↔
        ∀ attempt, attempt ∈ news → attempt.Punctual) := by
  unfold Bootloader.transact
  by_cases fits : payload.length ≤ Blproto.maxPayload
  · obtain ⟨outcome, after, news, ran, sameNumber, reached, made, takes⟩ :=
      @attempt_takes port responseSize retries
        (BlFrame.ofBytes cmd payload fits)
        { wire with number := wire.number + 1 } (underway.next _) retries 1
        none
    refine ⟨outcome, after, news, _, ?_, reached, made, ?_⟩
    · rw [dif_pos fits]
      exact ran
    · cases outcome with
      | error error =>
          refine iff_of_true ?_ takes
          intro response impossible
          cases impossible
      | ok response =>
          obtain ⟨named, final, isLast, own, asked, matched⟩ := takes
          rw [← matched]
          constructor
          · intro each
            obtain ⟨_named, other, isLast', _own, _cmd, _payload, told⟩ :=
              each response rfl
            cases isLast.symm.trans isLast'
            exact told
          · intro told response' same
            cases same
            refine ⟨named, final, isLast, own.trans sameNumber.symm, ?_, ?_,
              told⟩
            · rw [asked]
              rfl
            · rw [asked]
              exact BlFrame.ofBytes_bytes cmd payload fits
  · refine ⟨.error (.payloadTooLong payload.length),
      { wire with number := wire.number + 1 }, [], _, ?_,
      underway.next request, (List.append_nil _).symm, ?_⟩
    · rw [dif_neg fits]
      rfl
    · refine iff_of_true ?_ (List.forall_mem_nil _)
      intro response impossible
      cases impossible

/-- Calls of `_transact` one after another, each with what it returns or
raises. -/
def transactAll {σ : Type} (loader : Bootloader σ) :
    List (U8 × List U8) → Prog σ (List (Except HostError Response))
  | [] => pure []
  | command :: later => do
      let outcome ← (loader.transact command.1 command.2).run
      let outcomes ← transactAll loader later
      pure (outcome :: outcomes)

theorem dialogue_forget (commands : List (U8 × List U8))
    (dialogue : Dialogue) :
    ∃ transactions,
      (run (Dialogue.step port responseSize retries) dialogue
          commands).transactions = dialogue.transactions ++ transactions ∧
        transactAll (unreliable port responseSize retries) commands
            dialogue.wire.forget =
          .returned (transactions.map Transaction.outcome)
            (run (Dialogue.step port responseSize retries) dialogue
              commands).wire.forget := by
  induction commands generalizing dialogue with
  | nil => exact ⟨[], (List.append_nil _).symm, rfl⟩
  | cons command later ih =>
      obtain ⟨outcome, after, ran, plain⟩ :=
        @transact_forget port responseSize retries command.1 command.2
          { dialogue.wire with number := dialogue.wire.number + 1 }
      have stepped : dialogue.step port responseSize retries command =
          ⟨after, dialogue.transactions ++
            [⟨command.1, command.2, outcome, after⟩]⟩ := by
        unfold Dialogue.step
        rw [ran]
      obtain ⟨transactions, listed, rest⟩ :=
        ih (dialogue.step port responseSize retries command)
      rw [stepped] at listed rest
      refine ⟨⟨command.1, command.2, outcome, after⟩ :: transactions, ?_, ?_⟩
      · rw [run_cons, stepped, listed, List.append_assoc]
        rfl
      · rw [run_cons, stepped]
        unfold transactAll
        exact (Prog.bind_returned plain).trans (Prog.bind_returned rest)

/-- So far the responses match their requests, exactly when all answers have
come in time. -/
structure Dialogue.Judged (port : Port) (responseSize : Nat)
    (dialogue : Dialogue) : Prop where
  underway : ∃ request, dialogue.wire.Underway port responseSize request
  verdict : (∀ transaction, transaction ∈ dialogue.transactions →
      transaction.Matched) ↔
    ∀ attempt, attempt ∈ dialogue.wire.attempts → attempt.Punctual

theorem judged_initial (system : System)
    (schedule : List (List BlEvent × List BlEvent)) :
    (Dialogue.initial system schedule).Judged port responseSize where
  underway := ⟨BlFrame.ofBytes 0 [] (Nat.zero_le _),
    underway_initial _ _ _ _⟩
  verdict := iff_of_true (List.forall_mem_nil _) (List.forall_mem_nil _)

theorem Dialogue.Judged.step {dialogue : Dialogue}
    (judged : dialogue.Judged port responseSize)
    (command : U8 × List U8) :
    (dialogue.step port responseSize retries command).Judged port
      responseSize := by
  obtain ⟨request, underway⟩ := judged.underway
  obtain ⟨outcome, after, news, following, ran, reached, made, matched⟩ :=
    @transact_takes port responseSize retries request dialogue.wire underway
      command.1 command.2
  have stepped : dialogue.step port responseSize retries command =
      ⟨after, dialogue.transactions ++
        [⟨command.1, command.2, outcome, after⟩]⟩ := by
    unfold Dialogue.step
    rw [ran]
  rw [stepped]
  refine ⟨⟨following, reached⟩, ?_⟩
  dsimp only
  rw [made, List.forall_mem_append, List.forall_mem_append, judged.verdict,
    List.forall_mem_singleton, matched]

theorem dialogue_judged (system : System)
    (schedule : List (List BlEvent × List BlEvent))
    (commands : List (U8 × List U8)) :
    (run (Dialogue.step port responseSize retries)
      (.initial system schedule) commands).Judged port responseSize :=
  run_invariant (Dialogue.Judged port responseSize)
    (judged_initial system schedule)
    (fun _ command judged => judged.step command) commands

end Dialogue

/-- Every response answers a request of its own call, exactly when no attempt
is reached by an answer that an earlier call with the same command has given
up. -/
theorem responses_matched_iff (port : Port) (responseSize retries : Nat)
    (system : System) (schedule : List (List BlEvent × List BlEvent))
    (commands : List (U8 × List U8)) :
    let dialogue := run (Dialogue.step port responseSize retries)
      (.initial system schedule) commands
    (∀ transaction, transaction ∈ dialogue.transactions →
        transaction.Matched) ↔
      ∀ attempt, attempt ∈ dialogue.wire.attempts → attempt.Punctual :=
  (dialogue_judged system schedule commands).verdict

/-- The first query is answered in time only when it is repeated, and its
second answer comes after the second query has been sent. -/
def lateSchedule : List (List BlEvent × List BlEvent) :=
  [([], [.handle []]), ([], [.handle [], .deliver]),
    ([], [.handle [], .deliver])]

def lateDialogue : Dialogue :=
  run (Dialogue.step hostPort blMinResponseSize defaultRetries)
    (.initial (.initial fallbackFlash) lateSchedule)
    [(Blproto.cmdVerify, [blSlotB]), (Blproto.cmdVerify, [blSlotA])]

instance (attempt : Attempt) : Decidable attempt.Punctual :=
  inferInstanceAs (Decidable (∀ answer, answer ∈ attempt.arrived →
    frameCmd answer.2 = attempt.request.cmd → ¬ answer.1 < attempt.number))

/-- The host takes the image of slot B for that of slot A, which is damaged. -/
theorem lateDialogue_mismatched :
    ¬ Validates hostPort.layout fallbackFlash blSlotA ∧
      (lateDialogue.transactions.map fun transaction =>
          (transaction.payload,
            transaction.outcome.toOption.map Response.status)) =
        [([blSlotB], some Blproto.ok), ([blSlotA], some Blproto.ok)] ∧
      ¬ ∀ transaction, transaction ∈ lateDialogue.transactions →
        transaction.Matched := by
  refine ⟨fallbackFlash_damaged, by decide +kernel, ?_⟩
  rw [lateDialogue, (dialogue_judged _ _ _).verdict]
  decide +kernel

end Stm32Bootloader
