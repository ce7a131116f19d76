/-
The firmware on the simulated flash of bl_port_host.c.

The calls of a run are made on the array and the bitmap, each write with the
failure injected that it met.  The assertion on bytes that are programmed
twice is the only one that can fail, and it fails in the runs in which a
header block reaches into payload.  In every other run the array holds what
the port model says.
-/

import Stm32Bootloader.DoubleProgram
import Stm32Bootloader.HostFlash

namespace Stm32Bootloader

open TransitionRun WriteOnce

/-! ### Calls on the array -/

/-- How a call can end on the host port: power is not lost, an erase succeeds,
and a write fails by injection. -/
def PortCall.Hosted : PortCall → Prop
  | .erase _ _ outcome => outcome = .success
  | .write _ _ outcome => outcome = .success ∨ outcome = .failure .program
  | .jump _ => True

instance : DecidablePred PortCall.Hosted
  | .erase _ _ outcome => inferInstanceAs (Decidable (outcome = .success))
  | .write _ _ outcome => inferInstanceAs
      (Decidable (outcome = .success ∨ outcome = .failure .program))
  | .jump _ => .isTrue trivial

def PortCall.Sized : PortCall → Prop
  | .write _ data _ => 0 < data.length ∧ data.length < 2 ^ 32
  | _ => True

namespace HostFlash

/-- A call of the firmware.  A test arms the injection for a write that is to
fail and disarms it for one that is not. -/
def hostCalls : PortCall → List Call
  | .erase address length _ => [.erase address length]
  | .write address data outcome =>
      [if outcome = .success then .clearFailures else .failAfterNWrites 0,
        .write address (some fun index => data.getD index 0)
          (BitVec.ofNat 32 data.length)]
  | .jump _ => []

/-- What a call that ends this way does to the store. -/
def actionsOf : PortCall → List (Action U8)
  | .erase address length outcome =>
      if outcome = .success then
        [.erase (flashOffset address).toNat length.toNat]
      else []
  | .write address data outcome =>
      if outcome = .success then
        [.program (flashOffset address).toNat data]
      else []
  | .jump _ => []

/-- The addresses whose bit is set. -/
def Written (host : HostFlash) (address : Nat) : Prop :=
  hostFlashBase.toNat ≤ address ∧
    Bitmap.get host.gWritten (address - hostFlashBase.toNat) = true

/-- The calls of the firmware, made on the array, end as recorded, and change
the array and the bitmap as the port model and the events say. -/
structure Plays (host : HostFlash) (calls : List PortCall)
    (after : HostFlash) : Prop where
  ran : Call.runAll host (calls.flatMap hostCalls) =
    some (after, calls.flatMap actionsOf)
  bytes : ∀ address, hostFlashBase.toNat ≤ address →
    after.flash address = replay hostPort host.flash calls address
  written : Written after =
    programmedAfter (Written host) (calls.flatMap PortCall.events)

section Plays

variable {host middle after : HostFlash} {left right : List PortCall}

theorem runAll_cons (host : HostFlash) (call : Call) (later : List Call) :
    Call.runAll host (call :: later) =
      (call.run host).bind fun reply =>
        (Call.runAll reply.2 later).map fun last =>
          (last.1, call.actions reply.1 ++ last.2) := by
  conv_lhs => unfold Call.runAll
  cases call.run host with
  | none => rfl
  | some reply => exact (Option.map_eq_bind).symm

theorem runAll_append (host : HostFlash) (left right : List Call) :
    Call.runAll host (left ++ right) =
      (Call.runAll host left).bind fun first =>
        (Call.runAll first.1 right).map fun second =>
          (second.1, first.2 ++ second.2) := by
  induction left generalizing host with
  | nil =>
      change Call.runAll host right =
        (Call.runAll host right).map fun second => (second.1, second.2)
      exact (congrFun Option.map_id_fun _).symm
  | cons call left ih =>
      rw [List.cons_append, runAll_cons, runAll_cons]
      cases call.run host with
      | none => rfl
      | some reply =>
          simp only [Option.bind_some, ih]
          cases Call.runAll reply.2 left with
          | none => rfl
          | some first =>
              simp only [Option.bind_some, Option.map_some, Option.map_map,
                Function.comp_def, List.append_assoc]

theorem replay_congr {before before' : Flash} {address : Nat}
    (same : before address = before' address) (calls : List PortCall) :
    replay hostPort before calls address =
      replay hostPort before' calls address := by
  induction calls generalizing before before' with
  | nil => exact same
  | cons call later ih =>
      apply ih
      cases call with
      | erase base length outcome =>
          simp only [PortCall.apply, Memory.fill, same]
      | write base data outcome =>
          simp only [PortCall.apply, Memory.store, same]
      | jump target => exact same

theorem Plays.nil (host : HostFlash) : Plays host [] host :=
  ⟨rfl, fun _ _ => rfl, rfl⟩

theorem Plays.append (first : Plays host left middle)
    (second : Plays middle right after) :
    Plays host (left ++ right) after where
  ran := by
    rw [List.flatMap_append, runAll_append, first.ran]
    simp only [Option.bind_some, second.ran, Option.map_some,
      List.flatMap_append]
  bytes address inside := by
    rw [second.bytes address inside, replay_append]
    exact replay_congr (first.bytes address inside) right
  written := by
    rw [second.written, first.written, List.flatMap_append,
      programmedAfter_append]

end Plays

/-! ### One call -/

section Call

variable {host : HostFlash} {address length : U32}

theorem range_places (valid : flashRangeValid address length = true)
    {cell : Nat} (inside : hostFlashBase.toNat ≤ cell) :
    (flashOffset address).toNat ≤ cell - hostFlashBase.toNat ∧
        cell - hostFlashBase.toNat <
          (flashOffset address).toNat + length.toNat ↔
      address.toNat ≤ cell ∧ cell < address.toNat + length.toNat := by
  have bounds := (flashRangeValid_iff address length).mp valid
  have place := (range_offset valid).1
  omega

theorem written_erased (valid : flashRangeValid address length = true) :
    Written (host.erased (flashOffset address).toNat length.toNat) =
      Event.after (Written host) (.erase address.toNat length.toNat) := by
  funext cell
  unfold Written HostFlash.erased Event.after
  dsimp only
  rw [Bitmap.get_clearRange (by decide), eq_iff_iff, and_assoc]
  refine and_congr_right fun inside => ?_
  rw [Bool.and_eq_true, Bool.not_eq_true', decide_eq_false_iff_not,
    range_places valid inside]
  exact and_comm

theorem written_programmed {block : List U8}
    (valid : flashRangeValid address length = true)
    (size : block.length = length.toNat) :
    Written (host.programmed (flashOffset address).toNat block) =
      Event.after (Written host)
        (.program address.toNat block.length true) := by
  have bounds := (flashRangeValid_iff address length).mp valid
  funext cell
  unfold Written HostFlash.programmed Event.after
  rw [Bitmap.get_setRange (by decide), eq_iff_iff, size, Bool.or_eq_true,
    decide_eq_true_eq]
  constructor
  · rintro ⟨inside, covered | old⟩
    · exact Or.inr ⟨rfl, (range_places valid inside).mp covered⟩
    · exact Or.inl ⟨inside, old⟩
  · rintro (⟨inside, old⟩ | ⟨_completed, covered⟩)
    · exact ⟨inside, Or.inr old⟩
    · have inside : hostFlashBase.toNat ≤ cell := by omega
      exact ⟨inside, Or.inl ((range_places valid inside).mpr covered)⟩

theorem unwritten_iff (valid : flashRangeValid address length = true) :
    ((List.range length.toNat).any fun index => flashByteWritten host
        (flashOffset address + BitVec.ofNat 32 index)) = false ↔
      ∀ cell, address.toNat ≤ cell →
        cell < address.toNat + length.toNat → ¬ Written host cell := by
  have bounds := (flashRangeValid_iff address length).mp valid
  have place := range_offset valid
  have size := hostFlashSize_toNat
  rw [List.any_eq_false]
  constructor
  · intro clear cell lower upper written
    have index := clear (cell - address.toNat) (List.mem_range.mpr (by omega))
    rw [flashByteWritten_eq, place_toNat (by omega)] at index
    have same : (flashOffset address).toNat + (cell - address.toNat) =
        cell - hostFlashBase.toNat := by omega
    rw [same] at index
    exact index written.2
  · intro clear index within written
    have below := List.mem_range.mp within
    rw [flashByteWritten_eq, place_toNat (by omega)] at written
    have same : address.toNat + index - hostFlashBase.toNat =
        (flashOffset address).toNat + index := by omega
    refine clear (address.toNat + index) (by omega) (by omega)
      ⟨by omega, ?_⟩
    rw [same]
    exact written

theorem pointed_getD (data : List U8) (fits : data.length < 2 ^ 32) :
    pointed (some fun index => data.getD index 0)
      (BitVec.ofNat 32 data.length) = data := by
  have size : (BitVec.ofNat 32 data.length).toNat = data.length := by
    rw [BitVec.toNat_ofNat, Nat.mod_eq_of_lt fits]
  unfold pointed
  rw [size]
  apply List.ext_getElem (Memory.load_length _ _ _)
  intro index _left inside
  simp [Memory.load, inside]

theorem plays_erase
    (permitted : (PortCall.erase address length .success).Permitted) :
    ∃ after, Plays host [.erase address length .success] after := by
  have valid := permitted.1
  obtain ⟨⟨result, after⟩, ran⟩ := Option.isSome_iff_exists.mp
    ((blFlashErase_isSome_iff address length .success host).mpr permitted)
  obtain ⟨_valid, rfl, rfl⟩ := blFlashErase_passed ran
  refine ⟨_, ?_, ?_, written_erased valid⟩
  · exact (runAll_cons _ _ _).trans
      (congrArg (fun reply => Option.bind reply _) ran)
  · exact fun location inside =>
      @Call.run_replay host _ .ok (.erase address length) ran location inside

theorem blFlashWrite_injected {data : Pointer} {after : HostFlash}
    {result : BlResult} (present : data.isNone = false) (nonempty : length ≠ 0)
    (ran : blFlashWrite address data length host = some (result, after)) :
    result = if host.gWriteCallCount ≥ host.gFailWriteFrom then
      .errFlashProgram else .ok := by
  unfold blFlashWrite at ran
  rw [if_neg (fun null => by simp [present] at null)] at ran
  split at ran
  · cases ran
  split at ran
  · cases ran
  split at ran
  · cases ran
  dsimp only at ran
  split at ran
  · cases ran
  split at ran
  · rename_i armed
    rw [if_pos armed]
    cases ran
    rfl
  · rename_i unarmed
    rw [if_neg unarmed]
    cases ran
    rfl

variable {data : List U8} {outcome : FlashOutcome}

/-- The counters as a test sets them before a write. -/
def injected (outcome : FlashOutcome) (host : HostFlash) : HostFlash :=
  if outcome = .success then blHostClearFailures host
  else blHostFailAfterNWrites 0 host

theorem injected_written (host : HostFlash) :
    Written (injected outcome host) = Written host := by
  unfold injected
  split <;> rfl

theorem injected_flash (host : HostFlash) :
    (injected outcome host).flash = host.flash := by
  unfold injected
  split <;> rfl

/-- The write of a recorded call, with its data behind a pointer. -/
def writing (address : U32) (data : List U8) : Call :=
  .write address (some fun index => data.getD index 0)
    (BitVec.ofNat 32 data.length)

theorem runAll_write (host : HostFlash) :
    Call.runAll host (hostCalls (.write address data outcome)) =
      ((writing address data).run (injected outcome host)).map
        fun reply => (reply.2, (writing address data).actions reply.1) := by
  have armed : ∀ hook : Call,
      hook.run host = some (.ok, injected outcome host) →
      hook.actions .ok = [] →
      Call.runAll host [hook, writing address data] =
        ((writing address data).run (injected outcome host)).map
          fun reply => (reply.2, (writing address data).actions reply.1) := by
    intro hook arms quiet
    rw [runAll_cons, arms, Option.bind_some, runAll_cons]
    cases (writing address data).run (injected outcome host) with
    | none => rfl
    | some reply =>
        simp only [Option.bind_some, Call.runAll, Option.map_some, quiet,
          List.nil_append, List.append_nil]
  apply armed
  · unfold injected
    split <;> rfl
  · split <;> rfl

theorem writing_isSome_iff
    (permitted : (PortCall.write address data outcome).Permitted)
    (sized : (PortCall.write address data outcome).Sized)
    (host : HostFlash) :
    ((writing address data).run host).isSome = true ↔
      Respects (Written host)
        (PortCall.write address data outcome).events := by
  have size : (BitVec.ofNat 32 data.length).toNat = data.length := by
    rw [BitVec.toNat_ofNat, Nat.mod_eq_of_lt sized.2]
  have exactly := blFlashWrite_isSome_iff address
    (BitVec.ofNat 32 data.length) (fun index => data.getD index 0) outcome
    host
  rw [pointed_getD data sized.2, unwritten_iff permitted.1, size] at exactly
  refine exactly.trans ?_
  rw [and_iff_right permitted]
  exact (iff_of_eq (and_true _)).symm

theorem writing_ends {result : BlResult} {after : HostFlash}
    (hosted : (PortCall.write address data outcome).Hosted)
    (sized : (PortCall.write address data outcome).Sized)
    (ran : (writing address data).run (injected outcome host) =
      some (result, after)) :
    (outcome = .success ∧ result = .ok) ∨
      (outcome = .failure .program ∧ result = .errFlashProgram) := by
  have size : (BitVec.ofNat 32 data.length).toNat = data.length := by
    rw [BitVec.toNat_ofNat, Nat.mod_eq_of_lt sized.2]
  have nonempty : BitVec.ofNat 32 data.length ≠ 0 := by
    intro zero
    rw [zero] at size
    exact absurd sized.1 (size ▸ Nat.lt_irrefl 0)
  have ending := blFlashWrite_injected rfl nonempty ran
  rcases hosted with rfl | rfl
  · exact Or.inl ⟨rfl, ending⟩
  · exact Or.inr ⟨rfl, ending⟩

theorem plays_write
    (permitted : (PortCall.write address data outcome).Permitted)
    (hosted : (PortCall.write address data outcome).Hosted)
    (sized : (PortCall.write address data outcome).Sized)
    (allowed : Respects (Written host)
      (PortCall.write address data outcome).events) :
    ∃ after, Plays host [.write address data outcome] after := by
  have size : (BitVec.ofNat 32 data.length).toNat = data.length := by
    rw [BitVec.toNat_ofNat, Nat.mod_eq_of_lt sized.2]
  have block := pointed_getD data sized.2
  rw [← @injected_written outcome host] at allowed
  obtain ⟨⟨result, after⟩, ran⟩ := Option.isSome_iff_exists.mp
    ((writing_isSome_iff permitted sized _).mpr allowed)
  have made : Call.runAll host
      ([PortCall.write address data outcome].flatMap hostCalls) =
        some (after, (writing address data).actions result) := by
    rw [List.flatMap_singleton, runAll_write, ran]
    rfl
  have replayed : ∀ location, hostFlashBase.toNat ≤ location →
      after.flash location = replay hostPort host.flash
        ((writing address data).portCalls result) location := by
    intro location inside
    rw [← @injected_flash outcome host]
    exact Call.run_replay ran inside
  refine ⟨after, ?_⟩
  rcases writing_ends hosted sized ran with ⟨rfl, rfl⟩ | ⟨rfl, rfl⟩
  · have acted : (writing address data).actions .ok =
        [.program (flashOffset address).toNat data] := by
      change [Action.program _ (pointed _ _)] = _
      rw [block]
    have called : (writing address data).portCalls .ok =
        [.write address data .success] := by
      change [PortCall.write _ (pointed _ _) .success] = _
      rw [block]
    rw [acted] at made
    rw [called] at replayed
    refine ⟨made, replayed, ?_⟩
    rcases blFlashWrite_passed ran with
      ⟨failed, _same⟩ | ⟨valid, _ok, _unwritten, count, rfl⟩
    · exact absurd rfl failed
    · have marked := @written_programmed (injected .success host) address
        (BitVec.ofNat 32 data.length) data valid size.symm
      rw [injected_written] at marked
      rw [block]
      exact marked
  · refine ⟨made, replayed, ?_⟩
    rcases blFlashWrite_passed ran with
      ⟨_failed, _bytes, same⟩ | ⟨_valid, impossible, _rest⟩
    · have kept : Written after = Written host := by
        rw [← @injected_written (.failure .program) host]
        unfold Written
        rw [same]
      rw [kept]
      funext cell
      exact propext (or_iff_left fun both => Bool.false_ne_true both.1).symm
    · cases impossible

end Call

/-! ### Many calls -/

/-- The conditions on a call under which the array can make it. -/
structure Playable (call : PortCall) : Prop where
  permitted : call.Permitted
  hosted : call.Hosted
  sized : call.Sized

theorem plays_call {call : PortCall} (playable : Playable call)
    {host : HostFlash} (allowed : Respects (Written host) call.events) :
    ∃ after, Plays host [call] after := by
  obtain ⟨permitted, hosted, sized⟩ := playable
  cases call with
  | erase address length outcome =>
      cases hosted
      exact plays_erase permitted
  | write address data outcome =>
      exact plays_write permitted hosted sized allowed
  | jump target => exact ⟨host, rfl, fun _ _ => rfl, rfl⟩

theorem plays_calls {calls : List PortCall}
    (playable : ∀ call, call ∈ calls → Playable call) {host : HostFlash}
    (allowed : Respects (Written host) (calls.flatMap PortCall.events)) :
    ∃ after, Plays host calls after := by
  induction calls generalizing host with
  | nil => exact ⟨host, .nil host⟩
  | cons call later ih =>
      rw [List.flatMap_cons, respects_append] at allowed
      obtain ⟨first, rest⟩ := allowed
      obtain ⟨middle, played⟩ :=
        plays_call (playable call List.mem_cons_self) first
      have marked := played.written
      rw [List.flatMap_singleton] at marked
      rw [← marked] at rest
      obtain ⟨after, follows⟩ :=
        ih (fun other made => playable other (List.mem_cons_of_mem _ made)) rest
      exact ⟨after, played.append follows⟩

end HostFlash

/-! ### The calls of a run -/

section Sizes

variable {port : Port}

theorem CommitCalls.sized {flash : Flash} {slot state attempts : U8}
    {new : List PortCall}
    (commit : CommitCalls port flash slot state attempts new)
    {call : PortCall} (made : call ∈ new) : call.Sized := by
  have length : (commitRecord port flash slot state attempts).toBytes.length =
      16 := commitRecord_length
  cases commit with
  | refused => cases made
  | erased outcome unfinished =>
      obtain rfl := List.mem_singleton.mp made
      trivial
  | written outcome =>
      rcases List.mem_cons.mp made with rfl | later
      · trivial
      · obtain rfl := List.mem_singleton.mp later
        exact ⟨by omega, by omega⟩

theorem writeCall_sized {session : BlSession} {request : BlFrame}
    (admitted : WriteAdmitted port session request)
    (outcome : FlashOutcome) :
    (writeCall port session request outcome).Sized := by
  have length := request.writeData_length admitted.nonempty
  have bound := request.writeLength.isLt
  have positive := writeLength_positive admitted
  exact ⟨by omega, by omega⟩

theorem AsideCalls.sized {flash : Flash} {new : List PortCall}
    (calls : AsideCalls port flash new) {call : PortCall}
    (made : call ∈ new) : call.Sized := by
  have jumps : ∀ {jump : Option U32},
      call ∈ jump.toList.map PortCall.jump → call.Sized := by
    intro jump jumped
    obtain ⟨address, _taken, rfl⟩ := List.mem_map.mp jumped
    trivial
  cases calls with
  | none jump => exact jumps made
  | commit slot state attempts new commit jump =>
      rcases List.mem_append.mp made with early | jumped
      · exact commit.sized early
      · exact jumps jumped

theorem RequestCalls.sized {session after : BlSession} {flash : Flash}
    {request : BlFrame} {new : List PortCall} {status : Option BlResult}
    (calls : RequestCalls port session flash request after new status)
    {call : PortCall} (made : call ∈ new) : call.Sized := by
  cases calls with
  | refused status failed unadmitted => cases made
  | answered isQuery status => cases made
  | reset isReset => cases made
  | erase slot erases slotOk outcome =>
      obtain rfl := List.mem_singleton.mp made
      trivial
  | write admitted outcome =>
      obtain rfl := List.mem_singleton.mp made
      exact writeCall_sized admitted outcome
  | arm isArm oneByte validates new commit status => exact commit.sized made

theorem StepCalls.sized {system : System} {op : Op} {session : BlSession}
    {new : List PortCall} (calls : StepCalls port system op session new)
    {call : PortCall} (made : call ∈ new) : call.Sized := by
  cases calls with
  | request frame responseSize after new status calls =>
      exact calls.sized made
  | cutOff frame responseSize after new calls => exact calls.sized made
  | boot session kept new trial jump => exact (trial.aside jump).sized made
  | confirm session kept new calls => exact calls.aside.sized made
  | powerCycle => cases made

theorem systemStep_sized {port : Port} {system : System}
    (sized : ∀ call, call ∈ system.calls → call.Sized) (step : Step) :
    ∀ call, call ∈ (systemStep port system step).calls → call.Sized := by
  intro call made
  obtain ⟨new, calls, log, _flashEq⟩ := systemStep_calls port system step
  rw [log] at made
  rcases List.mem_append.mp made with old | recent
  · exact sized call old
  · exact calls.sized recent

end Sizes

/-! ### Flash that starts erased -/

/-- The bytes programmed since their last erase, on flash that starts
erased. -/
def HostWritten (calls : List PortCall) : Nat → Prop :=
  programmedAfter (fun _ => False) (calls.flatMap PortCall.events)

/-- Of the slot that the session may write it does not matter what it held at
the start. -/
structure Settled (port : Port) (system : System) : Prop where
  targetOk : slotIsValid system.session.targetSlot = true
  settled : system.session.erased = true → ∀ cell,
    (port.layout.slot system.session.targetSlot).Holds cell →
      (HostWritten system.calls cell ↔ Programmed system.calls cell)

section Settled

variable {port : Port} {system : System}

theorem hostWritten_append (calls new : List PortCall) :
    HostWritten (calls ++ new) =
      programmedAfter (HostWritten calls)
        (new.flatMap PortCall.events) := by
  unfold HostWritten
  rw [List.flatMap_append, programmedAfter_append]

theorem settled_initial (flash : Flash) :
    Settled port (System.initial flash) :=
  ⟨BlSession.zeroed_targetOk, fun impossible =>
    absurd impossible Bool.false_ne_true⟩

theorem systemStep_settled (settled : Settled port system) (step : Step) :
    Settled port (systemStep port system step) := by
  obtain ⟨session, new, made, calls⟩ := systemStep_made port system step
  have targetOk := systemStep_targetOk port system step settled.targetOk
  refine ⟨targetOk, ?_⟩
  rw [made]
  rw [made] at targetOk
  intro erased cell inside
  change HostWritten (system.calls ++ new) cell ↔
    Programmed (system.calls ++ new) cell
  rw [hostWritten_append, programmed_append]
  rcases calls.target with ⟨sameErased, sameTarget⟩ | rfl |
    ⟨slot, _erases, _slotOk, opened, rfl⟩
  · apply programmedAfter_congr
    apply settled.settled (sameErased.symm.trans erased)
    rw [← sameTarget]
    exact inside
  · exact absurd erased Bool.false_ne_true
  · rw [opened.2] at inside
    exact iff_of_false (fun both => both.2 inside) fun both =>
      both.2 inside

/-- A step is allowed on flash that starts erased when it is on any. -/
theorem StepCalls.respects_congr (settled : Settled port system) {op : Op}
    {session : BlSession} {new : List PortCall}
    (calls : StepCalls port system op session new) :
    Respects (HostWritten system.calls) (new.flatMap PortCall.events) ↔
      Respects (Programmed system.calls) (new.flatMap PortCall.events) := by
  have aside : ∀ {new : List PortCall}, AsideCalls port system.flash new →
      (Respects (HostWritten system.calls) (new.flatMap PortCall.events) ↔
        Respects (Programmed system.calls)
          (new.flatMap PortCall.events)) :=
    fun quiet => iff_of_true (quiet.allowed _) (quiet.allowed _)
  have request : ∀ {frame : BlFrame} {after : BlSession}
      {new : List PortCall} {status : Option BlResult},
      RequestCalls port system.session system.flash frame after new status →
      (Respects (HostWritten system.calls) (new.flatMap PortCall.events) ↔
        Respects (Programmed system.calls)
          (new.flatMap PortCall.events)) := by
    intro frame after new status calls
    cases calls with
    | refused status failed unadmitted => exact Iff.rfl
    | answered isQuery status => exact Iff.rfl
    | reset isReset => exact Iff.rfl
    | erase slot erases slotOk outcome =>
        exact iff_of_true (eraseCall_allowed _ slot outcome)
          (eraseCall_allowed _ slot outcome)
    | write admitted outcome =>
        have address := writeCall_address admitted settled.targetOk
        have length := frame.writeData_length admitted.nonempty
        have inside := admitted.inside
        rw [List.flatMap_singleton]
        apply respects_program_congr
        intro cell lower upper
        rw [address] at lower upper
        exact settled.settled admitted.erased cell ⟨by omega, by omega⟩
    | arm isArm oneByte validates new commit status =>
        exact iff_of_true (commit.allowed _) (commit.allowed _)
  cases calls with
  | request frame responseSize after new status calls => exact request calls
  | cutOff frame responseSize after new calls => exact request calls
  | boot session kept new trial jump => exact aside (trial.aside jump)
  | confirm session kept new calls => exact aside calls.aside
  | powerCycle => exact Iff.rfl

end Settled

theorem systemStep_replayed {port : Port} {flash : Flash} {system : System}
    (replayed : system.flash = replay port flash system.calls)
    (step : Step) :
    (systemStep port system step).flash =
      replay port flash (systemStep port system step).calls := by
  obtain ⟨new, _calls, log, flashEq⟩ := systemStep_calls port system step
  rw [flashEq, log, replay_append, replayed]

open HostFlash

theorem written_init : Written blPortInit = fun _ => False := by
  funext address
  refine propext (iff_of_false ?_ id)
  rintro ⟨_inside, bit⟩
  rw [refines_init.bitmap] at bit
  cases bit

end Stm32Bootloader
