/-
A device that only the host tool talks to.

The tool runs its commands on it again and again, over a link that loses and
delays what it likes and hands on from one command to the next what is still
in flight, and the device restarts, boots and is confirmed in between.  No
command makes a header block reach into payload, so the device programs no
byte twice and the simulated flash of the host port never aborts.
-/

import Stm32Bootloader.HostRun
import Stm32Bootloader.StatusReports
import Stm32Bootloader.Tools.Commands

namespace Stm32Bootloader

open Interruptible Fallible LossyLink TransitionRun WriteOnce HostFlash
open Blflash

/-! ### The commands of the tool -/

/-- A request that one of the commands may send. -/
def BlFrame.OfTool (request : BlFrame) : Prop :=
  request.OfUpdate ∨ request.cmd = blCmdReset

theorem BlFrame.OfTool.programs {request : BlFrame}
    (ofTool : request.OfTool) (isWrite : request.cmd = blCmdWrite) :
    512 ≤ request.writeOffset.toNat ∨
      (request.writeOffset = 0 ∧ request.writeData.length = 40) := by
  rcases ofTool with ⟨slot, header, whole, updates⟩ | isReset
  · rcases (updates.programs isWrite).2 with behind | ⟨zero, same⟩
    · exact Or.inl behind
    · refine Or.inr ⟨zero, ?_⟩
      rw [same, whole]
  · exact (BlFrame.cmd_clash isWrite isReset).elim

inductive Command where
  | flash (image : List U8) (slot : Option Int) (noReset : Bool) (fuel : Nat)
  | status
  | verify (slot : Int)
  | reset

section Commands

variable {σ : Type} {loader : Bootloader σ} {invariant : σ → Prop}

def Command.perform (loader : Bootloader σ) : Command → HostM σ Unit
  | .flash image slot noReset fuel => do
      let _written ← cmdFlash loader fuel image slot noReset
      pure ()
  | .status => do
      let _output ← cmdStatus loader
      pure ()
  | .verify slot => do
      let _info ← loader.verify slot
      pure ()
  | .reset => loader.reset

theorem cmdStatus_keeps (queries : loader.Queries invariant) :
    Keeps invariant (cmdStatus loader) := by
  have lines : ∀ slots, Keeps invariant (loader.statuses slots) := by
    intro slots
    induction slots with
    | nil => exact Keeps.pure _
    | cons slot later ih =>
        refine Keeps.bind (queries.slotStatus_keeps slot).caught
          fun ended => ?_
        cases ended with
        | error error => exact Keeps.pure _
        | ok status => exact Keeps.bind ih fun _ => Keeps.pure _
  refine Keeps.bind queries.hello_keeps.caught fun ended => ?_
  cases ended with
  | error error => exact Keeps.pure _
  | ok info => exact Keeps.bind (lines _) fun _ => Keeps.pure _

theorem Command.keeps
    (stable : ∀ request : BlFrame, request.OfTool →
      loader.Stable invariant request) (command : Command) :
    Keeps invariant (command.perform loader) := by
  have queries : loader.Queries invariant :=
    queries_stable fun _ asks => stable _ (Or.inl ⟨blSlotA,
      List.replicate 40 0, List.length_replicate, Or.inl (asks blSlotA)⟩)
  have resets : Keeps invariant loader.reset :=
    Keeps.bind (Bootloader.expectOk_keeps fun _ => stable _ (Or.inr rfl))
      fun _ => Keeps.pure _
  have updates := @update_keeps σ loader invariant
    fun request ofUpdate => stable request (Or.inl ofUpdate)
  cases command with
  | flash image slot noReset fuel =>
      refine Keeps.bind (Keeps.bind (updates fuel image slot) fun written => ?_)
        fun _ => Keeps.pure _
      cases noReset with
      | true => exact Keeps.pure _
      | false => exact Keeps.bind resets fun _ => Keeps.pure _
  | status => exact Keeps.bind (cmdStatus_keeps queries) fun _ => Keeps.pure _
  | verify slot =>
      exact Keeps.bind (queries.verify_keeps slot) fun _ => Keeps.pure _
  | reset => exact resets

end Commands

/-! ### What a request of the tool leaves -/

/-- No payload stands in the header region of a slot. -/
def Floored (port : Port) (calls : List PortCall) : Prop :=
  ∀ slot, slotIsValid slot = true → ∀ floor,
    payloadFloor (port.layout.slot slot) calls = some floor → 512 ≤ floor

section Floored

variable {port : Port} {system : System} {session : BlSession}
  {new : List PortCall} (floored : Floored port system.calls)

include floored

theorem Floored.neutral (neutral : SlotNeutral port system.calls new) :
    Floored port (system.calls ++ new) := by
  intro slot slotOk
  rw [neutral.floor slot slotOk]
  exact floored slot slotOk

theorem RequestCalls.keepsFloored {request : BlFrame}
    {status : Option BlResult}
    (calls : RequestCalls port system.session system.flash request session
      new status)
    (targetOk : slotIsValid system.session.targetSlot = true)
    (ofTool : request.OfTool) : Floored port (system.calls ++ new) := by
  cases calls with
  | refused status failed unadmitted => exact floored.neutral .nil
  | answered isQuery status => exact floored.neutral .nil
  | reset isReset => exact floored.neutral .nil
  | erase erased erases slotOk outcome =>
      intro slot slotOk floor found
      rw [payloadFloor_append, List.foldl_cons, List.foldl_nil, eraseCall,
        floorStep] at found
      split at found
      · cases found
      · exact floored slot slotOk floor found
  | write admitted outcome =>
      intro slot slotOk floor found
      have placed := ofTool.programs admitted.isWrite
      by_cases target : slot = system.session.targetSlot
      · subst target
        exact payloadFloor_write_low admitted slotOk (floored _ slotOk)
          (fun behind => placed.resolve_right fun header => behind header.1)
          floor found
      · rw [payloadFloor_write_other admitted targetOk outcome slotOk
          target] at found
        exact floored slot slotOk floor found
  | arm isArm oneByte validates new commit status =>
      exact floored.neutral (commit.neutral _)

theorem StepCalls.keepsFloored {op : Op}
    (calls : StepCalls port system op session new)
    (targetOk : slotIsValid system.session.targetSlot = true)
    (ofTool : ∀ request size, op = .request request size →
      request.OfTool) :
    Floored port (system.calls ++ new) := by
  cases calls with
  | request frame responseSize after new status calls =>
      exact calls.keepsFloored floored targetOk (ofTool _ _ rfl)
  | cutOff frame responseSize after new calls =>
      exact calls.keepsFloored floored targetOk (ofTool _ _ rfl)
  | boot session kept new trial jump =>
      exact floored.neutral ((trial.aside jump).neutral _)
  | confirm session kept new calls =>
      exact floored.neutral (calls.aside.neutral _)
  | powerCycle => exact floored.neutral .nil

/-- A header ends before any payload begins. -/
theorem Floored.headerFits {step : Step}
    (targetOk : slotIsValid system.session.targetSlot = true)
    (ofTool : ∀ request size, step.op = .request request size →
      request.OfTool) :
    HeaderFits port system step := by
  obtain ⟨op, outcomes⟩ := step
  cases op with
  | request request responseSize =>
      intro admitted zero floor found
      have low := floored _ targetOk floor found
      have length := request.writeData_length admitted.nonempty
      rcases (ofTool _ _ rfl).programs admitted.isWrite with
        behind | ⟨_zero, short⟩
      · rw [zero] at behind
        exact absurd behind (by decide)
      · omega
  | boot => trivial
  | confirm => trivial
  | powerCycle => trivial

end Floored

/-! ### A device that keeps the contract of its flash -/

/-- What every step of the device keeps, whoever talks to it. -/
structure Recounted (system : System) : Prop where
  tracks : Tracks hostPort system.session system.calls
  settled : Settled hostPort system
  obeys : Obeys system
  sized : ∀ call, call ∈ system.calls → call.Sized
  replayed : system.flash = replay hostPort blPortInit.flash system.calls
  fresh : Respects (fun _ => False) (system.calls.flatMap PortCall.events) ↔
    NoDoubleProgram system.calls

theorem recounted_initial : Recounted (System.initial blPortInit.flash) where
  tracks := tracks_initial
  settled := settled_initial _
  obeys := ⟨BlSession.zeroed_targetOk, fun _ made => by cases made⟩
  sized _ made := by cases made
  replayed := rfl
  fresh := Iff.rfl

theorem systemStep_recounted (system : System) (step : Step)
    (recounted : Recounted system) :
    Recounted (systemStep hostPort system step) := by
  obtain ⟨tracks, settled, obeys, sized, replayed, fresh⟩ := recounted
  refine ⟨(systemStep_tracks tracks step).1, systemStep_settled settled step,
    systemStep_obeys obeys step, systemStep_sized sized step,
    systemStep_replayed replayed step, ?_⟩
  obtain ⟨new, calls, log, _flashEq⟩ := systemStep_calls hostPort system step
  rw [log, noDoubleProgram_append, List.flatMap_append, respects_append,
    fresh]
  exact and_congr_right fun _ => calls.respects_congr settled

/-- What a step keeps when the tool sends the requests. -/
structure Sound (system : System) : Prop where
  recounted : Recounted system
  floored : Floored hostPort system.calls
  clean : NoDoubleProgram system.calls

theorem sound_initial : Sound (System.initial blPortInit.flash) where
  recounted := recounted_initial
  floored _ _ _ impossible := by cases impossible
  clean := trivial

theorem systemStep_sound {system : System} (sound : Sound system)
    (step : Step)
    (ofTool : ∀ request size, step.op = .request request size →
      request.OfTool) :
    Sound (systemStep hostPort system step) := by
  obtain ⟨recounted, floored, clean⟩ := sound
  have targetOk := recounted.obeys.targetOk
  obtain ⟨new, calls, log, _flashEq⟩ := systemStep_calls hostPort system step
  refine ⟨systemStep_recounted system step recounted, ?_, ?_⟩
  · rw [log]
    exact calls.keepsFloored floored targetOk ofTool
  · exact (systemStep_tracks recounted.tracks step).2.mpr
      ⟨clean, floored.headerFits targetOk ofTool⟩

/-- The link to such a device, with nothing on it but what the tool has sent
and what the device has answered. -/
abbrev Driven (link : BlLink) : Prop :=
  Trusted (fun device => Sound device.system)
    (fun _ request => BlFrame.OfTool request) (fun _ _ => True) link

theorem driven_discipline (responseSize : Nat) :
    Discipline (blMachine hostPort responseSize)
      (fun device => Sound device.system)
      (fun _ request => BlFrame.OfTool request) (fun _ _ => True) where
  handle device request faults sound ofTool :=
    systemStep_sound sound
      ((Moment.mk device.system request faults).step responseSize) <| by
        rintro _ _ ⟨⟩
        exact ofTool
  answer _ _ _ _ _ _ _ := trivial
  restart _ sound := systemStep_sound sound ⟨.powerCycle, []⟩ nofun
  sentStays _ _ _ _ ofTool := ofTool
  toldStays _ _ _ _ _ := trivial

/-! ### Commands and other services -/

/-- What happens to the device and on the link: a command of the tool, the
passing of time, a boot or a confirmation by the application. -/
inductive Service where
  | command (command : Command) (retries : Nat)
      (schedule : List (List BlEvent × List BlEvent))
  | elapse (events : List BlEvent)
  | boot (outcomes : List FlashOutcome)
  | confirm (outcomes : List FlashOutcome)

def asideStep (link : BlLink) (step : Step) : BlLink :=
  { link with server :=
      { link.server with
        system := systemStep hostPort link.server.system step } }

/-- What a command leaves in flight, the next one finds there. -/
def serviceStep (responseSize : Nat) (link : BlLink) : Service → BlLink
  | .command command retries schedule =>
      ((command.perform (unreliable hostPort responseSize retries)).run
        ⟨link, schedule⟩).state.link
  | .elapse events =>
      run (Link.step (blMachine hostPort responseSize)) link events
  | .boot outcomes => asideStep link ⟨.boot, outcomes⟩
  | .confirm outcomes => asideStep link ⟨.confirm, outcomes⟩

theorem asideStep_driven {link : BlLink} (driven : Driven link) (step : Step)
    (aside : ∀ request size, step.op ≠ .request request size) :
    Driven (asideStep link step) where
  server := systemStep_sound driven.server step fun request size asked =>
    absurd asked (aside request size)
  requests := driven.requests
  responses := driven.responses
  arrived := driven.arrived

theorem serviceStep_driven (responseSize : Nat) {link : BlLink}
    (driven : Driven link) (service : Service) :
    Driven (serviceStep responseSize link service) := by
  have discipline := driven_discipline responseSize
  cases service with
  | command command retries schedule =>
      have keeps : Keeps (fun wire : Wire => Driven wire.link)
          (command.perform (unreliable hostPort responseSize retries)) :=
        command.keeps fun request ofTool wire driven =>
          driven.attempt discipline (fun _ _ => ofTool) _ _
      exact @Ensures.state _ _ _ _ _ ⟨link, schedule⟩ _ keeps driven
  | elapse events => exact driven.run discipline events
  | boot outcomes => exact asideStep_driven driven ⟨.boot, outcomes⟩ nofun
  | confirm outcomes =>
      exact asideStep_driven driven ⟨.confirm, outcomes⟩ nofun

/-- Over any services from the start of the host port, every erase and write
is within its range, aligned and of erased bytes: no byte is programmed twice,
and if the faults are those of the host port, the array and the bitmap make
every call and end up with the flash of the device. -/
theorem toolDriven_neverAborts (responseSize : Nat)
    (services : List Service) :
    let reached := (run (serviceStep responseSize)
      (.initial ⟨System.initial blPortInit.flash, []⟩)
      services).server.system
    NoDoubleProgram reached.calls ∧
      (∀ call, call ∈ reached.calls → call.Permitted) ∧
      ((∀ call, call ∈ reached.calls → call.Hosted) →
        ∃ host, Call.runAll blPortInit (reached.calls.flatMap hostCalls) =
            some (host, reached.calls.flatMap actionsOf) ∧
          ∀ address, hostFlashBase.toNat ≤ address →
            host.flash address = reached.flash address) := by
  intro reached
  have start : Driven (.initial ⟨System.initial blPortInit.flash, []⟩) :=
    trusted_initial sound_initial
  have driven : Driven _ := run_invariant Driven start
    (fun _ service driven => serviceStep_driven responseSize driven service)
    services
  obtain ⟨recounted, _floored, clean⟩ := driven.server
  refine ⟨clean, recounted.obeys.permitted, fun hosted => ?_⟩
  have allowed := recounted.fresh.mpr clean
  rw [← written_init] at allowed
  obtain ⟨host, played⟩ := plays_calls (fun call made =>
    ⟨recounted.obeys.permitted call made, hosted call made,
      recounted.sized call made⟩) allowed
  refine ⟨host, played.ran, fun address inside => ?_⟩
  rw [played.bytes address inside]
  exact (congrFun recounted.replayed address).symm

/-- The first update ends with its RESET unanswered, and a status gives up
with its HELLO in flight.  The device handles these during the second update,
which takes the answer to that HELLO for its own. -/
def servicedTwice : List Service :=
  [.command (.flash newImage (some 1) false 1) 3 lossySchedule,
    .boot [], .confirm [], .elapse [.restart],
    .command .status 1 [([], [])],
    .command (.flash newImage (some 0) true 1) 3
      [([], List.replicate 4 (.handle []) ++ List.replicate 4 .deliver),
        ([.handle []], [.handle [], .deliver, .deliver]),
        ([], [.handle [], .deliver]), ([], [.handle [], .deliver]),
        ([], [.handle [], .deliver]), ([], [.handle [], .deliver])]]

theorem servicedTwice_hosted :
    ∀ call, call ∈ (run (serviceStep blMinResponseSize)
      (.initial ⟨System.initial blPortInit.flash, []⟩)
      servicedTwice).server.system.calls → call.Hosted := by
  decide +kernel

theorem toolDriven_neverAborts_twice :
    ∃ host done, Call.runAll blPortInit
      ((run (serviceStep blMinResponseSize)
        (.initial ⟨System.initial blPortInit.flash, []⟩)
        servicedTwice).server.system.calls.flatMap hostCalls) =
          some (host, done) :=
  ((toolDriven_neverAborts blMinResponseSize servicedTwice).2.2
    servicedTwice_hosted).imp fun _host played => ⟨_, played.1⟩

end Stm32Bootloader
