/-
The simulated device of bl_sim.c, which is fed bytes.

The parser keeps the payload bytes of earlier frames behind those of the
present one.  No handler reads them, so the device does what it would do with
the frames that the grammar finds in the bytes, whatever comes between.
-/

import Stm32Bootloader.Containment
import Stm32Bootloader.HostJump
import Stm32Bootloader.Response
import Stm32Bootloader.Resync

namespace Stm32Bootloader

open Framing Interruptible LittleEndian TransitionRun

/-! ### Requests that tell the same -/

/-- The two differ at most behind their payloads. -/
structure BlFrame.Tells (frame other : BlFrame) : Prop where
  cmd : frame.cmd = other.cmd
  bytes : frame.bytes = other.bytes

section Tells

variable {frame other : BlFrame} (tells : frame.Tells other)

include tells

theorem BlFrame.Tells.len : frame.len = other.len := by
  apply BitVec.eq_of_toNat_eq
  rw [← frame.bytes_length, ← other.bytes_length, tells.bytes]

theorem BlFrame.Tells.byte {index : Nat} (inside : index < frame.len.toNat)
    (bound : index < 512) : frame.payload[index] = other.payload[index] := by
  have same := congrArg (fun bytes => bytes[index]?) tells.bytes
  have inOther := inside
  rw [tells.len] at inOther
  simp only [BlFrame.bytes, List.getElem?_take, if_pos inside, if_pos inOther,
    Vector.getElem?_toList, Vector.getElem?_eq_getElem bound,
    Option.some.injEq] at same
  exact same

theorem BlFrame.Tells.first (oneByte : frame.len = 1)
    (bound : 0 < blMaxPayload) :
    frame.payload[0] = other.payload[0] :=
  tells.byte (by rw [oneByte]; decide) bound

theorem BlFrame.Tells.writeOffset (long : ¬ frame.len < 5) :
    frame.writeOffset = other.writeOffset := by
  have inside : 4 < frame.len.toNat := by bv_omega
  unfold BlFrame.writeOffset
  rw [tells.byte (by omega), tells.byte (by omega), tells.byte (by omega),
    tells.byte (by omega)]

theorem handleHello_tells (port : Port) (responseSize : Nat) :
    handleHello port frame responseSize =
      handleHello port other responseSize := by
  unfold handleHello
  rw [tells.cmd, tells.len]

theorem handleEraseSlot_tells (port : Port) (session : BlSession)
    (responseSize : Nat) :
    handleEraseSlot port session frame responseSize =
      handleEraseSlot port session other responseSize := by
  unfold handleEraseSlot
  by_cases oneByte : frame.len = 1
  · rw [tells.first oneByte (Nat.zero_lt_succ 511), tells.cmd, tells.len]
  · rw [if_pos oneByte, tells.cmd, if_pos (by rwa [← tells.len])]

theorem handleWrite_tells (port : Port) (session : BlSession)
    (responseSize : Nat) :
    handleWrite port session frame responseSize =
      handleWrite port session other responseSize := by
  have length : frame.writeLength = other.writeLength := by
    unfold BlFrame.writeLength
    rw [tells.len]
  have data : frame.writeData = other.writeData := by
    unfold BlFrame.writeData
    rw [tells.bytes]
  unfold handleWrite
  by_cases short : frame.len < 5
  · rw [if_pos short, tells.cmd, if_pos (by rwa [← tells.len])]
  · rw [tells.writeOffset short, length, data, tells.cmd, tells.len]

theorem handleVerify_tells (port : Port) (responseSize : Nat) :
    handleVerify port frame responseSize =
      handleVerify port other responseSize := by
  unfold handleVerify
  by_cases oneByte : frame.len = 1
  · rw [tells.first oneByte (Nat.zero_lt_succ 511), tells.cmd, tells.len]
  · rw [if_pos oneByte, tells.cmd, if_pos (by rwa [← tells.len])]

theorem handleSetActive_tells (port : Port) (responseSize : Nat) :
    handleSetActive port frame responseSize =
      handleSetActive port other responseSize := by
  unfold handleSetActive
  by_cases oneByte : frame.len = 1
  · rw [tells.first oneByte (Nat.zero_lt_succ 511), tells.cmd, tells.len]
  · rw [if_pos oneByte, tells.cmd, if_pos (by rwa [← tells.len])]

theorem handleReset_tells (session : BlSession) (responseSize : Nat) :
    handleReset session frame responseSize =
      handleReset session other responseSize := by
  unfold handleReset
  rw [tells.cmd, tells.len]

/-- No handler reads behind the payload. -/
theorem blCoreHandleFrame_tells (port : Port) (session : BlSession)
    (responseSize : Nat) :
    blCoreHandleFrame port session frame responseSize =
      blCoreHandleFrame port session other responseSize := by
  unfold blCoreHandleFrame
  rw [handleHello_tells tells, handleEraseSlot_tells tells,
    handleWrite_tells tells, handleVerify_tells tells, handleSetActive_tells tells,
    handleReset_tells tells, tells.cmd]

end Tells

/-! ### The device -/

/-- The statics of bl_sim.c and, below them, the flash and the jump of the
host port. -/
structure Simulator where
  gParser : BlFrameParser
  system : System
  jump : HostJump

/-- How flash calls end on a host on which some of them may be made to
fail. -/
abbrev Faults := List (Option FlashError)

def Simulator.device (sim : Simulator) (faults : Faults) : Device :=
  sim.system.device (faults.map .ofFault)

def simInit (parser : BlFrameParser) : Simulator :=
  { gParser := blFrameParserInit parser
    system := .initial fun _ => 0xFF
    jump := .blPortInit }

def simReboot (sim : Simulator) : Simulator :=
  { gParser := blFrameParserInit sim.gParser
    system := { sim.system with session := .zeroed }
    jump := .blPortInit }

/-- The bytes that have been put into the response buffer. -/
def sentBytes : Outcome Device (BlSession × Reply) → List U8
  | .returned (_, .ok bytes) _ => bytes
  | _ => []

/-- What follows a complete frame in the data is dropped.  Flash is that of the
port; the host port would end the process at a call that fails an assertion. -/
def simFeed (port : Port) (responseCapacity : Nat) (faults : Faults) :
    List U8 → Simulator → Simulator × List U8
  | [], sim => (sim, [])
  | byte :: later, sim =>
      let (parser, status) := blFrameFeed sim.gParser byte
      if status ≠ .complete then
        simFeed port responseCapacity faults later
          { sim with gParser := parser }
      else
        let handled := blCoreHandleFrame port sim.system.session parser.frame
          responseCapacity (sim.device faults)
        ({ sim with gParser := parser, system := System.ended Prod.fst handled },
          sentBytes handled)

/-- The address control was transferred to, or zero. -/
def simBoot (port : Port) (faults : Faults) (sim : Simulator) :
    Simulator × U32 :=
  let system := System.ended (fun _ => sim.system.session)
    (blCoreBoot port (sim.device faults))
  let made := system.calls.drop sim.system.calls.length
  let jump := (jumpTargets made).foldl
    (fun jump address => jump.blJumpToApp system.flash address) sim.jump
  ({ sim with system := system, jump := jump },
    if jump.gJumped then jump.gJumpTarget else 0)

def simConfirm (port : Port) (faults : Faults) (sim : Simulator) :
    Simulator :=
  { sim with
    system := System.ended (fun _ => sim.system.session)
      (blCoreConfirm port (sim.device faults)) }

def simResetRequested (sim : Simulator) : U32 :=
  if sim.system.session.resetRequested then 1 else 0

/-- The active slot, the state and the boot attempts. -/
def simMeta (port : Port) (sim : Simulator) :
    Except BlResult (U32 × U32 × U32) :=
  match blMetaRead port.layout sim.system.flash with
  | .ok record => .ok (record.activeSlot.setWidth 32,
      record.state.setWidth 32, record.bootAttempts.setWidth 32)
  | .error result => .error result

inductive SimCall where
  | feed (data : List U8) (responseCapacity : Nat) (faults : Faults)
  | boot (faults : Faults)
  | confirm (faults : Faults)
  | reboot

def simStep (port : Port) (sim : Simulator) : SimCall → Simulator
  | .feed data responseCapacity faults =>
      (simFeed port responseCapacity faults data sim).1
  | .boot faults => (simBoot port faults sim).1
  | .confirm faults => simConfirm port faults sim
  | .reboot => simReboot sim

/-! ### The frames in the bytes -/

def requestOf (cmd : U8) (payload : List U8) : Option BlFrame :=
  if fits : payload.length ≤ blMaxPayload then
    some (BlFrame.ofBytes cmd payload fits)
  else none

/-- The first frame that the data complete. -/
def hear : Receiver U8 → List U8 → Receiver U8 × Option BlFrame
  | receiver, [] => (receiver, none)
  | receiver, byte :: later =>
      match frameGrammar.receive receiver byte with
      | (after, some (.complete cmd payload)) => (after, requestOf cmd payload)
      | (after, _) => hear after later

def SimCall.hears (receiver : Receiver U8) : SimCall → Receiver U8
  | .feed data _ _ => (hear receiver data).1
  | .boot _ => receiver
  | .confirm _ => receiver
  | .reboot => none

/-- The step of the bootloader that a call comes to, if any. -/
def SimCall.steps (receiver : Receiver U8) : SimCall → List Step
  | .feed data responseCapacity faults =>
      (hear receiver data).2.toList.map fun frame =>
        ⟨.request frame responseCapacity, faults.map .ofFault⟩
  | .boot faults => [⟨.boot, faults.map .ofFault⟩]
  | .confirm faults => [⟨.confirm, faults.map .ofFault⟩]
  | .reboot => [⟨.powerCycle, []⟩]

def simSteps : Receiver U8 → List SimCall → List Step
  | _, [] => []
  | receiver, call :: later =>
      call.steps receiver ++ simSteps (call.hears receiver) later

theorem hear_reported {data : List U8} {receiver : Receiver U8}
    {count : Nat} {cmd : U8} {payload : List U8}
    (reported : reports frameGrammar.receive receiver data =
      List.replicate count none ++ [some (.complete cmd payload)]) :
    hear receiver data =
      (stateAfter frameGrammar.receive receiver data,
        requestOf cmd payload) := by
  induction data generalizing receiver count with
  | nil =>
      have empty := congrArg List.length reported
      rw [List.length_append, List.length_singleton] at empty
      cases empty
  | cons byte later ih =>
      rw [reports] at reported
      unfold hear
      rw [stateAfter_cons]
      generalize frameGrammar.receive receiver byte = received
        at reported ⊢
      obtain ⟨after, report⟩ := received
      cases count with
      | zero =>
          rw [List.replicate_zero, List.nil_append, List.cons_eq_cons]
            at reported
          obtain ⟨last, rest⟩ := reported
          have last' : report = some (.complete cmd payload) := last
          subst last'
          cases later with
          | nil => rfl
          | cons next later => cases rest
      | succ count =>
          rw [List.replicate_succ, List.cons_append, List.cons_eq_cons]
            at reported
          obtain ⟨silent, rest⟩ := reported
          have silent' : report = none := silent
          subst silent'
          exact ih rest

theorem hear_wire {cmd : U8} {payload : List U8}
    (short : payload.length ≤ blMaxPayload) :
    hear none (wireFrame cmd payload) =
      (none, some (BlFrame.ofBytes cmd payload short)) := by
  obtain ⟨reported, ready⟩ := (@wireFrame_frames cmd payload short).reported
  rw [hear_reported reported, ready, requestOf, dif_pos short]

/-- What the bootloader makes of a request, if there is one. -/
def System.answers (port : Port) (responseCapacity : Nat) (faults : Faults)
    (system : System) : Option BlFrame → System × List U8
  | none => (system, [])
  | some frame =>
      (systemStep port system
          ⟨.request frame responseCapacity, faults.map .ofFault⟩,
        sentBytes (blCoreHandleFrame port system.session frame
          responseCapacity (system.device (faults.map .ofFault))))

section Feeding

variable {port : Port} {responseCapacity : Nat} {faults : Faults}

theorem blFrameFeed_hears {parser : BlFrameParser} {receiver : Receiver U8}
    (collects : Collects parser receiver) (byte : U8) :
    Collects (blFrameFeed parser byte).1
        (frameGrammar.receive receiver byte).1 ∧
      ((blFrameFeed parser byte).2 = .complete →
        (frameGrammar.receive receiver byte).2 =
          some (.complete (blFrameFeed parser byte).1.frame.cmd
            (blFrameFeed parser byte).1.frame.bytes)) ∧
      ((blFrameFeed parser byte).2 ≠ .complete → ∀ cmd payload,
        (frameGrammar.receive receiver byte).2 ≠
          some (.complete cmd payload)) := by
  obtain ⟨spoken, after⟩ := frameFeed_receive byte collects
  unfold frameFeed at spoken after
  dsimp only at spoken after
  refine ⟨after, fun completed => ?_, fun unfinished cmd payload => ?_⟩
  · rw [← spoken, completed]
  · rw [← spoken]
    cases status : (blFrameFeed parser byte).2 with
    | incomplete => exact fun same => by cases same
    | complete => exact absurd status unfinished
    | error => exact fun same => by cases same

theorem frame_short (frame : BlFrame) :
    frame.bytes.length ≤ blMaxPayload := by
  rw [frame.bytes_length]
  exact frame.lenFits

/-- The device does with the data what the bootloader does with the first
frame that they complete. -/
theorem simFeed_hear (data : List U8) {sim : Simulator}
    {receiver : Receiver U8} (collects : Collects sim.gParser receiver) :
    let fed := simFeed port responseCapacity faults data sim
    let heard := hear receiver data
    Collects fed.1.gParser heard.1 ∧ fed.1.jump = sim.jump ∧
      (fed.1.system, fed.2) =
        sim.system.answers port responseCapacity faults heard.2 := by
  induction data generalizing sim receiver with
  | nil => exact ⟨collects, rfl, rfl⟩
  | cons byte later ih =>
      obtain ⟨after, completed, unfinished⟩ := blFrameFeed_hears collects byte
      unfold simFeed hear
      dsimp only
      by_cases whole : (blFrameFeed sim.gParser byte).2 = .complete
      · have reported := completed whole
        generalize frameGrammar.receive receiver byte = received
          at after reported
        obtain ⟨next, report⟩ := received
        dsimp only at reported
        subst reported
        have tells : (blFrameFeed sim.gParser byte).1.frame.Tells
            (BlFrame.ofBytes _ _ (frame_short _)) :=
          ⟨rfl, (BlFrame.ofBytes_bytes _ _ (frame_short _)).symm⟩
        have heard : requestOf (blFrameFeed sim.gParser byte).1.frame.cmd
            (blFrameFeed sim.gParser byte).1.frame.bytes =
              some (BlFrame.ofBytes _ _ (frame_short _)) :=
          dif_pos (frame_short _)
        have same := blCoreHandleFrame_tells tells port sim.system.session
          responseCapacity
        rw [if_neg (not_not_intro whole)]
        dsimp only
        rw [heard, same]
        exact ⟨after, rfl, rfl⟩
      · have silent := unfinished whole
        rw [if_pos whole]
        have followed := @ih { sim with
          gParser := (blFrameFeed sim.gParser byte).1 } _ after
        generalize frameGrammar.receive receiver byte = received
          at silent followed ⊢
        obtain ⟨next, report⟩ := received
        cases report with
        | none => exact followed
        | some event =>
            cases event with
            | error => exact followed
            | complete cmd payload => exact absurd rfl (silent cmd payload)

end Feeding

/-! ### Runs -/

section Runs

variable {port : Port}

theorem simStep_steps {sim : Simulator} {receiver : Receiver U8}
    (collects : Collects sim.gParser receiver) (call : SimCall) :
    Collects (simStep port sim call).gParser (call.hears receiver) ∧
      (simStep port sim call).system =
        run (systemStep port) sim.system (call.steps receiver) := by
  cases call with
  | feed data responseCapacity faults =>
      obtain ⟨after, _jump, answered⟩ := @simFeed_hear port responseCapacity
        faults data sim receiver collects
      refine ⟨after, (congrArg Prod.fst answered).trans ?_⟩
      dsimp only [SimCall.steps]
      cases (hear receiver data).2 <;> rfl
  | boot faults => exact ⟨collects, rfl⟩
  | confirm faults => exact ⟨collects, rfl⟩
  | reboot => exact ⟨rfl, rfl⟩

/-- What the parser has collected after these calls. -/
def simHears (receiver : Receiver U8) (calls : List SimCall) :
    Receiver U8 :=
  run (fun receiver call => SimCall.hears receiver call) receiver calls

theorem simRun_steps {sim : Simulator} {receiver : Receiver U8}
    (collects : Collects sim.gParser receiver) (calls : List SimCall) :
    Collects (run (simStep port) sim calls).gParser
        (simHears receiver calls) ∧
      (run (simStep port) sim calls).system =
        run (systemStep port) sim.system (simSteps receiver calls) := by
  induction calls generalizing sim receiver with
  | nil => exact ⟨collects, rfl⟩
  | cons call later ih =>
      obtain ⟨after, stepped⟩ := @simStep_steps port sim receiver collects call
      obtain ⟨collected, reached⟩ := ih after
      rw [run_cons, simSteps, run_append, ← stepped]
      exact ⟨collected, reached⟩

/-- Whatever bytes the device is fed, in whatever pieces, its bootloader goes
through the frames that the grammar finds in them, and every piece is answered
as the first frame it completes. -/
theorem simRun_frames (port : Port) (parser : BlFrameParser)
    (calls : List SimCall) :
    let sim := run (simStep port) (simInit parser) calls
    sim.system = run (systemStep port) (System.initial fun _ => 0xFF)
        (simSteps none calls) ∧
      ∀ data responseCapacity faults,
        (simFeed port responseCapacity faults data sim).2 =
          (sim.system.answers port responseCapacity faults
            (hear (simHears none calls) data).2).2 := by
  have start : Collects (simInit parser).gParser none := rfl
  obtain ⟨collected, reached⟩ := @simRun_steps port _ _ start calls
  refine ⟨reached, fun data responseCapacity faults => ?_⟩
  exact congrArg Prod.snd (simFeed_hear data collected).2.2

end Runs

/-! ### Bytes that are no erase -/

def SimCall.fed : SimCall → List U8
  | .feed data _ _ => data
  | .boot _ => []
  | .confirm _ => []
  | .reboot => []

/-- What a receiver has collected are the last bytes it was fed. -/
def Recent (receiver : Receiver U8) (fed : List U8) : Prop :=
  ∀ body, receiver = some body → blSof :: body <:+ fed

theorem receive_recent {receiver : Receiver U8} {fed : List U8}
    (recent : Recent receiver fed) (byte : U8) :
    Recent (frameGrammar.receive receiver byte).1 (fed ++ [byte]) ∧
      ∀ cmd payload, (frameGrammar.receive receiver byte).2 =
          some (.complete cmd payload) →
        (frameGrammar.receive receiver byte).1 = none ∧
          payload.length ≤ blMaxPayload ∧
          wireFrame cmd payload <:+ fed ++ [byte] := by
  cases receiver with
  | none =>
      refine ⟨fun body collected => ?_,
        fun _ _ impossible => by cases impossible⟩
      simp only [Grammar.receive] at collected
      split at collected
      · rename_i isSof
        cases collected
        rw [isSof]
        exact List.suffix_append _ _
      · cases collected
  | some body =>
      have grown : blSof :: (body ++ [byte]) <:+ fed ++ [byte] := by
        rw [← List.cons_append]
        exact List.suffix_append_self_iff.mpr (recent body rfl)
      simp only [Grammar.receive]
      cases judged : frameGrammar.judge (body ++ [byte]) with
      | none =>
          refine ⟨fun collected same => ?_,
            fun _ _ impossible => by cases impossible⟩
          cases same
          exact grown
      | some verdict =>
          refine ⟨?_, fun cmd payload reported => ?_⟩
          · rintro _ impossible
            cases impossible
          cases reported
          obtain ⟨short, whole⟩ := judgeFrame_complete judged
          rw [← whole]
          exact ⟨rfl, short, grown⟩

theorem hear_recent (data : List U8) {receiver : Receiver U8}
    {fed : List U8} (recent : Recent receiver fed) :
    Recent (hear receiver data).1 (fed ++ data) ∧
      ∀ frame, (hear receiver data).2 = some frame →
        wireFrame frame.cmd frame.bytes <:+: fed ++ data := by
  induction data generalizing receiver fed with
  | nil =>
      rw [List.append_nil]
      exact ⟨recent, nofun⟩
  | cons byte later ih =>
      obtain ⟨after, spoken⟩ := receive_recent recent byte
      unfold hear
      generalize frameGrammar.receive receiver byte = received at after spoken
      obtain ⟨next, report⟩ := received
      have resumed := ih after
      rw [← List.append_cons] at resumed
      cases report with
      | none => exact resumed
      | some event =>
          cases event with
          | error => exact resumed
          | complete cmd payload =>
              obtain ⟨waits, short, last⟩ := spoken cmd payload rfl
              subst waits
              refine ⟨nofun, fun frame heard => ?_⟩
              have named : requestOf cmd payload =
                  some (BlFrame.ofBytes cmd payload short) := dif_pos short
              cases named.symm.trans heard
              rw [BlFrame.ofBytes_bytes, List.append_cons]
              exact last.isInfix.trans (List.infix_append' [] _ later)

theorem simSteps_recent (calls : List SimCall) {receiver : Receiver U8}
    {fed : List U8} (recent : Recent receiver fed) {frame : BlFrame}
    {responseCapacity : Nat} {outcomes : List FlashOutcome}
    (heard : ⟨.request frame responseCapacity, outcomes⟩ ∈
      simSteps receiver calls) :
    wireFrame frame.cmd frame.bytes <:+: fed ++ calls.flatMap SimCall.fed := by
  induction calls generalizing receiver fed with
  | nil => cases heard
  | cons call later ih =>
      rw [List.flatMap_cons, ← List.append_assoc]
      rcases List.mem_append.mp heard with now | next
      · cases call with
        | feed data capacity faults =>
            obtain ⟨same, found, stepEq⟩ := List.mem_map.mp now
            cases stepEq
            have within := (hear_recent data recent).2 frame
              (Option.mem_toList.mp found)
            exact within.trans (List.infix_append' [] _ _)
        | boot faults => cases List.mem_singleton.mp now
        | confirm faults => cases List.mem_singleton.mp now
        | reboot => cases List.mem_singleton.mp now
      · refine ih ?_ next
        cases call with
        | feed data capacity faults => exact (hear_recent data recent).1
        | boot faults => rwa [SimCall.fed, List.append_nil]
        | confirm faults => rwa [SimCall.fed, List.append_nil]
        | reboot => exact nofun

theorem BlFrame.Erases.bytes {frame : BlFrame} {slot : U8}
    (erases : frame.Erases slot) : frame.bytes = [slot] := by
  obtain ⟨_isErase, oneByte, named⟩ := erases
  have one : frame.len.toNat = 1 := by
    rw [oneByte]
    rfl
  have length := frame.bytes_length
  have first : frame.bytes[0]? = some slot := by
    simp only [BlFrame.bytes, one, List.getElem?_take, Nat.zero_lt_one,
      if_true, Vector.getElem?_toList]
    rw [← named]
    rfl
  rw [one] at length
  obtain ⟨byte, single⟩ := List.length_eq_one_iff.mp length
  rw [single] at first ⊢
  exact congrArg (fun byte => [byte]) (Option.some.inj first)

/-- After a power cycle a slot keeps its bytes, whatever else the device is
fed and however often it boots, until the bytes contain a whole frame that
erases the slot. -/
theorem simRun_slotKept (port : Port) (sim : Simulator)
    (calls : List SimCall) {slot : U8} (slotOk : slotIsValid slot = true)
    (absent : ¬ wireFrame blCmdEraseSlot [slot] <:+:
      calls.flatMap SimCall.fed) :
    let after := run (simStep port) (simReboot sim) calls
    slotBytes port.layout after.system.flash slot =
        slotBytes port.layout sim.system.flash slot ∧
      blCoreValidateSlot port.layout after.system.flash slot =
        blCoreValidateSlot port.layout sim.system.flash slot := by
  intro after
  have waits : Collects (simReboot sim).gParser none := rfl
  have reached := (@simRun_steps port _ _ waits calls).2
  have kept : slotBytes port.layout after.system.flash slot =
      slotBytes port.layout sim.system.flash slot := by
    rw [reached]
    refine slotBytes_run port slotOk BlSession.zeroed_targetOk
      (zeroed_unopened slot) _ fun step member erases => ?_
    obtain ⟨op, outcomes⟩ := step
    cases op with
    | request frame responseSize =>
        have erasesFrame : frame.Erases slot := erases
        have present := @simSteps_recent calls none [] nofun _ _ _ member
        rw [List.nil_append, erasesFrame.1, erasesFrame.bytes] at present
        exact absent present
    | boot => exact erases
    | confirm => exact erases
    | powerCycle => exact erases
  exact ⟨kept, blCoreValidateSlot_congr port kept⟩

/-- A frame that erases slot B, and then a boot. -/
theorem simRun_slotKept_other :
    let after := run (simStep hostPort) (simReboot (simInit .zeroed))
      [.feed (wireFrame blCmdEraseSlot [blSlotB]) 64 [], .boot []]
    slotBytes hostLayout after.system.flash blSlotA =
        slotBytes hostLayout (simInit .zeroed).system.flash blSlotA ∧
      blCoreValidateSlot hostLayout after.system.flash blSlotA =
        blCoreValidateSlot hostLayout (simInit .zeroed).system.flash
          blSlotA := by
  refine simRun_slotKept hostPort _ _ (by decide) fun within => ?_
  have short : ∀ slot : U8, [slot].length ≤ blMaxPayload :=
    fun slot => Nat.le_add_left 1 511
  have whole : wireFrame blCmdEraseSlot [blSlotA] =
      wireFrame blCmdEraseSlot [blSlotB] := by
    rw [List.flatMap_cons, List.flatMap_cons] at within
    simp only [SimCall.fed, List.flatMap_nil, List.append_nil] at within
    refine within.eq_of_length ?_
    rw [wireFrame_length (short _), wireFrame_length (short _)]
    rfl
  rw [wireFrame_eq (short _), wireFrame_eq (short _)] at whole
  exact absurd (congrArg (fun bytes => bytes.getD 4 0) whole) (by decide)

end Stm32Bootloader
