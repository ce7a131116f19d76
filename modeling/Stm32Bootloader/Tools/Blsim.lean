/-
The simulated device as a serial port, class SimulatedDevice of
tools/blsim.py.

The host tool writes request bytes and reads response bytes.  It comes to the
same end as on a link that carries whole frames to the bootloader and back.
-/

import Stm32Bootloader.HostFrames
import Stm32Bootloader.Installation
import Stm32Bootloader.Simulator
import Stm32Bootloader.Tools.Ports
import Stm32Bootloader.Tools.Transport

namespace Stm32Bootloader.Blsim

open Interruptible Fallible Framing Blflash TransitionRun

def responseCapacity : Nat := 1024

/-- The device behind the library, the bytes that wait to be read, the faults
of the flash, write by write, and how many writes are made before the host is
stopped. -/
structure SimulatedDevice where
  lib : Simulator
  rx : List U8
  faults : List Faults
  writes : Nat

def write (port : Port) (data : List U8) : Prog SimulatedDevice Unit :=
  fun device =>
    if device.writes = 0 then .lost device
    else
      let (lib, produced) := simFeed port responseCapacity
        (device.faults.headD []) data device.lib
      .returned ()
        { lib := lib
          rx := device.rx ++ produced
          faults := device.faults.tail
          writes := device.writes - 1 }

def read (count : Nat) (device : SimulatedDevice) :
    List U8 × SimulatedDevice :=
  (device.rx.take count, { device with rx := device.rx.drop count })

def resetInputBuffer (device : SimulatedDevice) : SimulatedDevice :=
  { device with rx := [] }

/-- It has no attribute `timeout`. -/
def serialPort (port : Port) : SerialPort SimulatedDevice :=
  { write := write port
    read := read
    resetInputBuffer := resetInputBuffer
    hasTimeout := false }

/-- What is read does not concern the device behind the library. -/
def SameBut (before after : SimulatedDevice) : Prop :=
  after.lib = before.lib ∧ after.faults = before.faults ∧
    after.writes = before.writes

theorem serialPort_delivers (port : Port) (before : SimulatedDevice) :
    (serialPort port).Delivers SimulatedDevice.rx (fun _ => 0)
      (SameBut before) where
  bound count device _ := by
    dsimp only [serialPort, read]
    rw [List.length_take]
    exact Nat.min_le_left _ _
  split count device _ := List.take_append_drop count device.rx
  sooner count device _ := Nat.le_refl _
  empty count device _ positive more nothing := by
    dsimp only [serialPort, read] at nothing
    rcases List.take_eq_nil_iff.mp nothing with none_wanted | none_waiting
    · omega
    · exact absurd none_waiting more
  kept count device same := same

/-! ### One attempt -/

/-- The device and the bench are in the same state, and the parser waits. -/
structure Corresponds (device : SimulatedDevice) (bench : Bench) : Prop where
  waits : device.lib.gParser.state = .waitSof
  system : device.lib.system = bench.system
  outcomes : bench.outcomes = device.faults.map fun faults =>
    faults.map .ofFault
  writes : device.writes = bench.requests

theorem encodeFrame_wire (request : BlFrame) :
    (Blproto.encodeFrame request.cmd request.bytes).toOption.getD [] =
      wireFrame request.cmd request.bytes := by
  rw [encodeFrame_eq request.cmd request.bytes (Nat.le_refl _),
    wireFrame_encoded (frame_short request) (Nat.le_refl _),
    Option.getD_some]

theorem answered_frame (port : Port) (system : System) (request : BlFrame)
    (faults : Faults) {responseSize : Nat}
    (room : blMinResponseSize ≤ responseSize) :
    ∃ bytes status data session device,
      blCoreHandleFrame port system.session request responseSize
          (system.device (faults.map .ofFault)) =
        .returned (session, .ok bytes) device ∧
      bytes.length ≤ blMinResponseSize ∧
      readFrames bytes.length bytes =
        [.frame request.cmd (status :: data)] := by
  have powered := powered_faults system.flash faults system.calls
  obtain ⟨⟨session, reply⟩, device, ran, _still, status, data, short, replyEq⟩ :=
    @blCoreHandleFrame_handles port system.session request responseSize _
      powered
  dsimp only at replyEq
  subst replyEq
  obtain ⟨bytes, answered⟩ := respond_encoded request.cmd status short room
  have encoded := respond_encoded_as answered
  obtain ⟨fits, whole⟩ := blFrameEncode_wire encoded
  refine ⟨bytes, status.code, data, session, device, ?_, ?_,
    respond_frames answered⟩
  · rw [← answered]
    exact ran
  · have dataShort : data.length ≤ 20 := short
    rw [← whole, wireFrame_length fits, List.length_cons,
      show blMinResponseSize = 29 from rfl]
    omega

section Attempts

variable {port : Port} {turns : BlFrame → SimulatedDevice → Nat}
  (patient : ∀ request device, blMinResponseSize ≤ turns request device)

include patient

theorem listen_answered {request : BlFrame} {device : SimulatedDevice}
    {data : List U8} (short : device.rx.length ≤ blMinResponseSize)
    (single : readFrames device.rx.length device.rx =
      [.frame request.cmd data]) :
    ∃ after, SameBut device after ∧
      (serialPort port).listen turns request device =
        .returned [.frame request.cmd data] after := by
  have enough := patient request device
  have seen := awaitFrame_outcome (serialPort_delivers port device)
    request.cmd (turns request device) device ⟨rfl, rfl, rfl⟩
  rw [single, awaitResponse_frame] at seen
  obtain ⟨same, result⟩ := seen
  refine ⟨_, same, ?_⟩
  unfold SerialPort.listen
  dsimp only
  rcases result with exactly | ⟨_late, few⟩
  · rw [exactly]
  · omega

theorem exchange_corresponds (request : BlFrame) :
    Alike Corresponds ((serialPort port).exchange turns request)
      (Bench.serve port responseCapacity request) := by
  intro device bench corresponds
  obtain ⟨waits, system, outcomes, writes⟩ := corresponds
  have head : bench.outcomes.headD [] =
      (device.faults.headD []).map .ofFault := by
    rw [outcomes]
    cases device.faults <;> rfl
  have next : bench.outcomes.tail = device.faults.tail.map fun faults =>
      faults.map .ofFault := by
    rw [outcomes]
    cases device.faults <;> rfl
  have sent : (serialPort port).exchange turns request device =
      (write port (wireFrame request.cmd request.bytes) >>=
        fun _ => (serialPort port).listen turns request)
          (resetInputBuffer device) := by
    rw [← encodeFrame_wire]
    rfl
  rw [sent, Prog.bind_apply]
  unfold write Bench.serve
  by_cases stopped : device.writes = 0
  · rw [if_pos (show (resetInputBuffer device).writes = 0 from stopped),
      if_pos (writes ▸ stopped)]
    exact .lost ⟨waits, system, outcomes, writes⟩
  rw [if_neg (show ¬ (resetInputBuffer device).writes = 0 from stopped),
    if_neg (writes ▸ stopped)]
  have collects : Collects device.lib.gParser none := waits
  have fed := @simFeed_hear port responseCapacity (device.faults.headD [])
    (wireFrame request.cmd request.bytes) device.lib none collects
  have tells : request.Tells
      (BlFrame.ofBytes request.cmd request.bytes (frame_short request)) :=
    ⟨rfl, (BlFrame.ofBytes_bytes _ _ _).symm⟩
  have handled := blCoreHandleFrame_tells tells port device.lib.system.session
    responseCapacity
  obtain ⟨bytes, status, data, session, final, ran, short, single⟩ :=
    answered_frame port device.lib.system request (device.faults.headD [])
      (show blMinResponseSize ≤ responseCapacity by decide)
  rw [hear_wire (frame_short request)] at fed
  dsimp only [System.answers, systemStep] at fed
  rw [← handled, ran] at fed
  obtain ⟨after, _jump, answered⟩ := fed
  dsimp only [resetInputBuffer]
  generalize simFeed port responseCapacity (device.faults.headD [])
    (wireFrame request.cmd request.bytes) device.lib = produced
    at after answered ⊢
  obtain ⟨lib, produced⟩ := produced
  have systemEq : lib.system = ⟨session, final.flash, final.calls⟩ :=
    congrArg Prod.fst answered
  have producedEq : produced = bytes := congrArg Prod.snd answered
  subst producedEq
  dsimp only [List.nil_append]
  obtain ⟨last, same, listened⟩ := @listen_answered port turns patient request
    { lib := lib
      rx := produced
      faults := device.faults.tail
      writes := device.writes - 1 } _ short single
  have reply : bench.reply port responseCapacity request = produced := by
    unfold Bench.reply Bench.device
    rw [head, ← system, ran]
  have stepped : systemStep port bench.system
      ⟨.request request responseCapacity, bench.outcomes.headD []⟩ =
        lib.system := by
    rw [systemEq, head, ← system]
    unfold systemStep
    dsimp only
    rw [ran]
    rfl
  rw [listened, reply, single, stepped]
  obtain ⟨sameLib, sameFaults, sameWrites⟩ := same
  refine .returned _ ⟨?_, ?_, ?_, ?_⟩
  · rw [sameLib]
    exact after
  · rw [sameLib]
    rfl
  · rw [sameFaults]
    exact next
  · rw [sameWrites]
    exact congrArg (· - 1) writes

theorem loader_mirrors (retries : Nat) :
    ((serialPort port).loader turns retries).Mirrors
      (hostOf port responseCapacity retries) Corresponds :=
  ⟨rfl, exchange_corresponds patient⟩

end Attempts

/-- An update over the bytes of the serial port comes to the same end as one
whose frames arrive whole, whatever state the device is in and however its
flash fails. -/
theorem update_overBytes (port : Port)
    (turns : BlFrame → SimulatedDevice → Nat)
    (patient : ∀ request device, blMinResponseSize ≤ turns request device)
    (retries fuel : Nat) (image : List U8) (slot : Option Int)
    (device : SimulatedDevice) (waits : device.lib.gParser.state = .waitSof) :
    Ended Corresponds
      ((((serialPort port).loader turns retries).update fuel image slot).run
        device)
      (((hostOf port responseCapacity retries).update fuel image slot).run
        ⟨device.lib.system, device.faults.map fun faults =>
          faults.map .ofFault, device.writes⟩) :=
  (update_mirrored (loader_mirrors patient retries) fuel image slot).alike
    device _ ⟨waits, rfl, rfl, rfl⟩

/-- A device fresh from the factory whose first flash call fails. -/
theorem update_overBytes_fault :
    Ended Corresponds
      ((((serialPort hostPort).loader (fun _ _ => 29) 3).update 64
          newImage none).run ⟨simInit .zeroed, [], [[some .erase]], 8⟩)
      (((hostOf hostPort responseCapacity 3).update 64 newImage none).run
        ⟨.initial fun _ => 0xFF, [[.failure .erase]], 8⟩) :=
  update_overBytes hostPort (fun _ _ => 29) (fun _ _ => by decide) 3 64
    newImage none ⟨simInit .zeroed, [], [[some .erase]], 8⟩ rfl

section Installs

variable {start : Simulator} {rx image : List U8} {header : BlImgHdr}
  {slot : Option Int} {turns : BlFrame → SimulatedDevice → Nat}
  {retries fuel writes : Nat}

theorem update_overBytes_done (waits : start.gParser.state = .waitSof)
    (obeys : Obeys start.system)
    (tracks : Tracks hostPort start.system.session start.system.calls)
    (patient : ∀ request device, blMinResponseSize ≤ turns request device)
    (attempts : retries ≠ 0) (loops : image.length ≤ fuel)
    (service : image.length ≤ writes)
    (accepted : Blimage.validate image
      (some (hostLayout.slot blSlotA).size.toNat) = .ok header)
    (unexhausted : ∀ held, blMetaRead hostLayout start.system.flash =
      .ok held → held.seq ≠ 0xFFFFFFFF)
    (named : ∀ chosen, slot = some chosen → ∃ target,
      Eligible start.system.flash target ∧ chosen = target.toNat) :
    ∃ target device,
      (((serialPort hostPort).loader turns retries).update fuel image
          slot).run ⟨start, rx, [], writes⟩ =
        .returned (.ok target.toNat) device ∧
      Eligible start.system.flash target ∧
      (∀ chosen, slot = some chosen → chosen = target.toNat) ∧
      InstalledNext start.system target header image
        device.lib.system := by
  have checked := Blimage.validate_ok accepted
  have behind := checked.behind
  have nonempty := checked.payload_positive
  have payload := checked.payload
  rw [List.length_drop] at payload
  have ready : Bench.Ready (0 + 3 + header.imgSize.toNat + 1 + 2 + 1)
      start.system ⟨start.system, [], writes⟩ := by
    refine ⟨rfl, rfl, ?_⟩
    dsimp only
    omega
  have room : blMinResponseSize ≤ responseCapacity := by decide
  have enough : header.imgSize.toNat ≤ fuel := by omega
  obtain ⟨installed, bench, ran, target, eligible, rfl, same, done⟩ :=
    (update_ready accepted unexhausted named room attempts enough obeys
      tracks 0).returns ready
  have mirrors := @loader_mirrors hostPort turns patient retries
  have overBytes := (update_mirrored mirrors fuel image slot).alike
    ⟨start, rx, [], writes⟩ ⟨start.system, [], writes⟩
      ⟨waits, rfl, rfl, rfl⟩
  rw [ran] at overBytes
  obtain ⟨device, returned, corresponds⟩ := overBytes.of_returned
  refine ⟨target, device, returned, eligible, same, ?_⟩
  rw [corresponds.system]
  exact done

end Installs

/-- Calls reach nothing that the requests of an update could not start
from. -/
theorem simRun_reaches (parser : BlFrameParser) (calls : List SimCall) :
    let start := run (simStep hostPort) (simInit parser) calls
    Obeys start.system ∧
      Tracks hostPort start.system.session start.system.calls := by
  intro start
  have begins : Collects (simInit parser).gParser none := rfl
  have reached : start.system = run (systemStep hostPort) _ _ :=
    (@simRun_steps hostPort _ _ begins calls).2
  rw [reached]
  exact ⟨obeys_run _ _, tracks_run hostPort _ _⟩

/-- After any calls, an update over the bytes of the serial port installs the
image, if the host accepts it and the parser is not in the middle of a
frame. -/
theorem update_overBytes_installs (parser : BlFrameParser)
    (calls : List SimCall) (rx image : List U8) (header : BlImgHdr)
    (slot : Option Int) (turns : BlFrame → SimulatedDevice → Nat)
    (retries fuel writes : Nat)
    (waits : (run (simStep hostPort) (simInit parser) calls).gParser.state =
      .waitSof)
    (patient : ∀ request device, blMinResponseSize ≤ turns request device)
    (attempts : retries ≠ 0) (loops : image.length ≤ fuel)
    (service : image.length ≤ writes)
    (accepted : Blimage.validate image
      (some (hostLayout.slot blSlotA).size.toNat) = .ok header)
    (unexhausted : ∀ held, blMetaRead hostLayout
      (run (simStep hostPort) (simInit parser) calls).system.flash =
        .ok held → held.seq ≠ 0xFFFFFFFF)
    (named : ∀ chosen, slot = some chosen → ∃ target, Eligible
      (run (simStep hostPort) (simInit parser) calls).system.flash target ∧
        chosen = target.toNat) :
    let start := run (simStep hostPort) (simInit parser) calls
    ∃ target device,
      (((serialPort hostPort).loader turns retries).update fuel image
          slot).run ⟨start, rx, [], writes⟩ =
        .returned (.ok target.toNat) device ∧
      Eligible start.system.flash target ∧
      (∀ chosen, slot = some chosen → chosen = target.toNat) ∧
      Installed start.system target header image device.lib.system := by
  intro start
  obtain ⟨obeys, tracks⟩ := simRun_reaches parser calls
  obtain ⟨target, device, returned, eligible, same, done⟩ :=
    @update_overBytes_done start rx _ _ _ _ _ _ _ waits obeys tracks patient
      attempts loops service accepted unexhausted named
  exact ⟨target, device, returned, eligible, same, done.toInstalled⟩

/-- The first update of a device fresh from the factory. -/
theorem update_overBytes_installs_factory :
    ∃ header target device,
      (((serialPort hostPort).loader (fun _ _ => 29) 3).update newImage.length
          newImage none).run
          ⟨simInit .zeroed, [], [], newImage.length⟩ =
        .returned (.ok (BitVec.toNat target)) device ∧
      Eligible (simInit .zeroed).system.flash target ∧
      (∀ chosen, (none : Option Int) = some chosen →
        chosen = target.toNat) ∧
      Installed (simInit .zeroed).system target header newImage
        device.lib.system := by
  obtain ⟨header, accepted⟩ := newImage_accepted
  exact ⟨header, update_overBytes_installs .zeroed [] [] newImage header none
    (fun _ _ => 29) 3 newImage.length newImage.length rfl
    (fun _ _ => by decide) (by decide) (Nat.le_refl _) (Nat.le_refl _)
    accepted (fun held read => absurd read (factory_unread held)) nofun⟩

end Stm32Bootloader.Blsim
