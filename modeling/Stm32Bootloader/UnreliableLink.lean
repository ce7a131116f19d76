/-
Updates over a link that loses and delays frames, on a device that may lose
its power between requests.

A response does not say which request it answers, so the host may take the
answer to an earlier attempt for that to a later one.  What such a misreading
could hide is caught by the device: it is asked to arm the slot only after it
has erased it for this update, and it arms a slot only if the slot validates.
-/

import Stm32Bootloader.InterruptedUpdate
import Stm32Bootloader.Library.LossyLink
import Stm32Bootloader.UpdateRequests

namespace Stm32Bootloader

open Interruptible Fallible Blflash LossyLink TransitionRun

/-! ### The device and its history -/

/-- A request that the device has handled, the state in which it came and the
faults of the flash.  Power that is lost between two flash operations of a
request is a fault of the second one, a lost response and a restart. -/
structure Moment where
  system : System
  request : BlFrame
  faults : List (Option FlashError)

section Moment

variable (port : Port) (responseSize : Nat)

def Moment.step (moment : Moment) : Step :=
  ⟨.request moment.request responseSize, moment.faults.map .ofFault⟩

def Moment.after (moment : Moment) : System :=
  systemStep port moment.system (moment.step responseSize)

def Moment.answer (moment : Moment) : Option U8 :=
  Stm32Bootloader.answer port moment.system (moment.step responseSize)

def Moment.reply (moment : Moment) : Option (List U8) :=
  match blCoreHandleFrame port moment.system.session moment.request
      responseSize
      (moment.system.device (moment.faults.map .ofFault)) with
  | .returned (_, .ok bytes) _ => some bytes
  | _ => none

end Moment

theorem faults_powered (faults : List (Option FlashError)) (units : Nat) :
    FlashOutcome.powerLoss units ∉ faults.map FlashOutcome.ofFault :=
  powered_faults (fun _ => 0) faults [] units

theorem Moment.reply_encoded {port : Port} {responseSize : Nat}
    {moment : Moment} {bytes : List U8}
    (replied : moment.reply port responseSize = some bytes) :
    ∃ status data outSize,
      blFrameEncode moment.request.cmd (status :: data) outSize =
        some bytes ∧
      moment.answer port responseSize = some status := by
  obtain ⟨session, new, status, data, device, ran, _calls⟩ :=
    @request_powered port moment.system moment.request _
      (faults_powered moment.faults) responseSize
  unfold Moment.reply at replied
  rw [ran] at replied
  cases reply : respond moment.request.cmd status data responseSize with
  | error result =>
      rw [reply] at replied
      cases replied
  | ok sent =>
      rw [reply] at replied
      cases replied
      refine ⟨status.code, data, responseSize, respond_encoded_as reply, ?_⟩
      unfold Moment.answer Moment.step Stm32Bootloader.answer
      dsimp only
      rw [ran, reply]
      exact respond_ok_status reply

/-- A device and the requests it has handled, in order. -/
structure Recorded where
  system : System
  history : List Moment

/-- Between two requests the power may be lost, and the flash is kept. -/
def blMachine (port : Port) (responseSize : Nat) :
    Machine Recorded BlFrame (List U8) (List (Option FlashError)) where
  handle device request faults :=
    let moment := ⟨device.system, request, faults⟩
    (⟨moment.after port responseSize, device.history ++ [moment]⟩,
      moment.reply port responseSize)
  restart device :=
    { device with system := systemStep port device.system ⟨.powerCycle, []⟩ }

theorem history_grows {port : Port} {responseSize : Nat}
    {device next : Recorded}
    (becomes : (blMachine port responseSize).Next device next)
    {moment : Moment} (known : moment ∈ device.history) :
    moment ∈ next.history := by
  cases becomes with
  | handle request faults => exact List.mem_append_left _ known
  | restart => exact known

/-! ### The host's end of the link -/

abbrev BlLink := Link Recorded BlFrame (List U8)

abbrev BlEvent := Event (List (Option FlashError))

/-- The link, and what is to happen on it, attempt by attempt, before and
after the request is sent. -/
structure Wire where
  link : BlLink
  schedule : List (List BlEvent × List BlEvent)

def Wire.initial (system : System)
    (schedule : List (List BlEvent × List BlEvent)) : Wire :=
  ⟨.initial ⟨system, []⟩, schedule⟩

/-- What is not read is left to the next attempt, which discards it. -/
def Wire.serve (port : Port) (responseSize : Nat) (request : BlFrame) :
    Prog Wire (List Received) := fun wire =>
  let (before, during) := wire.schedule.headD ([], [])
  let link := wire.link.attempt (blMachine port responseSize) request before
    during
  let bytes := link.arrived.flatten
  .returned (readFrames bytes.length bytes) ⟨link, wire.schedule.tail⟩

def unreliable (port : Port) (responseSize retries : Nat) :
    Bootloader Wire :=
  ⟨Wire.serve port responseSize, retries⟩

/-! ### What a device has been sent and has told -/

section Device

variable (port : Port) (responseSize : Nat)

/-- The response belongs to some request that the device has handled. -/
def Told (device : Recorded) (bytes : List U8) : Prop :=
  ∃ moment, moment ∈ device.history ∧
    moment.reply port responseSize = some bytes

/-- The device has reported this slot erased. -/
def ErasedIn (slot : U8) (device : Recorded) : Prop :=
  ∃ moment, moment ∈ device.history ∧ moment.request.Erases slot ∧
    moment.answer port responseSize = some BlResult.ok.code

/-- Until then an update of the slot asks and erases only. -/
def Sent (slot : U8) (header : List U8) (device : Recorded)
    (request : BlFrame) : Prop :=
  request.Prepares slot ∨
    (ErasedIn port responseSize slot device ∧ request.Updates slot header)

/-- The device has handled nothing but requests of an update of this slot. -/
structure Traced (start : System) (slot : U8) (header : List U8)
    (device : Recorded) : Prop where
  updating : Updating port start slot device.system
  requested : ∀ moment, moment ∈ device.history →
    moment.request.Updates slot header
  prepared : ErasedIn port responseSize slot device →
    Prepared port slot header device.system
  armed : ∀ moment, moment ∈ device.history →
    moment.request.Arms slot →
    moment.answer port responseSize = some BlResult.ok.code →
      Holds port.layout moment.system.flash slot header
  others : ∀ moment, moment ∈ device.history →
    ∀ other, slotIsValid other = true → other ≠ slot →
      slotBytes port.layout moment.system.flash other =
        slotBytes port.layout start.flash other

end Device

section Steps

variable {port : Port} {responseSize : Nat} {start : System} {slot : U8}
  {header : List U8} {device : Recorded} {request : BlFrame}

theorem ErasedIn.stays {next : Recorded}
    (becomes : (blMachine port responseSize).Next device next)
    (erased : ErasedIn port responseSize slot device) :
    ErasedIn port responseSize slot next := by
  obtain ⟨moment, known, erases⟩ := erased
  exact ⟨moment, history_grows becomes known, erases⟩

theorem traced_initial
    (tracks : Tracks port start.session start.calls) :
    Traced port responseSize start slot header ⟨start, []⟩ := by
  constructor
  · exact ⟨tracks, .refl start, fun _ _ _ => rfl⟩
  · intro moment impossible
    cases impossible
  · rintro ⟨moment, impossible, _⟩
    cases impossible
  · intro moment impossible
    cases impossible
  · intro moment impossible
    cases impossible

section Traced

variable (traced : Traced port responseSize start slot header device)

include traced

theorem Traced.sendable
    (sent : Sent port responseSize slot header device request) :
    Sendable port slot header device.system request := by
  rcases sent with prepares | ⟨erased, updates⟩
  · exact Or.inl prepares
  · exact Or.inr ⟨traced.prepared erased, updates⟩

omit traced in
theorem Sent.updates
    (sent : Sent port responseSize slot header device request) :
    request.Updates slot header := by
  rcases sent with prepares | ⟨_erased, updates⟩
  · exact Or.inl prepares
  · exact updates

theorem Traced.handle (whole : header.length = 40)
    (sent : Sent port responseSize slot header device request)
    (faults : List (Option FlashError)) :
    Traced port responseSize start slot header
      ((blMachine port responseSize).handle device request faults).1 := by
  obtain ⟨updating, keeps⟩ := @systemStep_updates port start device.system
    slot header request _ (faults_powered faults) responseSize
    traced.updating (traced.sendable sent) whole
  constructor
  · exact updating
  · intro moment known
    rcases List.mem_append.mp known with old | new
    · exact traced.requested moment old
    · rw [List.mem_singleton.mp new]
      exact sent.updates
  · rintro ⟨moment, known, erases, answered⟩
    rcases List.mem_append.mp known with old | new
    · exact keeps (traced.prepared ⟨moment, old, erases, answered⟩)
    · obtain rfl := List.mem_singleton.mp new
      exact erase_prepares erases answered
  · intro moment known arms answered
    rcases List.mem_append.mp known with old | new
    · exact traced.armed moment old arms answered
    · obtain rfl := List.mem_singleton.mp new
      rcases sent with prepares | ⟨erased, _updates⟩
      · exact absurd arms.1 prepares.notArms
      · exact (traced.prepared erased).armed arms answered
  · intro moment known
    rcases List.mem_append.mp known with old | new
    · exact traced.others moment old
    · rw [List.mem_singleton.mp new]
      exact traced.updating.others

theorem Traced.restart :
    Traced port responseSize start slot header
      ((blMachine port responseSize).restart device) :=
  { updating :=
      { tracks := traced.updating.tracks.zeroed
        once := traced.updating.once
        others := traced.updating.others }
    requested := traced.requested
    prepared := fun erased => (traced.prepared erased).powerCycle
    armed := traced.armed
    others := traced.others }

end Traced

theorem traced_discipline (start : System) (slot : U8)
    (whole : header.length = 40) :
    Discipline (blMachine port responseSize)
      (Traced port responseSize start slot header)
      (Sent port responseSize slot header) (Told port responseSize) := by
  constructor
  · intro device request faults traced sent
    exact traced.handle whole sent faults
  · intro device request faults response _traced _sent replied
    exact ⟨_, List.mem_append_right _ List.mem_cons_self, replied⟩
  · intro device traced
    exact traced.restart
  · rintro device next request becomes (prepares | ⟨erased, updates⟩)
    · exact Or.inl prepares
    · exact Or.inr ⟨erased.stays becomes, updates⟩
  · rintro device next response becomes ⟨moment, known, replied⟩
    exact ⟨moment, history_grows becomes known, replied⟩

end Steps

/-! ### The host on this link -/

/-- The device has given this status to some request with the command. -/
def GaveStatus (port : Port) (responseSize : Nat) (cmd status : U8)
    (device : Recorded) : Prop :=
  ∃ moment, moment ∈ device.history ∧ moment.request.cmd = cmd ∧
    moment.answer port responseSize = some status

section Serve

variable {port : Port} {responseSize : Nat} {holds : Recorded → Prop}
  {sent : Recorded → BlFrame → Prop}

/-- A status that the host reads was given, but maybe to another request. -/
theorem gaveStatus_read {link : BlLink}
    (trusted : Trusted holds sent (Told port responseSize) link)
    {fuel : Nat} {cmd status : U8} {data : List U8}
    (read : .frame cmd (status :: data) ∈
      readFrames fuel link.arrived.flatten) :
    GaveStatus port responseSize cmd status link.server := by
  have meant : ∀ bytes, bytes ∈ link.arrived →
      ∃ cmd payload outSize,
        blFrameEncode cmd payload outSize = some bytes ∧
        ∃ status data, payload = status :: data ∧
          GaveStatus port responseSize cmd status link.server := by
    intro bytes arrived
    obtain ⟨moment, known, replied⟩ := trusted.arrived bytes arrived
    obtain ⟨status, data, outSize, encoded, answered⟩ :=
      moment.reply_encoded replied
    exact ⟨_, _, outSize, encoded, status, data, rfl, moment, known, rfl,
      answered⟩
  obtain ⟨_cmd, _payload, same, _status, _data, rfl, gave⟩ :=
    readFrames_encoded meant read
  cases same
  exact gave

variable (discipline : Discipline (blMachine port responseSize) holds sent
    (Told port responseSize))
  {request : BlFrame}
  (may : ∀ device, holds device → sent device request) (retries : Nat)

include discipline may

theorem serve_stable :
    (unreliable port responseSize retries).Stable
      (fun wire => Trusted holds sent (Told port responseSize) wire.link)
      request := by
  intro wire trusted
  exact trusted.attempt discipline may _ _

theorem serve_yields :
    (unreliable port responseSize retries).Yields
      (fun wire => Trusted holds sent (Told port responseSize) wire.link)
      request fun status wire =>
        GaveStatus port responseSize request.cmd status
          wire.link.server := by
  refine Ensures.lift fun wire trusted => ?_
  have after := trusted.attempt discipline may
    (wire.schedule.headD ([], [])).1 (wire.schedule.headD ([], [])).2
  exact ⟨after, fun status data read => gaveStatus_read after read⟩

end Serve

/-! ### The update on this link -/

section Phases

variable (port : Port) (responseSize : Nat) (start : System)

/-- Nothing has been sent but queries, which suit an update of any slot. -/
def Wire.Asking (wire : Wire) : Prop :=
  ∀ slot header, header.length = 40 →
    Trusted (Traced port responseSize start slot header)
      (Sent port responseSize slot header) (Told port responseSize) wire.link

/-- The slot has been reported erased. -/
def Wire.Installing (slot : U8) (header : List U8) (wire : Wire) : Prop :=
  Trusted
    (fun device => Traced port responseSize start slot header device ∧
      ErasedIn port responseSize slot device)
    (Sent port responseSize slot header) (Told port responseSize) wire.link

/-- Since the start nothing was programmed twice and no other slot has
changed, not even for a while. -/
structure Spared (slot : U8) (device : Recorded) : Prop where
  once : ProgramsOnce start device.system
  others : ∀ other, slotIsValid other = true → other ≠ slot →
    slotBytes port.layout device.system.flash other =
      slotBytes port.layout start.flash other
  always : ∀ moment, moment ∈ device.history →
    ∀ other, slotIsValid other = true → other ≠ slot →
      slotBytes port.layout moment.system.flash other =
        slotBytes port.layout start.flash other

/-- The device has armed the slot while it held this image. -/
def Armed (slot : U8) (image : List U8) (device : Recorded) : Prop :=
  ∃ moment, moment ∈ device.history ∧ moment.request.Arms slot ∧
    moment.answer port responseSize = some BlResult.ok.code ∧
    Holds port.layout moment.system.flash slot
      (image.take Blimage.hdrStructSize)

end Phases

section Update

variable {port : Port} {responseSize : Nat} {start : System}
  {image : List U8} {retries : Nat}

theorem Traced.spared {slot : U8} {header : List U8} {device : Recorded}
    (traced : Traced port responseSize start slot header device) :
    Spared port start slot device :=
  ⟨traced.updating.once, traced.updating.others, traced.others⟩

theorem Wire.Asking.spared {wire : Wire}
    (asking : wire.Asking port responseSize start) :
    ∃ slot, Spared port start slot wire.link.server :=
  ⟨0, (asking 0 (List.replicate 40 0)
    List.length_replicate).server.spared⟩

theorem asking_queries :
    (unreliable port responseSize retries).Queries
      (Wire.Asking port responseSize start) :=
  queries_stable fun _request prepares wire asking slot header whole =>
    serve_stable (traced_discipline start slot whole)
      (fun _ _ => Or.inl (prepares slot)) retries wire
      (asking slot header whole)

theorem eraseSlot_installing {slot : Int} {header : List U8}
    (whole : header.length = 40) :
    Ensures (Wire.Asking port responseSize start)
      ((unreliable port responseSize retries).eraseSlot slot)
      (fun _ wire => wire.Installing port responseSize start
        (BitVec.ofInt 8 slot) header ∧ 0 ≤ slot ∧ slot < 256)
      (fun _ wire => ∃ spared, Spared port start spared wire.link.server) := by
  have discipline := @traced_discipline port responseSize header start
    (BitVec.ofInt 8 slot) whole
  have erased := @Bootloader.eraseSlot_yields _
    (unreliable port responseSize retries)
    (fun wire => Trusted
      (Traced port responseSize start (BitVec.ofInt 8 slot) header)
      (Sent port responseSize (BitVec.ofInt 8 slot) header)
      (Told port responseSize) wire.link) slot
    (fun status wire => GaveStatus port responseSize blCmdEraseSlot status
      wire.link.server ∧ 0 ≤ slot ∧ slot < 256)
    (fun fits inByte => (serve_yields discipline
      (fun _ _ => Or.inl (Or.inr (Or.inr (eraseRequest_erases _))))
      retries).weaken fun _ _ gave => ⟨gave, inByte⟩)
  refine erased.weaken ?_ ?_ ?_
  · intro wire asking
    exact asking _ _ whole
  · rintro _ wire ⟨trusted, ⟨moment, known, isErase, answered⟩, inByte⟩
    have erases := (trusted.server.requested moment known).ofErase isErase
    exact ⟨trusted.and ⟨moment, known, erases, answered⟩, inByte⟩
  · intro _ wire trusted
    exact ⟨_, trusted.server.spared⟩

theorem installing_discipline (slot : U8) {header : List U8}
    (whole : header.length = 40) :
    Discipline (blMachine port responseSize)
      (fun device => Traced port responseSize start slot header device ∧
        ErasedIn port responseSize slot device)
      (Sent port responseSize slot header) (Told port responseSize) :=
  (traced_discipline start slot whole).and fun _ _ becomes =>
    ErasedIn.stays becomes

theorem install_armed {slot : U8} {header : BlImgHdr}
    (whole : (image.take Blimage.hdrStructSize).length = 40)
    (behind : 512 ≤ header.entryOffset.toNat) (fuel : Nat)
    (info : DeviceInfo) :
    Ensures
      (Wire.Installing port responseSize start slot
        (image.take Blimage.hdrStructSize))
      ((unreliable port responseSize retries).install fuel info header image
        slot.toNat)
      (fun installed wire => installed = slot.toNat ∧
        Spared port start slot wire.link.server ∧
        Armed port responseSize slot image wire.link.server)
      (fun _ wire => Spared port start slot wire.link.server) := by
  have discipline := @installing_discipline port responseSize start slot
    (image.take Blimage.hdrStructSize) whole
  have may : ∀ request : BlFrame,
      request.Updates slot (image.take Blimage.hdrStructSize) →
      ∀ device, Traced port responseSize start slot
          (image.take Blimage.hdrStructSize) device ∧
        ErasedIn port responseSize slot device →
      Sent port responseSize slot (image.take Blimage.hdrStructSize) device
        request := fun _ updates _ both => Or.inr ⟨both.2, updates⟩
  have installs := installs_stable behind fun request updates =>
    serve_stable discipline (may request updates) retries
  have arms := @setActive_slot _ (unreliable port responseSize retries)
    (Wire.Installing port responseSize start slot
      (image.take Blimage.hdrStructSize)) slot
    (fun status wire => GaveStatus port responseSize blCmdSetActive status
      wire.link.server)
    fun fits => serve_yields discipline
      (may _ (Or.inr (Or.inr (setActive_arms slot fits)))) retries
  refine (installs.contract arms fuel info).weaken (fun _ holds => holds)
    ?_ ?_
  · rintro installed wire ⟨same, trusted, moment, known, isArm, answered⟩
    have traced := trusted.server.1
    have armed := (traced.requested moment known).ofArm isArm
    exact ⟨same, traced.spared, moment, known, armed, answered,
      traced.armed moment known armed answered⟩
  · intro _ wire trusted
    exact trusted.server.1.spared

/-- The slot that the update returns has been armed. -/
def Wire.Reports (port : Port) (responseSize : Nat) (start : System)
    (image : List U8) (returned : Int) (wire : Wire) : Prop :=
  ∃ slot : U8, returned = slot.toNat ∧
    Spared port start slot wire.link.server ∧
    Armed port responseSize slot image wire.link.server

theorem updateSlot_reports {header : BlImgHdr}
    (whole : (image.take Blimage.hdrStructSize).length = 40)
    (behind : 512 ≤ header.entryOffset.toNat) (fuel : Nat)
    (info : DeviceInfo) (slot : Int) :
    Ensures (Wire.Asking port responseSize start)
      ((unreliable port responseSize retries).updateSlot fuel info header
        image slot)
      (Wire.Reports port responseSize start image)
      (fun _ wire => ∃ spared, Spared port start spared wire.link.server) := by
  unfold Bootloader.updateSlot
  split
  · exact Ensures.throw fun _ asking => asking.spared
  split
  · exact Ensures.throw fun _ asking => asking.spared
  refine Ensures.bind (eraseSlot_installing whole) fun _ =>
    Ensures.each ?_
  rintro wire ⟨installing, lower, upper⟩
  obtain ⟨target, rfl⟩ : ∃ target : U8, slot = target.toNat := by
    refine ⟨BitVec.ofNat 8 slot.toNat, ?_⟩
    rw [BitVec.toNat_ofNat]
    omega
  rw [BitVec.ofInt_natCast, BitVec.ofNat_toNat, BitVec.setWidth_eq] at installing
  have installed := @install_armed port responseSize start image retries
    target header whole behind fuel info
  refine installed.weaken ?_ ?_ ?_
  · rintro _ rfl
    exact installing
  · intro installed after reported
    exact ⟨target, reported⟩
  · intro _ after spared
    exact ⟨target, spared⟩

theorem update_reports (fuel : Nat) (slot : Option Int) :
    Ensures (Wire.Asking port responseSize start)
      ((unreliable port responseSize retries).update fuel image slot)
      (Wire.Reports port responseSize start image)
      (fun _ wire => ∃ spared, Spared port start spared wire.link.server) := by
  have asking := @asking_queries port responseSize start retries
  have stopped : ∀ (reason : Option HostError) (wire : Wire),
      wire.Asking port responseSize start →
        ∃ spared, Spared port start spared wire.link.server :=
    fun _ _ asks => asks.spared
  refine Ensures.bind (asking.hello_keeps.weaken (fun _ holds => holds)
    (fun _ _ holds => holds) stopped) fun info => ?_
  cases checked : Blimage.validate image (some info.slotSize) with
  | error error => exact Ensures.throw fun _ asks => asks.spared
  | ok header =>
      have accepted := Blimage.validate_ok checked
      have whole := accepted.header_length
      have behind := accepted.behind
      cases slot with
      | some slot => exact updateSlot_reports whole behind fuel info slot
      | none =>
          refine Ensures.bind ((asking.chooseTargetSlot_keeps info).weaken
            (fun _ holds => holds) (fun _ _ holds => holds) stopped)
            fun chosen => ?_
          exact updateSlot_reports whole behind fuel info chosen

end Update

/-- Whatever the link loses or delays and whenever the device restarts, an
update that returns a slot has armed it with the image, and however it ends
it has spared the other slot. -/
theorem update_reportsTruly (port : Port) (flash : Flash)
    (earlier : List Step) (image : List U8) (slot : Option Int)
    (responseSize retries fuel : Nat)
    (schedule : List (List BlEvent × List BlEvent)) :
    let start := run (systemStep port) (System.initial flash) earlier
    let outcome := ((unreliable port responseSize retries).update fuel image
      slot).run (Wire.initial start schedule)
    (∃ spared, Spared port start spared outcome.state.link.server) ∧
    ∀ returned wire, outcome = .returned (.ok returned) wire →
      ∃ target : U8, returned = target.toNat ∧
        Spared port start target wire.link.server ∧
        Armed port responseSize target image wire.link.server := by
  intro start outcome
  have asking : (Wire.initial start schedule).Asking port responseSize
      start := fun slot header _whole =>
    trusted_initial (traced_initial (tracks_run port flash earlier))
  have contract := @update_reports port responseSize start image retries fuel
    slot
  constructor
  · exact (contract.weaken (fun _ holds => holds)
      (fun _ _ reports => ⟨_, reports.choose_spec.2.1⟩)
      (fun _ _ spared => spared)).state asking
  · intro returned wire ran
    exact contract.value asking ran

/-- The answer to the erase is lost, that to the payload comes late, and the
first request to arm the slot is lost before the device restarts. -/
def lossySchedule : List (List BlEvent × List BlEvent) :=
  [([], [.handle [], .deliver]),
    ([], [.handle [], .loseResponse 0]),
    ([], [.handle [], .deliver]),
    ([], [.handle []]),
    ([], [.deliver]),
    ([.loseRequest 0], [.handle [], .deliver]),
    ([], [.handle [], .deliver]),
    ([], [.loseRequest 0]),
    ([.restart], [.handle [], .deliver])]

theorem lossySchedule_returns :
    Fallible.result (((unreliable hostPort blMinResponseSize 3).update 1
      newImage (some 1)).run
        (Wire.initial (System.initial fallbackFlash) lossySchedule)) =
      some 1 := by
  decide +kernel

theorem update_reportsTruly_lossy :
    ∃ wire,
      ((unreliable hostPort blMinResponseSize 3).update 1 newImage
          (some 1)).run
        (Wire.initial (System.initial fallbackFlash) lossySchedule) =
          .returned (.ok 1) wire ∧
      ∃ target : U8, (1 : Int) = target.toNat ∧
        Spared hostPort (System.initial fallbackFlash) target
          wire.link.server ∧
        Armed hostPort blMinResponseSize target newImage
          wire.link.server := by
  have ran := result_some lossySchedule_returns
  exact ⟨_, ran, (update_reportsTruly hostPort fallbackFlash [] newImage
    (some 1) blMinResponseSize 3 1 lossySchedule).2 _ _ ran⟩

end Stm32Bootloader
