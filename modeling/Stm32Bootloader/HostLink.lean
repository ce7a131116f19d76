/-
The host tool and a device on a faultless link.

Every frame arrives as it was sent, but the run may be cut before any request
is handled, and the flash operations of the device may fail or lose the power,
after which the device goes on with a zeroed session.  Queries are answered
with what the flash holds and change nothing.
-/

import Stm32Bootloader.System
import Stm32Bootloader.Tools.Blflash

namespace Stm32Bootloader

open Interruptible Fallible LittleEndian Blflash

def blMinResponseSize : Nat := 29

/-- A device, how its erase and program calls end, request by request, and how
many requests it handles before the run is cut. -/
structure Bench where
  system : System
  outcomes : List (List FlashOutcome)
  requests : Nat

def Bench.initial (flash : Flash) (outcomes : List (List FlashOutcome))
    (requests : Nat) : Bench :=
  ⟨.initial flash, outcomes, requests⟩

/-- The device as the next request finds it. -/
def Bench.device (bench : Bench) : Device :=
  bench.system.device (bench.outcomes.headD [])

def Bench.reply (port : Port) (responseSize : Nat) (bench : Bench)
    (request : BlFrame) : List U8 :=
  match blCoreHandleFrame port bench.system.session request responseSize
      bench.device with
  | .returned (_, .ok bytes) _ => bytes
  | _ => []

def Bench.handled (bench : Bench) (system : System) : Bench :=
  ⟨system, bench.outcomes.tail, bench.requests - 1⟩

def Bench.serve (port : Port) (responseSize : Nat) (request : BlFrame) :
    Prog Bench (List Received) := fun bench =>
  if bench.requests = 0 then .lost bench
  else
    let reply := bench.reply port responseSize request
    .returned (readFrames reply.length reply)
      (bench.handled (systemStep port bench.system
        ⟨.request request responseSize, bench.outcomes.headD []⟩))

def hostOf (port : Port) (responseSize retries : Nat) : Bootloader Bench :=
  ⟨Bench.serve port responseSize, retries⟩

/-! ### Replies -/

theorem respond_frames {cmd : U8} {status : BlResult} {data : List U8}
    {responseSize : Nat} {bytes : List U8}
    (answered : respond cmd status data responseSize = .ok bytes) :
    readFrames bytes.length bytes = [.frame cmd (status.code :: data)] := by
  have first := readFrame_encode (respond_encoded_as answered) []
  rw [List.append_nil] at first
  cases bytes with
  | nil => cases first
  | cons start rest =>
      rw [List.length_cons]
      unfold readFrames
      rw [first]
      cases rest <;> rfl

theorem respond_encoded (cmd : U8) (status : BlResult) {data : List U8}
    {responseSize : Nat} (short : data.length ≤ blMaxResponseData)
    (room : blMinResponseSize ≤ responseSize) :
    ∃ bytes, respond cmd status data responseSize = .ok bytes := by
  have dataShort : data.length ≤ 20 := short
  have sizeRoom : 29 ≤ responseSize := room
  have encoded := @blFrameEncode_some cmd (status.code :: data) responseSize
    (by
      rw [List.length_cons, blMaxPayload]
      omega)
    (by
      rw [List.length_cons]
      omega)
  unfold respond
  rw [if_neg (Nat.not_lt.mpr short), encoded]
  exact ⟨_, rfl⟩

theorem awaitResponse_frame (cmd : U8) (payload : List U8) :
    awaitResponse cmd [.frame cmd payload] = .ok payload := by
  unfold awaitResponse
  rw [if_pos rfl]

/-! ### Transactions -/

section Transactions

variable {port : Port} {responseSize retries : Nat}
  (room : blMinResponseSize ≤ responseSize)

/-- The reasons for which nothing at all is sent. -/
def Bench.Silent (retries : Nat) (bench : Bench) : Prop :=
  retries = 0 ∨ bench.requests = 0

include room

/-- A request that the device answers is answered at the first attempt, if the
host makes one and is not cut off before. -/
theorem transact_answered {bench : Bench} {cmd : U8} {payload : List U8}
    (fits : payload.length ≤ Blproto.maxPayload) {status : BlResult}
    {data : List U8} (short : data.length ≤ blMaxResponseData)
    {session : BlSession} {device : Device}
    (ran : blCoreHandleFrame port bench.system.session
        (BlFrame.ofBytes cmd payload fits) responseSize bench.device =
      .returned (session, respond cmd status data responseSize) device) :
    Ensures (fun before => before = bench)
      ((hostOf port responseSize retries).transact cmd payload)
      (fun response after => response = ⟨cmd, status.code, data, 1⟩ ∧
        ¬ bench.Silent retries ∧
        after = bench.handled ⟨session, device.flash, device.calls⟩)
      (fun _ after => after = bench ∧ bench.Silent retries) := by
  unfold Bootloader.transact
  rw [dif_pos fits]
  cases retries with
  | zero =>
      exact Ensures.throw fun before same => ⟨same, Or.inl rfl⟩
  | succ retries =>
      have first : Ensures (fun before => before = bench)
          (ExceptT.lift (Bench.serve port responseSize
            (BlFrame.ofBytes cmd payload fits)) :
            HostM Bench (List Received))
          (fun received after =>
            received = [.frame cmd (status.code :: data)] ∧
            bench.requests ≠ 0 ∧
            after = bench.handled ⟨session, device.flash, device.calls⟩)
          (fun _ after => after = bench ∧ bench.Silent (retries + 1)) := by
        refine Ensures.lift ?_
        rintro before rfl
        obtain ⟨bytes, answered⟩ := respond_encoded cmd status short room
        have read := respond_frames answered
        unfold Bench.serve
        by_cases cut : before.requests = 0
        · rw [if_pos cut]
          exact ⟨rfl, Or.inr cut⟩
        · rw [if_neg cut]
          have reply : before.reply port responseSize
              (BlFrame.ofBytes cmd payload fits) = bytes := by
            unfold Bench.reply
            rw [ran, answered]
          have stepped : systemStep port before.system
              ⟨.request (BlFrame.ofBytes cmd payload fits) responseSize,
                before.outcomes.headD []⟩ =
              ⟨session, device.flash, device.calls⟩ := by
            unfold systemStep
            dsimp only
            unfold Bench.device at ran
            rw [ran]
            rfl
          dsimp only
          rw [reply, stepped]
          exact ⟨read, cut, rfl⟩
      refine Ensures.bind_known first ?_
      have commandEq : (BlFrame.ofBytes cmd payload fits).cmd = cmd := rfl
      rw [commandEq, awaitResponse_frame]
      refine Ensures.pure ?_
      rintro after ⟨uncut, rfl⟩
      refine ⟨rfl, ?_, rfl⟩
      rintro (none | cut)
      · cases none
      · exact uncut cut

end Transactions

/-! ### Queries -/

/-- The boot state that HELLO reports. -/
def metaReport (layout : BlLayout) (flash : Flash) : U8 × U8 × U8 :=
  match blMetaRead layout flash with
  | .ok record => (record.activeSlot, record.state, record.bootAttempts)
  | .error _ => (blSlotNone, blBootStateNone, 0)

/-- What HELLO tells the host about a device. -/
def deviceInfo (port : Port) (flash : Flash) : DeviceInfo :=
  { protoVersion := Blproto.protoVersion
    hdrVersion := Blimage.hdrVersion.toNat
    slotCount := blSlotCount.toNat
    slotSize := (port.layout.slot blSlotA).size.toNat
    writeGranularity := port.writeGranularity.toNat
    eraseGranularity :=
      (port.eraseGranularity (port.layout.slot blSlotA).base).toNat
    maxWrite := blMaxWriteData
    activeSlot := (metaReport port.layout flash).1.toNat
    bootState := (metaReport port.layout flash).2.1.toNat
    bootAttempts := (metaReport port.layout flash).2.2.toNat }

/-- What VERIFY tells the host about a slot. -/
def slotReport (layout : BlLayout) (flash : Flash) (slot : U8) :
    Except U8 SlotInfo :=
  match blCoreValidateSlot layout flash slot with
  | .ok hdr =>
      .ok ⟨hdr.imgSize.toNat, hdr.imgCrc32.toNat, hdr.fwVersion.toNat⟩
  | .error result => .error result.code

theorem helloData_length (port : Port) (flash : Flash) :
    (helloData port flash).length = 20 := by
  unfold helloData
  cases blMetaRead port.layout flash <;> rfl

theorem helloData_info (port : Port) (flash : Flash) :
    DeviceInfo.ofBytes (helloData port flash) = deviceInfo port flash := by
  unfold deviceInfo metaReport
  rw [← natOfBytes_bytes32 (port.layout.slot blSlotA).size,
    ← natOfBytes_bytes32 port.writeGranularity,
    ← natOfBytes_bytes32
      (port.eraseGranularity (port.layout.slot blSlotA).base)]
  unfold DeviceInfo.ofBytes helloData
  cases blMetaRead port.layout flash <;> rfl

theorem slotInfo_bytes (imgSize imgCrc32 fwVersion : U32) :
    SlotInfo.ofBytes (bytes32 imgSize ++ bytes32 imgCrc32 ++
      bytes32 fwVersion) =
        ⟨imgSize.toNat, imgCrc32.toNat, fwVersion.toNat⟩ := by
  rw [← natOfBytes_bytes32 imgSize, ← natOfBytes_bytes32 imgCrc32,
    ← natOfBytes_bytes32 fwVersion]
  rfl

section Told

variable {σ : Type} {loader : Bootloader σ} {before told : σ → Prop}
  {stopped : Option HostError → σ → Prop}

theorem expectOk_told {cmd : U8} {payload data : List U8}
    (transacted : Ensures before (loader.transact cmd payload)
      (fun response state => (response.status = BlResult.ok.code ∧
        response.data = data) ∧ told state) stopped) :
    Ensures before (loader.expectOk cmd payload)
      (fun received state => received = data ∧ told state) stopped := by
  have isOk : BlResult.ok.code = Blproto.ok := rfl
  refine Ensures.bind transacted fun response => Ensures.each ?_
  rintro state ⟨⟨sameStatus, sameData⟩, holds⟩
  rw [sameStatus, if_neg (not_not_intro isOk)]
  refine Ensures.pure ?_
  rintro _ rfl
  exact ⟨sameData, holds⟩

theorem hello_told {port : Port} {flash : Flash}
    (greeted : Ensures before (loader.expectOk Blproto.cmdHello [])
      (fun data state => data = helloData port flash ∧ told state) stopped) :
    Ensures before loader.hello
      (fun info state => info = deviceInfo port flash ∧ told state)
      stopped := by
  refine Ensures.bind_known greeted ?_
  rw [helloData_length, helloData_info]
  exact Ensures.pure fun _ holds => ⟨rfl, holds⟩

end Told

section Queries

variable {port : Port} {responseSize retries : Nat}
  (room : blMinResponseSize ≤ responseSize)

include room

theorem expectOk_answered {bench : Bench} {cmd : U8} {payload : List U8}
    (fits : payload.length ≤ Blproto.maxPayload) {data : List U8}
    (short : data.length ≤ blMaxResponseData)
    {session : BlSession} {device : Device}
    (ran : blCoreHandleFrame port bench.system.session
        (BlFrame.ofBytes cmd payload fits) responseSize bench.device =
      .returned (session, respond cmd .ok data responseSize) device) :
    Ensures (fun before => before = bench)
      ((hostOf port responseSize retries).expectOk cmd payload)
      (fun received after => received = data ∧ ¬ bench.Silent retries ∧
        after = bench.handled ⟨session, device.flash, device.calls⟩)
      (fun _ after => after = bench ∧ bench.Silent retries) := by
  refine Ensures.bind_known (transact_answered room fits short ran) ?_
  exact Ensures.pure fun after holds => ⟨rfl, holds⟩

theorem hello_answered (bench : Bench) :
    Ensures (fun before => before = bench)
      (hostOf port responseSize retries).hello
      (fun info after => info = deviceInfo port bench.system.flash ∧
        ¬ bench.Silent retries ∧ after = bench.handled bench.system)
      (fun _ after => after = bench ∧ bench.Silent retries) := by
  have length := helloData_length port bench.system.flash
  have empty : ([] : List U8).length ≤ Blproto.maxPayload := Nat.zero_le _
  have ran : blCoreHandleFrame port bench.system.session
      (BlFrame.ofBytes Blproto.cmdHello [] empty) responseSize bench.device =
      .returned (bench.system.session, respond Blproto.cmdHello .ok
        (helloData port bench.system.flash) responseSize) bench.device := rfl
  exact hello_told (expectOk_answered room empty (Nat.le_of_eq length) ran)

theorem slotStatus_answered (bench : Bench) (slot : U8) :
    Ensures (fun before => before = bench)
      ((hostOf port responseSize retries).slotStatus slot.toNat)
      (fun status after =>
        status = slotReport port.layout bench.system.flash slot ∧
        ¬ bench.Silent retries ∧ after = bench.handled bench.system)
      (fun _ after => after = bench ∧ bench.Silent retries) := by
  have fits := byte_fits slot
  have named := BlFrame.ofBytes_byte Blproto.cmdVerify slot fits
  have ran := @blCoreHandleFrame_verify port _ slot rfl rfl named
    bench.system.session responseSize bench.device
  have flashEq : bench.device.flash = bench.system.flash := rfl
  unfold Bootloader.slotStatus slotReport
  rw [slotPayload_byte, Fallible.pure_bind]
  rw [flashEq] at ran
  cases verdict : blCoreValidateSlot port.layout bench.system.flash slot with
  | ok hdr =>
      rw [verdict] at ran
      have short : (bytes32 hdr.imgSize ++ bytes32 hdr.imgCrc32 ++
          bytes32 hdr.fwVersion).length ≤ blMaxResponseData :=
        Nat.le_add_left 12 8
      refine Ensures.bind_known (transact_answered room fits short ran) ?_
      refine Ensures.pure fun after holds => ⟨?_, holds⟩
      rw [slotInfo_bytes]
  | error result =>
      rw [verdict] at ran
      have failed : result.code ≠ Blproto.ok := by
        intro same
        have isOk : result = .ok := BlResult.code_injective same
        rw [isOk] at verdict
        exact blCoreValidateSlot_error _ _ _ verdict
      refine Ensures.bind_known
        (transact_answered room fits (Nat.zero_le _) ran) ?_
      rw [if_pos failed]
      exact Ensures.pure fun after holds => ⟨rfl, holds⟩

end Queries

end Stm32Bootloader
