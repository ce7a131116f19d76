/-
The host tool that updates a device, class Bootloader of tools/blflash.py.

A port is what one attempt of a transaction sees of the device: it is handed a
request frame and yields what `_read_frame` makes of the bytes that arrive
before the deadline, in order.  The port may also cut the host off.  Python's
integers are unbounded, and its exceptions are the errors of the monad.
-/

import Stm32Bootloader.Library.Fallible
import Stm32Bootloader.Tools.Blimage
import Stm32Bootloader.Tools.Blproto

namespace Stm32Bootloader.Blflash

open Interruptible LittleEndian Fallible Blimage

def defaultRetries : Nat := 3

structure Response where
  cmd : U8
  status : U8
  data : List U8
  attempts : Nat
  deriving DecidableEq, Repr

structure DeviceInfo where
  protoVersion : Nat
  hdrVersion : Nat
  slotCount : Nat
  slotSize : Nat
  writeGranularity : Nat
  eraseGranularity : Nat
  maxWrite : Nat
  activeSlot : Nat
  bootState : Nat
  bootAttempts : Nat
  deriving DecidableEq, Repr

structure SlotInfo where
  imgSize : Nat
  imgCrc32 : Nat
  fwVersion : Nat
  deriving DecidableEq, Repr

/-- Why one attempt of a transaction has failed. -/
inductive AttemptError where
  | timeout
  | oversizedPayload (declared : Nat)
  | malformed (error : Blproto.FrameError)
  | noStatusByte
  deriving DecidableEq, Repr

/-- The exceptions that leave `update`. -/
inductive HostError where
  | noUsableResponse (cmd : U8) (retries : Nat) (last : Option AttemptError)
  | refused (cmd status : U8)
  | helloTooShort (received : Nat)
  | protoVersionMismatch (device : Nat)
  | hdrVersionMismatch (device : Nat)
  | acknowledgedOffset (echoed expected : Nat)
  | verifyTooShort (received : Nat)
  | unusableWriteSize (maxWrite : Nat)
  | noSuchSlot (slot : Int)
  | slotIsActive (slot : Int)
  | checksumDiffers
  | invalidImage (error : ImageError)
  | payloadTooLong (length : Nat)
  | notAByte (slot : Int)
  | offsetOverflow (offset : Nat)
  | divisionByZero
  /-- The chunk loop was still running when its fuel ran out. -/
  | unfinished
  deriving DecidableEq, Repr

abbrev HostM (σ : Type) := ExceptT HostError (Prog σ)

/-- What `_read_frame` returns or raises, the timeout apart. -/
inductive Received where
  | frame (cmd : U8) (payload : List U8)
  | failed (error : AttemptError)
  deriving DecidableEq, Repr

/-- `_read_frame` on the bytes that arrive before the deadline, with the bytes
it leaves.  Without a whole frame it times out. -/
def readFrame (stream : List U8) : Option (Received × List U8) :=
  match stream.dropWhile (· ≠ Blproto.sof) with
  | [] => none
  | start :: rest =>
      if rest.length < 3 then none
      else
        let length := (word16At rest 1).toNat
        if length > Blproto.maxPayload then
          some (.failed (.oversizedPayload length), rest.drop 3)
        else if rest.length < 3 + length + 4 then none
        else
          let received :=
            match Blproto.decodeFrame
                (start :: rest.take (3 + length + 4)) with
            | .ok (cmd, payload) => Received.frame cmd payload
            | .error error => .failed (.malformed error)
          some (received, rest.drop (3 + length + 4))

/-- Every call takes at least one byte off the stream, so its length bounds
the number of calls. -/
def readFrames : Nat → List U8 → List Received
  | 0, _stream => []
  | fuel + 1, stream =>
      match readFrame stream with
      | none => []
      | some (received, rest) => received :: readFrames fuel rest

theorem readFrame_encode {cmd : U8} {payload : List U8} {outSize : Nat}
    {frame : List U8}
    (encoded : blFrameEncode cmd payload outSize = some frame)
    (rest : List U8) :
    readFrame (frame ++ rest) = some (.frame cmd payload, rest) := by
  have decoded := Blproto.decodeFrame_encode encoded
  obtain ⟨fits, _room, rfl⟩ := blFrameEncode_inv encoded
  generalize blCrc32 0 (cmd ::
    (bytes16 (BitVec.ofNat 16 payload.length) ++ payload)) = crc at decoded ⊢
  have length : (word16At (cmd ::
      (bytes16 (BitVec.ofNat 16 payload.length) ++ payload) ++ bytes32 crc ++
        rest) 1).toNat = payload.length := by
    rw [List.cons_append, List.cons_append, List.append_assoc,
      List.append_assoc]
    exact Blproto.encoded_length fits _
  have frameLength : (cmd ::
      (bytes16 (BitVec.ofNat 16 payload.length) ++ payload) ++
        bytes32 crc).length = 3 + payload.length + 4 := by
    rw [List.length_append, List.length_cons, List.length_append,
      bytes16_length, bytes32_length]
    omega
  have notSof : ¬ decide (blSof ≠ Blproto.sof) = true := by decide
  unfold readFrame
  rw [List.cons_append, List.dropWhile_cons, if_neg notSof]
  dsimp only
  rw [length, List.length_append, frameLength, List.take_left' frameLength,
    List.drop_left' frameLength, decoded]
  have bound : payload.length ≤ Blproto.maxPayload := fits
  rw [if_neg (by omega), if_neg (by omega), if_neg (by omega)]

theorem readFrames_encoded {frames : List (List U8)}
    {Meant : U8 → List U8 → Prop}
    (encoded : ∀ frame, frame ∈ frames → ∃ cmd payload outSize,
      blFrameEncode cmd payload outSize = some frame ∧ Meant cmd payload)
    {fuel : Nat} {received : Received}
    (read : received ∈ readFrames fuel frames.flatten) :
    ∃ cmd payload, received = .frame cmd payload ∧ Meant cmd payload := by
  induction frames generalizing fuel with
  | nil =>
      cases fuel with
      | zero => cases read
      | succ fuel => cases read
  | cons frame later ih =>
      obtain ⟨cmd, payload, outSize, whole, meant⟩ :=
        encoded frame List.mem_cons_self
      cases fuel with
      | zero => cases read
      | succ fuel =>
          unfold readFrames at read
          rw [List.flatten_cons, readFrame_encode whole] at read
          rcases List.mem_cons.mp read with rfl | rest
          · exact ⟨cmd, payload, rfl, meant⟩
          · exact ih (fun frame member =>
              encoded frame (List.mem_cons_of_mem _ member)) rest

structure Bootloader (σ : Type) where
  port : BlFrame → Prog σ (List Received)
  retries : Nat

/-! ### Transactions -/

/-- The inner loop of `_transact`, which waits for a frame of this command. -/
def awaitResponse (cmd : U8) :
    List Received → Except AttemptError (List U8)
  | [] => .error .timeout
  | .failed error :: _ => .error error
  | .frame responseCmd data :: later =>
      if responseCmd = cmd then .ok data else awaitResponse cmd later

variable {σ : Type}

/-- The attempts that are left, the number of the next and why the last one
failed. -/
def Bootloader.attempt (loader : Bootloader σ) (request : BlFrame) :
    Nat → Nat → Option AttemptError → HostM σ Response
  | 0, _number, last =>
      throw (.noUsableResponse request.cmd loader.retries last)
  | left + 1, number, _last => do
      let received ← ExceptT.lift (loader.port request)
      match awaitResponse request.cmd received with
      | .ok (status :: data) => pure ⟨request.cmd, status, data, number⟩
      | .ok [] =>
          loader.attempt request left (number + 1) (some .noStatusByte)
      | .error error =>
          loader.attempt request left (number + 1) (some error)

def Bootloader.transact (loader : Bootloader σ) (cmd : U8)
    (payload : List U8) : HostM σ Response :=
  if fits : payload.length ≤ Blproto.maxPayload then
    loader.attempt (BlFrame.ofBytes cmd payload fits) loader.retries 1 none
  else throw (.payloadTooLong payload.length)

def Bootloader.expectOk (loader : Bootloader σ) (cmd : U8)
    (payload : List U8) : HostM σ (List U8) := do
  let response ← loader.transact cmd payload
  if response.status ≠ Blproto.ok then throw (.refused cmd response.status)
  else pure response.data

/-! ### Commands -/

def DeviceInfo.ofBytes (data : List U8) : DeviceInfo :=
  { protoVersion := (data.getD 0 0).toNat
    hdrVersion := (data.getD 1 0).toNat
    slotCount := (data.getD 2 0).toNat
    slotSize := natOfBytes (slice data 3 4)
    writeGranularity := natOfBytes (slice data 7 4)
    eraseGranularity := natOfBytes (slice data 11 4)
    maxWrite := natOfBytes (slice data 15 2)
    activeSlot := (data.getD 17 0).toNat
    bootState := (data.getD 18 0).toNat
    bootAttempts := (data.getD 19 0).toNat }

def SlotInfo.ofBytes (data : List U8) : SlotInfo :=
  { imgSize := natOfBytes (slice data 0 4)
    imgCrc32 := natOfBytes (slice data 4 4)
    fwVersion := natOfBytes (slice data 8 4) }

def Bootloader.hello (loader : Bootloader σ) : HostM σ DeviceInfo := do
  let data ← loader.expectOk Blproto.cmdHello []
  if data.length < 20 then throw (.helloTooShort data.length)
  else
    let info := DeviceInfo.ofBytes data
    if info.protoVersion ≠ Blproto.protoVersion then
      throw (.protoVersionMismatch info.protoVersion)
    else if info.hdrVersion ≠ hdrVersion.toNat then
      throw (.hdrVersionMismatch info.hdrVersion)
    else pure info

/-- `bytes([slot])`. -/
def slotPayload (slot : Int) : HostM σ (List U8) :=
  if 0 ≤ slot ∧ slot < 256 then pure [BitVec.ofInt 8 slot]
  else throw (.notAByte slot)

theorem byte_fits (byte : U8) : [byte].length ≤ Blproto.maxPayload :=
  Nat.le_add_left 1 511

theorem slotPayload_byte (slot : U8) :
    (slotPayload slot.toNat : HostM σ (List U8)) = pure [slot] := by
  have inByte : (0 : Int) ≤ slot.toNat ∧ (slot.toNat : Int) < 256 := by
    have bound := slot.isLt
    omega
  unfold slotPayload
  rw [if_pos inByte, BitVec.ofInt_natCast, BitVec.ofNat_toNat,
    BitVec.setWidth_eq]

def Bootloader.eraseSlot (loader : Bootloader σ) (slot : Int) :
    HostM σ Unit := do
  let payload ← slotPayload slot
  let _data ← loader.expectOk Blproto.cmdEraseSlot payload
  pure ()

/-- A refusal of a retried write may mean that an earlier attempt landed. -/
def Bootloader.write (loader : Bootloader σ) (offset : Nat)
    (data : List U8) : HostM σ Unit :=
  if offset < 2 ^ 32 then do
    let response ← loader.transact Blproto.cmdWrite
      (bytes32 (BitVec.ofNat 32 offset) ++ data)
    if response.status = Blproto.ok then
      let echoed := natOfBytes (response.data.take 4)
      if echoed ≠ offset then throw (.acknowledgedOffset echoed offset)
      else pure ()
    else if response.status = Blproto.errNotErased ∧
        response.attempts > 1 then pure ()
    else throw (.refused Blproto.cmdWrite response.status)
  else throw (.offsetOverflow offset)

def Bootloader.verify (loader : Bootloader σ) (slot : Int) :
    HostM σ SlotInfo := do
  let payload ← slotPayload slot
  let data ← loader.expectOk Blproto.cmdVerify payload
  if data.length < 12 then throw (.verifyTooShort data.length)
  else pure (SlotInfo.ofBytes data)

/-- The image of a slot, or the status that refuses it. -/
def Bootloader.slotStatus (loader : Bootloader σ) (slot : Int) :
    HostM σ (Except U8 SlotInfo) := do
  let payload ← slotPayload slot
  let response ← loader.transact Blproto.cmdVerify payload
  if response.status ≠ Blproto.ok then pure (.error response.status)
  else pure (.ok (SlotInfo.ofBytes response.data))

def Bootloader.setActive (loader : Bootloader σ) (slot : Int) :
    HostM σ Unit := do
  let payload ← slotPayload slot
  let _data ← loader.expectOk Blproto.cmdSetActive payload
  pure ()

/-! ### Orchestration -/

def modulo (left right : Nat) : HostM σ Nat :=
  if right = 0 then throw .divisionByZero else pure (left % right)

def Bootloader.validSlots (loader : Bootloader σ) :
    List Nat → HostM σ (List (Nat × SlotInfo))
  | [] => pure []
  | slot :: later => do
      let status ← loader.slotStatus slot
      let valid ← loader.validSlots later
      match status with
      | .ok info => pure ((slot, info) :: valid)
      | .error _ => pure valid

/-- `min` by `fw_version`, which returns the first of several minima. -/
def lowestVersion (first : Nat × SlotInfo) (later : List (Nat × SlotInfo)) :
    Nat × SlotInfo :=
  later.foldl (fun lowest entry =>
    if entry.2.fwVersion < lowest.2.fwVersion then entry else lowest) first

def Bootloader.chooseTargetSlot (loader : Bootloader σ)
    (info : DeviceInfo) : HostM σ Nat :=
  if info.activeSlot ≠ Blproto.slotNone then
    modulo (info.activeSlot + 1) info.slotCount
  else do
    let valid ← loader.validSlots (List.range info.slotCount)
    match valid with
    | [] => pure Blproto.slotA
    | [(occupied, _)] => modulo (occupied + 1) info.slotCount
    | first :: later => pure (lowestVersion first later).1

/-- The loop over the payload, from `sent` on. -/
def Bootloader.sendChunks (loader : Bootloader σ) (entryOffset : Nat)
    (payload : List U8) (chunkSize : Nat) : Nat → Nat → HostM σ Unit
  | fuel, sent =>
      if sent < payload.length then
        match fuel with
        | 0 => throw .unfinished
        | fuel + 1 => do
            let chunk := slice payload sent chunkSize
            loader.write (entryOffset + sent) chunk
            loader.sendChunks entryOffset payload chunkSize fuel
              (sent + chunk.length)
      else pure ()

/-- What `update` does once it has erased the slot. -/
def Bootloader.install (loader : Bootloader σ) (fuel : Nat)
    (info : DeviceInfo) (header : BlImgHdr) (image : List U8) (slot : Int) :
    HostM σ Int := do
  let payload := image.drop header.entryOffset.toNat
  let chunkSize := min info.maxWrite Blproto.maxWriteData
  let remainder ← modulo chunkSize info.writeGranularity
  if remainder ≠ 0 then throw (.unusableWriteSize info.maxWrite)
  else do
    loader.sendChunks header.entryOffset.toNat payload chunkSize fuel 0
    -- The header is committed last.
    loader.write 0 (image.take hdrStructSize)
    let stored ← loader.verify slot
    if stored.imgCrc32 ≠ header.imgCrc32.toNat then throw .checksumDiffers
    else do
      loader.setActive slot
      pure slot

/-- `update` from its choice of a slot on. -/
def Bootloader.updateSlot (loader : Bootloader σ) (fuel : Nat)
    (info : DeviceInfo) (header : BlImgHdr) (image : List U8) (slot : Int) :
    HostM σ Int :=
  if slot ≥ info.slotCount then throw (.noSuchSlot slot)
  else if slot = info.activeSlot then throw (.slotIsActive slot)
  else do
    loader.eraseSlot slot
    loader.install fuel info header image slot

/-- The chunk loop may take this many turns. -/
def Bootloader.update (loader : Bootloader σ) (fuel : Nat)
    (image : List U8) (slot : Option Int) : HostM σ Int := do
  let info ← loader.hello
  match validate image (some info.slotSize) with
  | .error error => throw (.invalidImage error)
  | .ok header =>
      match slot with
      | some slot => loader.updateSlot fuel info header image slot
      | none => do
          let slot ← loader.chooseTargetSlot info
          loader.updateSlot fuel info header image slot

/-! ### Invariants of the port -/

theorem awaitResponse_mem {cmd : U8} {received : List Received}
    {data : List U8} (found : awaitResponse cmd received = .ok data) :
    .frame cmd data ∈ received := by
  induction received with
  | nil => cases found
  | cons first later ih =>
      cases first with
      | failed error => cases found
      | frame responseCmd payload =>
          unfold awaitResponse at found
          by_cases same : responseCmd = cmd
          · rw [if_pos same] at found
            cases found
            rw [same]
            exact List.mem_cons_self
          · rw [if_neg same] at found
            exact List.mem_cons_of_mem _ (ih found)

section Invariants

variable {loader : Bootloader σ} {invariant : σ → Prop}

/-- An attempt at this request keeps the invariant. -/
def Bootloader.Stable (loader : Bootloader σ) (invariant : σ → Prop)
    (request : BlFrame) : Prop :=
  ∀ state, invariant state → invariant (loader.port request state).state

/-- Besides, this holds whenever a response with the status arrives. -/
def Bootloader.Yields (loader : Bootloader σ) (invariant : σ → Prop)
    (request : BlFrame) (told : U8 → σ → Prop) : Prop :=
  Ensures invariant
    (ExceptT.lift (loader.port request) : HostM σ (List Received))
    (fun received state => invariant state ∧ ∀ status data,
      .frame request.cmd (status :: data) ∈ received → told status state)
    (fun _ => invariant)

theorem Bootloader.Stable.yields {request : BlFrame}
    (stable : loader.Stable invariant request) :
    loader.Yields invariant request fun _ _ => True :=
  (Keeps.lift stable).weaken (fun _ holds => holds)
    (fun _ _ holds => ⟨holds, fun _ _ _ => trivial⟩) (fun _ _ holds => holds)

theorem Bootloader.Yields.weaken {request : BlFrame}
    {told told' : U8 → σ → Prop}
    (yields : loader.Yields invariant request told)
    (weaker : ∀ status state, told status state → told' status state) :
    loader.Yields invariant request told' :=
  Ensures.weaken yields (fun _ holds => holds)
    (fun _ _ holds => ⟨holds.1, fun status data member =>
      weaker _ _ (holds.2 status data member)⟩) (fun _ _ holds => holds)

section Transactions

variable {cmd : U8} {payload : List U8} {told : U8 → σ → Prop}

theorem Bootloader.attempt_yields {request : BlFrame}
    (yields : loader.Yields invariant request told)
    (left number : Nat) (last : Option AttemptError) :
    Ensures invariant (loader.attempt request left number last)
      (fun response state => invariant state ∧ told response.status state)
      (fun _ => invariant) := by
  induction left generalizing number last with
  | zero => exact Ensures.throw fun _ holds => holds
  | succ left ih =>
      refine Ensures.bind yields fun received => ?_
      cases awaited : awaitResponse request.cmd received with
      | error error =>
          exact (ih _ _).weaken (fun _ holds => holds.1)
            (fun _ _ holds => holds) (fun _ _ holds => holds)
      | ok response =>
          cases response with
          | nil =>
              exact (ih _ _).weaken (fun _ holds => holds.1)
                (fun _ _ holds => holds) (fun _ _ holds => holds)
          | cons status data =>
              exact Ensures.pure fun state holds =>
                ⟨holds.1, holds.2 status data (awaitResponse_mem awaited)⟩

theorem Bootloader.transact_yields
    (yields : ∀ fits,
      loader.Yields invariant (BlFrame.ofBytes cmd payload fits) told) :
    Ensures invariant (loader.transact cmd payload)
      (fun response state => invariant state ∧ told response.status state)
      (fun _ => invariant) := by
  unfold transact
  by_cases fits : payload.length ≤ Blproto.maxPayload
  · rw [dif_pos fits]
    exact attempt_yields (yields fits) _ _ _
  · rw [dif_neg fits]
    exact Ensures.throw fun _ holds => holds

theorem Bootloader.expectOk_yields
    (yields : ∀ fits,
      loader.Yields invariant (BlFrame.ofBytes cmd payload fits) told) :
    Ensures invariant (loader.expectOk cmd payload)
      (fun _ state => invariant state ∧ told Blproto.ok state)
      (fun _ => invariant) := by
  refine Ensures.bind (transact_yields yields) fun response => ?_
  split
  · exact Ensures.throw fun _ holds => holds.1
  · rename_i accepted
    rw [Decidable.not_not.mp accepted]
    exact Ensures.pure fun _ holds => holds

variable (stable : ∀ fits,
  loader.Stable invariant (BlFrame.ofBytes cmd payload fits))

include stable

theorem Bootloader.transact_keeps :
    Keeps invariant (loader.transact cmd payload) :=
  (transact_yields fun fits => (stable fits).yields).weaken
    (fun _ holds => holds) (fun _ _ holds => holds.1) (fun _ _ holds => holds)

theorem Bootloader.expectOk_keeps :
    Keeps invariant (loader.expectOk cmd payload) :=
  (expectOk_yields fun fits => (stable fits).yields).weaken
    (fun _ holds => holds) (fun _ _ holds => holds.1) (fun _ _ holds => holds)

end Transactions

theorem slotPayload_keeps (slot : Int) :
    Keeps invariant (slotPayload slot : HostM σ (List U8)) := by
  unfold slotPayload
  split
  · exact Keeps.pure _
  · exact Keeps.throw _

theorem modulo_keeps (left right : Nat) :
    Keeps invariant (modulo left right : HostM σ Nat) := by
  unfold modulo
  split
  · exact Keeps.throw _
  · exact Keeps.pure _

section Slot

variable {slot : Int} {told : U8 → σ → Prop}

theorem Bootloader.expectOk_slot {cmd : U8}
    (yields : ∀ fits, 0 ≤ slot ∧ slot < 256 →
      loader.Yields invariant (BlFrame.ofBytes cmd [BitVec.ofInt 8 slot] fits)
        told) :
    Ensures invariant
      (do
        let payload ← slotPayload slot
        let _data ← loader.expectOk cmd payload
        pure () : HostM σ Unit)
      (fun _ state => invariant state ∧ told Blproto.ok state)
      (fun _ => invariant) := by
  unfold slotPayload
  split
  · rename_i inByte
    rw [Fallible.pure_bind]
    exact Ensures.bind (expectOk_yields fun fits => yields fits inByte)
      fun _data => Ensures.pure fun _ holds => holds
  · rw [throw_bind]
    exact Ensures.throw fun _ holds => holds

theorem Bootloader.eraseSlot_yields
    (yields : ∀ fits, 0 ≤ slot ∧ slot < 256 →
      loader.Yields invariant (BlFrame.ofBytes Blproto.cmdEraseSlot
        [BitVec.ofInt 8 slot] fits) told) :
    Ensures invariant (loader.eraseSlot slot)
      (fun _ state => invariant state ∧ told Blproto.ok state)
      (fun _ => invariant) := by
  unfold eraseSlot
  exact expectOk_slot yields

theorem Bootloader.eraseSlot_keeps
    (stable : ∀ fits, 0 ≤ slot ∧ slot < 256 →
      loader.Stable invariant (BlFrame.ofBytes Blproto.cmdEraseSlot
        [BitVec.ofInt 8 slot] fits)) :
    Keeps invariant (loader.eraseSlot slot) :=
  (eraseSlot_yields fun fits inByte => (stable fits inByte).yields).weaken
    (fun _ holds => holds) (fun _ _ holds => holds.1) (fun _ _ holds => holds)

theorem Bootloader.setActive_yields
    (yields : ∀ fits, 0 ≤ slot ∧ slot < 256 →
      loader.Yields invariant (BlFrame.ofBytes Blproto.cmdSetActive
        [BitVec.ofInt 8 slot] fits) told) :
    Ensures invariant (loader.setActive slot)
      (fun _ state => invariant state ∧ told Blproto.ok state)
      (fun _ => invariant) := by
  unfold setActive
  exact expectOk_slot yields

end Slot

/-! ### Queries -/

/-- No query disturbs the invariant. -/
structure Bootloader.Queries (loader : Bootloader σ)
    (invariant : σ → Prop) : Prop where
  hello : ∀ fits, loader.Stable invariant
    (BlFrame.ofBytes Blproto.cmdHello [] fits)
  verify : ∀ payload fits, loader.Stable invariant
    (BlFrame.ofBytes Blproto.cmdVerify payload fits)

section Queries

variable (queries : loader.Queries invariant)

include queries

theorem Bootloader.Queries.hello_keeps : Keeps invariant loader.hello := by
  refine Keeps.bind (expectOk_keeps queries.hello) fun data => ?_
  split
  · exact Keeps.throw _
  · dsimp only
    split
    · exact Keeps.throw _
    · split
      · exact Keeps.throw _
      · exact Keeps.pure _

theorem Bootloader.Queries.verify_keeps (slot : Int) :
    Keeps invariant (loader.verify slot) := by
  refine Keeps.bind (slotPayload_keeps slot) fun payload => ?_
  refine Keeps.bind (expectOk_keeps (queries.verify payload)) fun data => ?_
  split
  · exact Keeps.throw _
  · exact Keeps.pure _

theorem Bootloader.Queries.slotStatus_keeps (slot : Int) :
    Keeps invariant (loader.slotStatus slot) := by
  refine Keeps.bind (slotPayload_keeps slot) fun payload => ?_
  refine Keeps.bind (transact_keeps (queries.verify payload))
    fun response => ?_
  split
  · exact Keeps.pure _
  · exact Keeps.pure _

theorem Bootloader.Queries.validSlots_keeps (slots : List Nat) :
    Keeps invariant (loader.validSlots slots) := by
  induction slots with
  | nil => exact Keeps.pure _
  | cons slot later ih =>
      refine Keeps.bind (queries.slotStatus_keeps slot) fun status => ?_
      refine Keeps.bind ih fun valid => ?_
      cases status with
      | ok info => exact Keeps.pure _
      | error code => exact Keeps.pure _

theorem Bootloader.Queries.chooseTargetSlot_keeps (info : DeviceInfo) :
    Keeps invariant (loader.chooseTargetSlot info) := by
  unfold Bootloader.chooseTargetSlot
  split
  · exact modulo_keeps _ _
  refine Keeps.bind (queries.validSlots_keeps _) fun valid => ?_
  split
  · exact Keeps.pure _
  · exact modulo_keeps _ _
  · exact Keeps.pure _

end Queries

/-! ### After the erase -/

/-- The requests that install this image keep the invariant. -/
structure Bootloader.Installs (loader : Bootloader σ)
    (invariant : σ → Prop) (header : BlImgHdr) (image : List U8) :
    Prop where
  chunk : ∀ offset data fits, header.entryOffset.toNat ≤ offset →
    offset < 2 ^ 32 → loader.Stable invariant
      (BlFrame.ofBytes Blproto.cmdWrite
        (bytes32 (BitVec.ofNat 32 offset) ++ data) fits)
  header : ∀ fits, loader.Stable invariant
    (BlFrame.ofBytes Blproto.cmdWrite
      (bytes32 (BitVec.ofNat 32 0) ++ image.take hdrStructSize) fits)
  queries : loader.Queries invariant

theorem Bootloader.write_keeps {offset : Nat} {data : List U8}
    (stable : ∀ fits, offset < 2 ^ 32 → loader.Stable invariant
      (BlFrame.ofBytes Blproto.cmdWrite
        (bytes32 (BitVec.ofNat 32 offset) ++ data) fits)) :
    Keeps invariant (loader.write offset data) := by
  unfold write
  split
  · rename_i inWord
    refine Keeps.bind (transact_keeps fun fits => stable fits inWord)
      fun response => ?_
    split
    · dsimp only
      split
      · exact Keeps.throw _
      · exact Keeps.pure _
    · split
      · exact Keeps.pure _
      · exact Keeps.throw _
  · exact Keeps.throw _

section Installs

variable {header : BlImgHdr} {image : List U8}
  (installs : loader.Installs invariant header image)

include installs

theorem Bootloader.Installs.sendChunks_keeps (payload : List U8)
    (chunkSize fuel sent : Nat) :
    Keeps invariant (loader.sendChunks header.entryOffset.toNat payload
      chunkSize fuel sent) := by
  induction fuel generalizing sent with
  | zero =>
      unfold Bootloader.sendChunks
      split
      · exact Keeps.throw _
      · exact Keeps.pure _
  | succ fuel ih =>
      unfold Bootloader.sendChunks
      split
      · exact Keeps.bind (write_keeps fun fits =>
          installs.chunk _ _ fits (Nat.le_add_right _ _)) fun _ => ih _
      · exact Keeps.pure _

/-- What `install` promises beyond the invariant is up to its last request. -/
theorem Bootloader.Installs.contract {slot : Int} {armed : σ → Prop}
    (arms : Ensures invariant (loader.setActive slot)
      (fun _ state => invariant state ∧ armed state) (fun _ => invariant))
    (fuel : Nat) (info : DeviceInfo) :
    Ensures invariant (loader.install fuel info header image slot)
      (fun installed state =>
        installed = slot ∧ invariant state ∧ armed state)
      (fun _ => invariant) := by
  refine Ensures.bind (modulo_keeps _ _) fun remainder => ?_
  split
  · exact Ensures.throw fun _ holds => holds
  refine Ensures.bind (installs.sendChunks_keeps _ _ _ _) fun _ => ?_
  refine Ensures.bind (write_keeps fun fits _ => installs.header fits)
    fun _ => ?_
  refine Ensures.bind (installs.queries.verify_keeps slot) fun stored => ?_
  split
  · exact Ensures.throw fun _ holds => holds
  · exact Ensures.bind arms fun _ => Ensures.pure fun _ holds => ⟨rfl, holds⟩

end Installs

/-- Requests other than an erase keep the invariant. -/
def Bootloader.Passive (loader : Bootloader σ) (invariant : σ → Prop) :
    Prop :=
  ∀ request : BlFrame, request.cmd ≠ blCmdEraseSlot →
    loader.Stable invariant request

theorem Bootloader.Passive.install (passive : loader.Passive invariant)
    (fuel : Nat) (info : DeviceInfo) (header : BlImgHdr) (image : List U8)
    (slot : Int) :
    Keeps invariant (loader.install fuel info header image slot) := by
  have isHello : Blproto.cmdHello ≠ blCmdEraseSlot := by decide
  have isWrite : Blproto.cmdWrite ≠ blCmdEraseSlot := by decide
  have isVerify : Blproto.cmdVerify ≠ blCmdEraseSlot := by decide
  have isSetActive : Blproto.cmdSetActive ≠ blCmdEraseSlot := by decide
  have installs : loader.Installs invariant header image :=
    { chunk := fun _ _ _ _ _ => passive _ isWrite
      header := fun _ => passive _ isWrite
      queries :=
        { hello := fun _ => passive _ isHello
          verify := fun _ _ => passive _ isVerify } }
  have arms := @Bootloader.setActive_yields σ loader invariant slot _
    fun _ _ => (passive _ isSetActive).yields
  exact (installs.contract arms fuel info).weaken (fun _ holds => holds)
    (fun _ _ holds => holds.2.1) (fun _ _ holds => holds)

end Invariants

end Stm32Bootloader.Blflash
