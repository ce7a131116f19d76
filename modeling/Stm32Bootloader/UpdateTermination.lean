/-
Updates of a device that may report anything in HELLO.

Against a device that acknowledges every request an update is refused before
it has erased a slot, or it writes every byte of the payload once and ends.
The exceptions are the slot counts and the write sizes that the host checks
too late or not at all.
-/

import Stm32Bootloader.Tools.Blflash

namespace Stm32Bootloader

open Interruptible Fallible LittleEndian Blflash

/-! ### A device that acknowledges every request -/

/-- The command and the payload of a request. -/
abbrev Asked := U8 × List U8

/-- What the answers to HELLO carry, and what those carry that are neither to
HELLO nor to WRITE.  The latter may depend on the earlier requests. -/
structure Acknowledger where
  hello : List U8
  others : List Asked → Asked → List U8

/-- An acknowledgement of WRITE carries its offset. -/
def Acknowledger.data (device : Acknowledger) (earlier : List Asked)
    (request : Asked) : List U8 :=
  if request.1 = Blproto.cmdHello then device.hello
  else if request.1 = Blproto.cmdWrite then request.2.take 4
  else device.others earlier request

def Acknowledger.host (device : Acknowledger) (retries : Nat) :
    Bootloader (List Asked) :=
  { port := fun request earlier =>
      let sent := (request.cmd, request.bytes)
      .returned [.frame request.cmd (Blproto.ok :: device.data earlier sent)]
        (earlier ++ [sent])
    retries := retries }

section Acknowledged

variable {device : Acknowledger} {retries : Nat} (attempts : retries ≠ 0)
  {earlier : List Asked}

include attempts

theorem transact_acknowledged {cmd : U8} {payload : List U8}
    (fits : payload.length ≤ Blproto.maxPayload) :
    ((device.host retries).transact cmd payload).run earlier =
      .returned
        (.ok ⟨cmd, Blproto.ok, device.data earlier (cmd, payload), 1⟩)
        (earlier ++ [(cmd, payload)]) := by
  obtain ⟨left, rfl⟩ := Nat.exists_eq_succ_of_ne_zero attempts
  have answered : (device.host (left + 1)).port
      (BlFrame.ofBytes cmd payload fits) earlier =
        .returned [.frame cmd
            (Blproto.ok :: device.data earlier (cmd, payload))]
          (earlier ++ [(cmd, payload)]) := by
    have bytes : (BlFrame.ofBytes cmd payload fits).bytes = payload :=
      BlFrame.ofBytes_bytes cmd payload fits
    simp only [Acknowledger.host, bytes]
    rfl
  have awaited : awaitResponse (BlFrame.ofBytes cmd payload fits).cmd
      [.frame cmd (Blproto.ok :: device.data earlier (cmd, payload))] =
        .ok (Blproto.ok :: device.data earlier (cmd, payload)) := if_pos rfl
  unfold Bootloader.transact
  rw [dif_pos fits]
  change ((device.host (left + 1)).attempt _ (left + 1) 1 none).run _ = _
  unfold Bootloader.attempt
  rw [run_bind_ok (run_lift answered), awaited]
  rfl

theorem expectOk_acknowledged {cmd : U8} {payload : List U8}
    (fits : payload.length ≤ Blproto.maxPayload) :
    ((device.host retries).expectOk cmd payload).run earlier =
      .returned (.ok (device.data earlier (cmd, payload)))
        (earlier ++ [(cmd, payload)]) := by
  unfold Bootloader.expectOk
  rw [run_bind_ok (transact_acknowledged attempts fits),
    if_neg (not_not_intro rfl)]
  rfl

theorem write_echoed {offset : Nat} {data : List U8}
    (inWord : offset < 2 ^ 32) (fits : data.length ≤ 508) :
    ((device.host retries).write offset data).run earlier =
      .returned (.ok ()) (earlier ++ [(Blproto.cmdWrite,
        bytes32 (BitVec.ofNat 32 offset) ++ data)]) := by
  have short : (bytes32 (BitVec.ofNat 32 offset) ++ data).length ≤
      Blproto.maxPayload := by
    simp only [List.length_append, bytes32_length, Blproto.maxPayload]
    omega
  have carried : device.data earlier (Blproto.cmdWrite,
      bytes32 (BitVec.ofNat 32 offset) ++ data) =
        bytes32 (BitVec.ofNat 32 offset) := by
    have notHello : Blproto.cmdWrite ≠ Blproto.cmdHello := by decide
    unfold Acknowledger.data
    rw [if_neg notHello, if_pos rfl, List.take_left' (bytes32_length _)]
  unfold Bootloader.write
  rw [if_pos inWord, run_bind_ok (transact_acknowledged attempts short),
    if_pos rfl, carried, natOfBytes_take inWord,
    if_neg (not_not_intro rfl)]
  rfl

end Acknowledged

theorem hello_accepted {device : Acknowledger} {retries : Nat}
    {info : DeviceInfo} {sent : List Asked}
    (accepted : (device.host retries).hello.run [] =
      .returned (.ok info) sent) :
    retries ≠ 0 ∧ info = DeviceInfo.ofBytes device.hello ∧
      sent = [(Blproto.cmdHello, [])] := by
  by_cases attempts : retries = 0
  · subst attempts
    cases accepted
  have heard := @expectOk_acknowledged device retries attempts []
    Blproto.cmdHello [] (Nat.zero_le _)
  have carried : device.data [] (Blproto.cmdHello, []) = device.hello :=
    if_pos rfl
  unfold Bootloader.hello at accepted
  rw [run_bind_ok heard, carried] at accepted
  refine ⟨attempts, ?_⟩
  split at accepted
  · cases accepted
  · dsimp only at accepted
    split at accepted
    · cases accepted
    · split at accepted
      · cases accepted
      · cases accepted
        exact ⟨rfl, rfl⟩

/-! ### The bytes that are written -/

def placed (offset : Nat) (bytes : List U8) : List (Nat × U8) :=
  bytes.mapIdx fun index byte => (offset + index, byte)

def stores (request : Asked) : List (Nat × U8) :=
  if request.1 = Blproto.cmdWrite then
    placed (word32At request.2 0).toNat (request.2.drop 4)
  else []

theorem placed_append (offset : Nat) (first later : List U8) :
    placed offset (first ++ later) =
      placed offset first ++ placed (offset + first.length) later := by
  unfold placed
  rw [List.mapIdx_append]
  simp only [Nat.add_assoc, Nat.add_comm first.length]

theorem stores_write {offset : Nat} (inWord : offset < 2 ^ 32)
    (data : List U8) :
    stores (Blproto.cmdWrite,
      bytes32 (BitVec.ofNat 32 offset) ++ data) = placed offset data := by
  unfold stores
  rw [if_pos rfl, word32At_bytes32, List.drop_left' (bytes32_length _),
    BitVec.toNat_ofNat, Nat.mod_eq_of_lt inWord]

section Chunks

variable {device : Acknowledger} {retries : Nat} (attempts : retries ≠ 0)
  {payload : List U8} {entryOffset chunkSize : Nat}

include attempts

theorem sendChunks_ends (progress : chunkSize ≠ 0) (fits : chunkSize ≤ 508)
    (inWord : entryOffset + payload.length ≤ 2 ^ 32) {left sent : Nat}
    (bound : payload.length - sent ≤ left) (earlier : List Asked) :
    ∃ writes, writes.flatMap stores =
        placed (entryOffset + sent) (payload.drop sent) ∧
      ∀ fuel, left ≤ fuel →
        ((device.host retries).sendChunks entryOffset payload chunkSize fuel
          sent).run earlier = .returned (.ok ()) (earlier ++ writes) := by
  induction left generalizing sent earlier with
  | zero =>
      have done : ¬ sent < payload.length := by omega
      refine ⟨[], ?_, fun fuel _enough => ?_⟩
      · rw [List.drop_of_length_le (Nat.le_of_not_lt done)]
        rfl
      · unfold Bootloader.sendChunks
        rw [if_neg done, List.append_nil]
        rfl
  | succ left ih =>
      by_cases more : sent < payload.length
      · have chunkLength : (slice payload sent chunkSize).length =
            min chunkSize (payload.length - sent) := by
          rw [slice, List.length_take, List.length_drop]
        obtain ⟨writes, written, ran⟩ := @ih
          (sent + (slice payload sent chunkSize).length)
          (by rw [chunkLength]; omega)
          (earlier ++ [(Blproto.cmdWrite,
            bytes32 (BitVec.ofNat 32 (entryOffset + sent)) ++
              slice payload sent chunkSize)])
        refine ⟨(Blproto.cmdWrite,
          bytes32 (BitVec.ofNat 32 (entryOffset + sent)) ++
            slice payload sent chunkSize) :: writes, ?_, ?_⟩
        · rw [List.flatMap_cons, written, stores_write (by omega),
            ← Nat.add_assoc, ← placed_append, ← List.drop_drop]
          exact congrArg _
            (List.prefix_iff_eq_append.mp (List.take_prefix _ _))
        · intro fuel enough
          cases fuel with
          | zero => exact absurd enough (Nat.not_succ_le_zero left)
          | succ fuel =>
              have wrote := @write_echoed device retries attempts
                earlier (entryOffset + sent) (slice payload sent chunkSize)
                (by omega) (by rw [chunkLength]; omega)
              unfold Bootloader.sendChunks
              rw [if_pos more]
              dsimp only
              rw [run_bind_ok wrote, ran fuel (Nat.le_of_succ_le_succ enough),
                List.append_assoc]
              rfl
      · refine ⟨[], ?_, fun fuel _enough => ?_⟩
        · rw [List.drop_of_length_le (Nat.le_of_not_lt more)]
          rfl
        · unfold Bootloader.sendChunks
          rw [if_neg more, List.append_nil]
          rfl

theorem sendChunks_stalls (inWord : entryOffset + payload.length ≤ 2 ^ 32)
    {sent : Nat} (more : sent < payload.length) (fuel : Nat)
    (earlier : List Asked) :
    ((device.host retries).sendChunks entryOffset payload 0 fuel sent).run
        earlier =
      .returned (.error .unfinished) (earlier ++ List.replicate fuel
        (Blproto.cmdWrite,
          bytes32 (BitVec.ofNat 32 (entryOffset + sent)))) := by
  induction fuel generalizing earlier with
  | zero =>
      unfold Bootloader.sendChunks
      rw [if_pos more, List.replicate_zero, List.append_nil]
      rfl
  | succ fuel ih =>
      have wrote := @write_echoed device retries attempts earlier
        (entryOffset + sent) [] (by omega) (Nat.zero_le _)
      rw [List.append_nil] at wrote
      unfold Bootloader.sendChunks
      rw [if_pos more]
      dsimp only
      rw [slice, List.take_zero, run_bind_ok wrote]
      refine (ih _).trans ?_
      rw [List.append_assoc, List.replicate_succ]
      rfl

end Chunks

/-! ### After the erase -/

/-- The write sizes with which no payload is written. -/
def UnusableWrites (info : DeviceInfo) : Prop :=
  info.writeGranularity = 0 ∨ info.maxWrite = 0 ∨
    min info.maxWrite Blproto.maxWriteData % info.writeGranularity ≠ 0

/-- The chunk loop has ended, and nothing was divided by zero. -/
def Ended (result : Except HostError Int) : Prop :=
  result ≠ .error .unfinished ∧ result ≠ .error .divisionByZero

theorem min_maxWriteData (size : Nat) :
    min size Blproto.maxWriteData ≤ 508 :=
  Nat.le_trans (Nat.min_le_right _ _) (by decide)

section Install

variable {device : Acknowledger} {retries : Nat} (attempts : retries ≠ 0)
  {info : DeviceInfo} {header : BlImgHdr} {image : List U8} {slot : Int}

section Slot

variable (inByte : 0 ≤ slot ∧ slot < 256) {earlier : List Asked}

include attempts inByte

theorem expectOk_slot_acknowledged (cmd : U8) :
    (do
      let payload ← slotPayload slot
      let _data ← (device.host retries).expectOk cmd payload
      pure () : HostM (List Asked) Unit).run earlier =
        .returned (.ok ()) (earlier ++ [(cmd, [BitVec.ofInt 8 slot])]) := by
  unfold slotPayload
  rw [if_pos inByte, Fallible.pure_bind,
    run_bind_ok (expectOk_acknowledged attempts (byte_fits _))]
  rfl

theorem eraseSlot_acknowledged :
    ((device.host retries).eraseSlot slot).run earlier =
      .returned (.ok ()) (earlier ++
        [(Blproto.cmdEraseSlot, [BitVec.ofInt 8 slot])]) := by
  unfold Bootloader.eraseSlot
  exact expectOk_slot_acknowledged attempts inByte Blproto.cmdEraseSlot

theorem setActive_acknowledged :
    ((device.host retries).setActive slot).run earlier =
      .returned (.ok ()) (earlier ++
        [(Blproto.cmdSetActive, [BitVec.ofInt 8 slot])]) := by
  unfold Bootloader.setActive
  exact expectOk_slot_acknowledged attempts inByte Blproto.cmdSetActive

theorem slotStatus_acknowledged :
    ∃ found, ((device.host retries).slotStatus slot).run earlier =
      .returned (.ok (.ok found)) (earlier ++
        [(Blproto.cmdVerify, [BitVec.ofInt 8 slot])]) := by
  unfold Bootloader.slotStatus slotPayload
  rw [if_pos inByte, Fallible.pure_bind,
    run_bind_ok (transact_acknowledged attempts (byte_fits _)),
    if_neg (not_not_intro rfl)]
  exact ⟨_, rfl⟩

/-- The checksum that VERIFY reports may differ, and may be missing. -/
theorem verified_ends (checksum : Nat) :
    ∃ result later, Ended result ∧ later.flatMap stores = [] ∧
      (do
        let stored ← (device.host retries).verify slot
        if stored.imgCrc32 ≠ checksum then throw .checksumDiffers
        else do
          (device.host retries).setActive slot
          pure slot : HostM (List Asked) Int).run earlier =
        .returned result (earlier ++ later) := by
  have heard := @expectOk_acknowledged device retries attempts earlier
    Blproto.cmdVerify [BitVec.ofInt 8 slot] (byte_fits _)
  unfold Bootloader.verify slotPayload
  rw [if_pos inByte, Fallible.pure_bind]
  generalize device.data earlier
    (Blproto.cmdVerify, [BitVec.ofInt 8 slot]) = data at heard
  by_cases short : data.length < 12
  · refine ⟨.error (.verifyTooShort data.length),
      [(Blproto.cmdVerify, [BitVec.ofInt 8 slot])], ⟨nofun, nofun⟩, rfl, ?_⟩
    refine run_bind_error ?_
    rw [run_bind_ok heard, if_pos short]
    rfl
  · have stored : (do
        let data ← (device.host retries).expectOk Blproto.cmdVerify
          [BitVec.ofInt 8 slot]
        if data.length < 12 then throw (.verifyTooShort data.length)
        else pure (SlotInfo.ofBytes data) :
          HostM (List Asked) SlotInfo).run earlier =
        .returned (.ok (SlotInfo.ofBytes data)) (earlier ++
          [(Blproto.cmdVerify, [BitVec.ofInt 8 slot])]) := by
      rw [run_bind_ok heard, if_neg short]
      rfl
    rw [run_bind_ok stored]
    by_cases differs : (SlotInfo.ofBytes data).imgCrc32 ≠ checksum
    · rw [if_pos differs]
      exact ⟨.error .checksumDiffers,
        [(Blproto.cmdVerify, [BitVec.ofInt 8 slot])],
        ⟨nofun, nofun⟩, rfl, rfl⟩
    · rw [if_neg differs,
        run_bind_ok (setActive_acknowledged attempts inByte),
        List.append_assoc]
      exact ⟨.ok slot, _,
        ⟨nofun, nofun⟩, rfl, rfl⟩

end Slot

variable (inWord : header.entryOffset.toNat +
  (image.drop header.entryOffset.toNat).length ≤ 2 ^ 32)

include attempts inWord

theorem install_ends (usable : ¬ UnusableWrites info)
    (inByte : 0 ≤ slot ∧ slot < 256) (earlier : List Asked) :
    ∃ result writes, Ended result ∧
      writes.flatMap stores =
        placed header.entryOffset.toNat
            (image.drop header.entryOffset.toNat) ++
          placed 0 (image.take Blimage.hdrStructSize) ∧
      ∀ fuel, image.length ≤ fuel →
        ((device.host retries).install fuel info header image slot).run
          earlier = .returned result (earlier ++ writes) := by
  unfold UnusableWrites at usable
  simp only [not_or, Decidable.not_not] at usable
  obtain ⟨divisible, positive, whole⟩ := usable
  have size : Blproto.maxWriteData = 504 := rfl
  have brief : (image.take Blimage.hdrStructSize).length ≤ 508 :=
    Nat.le_trans (List.length_take_le _ _) (by decide)
  obtain ⟨chunks, written, sentAll⟩ := @sendChunks_ends device retries
    attempts (image.drop header.entryOffset.toNat)
    header.entryOffset.toNat (min info.maxWrite Blproto.maxWriteData)
    (by omega) (min_maxWriteData _) inWord image.length 0
    (by rw [List.length_drop]; omega) earlier
  have headed := @write_echoed device retries attempts
    (earlier ++ chunks) 0 (image.take Blimage.hdrStructSize) (by decide)
    brief
  obtain ⟨result, later, ended, silent, ran⟩ := @verified_ends device
    retries attempts slot inByte (earlier ++ chunks ++
      [(Blproto.cmdWrite, bytes32 (BitVec.ofNat 32 0) ++
        image.take Blimage.hdrStructSize)]) header.imgCrc32.toNat
  refine ⟨result, chunks ++ [(Blproto.cmdWrite,
    bytes32 (BitVec.ofNat 32 0) ++ image.take Blimage.hdrStructSize)] ++
      later, ended, ?_, fun fuel enough => ?_⟩
  · rw [List.flatMap_append, List.flatMap_append, written, silent,
      List.append_nil, List.flatMap_singleton, stores_write (by decide)]
    rfl
  · unfold Bootloader.install modulo
    dsimp only
    rw [if_neg divisible, Fallible.pure_bind,
      if_neg (not_not_intro whole), run_bind_ok (sentAll fuel enough),
      run_bind_ok headed, ran, List.append_assoc, List.append_assoc,
      List.append_assoc]

theorem install_unusable (unusable : UnusableWrites info)
    (payload : image.drop header.entryOffset.toNat ≠ []) (fuel : Nat)
    (earlier : List Asked) :
    ∃ error sent,
      ((device.host retries).install fuel info header image slot).run
          earlier = .returned (.error error) sent ∧
        earlier <+: sent ∧
        (error = .divisionByZero ∨ error = .unfinished ∨ sent = earlier) := by
  by_cases divisor : info.writeGranularity = 0
  · refine ⟨.divisionByZero, earlier, ?_, List.prefix_rfl, Or.inl rfl⟩
    unfold Bootloader.install modulo
    dsimp only
    rw [if_pos divisor]
    rfl
  by_cases whole : min info.maxWrite Blproto.maxWriteData %
      info.writeGranularity = 0
  · have empty : info.maxWrite = 0 := by
      rcases unusable with zero | empty | ragged
      · exact absurd zero divisor
      · exact empty
      · exact absurd whole ragged
    have stalled := @sendChunks_stalls device retries attempts _ _ inWord 0
      (List.length_pos_iff.mpr payload) fuel earlier
    unfold Bootloader.install modulo
    dsimp only
    rw [if_neg divisor, Fallible.pure_bind, if_neg (not_not_intro whole),
      empty, Nat.zero_min]
    exact ⟨_, _, run_bind_error stalled, List.prefix_append _ _,
      Or.inr (Or.inl rfl)⟩
  · refine ⟨.unusableWriteSize info.maxWrite, earlier, ?_, List.prefix_rfl,
      Or.inr (Or.inr rfl)⟩
    unfold Bootloader.install modulo
    dsimp only
    rw [if_neg divisor, Fallible.pure_bind, if_pos whole]
    rfl

end Install

/-! ### The choice of a slot -/

def Queries (sent : List Asked) : Prop :=
  ∀ request, request ∈ sent → request.1 = Blproto.cmdVerify

theorem lowestVersion_mem (first : Nat × SlotInfo)
    (later : List (Nat × SlotInfo)) :
    lowestVersion first later ∈ first :: later := by
  induction later generalizing first with
  | nil => exact List.mem_cons_self
  | cons entry later ih =>
      have found := ih
        (if entry.2.fwVersion < first.2.fwVersion then entry else first)
      unfold lowestVersion at found ⊢
      rw [List.foldl_cons]
      rcases List.mem_cons.mp found with chosen | later
      · rw [chosen]
        split
        · exact List.mem_cons_of_mem _ List.mem_cons_self
        · exact List.mem_cons_self
      · exact List.mem_cons_of_mem _ (List.mem_cons_of_mem _ later)

theorem next_slot {active count : Nat} (some_ : count ≠ 0) :
    (active + 1) % count < count ∧
      ((active + 1) % count = active ↔ count = 1 ∧ active = 0) := by
  have below := Nat.mod_lt (active + 1) (Nat.pos_of_ne_zero some_)
  refine ⟨below, ?_⟩
  rcases Nat.lt_trichotomy (active + 1) count with less | same | more
  · rw [Nat.mod_eq_of_lt less]
    omega
  · rw [same, Nat.mod_self]
    omega
  · omega

theorem chooseTargetSlot_divided {loader : Bootloader (List Asked)}
    {info : DeviceInfo} (nominated : info.activeSlot ≠
      Blproto.slotNone) (none_ : info.slotCount = 0) (earlier : List Asked) :
    (loader.chooseTargetSlot info).run earlier =
      .returned (.error .divisionByZero) earlier := by
  unfold Bootloader.chooseTargetSlot modulo
  rw [if_pos nominated, if_pos none_]
  rfl

section Choice

variable {device : Acknowledger} {retries : Nat} (attempts : retries ≠ 0)
  {info : DeviceInfo} (bounded : info.slotCount < 256)

include attempts

theorem validSlots_acknowledged {slots : List Nat}
    (inBytes : ∀ slot, slot ∈ slots → slot < 256) (earlier : List Asked) :
    ∃ valid queries, valid.map Prod.fst = slots ∧ Queries queries ∧
      ((device.host retries).validSlots slots).run earlier =
        .returned (.ok valid) (earlier ++ queries) := by
  induction slots generalizing earlier with
  | nil =>
      refine ⟨[], [], rfl, List.forall_mem_nil _, ?_⟩
      rw [List.append_nil]
      rfl
  | cons slot later ih =>
      have inByte : (0 : Int) ≤ slot ∧ (slot : Int) < 256 := by
        have bound := inBytes slot List.mem_cons_self
        omega
      obtain ⟨found, status⟩ := @slotStatus_acknowledged device retries
        attempts slot inByte earlier
      obtain ⟨valid, queries, same, quiet, ran⟩ := ih
        (fun slot member => inBytes slot (List.mem_cons_of_mem _ member))
        (earlier ++ [(Blproto.cmdVerify, [BitVec.ofInt 8 slot])])
      refine ⟨(slot, found) :: valid,
        (Blproto.cmdVerify, [BitVec.ofInt 8 slot]) :: queries,
        congrArg (List.cons slot) same, ?_, ?_⟩
      · intro request member
        rcases List.mem_cons.mp member with rfl | member
        · rfl
        · exact quiet request member
      · unfold Bootloader.validSlots
        rw [run_bind_ok status, run_bind_ok ran, List.append_assoc]
        rfl

include bounded

theorem chooseTargetSlot_chooses
    (undivided : info.activeSlot = Blproto.slotNone ∨ info.slotCount ≠ 0)
    (earlier : List Asked) :
    ∃ chosen queries, Queries queries ∧
      (info.slotCount ≠ 0 → chosen < info.slotCount) ∧
      (info.slotCount ≠ 0 → (chosen = info.activeSlot ↔
        info.slotCount = 1 ∧ info.activeSlot = 0)) ∧
      ((device.host retries).chooseTargetSlot info).run earlier =
        .returned (.ok chosen) (earlier ++ queries) := by
  by_cases nominated : info.activeSlot = Blproto.slotNone
  · have unnamed : ∀ chosen, chosen < info.slotCount →
        (chosen = info.activeSlot ↔
          info.slotCount = 1 ∧ info.activeSlot = 0) := by
      intro chosen below
      have none_ : Blproto.slotNone = 255 := rfl
      omega
    obtain ⟨valid, queries, same, quiet, ran⟩ :=
      @validSlots_acknowledged device retries attempts
        (List.range info.slotCount)
        (fun slot member => Nat.lt_trans (List.mem_range.mp member) bounded)
        earlier
    have listed : ∀ entry, entry ∈ valid → entry.1 < info.slotCount := by
      intro entry member
      rw [← List.mem_range, ← same]
      exact List.mem_map_of_mem member
    have counted : valid.length = info.slotCount := by
      rw [← List.length_map Prod.fst, same, List.length_range]
    unfold Bootloader.chooseTargetSlot
    rw [if_neg (not_not_intro nominated), run_bind_ok ran]
    match valid, counted, listed with
    | [], counted, _listed =>
        exact ⟨Blproto.slotA, queries, quiet,
          fun some_ => absurd counted.symm some_,
          fun some_ => absurd counted.symm some_, rfl⟩
    | [(occupied, found)], counted, _listed =>
        have some_ : info.slotCount ≠ 0 := by
          rw [← counted]
          exact Nat.one_ne_zero
        have below := (@next_slot occupied _ some_).1
        dsimp only
        unfold modulo
        rw [if_neg some_]
        exact ⟨_, queries, quiet, fun _ => below, fun _ => unnamed _ below,
          rfl⟩
    | first :: second :: later, _counted, listed =>
        have below := listed _ (lowestVersion_mem first (second :: later))
        exact ⟨_, queries, quiet, fun _ => below, fun _ => unnamed _ below,
          rfl⟩
  · have some_ := undivided.resolve_left nominated
    obtain ⟨below, active⟩ := @next_slot info.activeSlot _ some_
    refine ⟨_, [], List.forall_mem_nil _, fun _ => below, fun _ => active,
      ?_⟩
    unfold Bootloader.chooseTargetSlot modulo
    rw [if_pos nominated, if_neg some_, List.append_nil]
    rfl

end Choice

/-! ### Whole updates -/

/-- The host reports `BootloaderError` and `ValueError`, and nothing else. -/
def Reported : HostError → Prop
  | .offsetOverflow _ => False
  | .divisionByZero => False
  | .unfinished => False
  | _ => True

/-- The update raises an error before it erases a slot. -/
def RefusedFirst (loader : Bootloader (List Asked)) (image : List U8)
    (slot : Option Int) : Prop :=
  ∃ error sent, Reported error ∧
    (∀ request, request ∈ sent → request.1 ≠ Blproto.cmdEraseSlot) ∧
    ∀ fuel, (loader.update fuel image slot).run [] =
      .returned (.error error) sent

/-- The chunk loop ends.  The bytes written are those of the payload, in order
and at their offsets, and then those of the header. -/
def WritesPayload (loader : Bootloader (List Asked)) (image : List U8)
    (slot : Option Int) : Prop :=
  ∃ enough result sent, Ended result ∧
    (∀ fuel, enough ≤ fuel →
      (loader.update fuel image slot).run [] = .returned result sent) ∧
    let header := BlImgHdr.ofBytes (image.take Blimage.hdrStructSize)
    sent.flatMap stores =
      placed header.entryOffset.toNat
          (image.drop header.entryOffset.toNat) ++
        placed 0 (image.take Blimage.hdrStructSize)

/-- The slot argument leads to an erase. -/
def Selectable (info : DeviceInfo) : Option Int → Prop
  | some slot => 0 ≤ slot ∧ slot < info.slotCount ∧ slot ≠ info.activeSlot
  | none => info.slotCount ≠ 0 ∧
      ¬ (info.slotCount = 1 ∧ info.activeSlot = 0)

/-- The reports of HELLO that the host does not cope with. -/
def Wedges (info : DeviceInfo) (slot : Option Int) : Prop :=
  (slot = none ∧ info.slotCount = 0 ∧
      info.activeSlot ≠ Blproto.slotNone) ∨
    (Selectable info slot ∧ UnusableWrites info)

section Update

variable {device : Acknowledger} {retries : Nat} {info : DeviceInfo}
  {header : BlImgHdr} {image : List U8}

theorem updateSlot_refused {loader : Bootloader (List Asked)} {slot : Int}
    (refused : ¬ (0 ≤ slot ∧ slot < info.slotCount ∧
      slot ≠ info.activeSlot)) (earlier : List Asked) :
    ∃ error, Reported error ∧ ∀ fuel,
      (loader.updateSlot fuel info header image slot).run earlier =
        .returned (.error error) earlier := by
  by_cases beyond : slot ≥ info.slotCount
  · refine ⟨.noSuchSlot slot, trivial, fun fuel => ?_⟩
    unfold Bootloader.updateSlot
    rw [if_pos beyond]
    rfl
  by_cases active : slot = info.activeSlot
  · refine ⟨.slotIsActive slot, trivial, fun fuel => ?_⟩
    unfold Bootloader.updateSlot
    rw [if_neg beyond, if_pos active]
    rfl
  · have negative : ¬ (0 ≤ slot ∧ slot < 256) := by omega
    refine ⟨.notAByte slot, trivial, fun fuel => ?_⟩
    unfold Bootloader.updateSlot Bootloader.eraseSlot slotPayload
    rw [if_neg beyond, if_neg active, if_neg negative, throw_bind,
      throw_bind]
    rfl

variable {sent : List Asked}
  (accepted : (device.host retries).hello.run [] =
    .returned (.ok info) sent)

include accepted

theorem hello_bounds : info.slotCount < 256 ∧ info.slotSize < 2 ^ 32 := by
  obtain ⟨_attempts, rfl, _sent⟩ := hello_accepted accepted
  refine ⟨(device.hello.getD 2 0).isLt, ?_⟩
  refine Nat.lt_of_lt_of_le (natOfBytes_lt _) ?_
  exact Nat.pow_le_pow_right (by decide) (List.length_take_le _ _)

theorem asked_first {queries : List Asked} (quiet : Queries queries) :
    (∀ request, request ∈ sent ++ queries →
      request.1 ≠ Blproto.cmdEraseSlot) ∧
    (sent ++ queries).flatMap stores = [] := by
  obtain ⟨_attempts, _info, rfl⟩ := hello_accepted accepted
  have asks : ∀ request, request ∈ [(Blproto.cmdHello, [])] ++ queries →
      request.1 = Blproto.cmdHello ∨ request.1 = Blproto.cmdVerify := by
    intro request member
    rcases List.mem_cons.mp member with rfl | member
    · exact Or.inl rfl
    · exact Or.inr (quiet request member)
  constructor
  · intro request member
    rcases asks request member with isHello | isVerify
    · rw [isHello]
      decide
    · rw [isVerify]
      decide
  · refine List.flatMap_eq_nil_iff.mpr fun request member => if_neg ?_
    rcases asks request member with isHello | isVerify
    · rw [isHello]
      decide
    · rw [isVerify]
      decide

theorem update_invalid {error : Blimage.ImageError}
    (refused : Blimage.validate image (some info.slotSize) = .error error)
    (slot : Option Int) :
    RefusedFirst (device.host retries) image slot := by
  have asked := asked_first accepted (List.forall_mem_nil _)
  rw [List.append_nil] at asked
  refine ⟨.invalidImage error, sent, trivial, asked.1, fun fuel => ?_⟩
  unfold Bootloader.update
  rw [run_bind_ok accepted, refused]
  rfl

section Valid

variable (valid : Blimage.validate image (some info.slotSize) = .ok header)

include valid

theorem update_named (slot : Int) (fuel : Nat) :
    ((device.host retries).update fuel image (some slot)).run [] =
      ((device.host retries).updateSlot fuel info header image slot).run
        sent := by
  unfold Bootloader.update
  rw [run_bind_ok accepted, valid]

theorem update_unnamed {chosen : Nat} {queries : List Asked}
    (chose : ((device.host retries).chooseTargetSlot info).run sent =
      .returned (.ok chosen) (sent ++ queries)) (fuel : Nat) :
    ((device.host retries).update fuel image none).run [] =
      ((device.host retries).updateSlot fuel info header image chosen).run
        (sent ++ queries) := by
  unfold Bootloader.update
  rw [run_bind_ok accepted, valid]
  exact run_bind_ok chose

theorem update_divided (none_ : info.slotCount = 0)
    (nominated : info.activeSlot ≠ Blproto.slotNone) (fuel : Nat) :
    ((device.host retries).update fuel image none).run [] =
      .returned (.error .divisionByZero) sent := by
  unfold Bootloader.update
  rw [run_bind_ok accepted, valid]
  exact run_bind_error (chooseTargetSlot_divided nominated none_ sent)

theorem update_goesOn {slot : Option Int}
    (undivided : ¬ (slot = none ∧ info.slotCount = 0 ∧
      info.activeSlot ≠ Blproto.slotNone)) :
    ∃ (target : Int) (queries : List Asked), Queries queries ∧
      (Selectable info slot ↔ 0 ≤ target ∧ target < info.slotCount ∧
        target ≠ info.activeSlot) ∧
      ∀ fuel, ((device.host retries).update fuel image slot).run [] =
        ((device.host retries).updateSlot fuel info header image
          target).run (sent ++ queries) := by
  cases slot with
  | some slot =>
      refine ⟨slot, [], List.forall_mem_nil _, Iff.rfl, fun fuel => ?_⟩
      rw [List.append_nil]
      exact update_named accepted valid slot fuel
  | none =>
      have attempts := (hello_accepted accepted).1
      obtain ⟨chosen, queries, quiet, below, active, chose⟩ :=
        chooseTargetSlot_chooses attempts (hello_bounds accepted).1
          (by
            by_cases nominated : info.activeSlot = Blproto.slotNone
            · exact Or.inl nominated
            · exact Or.inr fun none_ => undivided ⟨rfl, none_, nominated⟩)
          sent
      refine ⟨chosen, queries, quiet, ?_,
        update_unnamed accepted valid chose⟩
      unfold Selectable
      by_cases none_ : info.slotCount = 0
      · omega
      · have inside := below none_
        rw [← active none_]
        omega

theorem update_unselectable {slot : Option Int}
    (undivided : ¬ (slot = none ∧ info.slotCount = 0 ∧
      info.activeSlot ≠ Blproto.slotNone))
    (unselectable : ¬ Selectable info slot) :
    RefusedFirst (device.host retries) image slot := by
  obtain ⟨target, queries, quiet, selectable, goesOn⟩ :=
    update_goesOn accepted valid undivided
  rw [selectable] at unselectable
  obtain ⟨error, reported, refused⟩ := @updateSlot_refused info header image
    (device.host retries) target unselectable (sent ++ queries)
  exact ⟨error, sent ++ queries, reported, (asked_first accepted quiet).1,
    fun fuel => (goesOn fuel).trans (refused fuel)⟩

theorem update_erases {slot : Option Int} (selectable : Selectable info slot) :
    ∃ (target : Int) (earlier : List Asked), (0 ≤ target ∧ target < 256) ∧
      (∃ erase, erase ∈ earlier ∧ erase.1 = Blproto.cmdEraseSlot) ∧
      earlier.flatMap stores = [] ∧
      ∀ fuel, ((device.host retries).update fuel image slot).run [] =
        ((device.host retries).install fuel info header image target).run
          earlier := by
  obtain ⟨attempts, _info, _sent⟩ := hello_accepted accepted
  obtain ⟨bounded, _size⟩ := hello_bounds accepted
  have undivided : ¬ (slot = none ∧ info.slotCount = 0 ∧
      info.activeSlot ≠ Blproto.slotNone) := by
    rintro ⟨rfl, none_, _nominated⟩
    exact selectable.1 none_
  obtain ⟨target, queries, quiet, same, goesOn⟩ :=
    update_goesOn accepted valid undivided
  obtain ⟨lower, upper, idle⟩ := same.mp selectable
  have inByte : 0 ≤ target ∧ target < 256 := by omega
  refine ⟨target, sent ++ queries ++
    [(Blproto.cmdEraseSlot, [BitVec.ofInt 8 target])], inByte, ?_, ?_, ?_⟩
  · exact ⟨_, List.mem_append_right _ List.mem_cons_self, rfl⟩
  · rw [List.flatMap_append, (asked_first accepted quiet).2]
    rfl
  · intro fuel
    rw [goesOn fuel]
    unfold Bootloader.updateSlot
    rw [if_neg (by omega), if_neg idle,
      run_bind_ok (eraseSlot_acknowledged attempts inByte)]

theorem valid_inWord : header.entryOffset.toNat +
    (image.drop header.entryOffset.toNat).length ≤ 2 ^ 32 := by
  have image := Blimage.validate_ok valid
  have fits := image.fits _ rfl
  have bound := (hello_bounds accepted).2
  rw [image.payload]
  omega

theorem update_writes {slot : Option Int} (selectable : Selectable info slot)
    (usable : ¬ UnusableWrites info) :
    WritesPayload (device.host retries) image slot := by
  obtain ⟨attempts, _info, _sent⟩ := hello_accepted accepted
  obtain ⟨target, earlier, inByte, _erases, silent, goesOn⟩ :=
    update_erases accepted valid selectable
  obtain ⟨result, writes, ended, written, ran⟩ := install_ends attempts
    (valid_inWord accepted valid) usable inByte earlier
  refine ⟨image.length, result, earlier ++ writes, ended,
    fun fuel enough => (goesOn fuel).trans (ran fuel enough), ?_⟩
  dsimp only
  rw [(Blimage.validate_ok valid).decoded, List.flatMap_append, silent,
    written]
  rfl

theorem wedges_disorderly {slot : Option Int} (wedges : Wedges info slot) :
    ¬ (RefusedFirst (device.host retries) image slot ∨
      WritesPayload (device.host retries) image slot) := by
  rcases wedges with ⟨rfl, none_, nominated⟩ | ⟨selectable, unusable⟩
  · have divided := update_divided accepted valid none_ nominated
    rintro (⟨error, asked, reported, _first, refused⟩ |
      ⟨enough, result, asked, ended, ran, _written⟩)
    · have same := (divided 0).symm.trans (refused 0)
      cases same
      exact reported
    · have same := (divided enough).symm.trans (ran enough (Nat.le_refl _))
      cases same
      exact ended.2 rfl
  · obtain ⟨attempts, _info, _sent⟩ := hello_accepted accepted
    obtain ⟨target, earlier, inByte, ⟨erase, listed, isErase⟩, silent,
      goesOn⟩ := update_erases accepted valid selectable
    have positive := (Blimage.validate_ok valid).payload_positive
    have payload : image.drop header.entryOffset.toNat ≠ [] := by
      rw [← List.length_pos_iff, (Blimage.validate_ok valid).payload]
      exact positive
    have inWord := valid_inWord accepted valid
    rintro (⟨error, asked, _reported, first, refused⟩ |
      ⟨enough, result, asked, ended, ran, written⟩)
    · obtain ⟨error', after, installs, extended, _why⟩ :=
        @install_unusable device retries attempts info header image target
          inWord unusable payload 0 earlier
      have same := ((goesOn 0).trans installs).symm.trans (refused 0)
      cases same
      exact first erase (extended.subset listed) isErase
    · obtain ⟨error', after, installs, _extended, why⟩ :=
        @install_unusable device retries attempts info header image target
          inWord unusable payload enough earlier
      have same := ((goesOn enough).trans installs).symm.trans
        (ran enough (Nat.le_refl _))
      cases same
      rcases why with rfl | rfl | rfl
      · exact ended.2 rfl
      · exact ended.1 rfl
      · rw [silent, (Blimage.validate_ok valid).decoded] at written
        have nothing := (List.append_eq_nil_iff.mp written.symm).1
        exact payload (List.mapIdx_eq_nil_iff.mp nothing)

end Valid

end Update

/-- An update is refused in time or writes its payload, exactly when HELLO
has not reported what the host does not cope with. -/
theorem update_orderly_iff {device : Acknowledger} {retries : Nat}
    {info : DeviceInfo} {sent : List Asked}
    (accepted : (device.host retries).hello.run [] =
      .returned (.ok info) sent) (image : List U8) (slot : Option Int) :
    (RefusedFirst (device.host retries) image slot ∨
        WritesPayload (device.host retries) image slot) ↔
      ¬ ((∃ header,
          Blimage.validate image (some info.slotSize) = .ok header) ∧
        Wedges info slot) := by
  constructor
  · rintro orderly ⟨⟨header, valid⟩, wedges⟩
    exact wedges_disorderly accepted valid wedges orderly
  · intro copes
    cases valid : Blimage.validate image (some info.slotSize) with
    | error error => exact Or.inl (update_invalid accepted valid slot)
    | ok header =>
        have unwedged : ¬ Wedges info slot := fun wedges =>
          copes ⟨⟨header, valid⟩, wedges⟩
        by_cases selectable : Selectable info slot
        · exact Or.inr (update_writes accepted valid selectable
            fun unusable => unwedged (Or.inr ⟨selectable, unusable⟩))
        · exact Or.inl (update_unselectable accepted valid
            (fun divided => unwedged (Or.inl divided)) selectable)

/-- Two slots of 4 KiB, written in units of eight bytes. -/
def reporting (maxWrite : U16) : Acknowledger :=
  { hello := [1, 1, 2] ++ bytes32 4096 ++ bytes32 8 ++ bytes32 2048 ++
      bytes16 maxWrite ++ [0xFF, 0xFF, 0]
    others := fun _ _ => List.replicate 12 0 }

theorem reporting_accepted (maxWrite : U16) :
    ((reporting maxWrite).host defaultRetries).hello.run [] =
      .returned (.ok (DeviceInfo.ofBytes (reporting maxWrite).hello))
        [(Blproto.cmdHello, [])] := rfl

theorem update_orderly_iff_real :
    (RefusedFirst ((reporting 504).host defaultRetries)
          (Blimage.mkimage 1 [0x10, 0x20, 0x30]) none ∨
        WritesPayload ((reporting 504).host defaultRetries)
          (Blimage.mkimage 1 [0x10, 0x20, 0x30]) none) ↔
      ¬ ((∃ header, Blimage.validate (Blimage.mkimage 1 [0x10, 0x20, 0x30])
          (some (DeviceInfo.ofBytes (reporting 504).hello).slotSize) =
            .ok header) ∧
        Wedges (DeviceInfo.ofBytes (reporting 504).hello) none) :=
  update_orderly_iff (reporting_accepted 504) _ none

/-- A device that takes no data is sent empty chunks for ever. -/
theorem reportedNothing_disorderly :
    (∃ info sent, ((reporting 0).host defaultRetries).hello.run [] =
      .returned (.ok info) sent) ∧
    ¬ (RefusedFirst ((reporting 0).host defaultRetries)
          (Blimage.mkimage 1 [0x10, 0x20, 0x30]) none ∨
        WritesPayload ((reporting 0).host defaultRetries)
          (Blimage.mkimage 1 [0x10, 0x20, 0x30]) none) := by
  have accepted := reporting_accepted 0
  refine ⟨⟨_, _, accepted⟩, ?_⟩
  have fits : (Blimage.validate (Blimage.mkimage 1 [0x10, 0x20, 0x30])
      (some (DeviceInfo.ofBytes (reporting 0).hello).slotSize)).isOk =
        true := by
    decide +kernel
  have empty : (DeviceInfo.ofBytes (reporting 0).hello).maxWrite = 0 := rfl
  have two : (DeviceInfo.ofBytes (reporting 0).hello).slotCount = 2 := rfl
  cases valid : Blimage.validate (Blimage.mkimage 1 [0x10, 0x20, 0x30])
      (some (DeviceInfo.ofBytes (reporting 0).hello).slotSize) with
  | error error =>
      rw [valid] at fits
      cases fits
  | ok header =>
      refine wedges_disorderly accepted valid (Or.inr ⟨⟨?_, ?_⟩, ?_⟩)
      · rw [two]
        decide
      · rw [two]
        decide
      · exact Or.inr (Or.inl empty)

end Stm32Bootloader
