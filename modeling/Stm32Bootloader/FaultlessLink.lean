/-
Requests on a faultless link to a device whose flash works.

Each request of the host is handled once, and its answer is the one that the
state of the device determines.  The state after a request is stated with it,
so that the requests of an update can be chained.
-/

import Stm32Bootloader.InterruptedUpdate
import Stm32Bootloader.Sealed
import Stm32Bootloader.UpdateRequests

namespace Stm32Bootloader

open Interruptible Fallible LittleEndian Blflash

/-! ### A device in service -/

/-- A bench without faults that stays in service for so many requests. -/
def Bench.Ready (count : Nat) (system : System) (bench : Bench) : Prop :=
  bench.system = system ∧ bench.outcomes = [] ∧ count ≤ bench.requests

theorem Bench.Ready.fewer {count fewer : Nat} {system : System}
    {bench : Bench} (ready : bench.Ready count system)
    (less : fewer ≤ count) : bench.Ready fewer system :=
  ⟨ready.1, ready.2.1, Nat.le_trans less ready.2.2⟩

section Answered

variable {port : Port} {responseSize retries count : Nat}
  {system : System}

theorem Ensures.ready {α : Type} {program : HostM Bench α} {after : System}
    {result : α → Prop} (attempts : retries ≠ 0)
    (answered : ∀ bench : Bench, bench.system = system →
      bench.outcomes = [] →
      Ensures (fun before => before = bench) program
        (fun value stopped => result value ∧ ¬ bench.Silent retries ∧
          stopped = bench.handled after)
        (fun _ stopped => stopped = bench ∧ bench.Silent retries)) :
    Ensures (Bench.Ready (count + 1) system) program
      (fun value bench => result value ∧ bench.Ready count after)
      (fun _ _ => False) := by
  refine Ensures.each fun bench ready => ?_
  obtain ⟨same, faultless, enough⟩ := ready
  refine (answered bench same faultless).weaken (fun _ holds => holds) ?_ ?_
  · rintro value stopped ⟨holds, _loud, rfl⟩
    refine ⟨holds, rfl, ?_, Nat.le_sub_of_add_le enough⟩
    change bench.outcomes.tail = []
    rw [faultless]
    rfl
  · rintro reason stopped ⟨_same, silent⟩
    rcases silent with none | cut
    · exact attempts none
    · rw [cut] at enough
      exact absurd enough (Nat.not_succ_le_zero count)

variable (room : blMinResponseSize ≤ responseSize) (attempts : retries ≠ 0)

include room attempts

section Requests

variable {cmd : U8} {payload : List U8}
  (fits : payload.length ≤ Blproto.maxPayload) {data : List U8}
  (short : data.length ≤ blMaxResponseData) {session : BlSession}
  {device : Device}

include short

theorem transact_ready {status : BlResult}
    (ran : blCoreHandleFrame port system.session
        (BlFrame.ofBytes cmd payload fits) responseSize (system.device []) =
      .returned (session, respond cmd status data responseSize) device) :
    Ensures (Bench.Ready (count + 1) system)
      ((hostOf port responseSize retries).transact cmd payload)
      (fun response bench => response = ⟨cmd, status.code, data, 1⟩ ∧
        bench.Ready count ⟨session, device.flash, device.calls⟩)
      (fun _ _ => False) := by
  refine Ensures.ready attempts fun bench same faultless => ?_
  subst same
  refine transact_answered room fits short ?_
  unfold Bench.device
  rw [faultless]
  exact ran

theorem expectOk_ready
    (ran : blCoreHandleFrame port system.session
        (BlFrame.ofBytes cmd payload fits) responseSize (system.device []) =
      .returned (session, respond cmd .ok data responseSize) device) :
    Ensures (Bench.Ready (count + 1) system)
      ((hostOf port responseSize retries).expectOk cmd payload)
      (fun received bench => received = data ∧
        bench.Ready count ⟨session, device.flash, device.calls⟩)
      (fun _ _ => False) := by
  refine Ensures.bind_known
    (transact_ready room attempts fits short ran) ?_
  exact Ensures.pure fun bench ready => ⟨rfl, ready⟩

end Requests

theorem hello_ready :
    Ensures (Bench.Ready (count + 1) system)
      (hostOf port responseSize retries).hello
      (fun info bench => info = deviceInfo port system.flash ∧
        bench.Ready count system)
      (fun _ _ => False) := by
  refine Ensures.ready attempts fun bench same _faultless => ?_
  subst same
  exact hello_answered room bench

theorem slotStatus_ready (slot : U8) :
    Ensures (Bench.Ready (count + 1) system)
      ((hostOf port responseSize retries).slotStatus slot.toNat)
      (fun status bench =>
        status = slotReport port.layout system.flash slot ∧
        bench.Ready count system)
      (fun _ _ => False) := by
  refine Ensures.ready attempts fun bench same _faultless => ?_
  subst same
  exact slotStatus_answered room bench slot

theorem chooseTargetSlot_ready :
    Ensures (Bench.Ready (count + 2) system)
      ((hostOf port responseSize retries).chooseTargetSlot
        (deviceInfo port system.flash))
      (fun chosen bench => (∃ slot, slotIsValid slot = true ∧
        slot.toNat ≠ (metaReport port.layout system.flash).1.toNat ∧
        chosen = slot.toNat) ∧ bench.Ready count system)
      (fun _ _ => False) := by
  cases read : blMetaRead port.layout system.flash with
  | ok record =>
      have activeOk := (blMetaRead_valid read).1
      have inactive : (otherSlot record.activeSlot).toNat ≠
          (metaReport port.layout system.flash).1.toNat := by
        simp only [metaReport, read]
        exact fun same => otherSlot_ne activeOk (BitVec.eq_of_toNat_eq same)
      rw [chooseTargetSlot_nominated read]
      exact Ensures.pure fun bench ready =>
        ⟨⟨_, otherSlot_valid _, inactive, rfl⟩,
          ready.fewer (Nat.le_add_right count 2)⟩
  | error result =>
      have report : (metaReport port.layout system.flash).1.toNat =
          Blproto.slotNone := by
        simp only [metaReport, read]
        rfl
      have targetOk := unnominatedTarget_valid port.layout system.flash
      have inactive : (unnominatedTarget port.layout system.flash).toNat ≠
          Blproto.slotNone := by
        have bound := (slotIsValid_iff _).mp targetOk
        have none_ : Blproto.slotNone = 255 := rfl
        omega
      rw [report]
      have chosen := @chooseTargetSlot_unnominated port responseSize retries
        system.flash _ read (fun count => Bench.Ready count system) _
        (fun _ slot => slotStatus_ready room attempts slot) count
      refine chosen.weaken
        (fun _ holds => holds) ?_ (fun _ _ holds => holds)
      rintro chosen bench ⟨rfl, ready⟩
      exact ⟨⟨_, targetOk, inactive, rfl⟩, ready⟩

theorem eraseSlot_ready {slot : U8} (slotOk : slotIsValid slot = true) :
    Ensures (Bench.Ready (count + 1) system)
      ((hostOf port responseSize retries).eraseSlot slot.toNat)
      (fun _ => Bench.Ready count
        ⟨system.session.eraseSlot slot, erasedFlash port system.flash slot,
          system.calls ++ [eraseCall port slot .success]⟩)
      (fun _ _ => False) := by
  have fits := byte_fits slot
  have erases : (BlFrame.ofBytes Blproto.cmdEraseSlot [slot] fits).Erases
      slot := eraseRequest_erases slot
  have ran := @request_erases port _ slot erases slotOk system responseSize
  unfold Bootloader.eraseSlot
  rw [slotPayload_byte, Fallible.pure_bind]
  refine Ensures.bind_known
    (expectOk_ready room attempts fits (Nat.zero_le _) ran) ?_
  exact Ensures.pure fun _ ready => ready

theorem write_ready {offset : Nat} {data : List U8}
    (fits : data.length ≤ blMaxWriteData) (inWord : offset < 2 ^ 32)
    (admitted : WriteAdmitted port system.session
      (writeRequest (BitVec.ofNat 32 offset) data fits)) :
    let request := writeRequest (BitVec.ofNat 32 offset) data fits
    Ensures (Bench.Ready (count + 1) system)
      ((hostOf port responseSize retries).write offset data)
      (fun _ => Bench.Ready count
        ⟨system.session.advance request.writeOffset request.writeLength,
          (writeCall port system.session request .success).apply port
            system.flash,
          system.calls ++ [writeCall port system.session request .success]⟩)
      (fun _ _ => False) := by
  intro request
  have short : (bytes32 (BitVec.ofNat 32 offset) ++ data).length ≤
      Blproto.maxPayload := by
    simp only [blMaxWriteData, blMaxPayload] at fits
    simp only [List.length_append, bytes32_length, Blproto.maxPayload]
    omega
  have named : request.writeOffset = BitVec.ofNat 32 offset :=
    writeRequest_offset _ _ fits
  have brief : (bytes32 request.writeOffset).length ≤ blMaxResponseData := by
    rw [bytes32_length]
    decide
  have ran := request_admitted admitted responseSize
  have echoed : natOfBytes ((bytes32 request.writeOffset).take 4) =
      offset := by
    rw [named]
    exact natOfBytes_take inWord
  have isOk : BlResult.ok.code = Blproto.ok := rfl
  unfold Bootloader.write
  rw [if_pos inWord]
  refine Ensures.bind_known
    (transact_ready room attempts short brief ran) ?_
  dsimp only
  rw [if_pos isOk, echoed, if_neg (not_not_intro rfl)]
  exact Ensures.pure fun _ ready => ready

theorem verify_ready {slot : U8} {hdr : BlImgHdr}
    (accepted : blCoreValidateSlot port.layout system.flash slot = .ok hdr) :
    Ensures (Bench.Ready (count + 1) system)
      ((hostOf port responseSize retries).verify slot.toNat)
      (fun stored bench => stored =
          ⟨hdr.imgSize.toNat, hdr.imgCrc32.toNat, hdr.fwVersion.toNat⟩ ∧
        bench.Ready count system)
      (fun _ _ => False) := by
  have fits := byte_fits slot
  have named := BlFrame.ofBytes_byte Blproto.cmdVerify slot fits
  have ran := @blCoreHandleFrame_verify port _ slot rfl rfl named
    system.session responseSize (system.device [])
  have flashEq : (system.device []).flash = system.flash := rfl
  rw [flashEq, accepted] at ran
  have short : (bytes32 hdr.imgSize ++ bytes32 hdr.imgCrc32 ++
      bytes32 hdr.fwVersion).length ≤ blMaxResponseData :=
    Nat.le_add_left 12 8
  have long : ¬ (bytes32 hdr.imgSize ++ bytes32 hdr.imgCrc32 ++
      bytes32 hdr.fwVersion).length < 12 := Nat.lt_irrefl 12
  unfold Bootloader.verify
  rw [slotPayload_byte, Fallible.pure_bind]
  refine Ensures.bind_known
    (expectOk_ready room attempts fits short ran) ?_
  rw [if_neg long, slotInfo_bytes]
  exact Ensures.pure fun _ ready => ⟨rfl, ready⟩

theorem setActive_ready {slot : U8} {hdr : BlImgHdr}
    (accepted : blCoreValidateSlot port.layout system.flash slot = .ok hdr) :
    Ensures (Bench.Ready (count + 1) system)
      ((hostOf port responseSize retries).setActive slot.toNat)
      (fun _ bench => bench.system.flash =
        committed port system.flash slot blBootTrial 0)
      (fun _ _ => False) := by
  have fits := byte_fits slot
  have ran := @request_arms port _ slot hdr (setActive_arms slot fits) system
    accepted responseSize
  unfold Bootloader.setActive
  rw [slotPayload_byte, Fallible.pure_bind]
  refine Ensures.bind_known
    (expectOk_ready room attempts fits (Nat.zero_le _) ran) ?_
  refine Ensures.pure fun bench ready => ?_
  rw [ready.1]

end Answered

end Stm32Bootloader
