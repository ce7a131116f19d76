/-
Updates over a link that loses requests and answers.

A request that is sent again after its answer was lost finds the device as the
earlier attempt has left it.  Queries and the erase may be repeated, a WRITE
that has landed is refused and the refusal is forgiven, and a slot that is
armed again is nominated by a newer record.  If no request is lost as often
as it may be attempted, the update comes to the end it has without losses.
-/

import Stm32Bootloader.FaultlessLink
import Stm32Bootloader.Installation
import Stm32Bootloader.UpdateTermination
import Stm32Bootloader.WriteRetry

namespace Stm32Bootloader

open Interruptible Fallible LittleEndian Memory Blflash LossyLink
  TransitionRun

/-! ### Rounds -/

/-- The attempt is lost, and the flash of the device works. -/
def Delivery.Lost : Delivery → Prop
  | .answered _ => False
  | .answerLost faults => faults = []
  | .requestLost => True

/-- Some attempts are lost, and the next one is answered. -/
def roundEvents (lost : List Delivery) :
    List (List BlEvent × List BlEvent) :=
  (lost ++ [Delivery.answered []]).map Delivery.events

/-- The wire will serve so many transactions, each within the attempts that
the host makes. -/
def Wire.Lossy (retries count : Nat) (holds : System → Prop)
    (wire : Wire) : Prop :=
  ∃ (system : System) (rounds : List (List Delivery)), holds system ∧
    wire.Idle system (rounds.flatMap roundEvents) ∧
    count ≤ rounds.length ∧
    ∀ lost, lost ∈ rounds → lost.length < retries ∧
      ∀ delivery, delivery ∈ lost → delivery.Lost

theorem Delivery.Lost.unanswered {delivery : Delivery}
    (lost : delivery.Lost) : ¬ delivery.Answered := by
  cases delivery with
  | answered faults => exact lost.elim
  | answerLost faults => exact id
  | requestLost => exact id

section Wire

variable {retries count fewer : Nat} {holds weaker : System → Prop}
  {wire : Wire}

theorem Wire.Lossy.weaken (lossy : wire.Lossy retries count holds)
    (less : fewer ≤ count)
    (implies : ∀ system, holds system → weaker system) :
    wire.Lossy retries fewer weaker := by
  obtain ⟨system, rounds, start, idle, enough, losses⟩ := lossy
  exact ⟨system, rounds, implies system start, idle,
    Nat.le_trans less enough, losses⟩

theorem Ensures.eachSystem {α : Type} {program : HostM Wire α}
    {after : α → Wire → Prop} {stopped : Option HostError → Wire → Prop}
    (every : ∀ system, holds system →
      Ensures (Wire.Lossy retries count fun start => start = system) program
        after stopped) :
    Ensures (Wire.Lossy retries count holds) program after stopped := by
  refine Ensures.each ?_
  rintro wire ⟨system, rounds, start, idle, enough, losses⟩
  refine (every system start).weaken ?_ (fun _ _ holds => holds)
    (fun _ _ holds => holds)
  rintro _ rfl
  exact ⟨system, rounds, rfl, idle, enough, losses⟩

end Wire

/-! ### One transaction -/

section Transactions

variable {port : Port} {responseSize retries count : Nat}

/-- The device answers the request like this, and goes on like that. -/
def System.Answers (port : Port) (responseSize : Nat) (system : System)
    (request : BlFrame) (status : BlResult) (data : List U8)
    (after : System) : Prop :=
  data.length ≤ blMaxResponseData ∧
    ∃ session device,
      blCoreHandleFrame port system.session request responseSize
          (system.device []) =
        .returned (session, respond request.cmd status data responseSize)
          device ∧
      after = ⟨session, device.flash, device.calls⟩

/-- Each time that the request is handled the device goes from one of these
kinds of states to the next. -/
def Repeatable (port : Port) (responseSize retries : Nat)
    (request : BlFrame) (states : Nat → System → Prop)
    (result : Response → System → Prop) : Prop :=
  ∀ times, times < retries → ∀ system, states times system →
    ∃ status data after,
      system.Answers port responseSize request status data after ∧
      states (times + 1) after ∧
      ∀ attempts, times < attempts →
        result ⟨request.cmd, status.code, data, attempts⟩ after

variable {request : BlFrame} {states : Nat → System → Prop}
  {result : Response → System → Prop}
  (repeats : Repeatable port responseSize retries request states result)

include repeats

theorem Repeatable.afterLost {lost : List Delivery}
    (losses : ∀ delivery, delivery ∈ lost → delivery.Lost)
    {times : Nat} (enough : times + lost.length < retries) {system : System}
    (start : states times system) :
    ∃ more, more ≤ lost.length ∧
      states (times + more)
        (system.afterLost port responseSize request lost) := by
  induction lost generalizing times system with
  | nil => exact ⟨0, Nat.le_refl _, start⟩
  | cons delivery later ih =>
      rw [List.forall_mem_cons] at losses
      rw [List.length_cons] at enough ⊢
      cases delivery with
      | answered faults => exact losses.1.elim
      | requestLost =>
          obtain ⟨more, bound, reached⟩ := ih losses.2 (by omega) start
          exact ⟨more, by omega, reached⟩
      | answerLost faults =>
          obtain rfl : faults = [] := losses.1
          obtain ⟨_status, _data, after, ⟨_short, session, device, ran,
            ended⟩, next, _told⟩ := repeats times (by omega) system start
          have handled : system.after port responseSize request [] =
              after := by
            rw [ended]
            exact after_handled ran
          obtain ⟨more, bound, reached⟩ := ih losses.2 (by omega) next
          refine ⟨more + 1, by omega, ?_⟩
          unfold System.afterLost
          rw [List.foldl_cons]
          dsimp only
          rw [handled, Nat.add_comm more, ← Nat.add_assoc]
          exact reached

omit repeats in
theorem flatMap_roundEvents (lost : List Delivery)
    (later : List (List Delivery)) :
    (lost :: later).flatMap roundEvents =
      lost.map Delivery.events ++
        (Delivery.answered []).events :: later.flatMap roundEvents := by
  rw [List.flatMap_cons, roundEvents, List.map_append, List.append_assoc]
  rfl

omit repeats in
theorem transact_lossy {cmd : U8} {payload : List U8}
    (room : blMinResponseSize ≤ responseSize)
    (fits : payload.length ≤ Blproto.maxPayload)
    (repeats : Repeatable port responseSize retries
      (BlFrame.ofBytes cmd payload fits) states result) :
    Ensures (Wire.Lossy retries (count + 1) (states 0))
      ((unreliable port responseSize retries).transact cmd payload)
      (fun response wire => wire.Lossy retries count (result response))
      (fun _ _ => False) := by
  unfold Bootloader.transact
  rw [dif_pos fits]
  refine Ensures.each ?_
  rintro wire ⟨system, rounds, start, idle, enough, losses⟩
  cases rounds with
  | nil => exact absurd enough (Nat.not_succ_le_zero count)
  | cons lost later =>
      rw [List.forall_mem_cons] at losses
      obtain ⟨⟨within, silent⟩, losses⟩ := losses
      obtain ⟨times, bound, reached⟩ := repeats.afterLost silent
        (by omega) start
      obtain ⟨status, data, after, ⟨short, session, device, ran, ended⟩,
        _next, told⟩ := repeats (0 + times) (by omega) _ reached
      obtain ⟨bytes, encoded⟩ := respond_encoded cmd status short room
      have handled : System.after port responseSize
          (BlFrame.ofBytes cmd payload fits) _ [] = after :=
        (after_handled ran).trans ended.symm
      obtain ⟨left, attempts⟩ : ∃ left, retries = lost.length + (left + 1) :=
        ⟨retries - lost.length - 1, by omega⟩
      have attempted : (unreliable port responseSize retries).retries =
          lost.length + (left + 1) := attempts
      rw [flatMap_roundEvents] at idle
      rw [attempted]
      refine (attempt_lost (fun delivery member =>
        (silent delivery member).unanswered) fun last => ?_).weaken
        (by rintro _ rfl; exact idle) (fun _ _ holds => holds)
        (fun _ _ impossible => impossible)
      refine Ensures.bind_known (serve_ensures fun wire idle =>
        serve_answered idle (reply_handled ran encoded) encoded) ?_
      rw [awaitResponse_frame]
      refine Ensures.pure fun wire idle => ?_
      rw [handled] at idle
      exact ⟨after, later, told _ (by omega), idle,
        Nat.le_of_succ_le_succ enough, losses⟩

end Transactions

/-! ### Requests -/

section Requests

variable {port : Port} {responseSize retries count : Nat}
  (room : blMinResponseSize ≤ responseSize)

include room

section Queries

variable {system : System} {cmd : U8} {payload data : List U8}
  (fits : payload.length ≤ Blproto.maxPayload)

theorem query_lossy {status : BlResult}
    (answers : system.Answers port responseSize
      (BlFrame.ofBytes cmd payload fits) status data system) :
    Ensures (Wire.Lossy retries (count + 1) fun start => start = system)
      ((unreliable port responseSize retries).transact cmd payload)
      (fun response wire =>
        (response.status = status.code ∧ response.data = data) ∧
        wire.Lossy retries count fun after => after = system)
      (fun _ _ => False) := by
  have repeats : Repeatable port responseSize retries
      (BlFrame.ofBytes cmd payload fits) (fun _ start => start = system)
      fun response after =>
        (response.status = status.code ∧ response.data = data) ∧
          after = system := by
    rintro times _within _ rfl
    exact ⟨status, data, _, answers, rfl, fun _ _ => ⟨⟨rfl, rfl⟩, rfl⟩⟩
  refine (transact_lossy room fits repeats).weaken (fun _ holds => holds)
    ?_ (fun _ _ impossible => impossible)
  intro response wire lossy
  obtain ⟨_system, _rounds, told, _served⟩ := id lossy
  exact ⟨told.1, lossy.weaken (Nat.le_refl _) fun _ holds => holds.2⟩

theorem expectOk_query
    (answers : system.Answers port responseSize
      (BlFrame.ofBytes cmd payload fits) .ok data system) :
    Ensures (Wire.Lossy retries (count + 1) fun start => start = system)
      ((unreliable port responseSize retries).expectOk cmd payload)
      (fun received wire => received = data ∧
        wire.Lossy retries count fun after => after = system)
      (fun _ _ => False) :=
  expectOk_told (query_lossy room fits answers)

end Queries

variable {system : System}

omit room in
theorem hello_answers (fits : ([] : List U8).length ≤ Blproto.maxPayload) :
    system.Answers port responseSize (BlFrame.ofBytes Blproto.cmdHello [] fits)
      .ok (helloData port system.flash) system :=
  ⟨Nat.le_of_eq (helloData_length port system.flash), system.session,
    system.device [], rfl, rfl⟩

theorem hello_lossy :
    Ensures (Wire.Lossy retries (count + 1) fun start => start = system)
      (unreliable port responseSize retries).hello
      (fun info wire => info = deviceInfo port system.flash ∧
        wire.Lossy retries count fun after => after = system)
      (fun _ _ => False) :=
  hello_told (expectOk_query room (Nat.zero_le _) (hello_answers _))

omit room in
theorem verify_answers (slot : U8) :
    ∃ status data,
      system.Answers port responseSize
        (BlFrame.ofBytes Blproto.cmdVerify [slot] (byte_fits slot)) status
        data system ∧
      match blCoreValidateSlot port.layout system.flash slot with
      | .error result => status = result ∧ data = []
      | .ok hdr => status = .ok ∧ data = bytes32 hdr.imgSize ++
          bytes32 hdr.imgCrc32 ++ bytes32 hdr.fwVersion := by
  have named := BlFrame.ofBytes_byte Blproto.cmdVerify slot (byte_fits slot)
  have ran := @blCoreHandleFrame_verify port _ slot rfl rfl named
    system.session responseSize (system.device [])
  have flashEq : (system.device []).flash = system.flash := rfl
  rw [flashEq] at ran
  cases verdict : blCoreValidateSlot port.layout system.flash slot with
  | error result =>
      rw [verdict] at ran
      exact ⟨result, [], ⟨Nat.zero_le _, system.session, system.device [],
        ran, rfl⟩, rfl, rfl⟩
  | ok hdr =>
      rw [verdict] at ran
      have short : (bytes32 hdr.imgSize ++ bytes32 hdr.imgCrc32 ++
          bytes32 hdr.fwVersion).length ≤ blMaxResponseData :=
        Nat.le_add_left 12 8
      exact ⟨.ok, _, ⟨short, system.session, system.device [], ran, rfl⟩,
        rfl, rfl⟩

theorem slotStatus_lossy (slot : U8) :
    Ensures (Wire.Lossy retries (count + 1) fun start => start = system)
      ((unreliable port responseSize retries).slotStatus slot.toNat)
      (fun _ wire => wire.Lossy retries count fun after => after = system)
      (fun _ _ => False) := by
  obtain ⟨status, data, answers, _verdict⟩ := @verify_answers port
    responseSize system slot
  unfold Bootloader.slotStatus
  rw [slotPayload_byte, Fallible.pure_bind]
  refine Ensures.bind (query_lossy room (byte_fits slot) answers)
    fun response => ?_
  split
  · exact Ensures.pure fun _ holds => holds.2
  · exact Ensures.pure fun _ holds => holds.2

theorem verify_lossy {slot : U8} {hdr : BlImgHdr}
    (accepted : blCoreValidateSlot port.layout system.flash slot = .ok hdr) :
    Ensures (Wire.Lossy retries (count + 1) fun start => start = system)
      ((unreliable port responseSize retries).verify slot.toNat)
      (fun stored wire => stored =
          ⟨hdr.imgSize.toNat, hdr.imgCrc32.toNat, hdr.fwVersion.toNat⟩ ∧
        wire.Lossy retries count fun after => after = system)
      (fun _ _ => False) := by
  obtain ⟨status, data, answers, verdict⟩ := @verify_answers port
    responseSize system slot
  rw [accepted] at verdict
  obtain ⟨rfl, rfl⟩ := verdict
  have long : ¬ (bytes32 hdr.imgSize ++ bytes32 hdr.imgCrc32 ++
      bytes32 hdr.fwVersion).length < 12 := Nat.lt_irrefl 12
  unfold Bootloader.verify
  rw [slotPayload_byte, Fallible.pure_bind]
  refine Ensures.bind_known
    (expectOk_query room (byte_fits slot) answers) ?_
  rw [if_neg long, slotInfo_bytes]
  exact Ensures.pure fun _ lossy => ⟨rfl, lossy⟩

section Changes

variable {slot : U8} {flash : Flash} {header : BlImgHdr} {image : List U8}

omit room in
theorem erasedFlash_erased (port : Port) (flash : Flash) (slot : U8) :
    erasedFlash port (erasedFlash port flash slot) slot =
      erasedFlash port flash slot :=
  fill_fill _ _ _ _

theorem expectOk_lossy {cmd : U8} {payload : List U8}
    (fits : payload.length ≤ Blproto.maxPayload)
    {states : Nat → System → Prop} {reached : System → Prop}
    (repeats : Repeatable port responseSize retries
      (BlFrame.ofBytes cmd payload fits) states fun response after =>
        response.status = Blproto.ok ∧ reached after) :
    Ensures (Wire.Lossy retries (count + 1) (states 0))
      ((unreliable port responseSize retries).expectOk cmd payload)
      (fun _ wire => wire.Lossy retries count reached)
      (fun _ _ => False) := by
  refine Ensures.bind (transact_lossy room fits repeats) fun response =>
    Ensures.each ?_
  intro wire lossy
  obtain ⟨_system, _rounds, ⟨isOk, _reached⟩, _served⟩ := id lossy
  rw [isOk, if_neg (not_not_intro rfl)]
  refine Ensures.pure ?_
  rintro _ rfl
  exact lossy.weaken (Nat.le_refl _) fun _ holds => holds.2

theorem eraseSlot_lossy (slotOk : slotIsValid slot = true) :
    Ensures (Wire.Lossy retries (count + 1) fun start => start.flash = flash)
      ((unreliable port responseSize retries).eraseSlot slot.toNat)
      (fun _ wire => wire.Lossy retries count
        (Filling port flash slot header image 0))
      (fun _ _ => False) := by
  have fits := byte_fits slot
  have erases : (BlFrame.ofBytes Blproto.cmdEraseSlot [slot] fits).Erases
      slot := eraseRequest_erases slot
  have repeats : Repeatable port responseSize retries
      (BlFrame.ofBytes Blproto.cmdEraseSlot [slot] fits)
      (fun _ start => erasedFlash port start.flash slot =
        erasedFlash port flash slot)
      fun response after => response.status = Blproto.ok ∧
        Filling port flash slot header image 0 after := by
    intro times _within start same
    have ran := @request_erases port _ slot erases slotOk start responseSize
    have ended : (eraseCall port slot .success).apply port start.flash =
        erasedFlash port flash slot := same
    refine ⟨.ok, [], _, ⟨Nat.zero_le _, _, _, ran, rfl⟩, ?_, fun _ _ =>
      ⟨rfl, ?_⟩⟩
    · dsimp only
      rw [ended, erasedFlash_erased]
    · dsimp only
      rw [ended]
      exact erased_filling _ _
  unfold Bootloader.eraseSlot
  rw [slotPayload_byte, Fallible.pure_bind]
  refine Ensures.bind ((expectOk_lossy room fits repeats).weaken ?_
    (fun _ _ holds => holds) (fun _ _ impossible => impossible))
    fun _ => Ensures.pure fun _ holds => holds
  intro wire lossy
  exact lossy.weaken (Nat.le_refl _) fun _ same => by rw [same]

omit room in
/-- A WRITE that has landed is refused from then on. -/
theorem landed_refused {request : BlFrame} {calls : List PortCall}
    (admitted : WriteAdmitted port system.session request) :
    System.Answers port responseSize
      ⟨system.session.advance request.writeOffset request.writeLength,
        flash, calls⟩ request .errNotErased []
      ⟨system.session.advance request.writeOffset request.writeLength,
        flash, calls⟩ := by
  have refused := BlSession.advance_notErased admitted
  have sent : 5 ≤ request.len.toNat := admitted.nonempty
  obtain ⟨status, _failed, cause, ran⟩ := @write_unadmitted port responseSize
    request _ admitted.isWrite (by omega) refused.unadmitted
  obtain rfl := cause.mpr refused
  exact ⟨Nat.zero_le _, _, _, ran _, rfl⟩

/-- A WRITE that the device admits lands, and if it is sent again the host
takes the refusal for that. -/
theorem write_lossy {offset : Nat} {data : List U8}
    (fits : data.length ≤ blMaxWriteData) (inWord : offset < 2 ^ 32)
    (admitted : WriteAdmitted port system.session
      (writeRequest (BitVec.ofNat 32 offset) data fits)) :
    let request := writeRequest (BitVec.ofNat 32 offset) data fits
    Ensures (Wire.Lossy retries (count + 1) fun start => start = system)
      ((unreliable port responseSize retries).write offset data)
      (fun _ wire => wire.Lossy retries count fun after => after =
        ⟨system.session.advance request.writeOffset request.writeLength,
          (writeCall port system.session request .success).apply port
            system.flash,
          system.calls ++
            [writeCall port system.session request .success]⟩)
      (fun _ _ => False) := by
  intro request
  generalize writtenEq : System.mk
    (system.session.advance request.writeOffset request.writeLength)
    ((writeCall port system.session request .success).apply port
      system.flash)
    (system.calls ++ [writeCall port system.session request .success]) =
      written
  have short : (bytes32 (BitVec.ofNat 32 offset) ++ data).length ≤
      Blproto.maxPayload := by
    simp only [blMaxWriteData, blMaxPayload] at fits
    simp only [List.length_append, bytes32_length, Blproto.maxPayload]
    omega
  have named : request.writeOffset = BitVec.ofNat 32 offset :=
    writeRequest_offset _ _ fits
  have repeats : Repeatable port responseSize retries request
      (fun times start => start = if times = 0 then system else written)
      fun response after => (response.status = Blproto.ok ∧
          natOfBytes (response.data.take 4) = offset ∨
        response.status = Blproto.errNotErased ∧ response.attempts > 1) ∧
          after = written := by
    rintro times _within _ rfl
    by_cases first : times = 0
    · have brief : (bytes32 request.writeOffset).length ≤
          blMaxResponseData := by
        rw [bytes32_length]
        decide
      have echoed : natOfBytes ((bytes32 request.writeOffset).take 4) =
          offset := by
        rw [named]
        exact natOfBytes_take inWord
      rw [if_pos first]
      exact ⟨.ok, _, written, ⟨brief, _, _,
        request_admitted admitted responseSize, writtenEq.symm⟩, rfl,
        fun _ _ => ⟨Or.inl ⟨rfl, echoed⟩, rfl⟩⟩
    · have refused := @landed_refused port responseSize system
        ((writeCall port system.session request .success).apply port
          system.flash) request
        (system.calls ++ [writeCall port system.session request .success])
        admitted
      rw [writtenEq] at refused
      rw [if_neg first]
      exact ⟨.errNotErased, [], written, refused, rfl, fun _ later =>
        ⟨Or.inr ⟨rfl, Nat.lt_of_le_of_lt (Nat.pos_of_ne_zero first) later⟩,
          rfl⟩⟩
  unfold Bootloader.write
  rw [if_pos inWord]
  refine Ensures.bind (transact_lossy room short repeats) fun response =>
    Ensures.each ?_
  intro wire lossy
  have done : Ensures (fun start => start = wire)
      (pure () : HostM Wire Unit)
      (fun _ wire => wire.Lossy retries count fun after => after = written)
      (fun _ _ => False) := by
    refine Ensures.pure ?_
    rintro _ rfl
    exact lossy.weaken (Nat.le_refl _) fun _ holds => holds.2
  obtain ⟨_system, _rounds, ⟨told, _same⟩, _served⟩ := id lossy
  rcases told with ⟨isOk, echoed⟩ | ⟨notErased, retried⟩
  · rw [if_pos isOk]
    dsimp only
    rw [echoed, if_neg (not_not_intro rfl)]
    exact done
  · have notOk : ¬ Blproto.errNotErased = Blproto.ok := by decide
    rw [notErased, if_neg notOk, if_pos ⟨rfl, retried⟩]
    exact done

/-- The slot holds what it held at the end of the installation, and so many
sequence numbers are left. -/
structure Armable (port : Port) (slot : U8) (flash : Flash) (left : Nat)
    (system : System) : Prop where
  kept : slotBytes port.layout system.flash slot =
    slotBytes port.layout flash slot
  unexhausted : ∀ held, blMetaRead port.layout system.flash = .ok held →
    held.seq.toNat + left < 2 ^ 32

/-- The slot is on its first trial. -/
def Nominated (port : Port) (slot : U8) (flash : Flash) : Prop :=
  ∃ record, blMetaRead port.layout flash = .ok record ∧
    record.activeSlot = slot ∧ record.state = blBootTrial ∧
    record.bootAttempts = 0

omit room in
/-- Each time that a slot is armed takes one of the sequence numbers. -/
theorem Armable.committed {left : Nat}
    (armable : Armable port slot flash (left + 1) system)
    (few : left + 1 < 2 ^ 32) (slotOk : slotIsValid slot = true)
    (calls : List PortCall) :
    Armable port slot flash left
        ⟨system.session, committed port system.flash slot blBootTrial 0,
          calls⟩ ∧
      Nominated port slot (committed port system.flash slot blBootTrial 0) := by
  have commit : CommitCalls port system.flash slot blBootTrial 0 _ :=
    .written .success
  have read := @committed_read port system.flash slot blBootTrial 0 slotOk
    rfl fun held found => by
      have below := armable.unexhausted held found
      intro last
      rw [last] at below
      have top : (0xFFFFFFFF : U32).toNat = 2 ^ 32 - 1 := rfl
      omega
  refine ⟨⟨(commit.slotBytes slotOk).trans armable.kept, ?_⟩,
    _, read, rfl, rfl, rfl⟩
  intro held found
  cases read.symm.trans found
  rw [commitRecord_seq, commitPlan_eq]
  cases newest : PingPong.newest metaRank
      (metaCells port.layout system.flash) with
  | none =>
      have one : (1 : U32).toNat = 1 := rfl
      dsimp only
      omega
  | some entry =>
      obtain ⟨record, index⟩ := entry
      have below := armable.unexhausted record
        (blMetaRead_ok_iff.mpr ⟨index, newest⟩)
      dsimp only
      bv_omega

theorem setActive_lossy {hdr : BlImgHdr} (few : retries < 2 ^ 32)
    (accepted : blCoreValidateSlot port.layout flash slot = .ok hdr) :
    Ensures (Wire.Lossy retries (count + 1)
        (Armable port slot flash retries))
      ((unreliable port responseSize retries).setActive slot.toNat)
      (fun _ wire => wire.Lossy retries count fun after =>
        slotBytes port.layout after.flash slot =
            slotBytes port.layout flash slot ∧
          Nominated port slot after.flash)
      (fun _ _ => False) := by
  have fits := byte_fits slot
  have slotOk := blCoreValidateSlot_valid accepted
  have repeats : Repeatable port responseSize retries
      (BlFrame.ofBytes Blproto.cmdSetActive [slot] fits)
      (fun times => Armable port slot flash (retries - times))
      fun response after => response.status = Blproto.ok ∧
        slotBytes port.layout after.flash slot =
            slotBytes port.layout flash slot ∧
          Nominated port slot after.flash := by
    intro times within start armable
    have valid := (blCoreValidateSlot_congr port armable.kept).trans accepted
    have ran := @request_arms port _ slot hdr (setActive_arms slot fits) start
      valid responseSize
    obtain ⟨left, leftEq⟩ : ∃ left, retries - times = left + 1 :=
      ⟨retries - times - 1, by omega⟩
    have leftNow : retries - (times + 1) = left := by omega
    rw [leftEq] at armable
    obtain ⟨again, nominated⟩ := armable.committed (by omega) slotOk _
    rw [← leftNow] at again
    exact ⟨.ok, [], _, ⟨Nat.zero_le _, _, _, ran, rfl⟩, again,
      fun _ _ => ⟨rfl, again.kept, nominated⟩⟩
  unfold Bootloader.setActive
  rw [slotPayload_byte, Fallible.pure_bind]
  exact Ensures.bind (expectOk_lossy room fits repeats) fun _ =>
    Ensures.pure fun _ holds => holds

end Changes

end Requests

/-! ### Installing the image -/

section Install

variable {port : Port} {flash : Flash} {slot : U8} {image : List U8}
  {slotSize : Option Nat} {header : BlImgHdr} {responseSize retries : Nat}
  (accepted : Blimage.Accepted image slotSize header)
  (slotOk : slotIsValid slot = true)
  (fits : header.entryOffset.toNat + header.imgSize.toNat ≤
    (port.layout.slot slot).size.toNat)
  (room : blMinResponseSize ≤ responseSize)

include accepted slotOk fits room

theorem sendChunks_lossy (count fuel sent : Nat)
    (enough : header.imgSize.toNat ≤ sent + fuel) (whole : sent % 8 = 0)
    (within : sent ≤ header.imgSize.toNat) :
    Ensures
      (Wire.Lossy retries (count + (header.imgSize.toNat - sent))
        (Filling port flash slot header image sent))
      ((unreliable port responseSize retries).sendChunks
        header.entryOffset.toNat (image.drop header.entryOffset.toNat)
        blMaxWriteData fuel sent)
      (fun _ wire => wire.Lossy retries count
        (Filling port flash slot header image header.imgSize.toNat))
      (fun _ _ => False) := by
  have payload := accepted.payload
  have aligned : header.imgSize.toNat % 8 = 0 := accepted.aligned
  have slotFits := port.slotFits slot slotOk
  have chunkSize : blMaxWriteData = 504 := rfl
  have finished : ∀ sent, sent = header.imgSize.toNat →
      Ensures
        (Wire.Lossy retries (count + (header.imgSize.toNat - sent))
          (Filling port flash slot header image sent))
        (pure () : HostM Wire Unit)
        (fun _ wire => wire.Lossy retries count
          (Filling port flash slot header image header.imgSize.toNat))
        (fun _ _ => False) := by
    rintro sent rfl
    exact Ensures.pure fun _ lossy =>
      lossy.weaken (Nat.le_add_right _ _) fun _ holds => holds
  induction fuel generalizing sent with
  | zero =>
      unfold Bootloader.sendChunks
      rw [payload, if_neg (by omega)]
      exact finished sent (by omega)
  | succ fuel ih =>
      unfold Bootloader.sendChunks
      rw [payload]
      by_cases more : sent < header.imgSize.toNat
      swap
      · rw [if_neg more]
        exact finished sent (by omega)
      rw [if_pos more]
      generalize chunkEq : slice (image.drop header.entryOffset.toNat) sent
        blMaxWriteData = chunk
      have length : chunk.length =
          min 504 (header.imgSize.toNat - sent) := by
        rw [← chunkEq, slice, List.length_take, List.length_drop, payload,
          chunkSize]
      have short : chunk.length ≤ blMaxWriteData := by omega
      have next : chunk = ((image.drop header.entryOffset.toNat).drop
          sent).take chunk.length := by
        have left : ((image.drop header.entryOffset.toNat).drop
            sent).length = header.imgSize.toNat - sent := by
          rw [List.length_drop, payload]
        rw [length, ← chunkEq, slice, chunkSize, ← left,
          ← List.take_eq_take_min]
      have rest := ih (sent + chunk.length) (by omega) (by omega) (by omega)
      refine Ensures.bind (Ensures.eachSystem fun system filling => ?_)
        fun _ => rest
      have admitted := filling.admitted accepted slotOk fits short
        (by omega) (by omega) whole (by omega)
      have wrote := @write_lossy port responseSize retries
        (count + (header.imgSize.toNat - (sent + chunk.length))) room system
        _ chunk short (by omega) admitted
      refine wrote.weaken (fun _ lossy => lossy.weaken (by omega)
        fun _ holds => holds) ?_ (fun _ _ impossible => impossible)
      intro _ wire lossy
      refine lossy.weaken (Nat.le_refl _) ?_
      rintro _ rfl
      exact filling.chunk accepted slotOk fits short (by omega) (by omega)
        whole (by omega) _ next

theorem header_lossy (count : Nat) :
    Ensures
      (Wire.Lossy retries (count + 1)
        (Filling port flash slot header image header.imgSize.toNat))
      ((unreliable port responseSize retries).write 0
        (image.take Blimage.hdrStructSize))
      (fun _ wire => wire.Lossy retries count fun after =>
        after.flash = imageFlash port flash slot header image)
      (fun _ _ => False) := by
  have whole := accepted.header_length
  have behind := accepted.behind
  have chunkSize : blMaxWriteData = 504 := rfl
  have short : (image.take Blimage.hdrStructSize).length ≤
      blMaxWriteData := by
    omega
  have first : BitVec.ofNat 32 0 = (0 : U32) := rfl
  have zero : (BitVec.ofNat 32 0).toNat = 0 := rfl
  refine Ensures.eachSystem fun system filling => ?_
  have admitted : WriteAdmitted port system.session
      (writeRequest (BitVec.ofNat 32 0) (image.take Blimage.hdrStructSize)
        short) := by
    refine writeRequest_admitted short (by omega) filling.erased
      (Nat.zero_mod 8) (by omega) ?_ ?_
    · rw [if_pos first]
      exact filling.unwritten
    · rw [filling.target]
      omega
  have wrote := @write_lossy port responseSize retries count room system 0 _
    short (by omega) admitted
  refine wrote.weaken (fun _ holds => holds) ?_
    (fun _ _ impossible => impossible)
  intro _ wire lossy
  refine lossy.weaken (Nat.le_refl _) ?_
  rintro _ rfl
  have complete : (image.drop header.entryOffset.toNat).take
      header.imgSize.toNat = image.drop header.entryOffset.toNat :=
    List.take_of_length_le (Nat.le_of_eq accepted.payload)
  dsimp only
  rw [writeCall_apply admitted (by rw [filling.target]; exact slotOk),
    filling.target, writeRequest_offset, writeRequest_data, zero,
    filling.flashEq, complete, Nat.add_zero]
  rfl

theorem install_lossy (count fuel : Nat)
    (enough : header.imgSize.toNat ≤ fuel) (before : Flash)
    (few : retries < 2 ^ 32)
    (unexhausted : ∀ held, blMetaRead port.layout flash = .ok held →
      held.seq.toNat + retries < 2 ^ 32) :
    Ensures
      (Wire.Lossy retries (count + 3 + header.imgSize.toNat)
        (Filling port flash slot header image 0))
      ((unreliable port responseSize retries).install fuel
        (deviceInfo port before) header image slot.toNat)
      (fun installed wire => installed = slot.toNat ∧
        wire.Lossy retries count fun after =>
          slotBytes port.layout after.flash slot =
              slotBytes port.layout
                (imageFlash port flash slot header image) slot ∧
            Nominated port slot after.flash)
      (fun _ _ => False) := by
  have chunkSize : min (deviceInfo port before).maxWrite
      Blproto.maxWriteData = blMaxWriteData := rfl
  have granularity : (deviceInfo port before).writeGranularity = 8 :=
    congrArg BitVec.toNat port.granule
  have whole : (modulo blMaxWriteData 8 : HostM Wire Nat) = pure 0 := rfl
  have valid := @imageFlash_valid port slot image slotSize header accepted
    flash fits slotOk
  have outside := @imageFlash_agreesOutside port slot image slotSize header
    accepted flash fits
  have unread := blMetaRead_outside slotOk outside
  unfold Bootloader.install
  dsimp only
  rw [chunkSize, granularity, whole, Fallible.pure_bind,
    if_neg (not_not_intro rfl)]
  refine Ensures.bind (sendChunks_lossy accepted slotOk fits room
    (count + 3) fuel 0 (by omega) (Nat.zero_mod 8) (Nat.zero_le _))
    fun _ => ?_
  refine Ensures.bind (header_lossy accepted slotOk fits room (count + 2))
    fun _ => ?_
  refine Ensures.eachSystem fun system flashEq => ?_
  refine Ensures.bind_known (verify_lossy room (by rw [flashEq]; exact valid))
    ?_
  rw [if_neg (not_not_intro rfl)]
  refine Ensures.bind ((setActive_lossy room few valid).weaken ?_
    (fun _ _ holds => holds) (fun _ _ impossible => impossible)) fun _ =>
      Ensures.pure fun _ lossy => ⟨rfl, lossy⟩
  intro wire lossy
  refine lossy.weaken (Nat.le_refl _) ?_
  rintro _ rfl
  rw [← flashEq] at unread ⊢
  exact ⟨rfl, fun held read => unexhausted held (unread.symm.trans read)⟩

end Install

/-! ### The whole update -/

section Choice

variable {port : Port} {responseSize retries : Nat}
  (room : blMinResponseSize ≤ responseSize) {system : System}

include room

theorem validSlots_lossy (count : Nat) (slots : List U8) :
    Ensures
      (Wire.Lossy retries (count + slots.length) fun start => start = system)
      ((unreliable port responseSize retries).validSlots
        (slots.map BitVec.toNat))
      (fun valid wire =>
        (∀ entry, entry ∈ valid → entry.1 ∈ slots.map BitVec.toNat) ∧
        wire.Lossy retries count fun after => after = system)
      (fun _ _ => False) := by
  induction slots with
  | nil =>
      rw [List.map_nil, Bootloader.validSlots]
      exact Ensures.pure fun _ lossy => ⟨List.forall_mem_nil _, lossy⟩
  | cons slot later ih =>
      rw [List.map_cons, Bootloader.validSlots]
      have first := @slotStatus_lossy port responseSize retries
        (count + later.length) room system slot
      refine Ensures.bind first fun status => ?_
      refine Ensures.bind ih fun valid => ?_
      cases status with
      | error code =>
          exact Ensures.pure fun _ holds =>
            ⟨fun entry member => List.mem_cons_of_mem _ (holds.1 entry member),
              holds.2⟩
      | ok info =>
          refine Ensures.pure fun _ holds => ⟨?_, holds.2⟩
          rw [List.forall_mem_cons]
          exact ⟨List.mem_cons_self, fun entry member =>
            List.mem_cons_of_mem _ (holds.1 entry member)⟩

theorem chooseTargetSlot_lossy (count : Nat) :
    Ensures (Wire.Lossy retries (count + 2) fun start => start = system)
      ((unreliable port responseSize retries).chooseTargetSlot
        (deviceInfo port system.flash))
      (fun chosen wire => (∃ slot, slotIsValid slot = true ∧
          slot ≠ (metaReport port.layout system.flash).1 ∧
          chosen = slot.toNat) ∧
        wire.Lossy retries count fun after => after = system)
      (fun _ _ => False) := by
  have slotCount : (deviceInfo port system.flash).slotCount = 2 := rfl
  have slots : List.range 2 = [blSlotA, blSlotB].map BitVec.toNat := rfl
  have active : (deviceInfo port system.flash).activeSlot =
      (metaReport port.layout system.flash).1.toNat := rfl
  unfold Bootloader.chooseTargetSlot
  rw [slotCount, active, slots]
  cases read : blMetaRead port.layout system.flash with
  | ok record =>
      have reported : (metaReport port.layout system.flash).1 =
          record.activeSlot := by
        simp only [metaReport, read]
      have fewer : ∀ wire : Wire,
          wire.Lossy retries (count + 2) (fun start => start = system) →
            wire.Lossy retries count fun start => start = system :=
        fun _ lossy => lossy.weaken (Nat.le_add_right _ _) fun _ same => same
      rw [reported]
      rcases slotIsValid_cases (blMetaRead_valid read).1 with slotEq | slotEq
      · rw [slotEq]
        exact Ensures.pure fun wire lossy =>
          ⟨⟨blSlotB, rfl, by decide, rfl⟩, fewer wire lossy⟩
      · rw [slotEq]
        exact Ensures.pure fun wire lossy =>
          ⟨⟨blSlotA, rfl, by decide, rfl⟩, fewer wire lossy⟩
  | error result =>
      have reported : (metaReport port.layout system.flash).1 =
          blSlotNone := by
        simp only [metaReport, read]
      have none_ : ¬ blSlotNone.toNat ≠ Blproto.slotNone :=
        not_not_intro rfl
      have either : ∀ chosen, chosen ∈ [blSlotA, blSlotB].map BitVec.toNat →
          ∃ slot, slotIsValid slot = true ∧ slot ≠ blSlotNone ∧
            chosen = slot.toNat := by
        have each : ∀ slot, slot ∈ [blSlotA, blSlotB] →
            slotIsValid slot = true ∧ slot ≠ blSlotNone := by decide
        intro chosen member
        obtain ⟨slot, listed, rfl⟩ := List.mem_map.mp member
        exact ⟨slot, (each slot listed).1, (each slot listed).2, rfl⟩
      rw [reported, if_neg none_]
      refine Ensures.bind (validSlots_lossy room count [blSlotA, blSlotB])
        fun valid => Ensures.each ?_
      rintro wire ⟨listed, lossy⟩
      have chooses : ∀ chosen, chosen ∈ [blSlotA, blSlotB].map BitVec.toNat →
          Ensures (fun start => start = wire)
            (pure chosen : HostM Wire Nat)
            (fun chosen wire => (∃ slot, slotIsValid slot = true ∧
                slot ≠ blSlotNone ∧ chosen = slot.toNat) ∧
              wire.Lossy retries count fun after => after = system)
            (fun _ _ => False) := by
        intro chosen member
        refine Ensures.pure ?_
        rintro _ rfl
        exact ⟨either chosen member, lossy⟩
      split
      · exact chooses _ List.mem_cons_self
      · rename_i occupied info
        have below : occupied = 0 ∨ occupied = 1 := by
          have member := listed _ List.mem_cons_self
          simp only [List.map_cons, List.map_nil, List.mem_cons,
            List.not_mem_nil, or_false] at member
          exact member
        rcases below with rfl | rfl
        · exact chooses 1 (List.mem_cons_of_mem _ List.mem_cons_self)
        · exact chooses 0 List.mem_cons_self
      · rename_i first later _several
        exact chooses _ (listed _ (lowestVersion_mem first later))

end Choice

section Stable

variable {σ : Type} {loader : Bootloader σ} {invariant : σ → Prop}

/-- An invariant that no request of an update disturbs. -/
theorem update_keeps
    (stable : ∀ request : BlFrame, request.OfUpdate →
      loader.Stable invariant request)
    (fuel : Nat) (image : List U8) (slot : Option Int) :
    Keeps invariant (loader.update fuel image slot) := by
  have prepares : ∀ {request : BlFrame} {slot : U8}, request.Prepares slot →
      loader.Stable invariant request := fun prepares =>
    stable _ ⟨_, List.replicate 40 0, List.length_replicate, Or.inl prepares⟩
  have queries : loader.Queries invariant :=
    queries_stable fun _ asks => prepares (asks 0)
  have updates : ∀ info (header : BlImgHdr) (target : Int),
      (image.take Blimage.hdrStructSize).length = 40 →
      512 ≤ header.entryOffset.toNat →
      Keeps invariant (loader.updateSlot fuel info header image target) := by
    intro info header target whole behind
    have arms := @Bootloader.setActive_yields σ loader invariant target _
      fun fits _ => (stable _ ⟨_, _, whole,
        Or.inr (Or.inr (setActive_arms _ fits))⟩).yields
    have installs := installs_stable behind fun request
      (sends : request.Updates (BitVec.ofInt 8 target) _) =>
        stable request ⟨_, _, whole, sends⟩
    unfold Bootloader.updateSlot
    split
    · exact Keeps.throw _
    split
    · exact Keeps.throw _
    refine Keeps.bind (Bootloader.eraseSlot_keeps fun _ _ =>
      prepares (Or.inr (Or.inr (eraseRequest_erases _)))) fun _ => ?_
    exact (installs.contract arms fuel info).weaken
      (fun _ holds => holds) (fun _ _ holds => holds.2.1)
      (fun _ _ holds => holds)
  unfold Bootloader.update
  refine Keeps.bind queries.hello_keeps fun info => ?_
  cases checked : Blimage.validate image (some info.slotSize) with
  | error error => exact Keeps.throw _
  | ok header =>
      have accepted := Blimage.validate_ok checked
      have whole := accepted.header_length
      have behind := accepted.behind
      cases slot with
      | some target => exact updates info header target whole behind
      | none =>
          exact Keeps.bind (queries.chooseTargetSlot_keeps info)
            fun chosen => updates info header chosen whole behind

end Stable

section Update

variable {start : System} {image : List U8} {header : BlImgHdr}
  {slot : Option Int} {responseSize retries fuel : Nat}

theorem update_keepsSystem {port : Port} {holds : System → Prop}
    (kept : ∀ system step, holds system →
      holds (systemStep port system step)) :
    Keeps (fun wire : Wire => holds wire.link.server.system)
      ((unreliable port responseSize retries).update fuel image slot) := by
  have discipline : Discipline (blMachine port responseSize)
      (fun device => holds device.system) (fun _ _ => True)
      (fun _ _ => True) :=
    { handle := fun device request faults before _ => kept _
        ((Moment.mk device.system request faults).step responseSize) before
      answer := fun _ _ _ _ _ _ _ => trivial
      restart := fun _ before => kept _ ⟨.powerCycle, []⟩ before
      sentStays := fun _ _ _ _ _ => trivial
      toldStays := fun _ _ _ _ _ => trivial }
  refine update_keeps (fun request _ wire before => ?_) fuel image slot
  have trusted : Trusted (fun device : Recorded => holds device.system)
      (fun _ _ => True) (fun _ _ => True) wire.link :=
    { server := before
      requests := fun _ _ => trivial
      responses := fun _ _ => trivial
      arrived := fun _ _ => trivial }
  exact (trusted.attempt discipline (fun _ _ => trivial) _ _).server

theorem update_obeys :
    Keeps (fun wire : Wire => Obeys wire.link.server.system)
      ((unreliable hostPort responseSize retries).update fuel image slot) :=
  update_keepsSystem fun _ step obeys => systemStep_obeys obeys step

section Installs

variable
  (accepted : Blimage.validate image
    (some (hostLayout.slot blSlotA).size.toNat) = .ok header)
  (unexhausted : ∀ held, blMetaRead hostLayout start.flash = .ok held →
    held.seq.toNat + retries < 2 ^ 32)
  (few : retries < 2 ^ 32)
  (named : ∀ chosen, slot = some chosen →
    ∃ target, Eligible start.flash target ∧ chosen = target.toNat)
  (room : blMinResponseSize ≤ responseSize)
  (enough : header.imgSize.toNat ≤ fuel)

include accepted unexhausted few named room enough

/-- The same requests as on a link without losses, some of them repeated. -/
theorem update_lossy (count : Nat) :
    Ensures
      (Wire.Lossy retries (count + 3 + header.imgSize.toNat + 1 + 2 + 1)
        fun system => system = start)
      ((unreliable hostPort responseSize retries).update fuel image slot)
      (fun installed wire => ∃ target, Eligible start.flash target ∧
        installed = target.toNat ∧
        (∀ chosen, slot = some chosen → chosen = target.toNat) ∧
        wire.Lossy retries count fun after =>
          slotBytes hostLayout after.flash target =
              slotBytes hostLayout
                (imageFlash hostPort start.flash target header image)
                target ∧
            Nominated hostPort target after.flash)
      (fun _ _ => False) := by
  have checked := Blimage.validate_ok accepted
  have slotSize : (deviceInfo hostPort start.flash).slotSize =
      (hostLayout.slot blSlotA).size.toNat := rfl
  have updates : ∀ {target : U8}, Eligible start.flash target →
      Ensures
        (Wire.Lossy retries (count + 3 + header.imgSize.toNat + 1)
          fun system => system = start)
        ((unreliable hostPort responseSize retries).updateSlot fuel
          (deviceInfo hostPort start.flash) header image target.toNat)
        (fun installed wire => installed = target.toNat ∧
          wire.Lossy retries count fun after =>
            slotBytes hostLayout after.flash target =
                slotBytes hostLayout
                  (imageFlash hostPort start.flash target header image)
                  target ∧
              Nominated hostPort target after.flash)
        (fun _ _ => False) := by
    intro target eligible
    obtain ⟨slotOk, inactive⟩ := eligible
    have fits : header.entryOffset.toNat + header.imgSize.toNat ≤
        (hostLayout.slot target).size.toNat := by
      rcases slotIsValid_cases slotOk with rfl | rfl
      · exact checked.fits _ rfl
      · exact checked.fits _ rfl
    have inRange : ¬ (target.toNat : Int) ≥ (2 : Nat) := by
      rcases slotIsValid_cases slotOk with rfl | rfl
      · decide
      · decide
    have differs : ¬ (target.toNat : Int) =
        (metaReport hostLayout start.flash).1.toNat := fun same =>
      inactive (BitVec.eq_of_toNat_eq (Int.ofNat.inj same))
    have slots : (deviceInfo hostPort start.flash).slotCount = 2 := rfl
    have active : (deviceInfo hostPort start.flash).activeSlot =
        (metaReport hostLayout start.flash).1.toNat := rfl
    unfold Bootloader.updateSlot
    rw [slots, active, if_neg inRange, if_neg differs]
    refine Ensures.bind ((eraseSlot_lossy room slotOk).weaken ?_
      (fun _ _ holds => holds) (fun _ _ impossible => impossible)) fun _ =>
        @install_lossy hostPort start.flash target image _ header
          responseSize retries checked slotOk fits room count fuel enough
          start.flash few unexhausted
    intro wire lossy
    exact lossy.weaken (Nat.le_refl _) fun _ same => congrArg _ same
  unfold Bootloader.update
  refine Ensures.bind_known (hello_lossy room) ?_
  rw [slotSize, accepted]
  cases slot with
  | some chosen =>
      obtain ⟨target, eligible, rfl⟩ := named chosen rfl
      refine (updates eligible).weaken (fun _ lossy =>
        lossy.weaken (Nat.le_add_right _ 2) fun _ same => same) ?_
        (fun _ _ impossible => impossible)
      rintro installed wire ⟨same, done⟩
      exact ⟨target, eligible, same,
        (fun _ given => (Option.some.inj given).symm), done⟩
  | none =>
      refine Ensures.bind (chooseTargetSlot_lossy room _) fun chosen =>
        Ensures.each ?_
      rintro wire ⟨⟨target, slotOk, inactive, rfl⟩, lossy⟩
      refine (updates ⟨slotOk, inactive⟩).weaken ?_ ?_
        (fun _ _ impossible => impossible)
      · rintro _ rfl
        exact lossy
      · rintro installed after ⟨same, done⟩
        exact ⟨target, ⟨slotOk, inactive⟩, same,
          (fun _ impossible => by cases impossible), done⟩

end Installs

theorem installed_nominated {slotSize : Option Nat} {target : U8}
    {after : System} (accepted : Blimage.Accepted image slotSize header)
    (slotOk : slotIsValid target = true)
    (fits : header.entryOffset.toNat + header.imgSize.toNat ≤
      (hostLayout.slot target).size.toNat)
    (kept : slotBytes hostLayout after.flash target =
      slotBytes hostLayout
        (imageFlash hostPort start.flash target header image) target)
    (nominated : Nominated hostPort target after.flash)
    (once : ProgramsOnce start after)
    (others : ∀ other, slotIsValid other = true → other ≠ target →
      slotBytes hostLayout after.flash other =
        slotBytes hostLayout start.flash other)
    (permitted : ∀ call, call ∈ after.calls → call.Permitted) :
    Installed start target header image after := by
  have bytes := @imageFlash_byte hostPort target image slotSize header
    accepted start.flash
  have stored : ∀ place, place < (hostLayout.slot target).size.toNat →
      after.flash ((hostLayout.slot target).base.toNat + place) =
        imageFlash hostPort start.flash target header image
          ((hostLayout.slot target).base.toNat + place) :=
    fun place inside => slotBytes_at kept
      ⟨Nat.le_add_right _ _, Nat.add_lt_add_left inside _⟩
  exact {
    valid := (blCoreValidateSlot_congr hostPort kept).trans
      (imageFlash_valid accepted start.flash fits slotOk)
    image := fun place inside covered =>
      (stored place inside).trans ((bytes inside).1 covered)
    erased := fun place inside uncovered =>
      (stored place inside).trans ((bytes inside).2 uncovered)
    nominated := nominated
    others := others
    permitted := permitted
    once := once }

end Update

/-- However many requests and answers are lost, an update installs the image
if each request is attempted once more than it is lost. -/
theorem update_installsDespiteLoss (flash : Flash) (earlier : List Step)
    (image : List U8) (header : BlImgHdr) (slot : Option Int)
    (responseSize retries fuel : Nat) (rounds : List (List Delivery))
    (room : blMinResponseSize ≤ responseSize)
    (turns : image.length ≤ fuel) (service : image.length ≤ rounds.length)
    (losses : ∀ lost, lost ∈ rounds → lost.length < retries ∧
      ∀ delivery, delivery ∈ lost → delivery.Lost)
    (accepted : Blimage.validate image
      (some (hostLayout.slot blSlotA).size.toNat) = .ok header)
    (unexhausted : ∀ held, blMetaRead hostLayout
      (run (systemStep hostPort) (System.initial flash) earlier).flash =
        .ok held → held.seq.toNat + retries < 2 ^ 32)
    (few : retries < 2 ^ 32)
    (named : ∀ chosen, slot = some chosen → ∃ target, Eligible
      (run (systemStep hostPort) (System.initial flash) earlier).flash
        target ∧ chosen = target.toNat) :
    let start := run (systemStep hostPort) (System.initial flash) earlier
    ∃ target wire,
      ((unreliable hostPort responseSize retries).update fuel image slot).run
          (Wire.initial start (rounds.flatMap roundEvents)) =
        .returned (.ok (BitVec.toNat target)) wire ∧
      Eligible start.flash target ∧
      (∀ chosen, slot = some chosen → chosen = target.toNat) ∧
      Installed start target header image wire.link.server.system := by
  intro start
  have checked := Blimage.validate_ok accepted
  have behind := checked.behind
  have nonempty := checked.payload_positive
  have payload := checked.payload
  rw [List.length_drop] at payload
  have idle : (Wire.initial start (rounds.flatMap roundEvents)).Lossy retries
      (0 + 3 + header.imgSize.toNat + 1 + 2 + 1)
      fun system => system = start :=
    ⟨start, rounds, rfl, initial_idle _ _, by omega, losses⟩
  have asking : (Wire.initial start (rounds.flatMap roundEvents)).Asking
      hostPort responseSize start := fun slot header _whole =>
    trusted_initial (traced_initial (tracks_run hostPort flash earlier))
  have obeys : Obeys (Wire.initial start
      (rounds.flatMap roundEvents)).link.server.system :=
    obeys_run flash earlier
  have loops : header.imgSize.toNat ≤ fuel := by omega
  obtain ⟨installed, wire, ran, target, eligible, rfl, same, after, _rest,
    ⟨kept, nominated⟩, ended, _served⟩ :=
      (update_lossy accepted unexhausted few named room loops 0).returns idle
  have reports := (@update_reports hostPort responseSize start image retries
    fuel slot).value asking ran
  have obeyed := (@update_obeys image slot responseSize retries
    fuel).value obeys ran
  obtain ⟨reported, sameSlot, spared, _armed⟩ := reports
  obtain rfl : target = reported :=
    BitVec.eq_of_toNat_eq (Int.ofNat.inj sameSlot)
  have fits : header.entryOffset.toNat + header.imgSize.toNat ≤
      (hostLayout.slot target).size.toNat := by
    rcases slotIsValid_cases eligible.1 with rfl | rfl
    · exact checked.fits _ rfl
    · exact checked.fits _ rfl
  have reached := ended.system
  subst reached
  exact ⟨target, wire, ran, eligible, same,
    installed_nominated checked eligible.1 fits kept nominated spared.once
      spared.others obeyed.permitted⟩

/-- The first answer to every request is lost. -/
theorem update_installsDespiteLoss_answers :
    ∃ header target wire,
      ((unreliable hostPort blMinResponseSize 2).update newImage.length
          newImage none).run
          (Wire.initial (.initial fun _ => 0xFF)
            ((List.replicate newImage.length
              [Delivery.answerLost []]).flatMap roundEvents)) =
        .returned (.ok (BitVec.toNat target)) wire ∧
      Eligible (System.initial fun _ => 0xFF).flash target ∧
      (∀ chosen, (none : Option Int) = some chosen →
        chosen = target.toNat) ∧
      Installed (.initial fun _ => 0xFF) target header newImage
        wire.link.server.system := by
  obtain ⟨header, accepted⟩ := newImage_accepted
  refine ⟨header, update_installsDespiteLoss (fun _ => 0xFF) [] newImage
    header none blMinResponseSize 2 newImage.length
    (List.replicate newImage.length [Delivery.answerLost []]) (Nat.le_refl _)
    (Nat.le_refl _) (Nat.le_of_eq List.length_replicate.symm) ?_ accepted
    (fun held read => absurd read (factory_unread held)) (by decide)
    (fun _ impossible => by cases impossible)⟩
  intro lost member
  obtain rfl := List.eq_of_mem_replicate member
  refine ⟨by decide, ?_⟩
  rw [List.forall_mem_singleton]
  exact rfl

end Stm32Bootloader
