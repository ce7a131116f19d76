/-
No flash location is programmed twice between erases, and what that takes.

The session's guards are tied to the set of programmed bytes by an invariant
of every run.  It leaves one case open, a WRITE at offset zero that reaches
into payload programmed before it.
-/

import Stm32Bootloader.Containment
import Stm32Bootloader.Library.WriteOnce

namespace Stm32Bootloader

open TransitionRun WriteOnce

/-- The call may have changed the bytes it addresses. -/
def FlashOutcome.took : FlashOutcome → Bool
  | .failure _ => false
  | _ => true

/-- A call as an event of a write-once memory.  Only an erase that succeeded
makes its range programmable again. -/
def PortCall.events : PortCall → List Event
  | .erase address length outcome =>
      if outcome = .success then [.erase address.toNat length.toNat] else []
  | .write address data outcome =>
      [.program address.toNat data.length outcome.took]
  | .jump _ => []

/-- The bytes programmed since their last erase; bytes that have not been
erased count as programmed. -/
def Programmed (calls : List PortCall) : Nat → Prop :=
  programmedAfter (fun _ => True) (calls.flatMap PortCall.events)

def NoDoubleProgram (calls : List PortCall) : Prop :=
  Respects (fun _ => True) (calls.flatMap PortCall.events)

def floorStep (region : BlRegion) (floor : Option Nat) :
    PortCall → Option Nat
  | .erase address _ outcome =>
      if outcome = .success ∧ address = region.base then none else floor
  | .write address _ outcome =>
      if outcome.took = true ∧ region.base ≠ address ∧
          region.Holds address.toNat then
        let offset := address.toNat - region.base.toNat
        some (min (floor.getD offset) offset)
      else floor
  | .jump _ => floor

/-- The lowest non-zero offset programmed in a region since its last erase. -/
def payloadFloor (region : BlRegion) (calls : List PortCall) : Option Nat :=
  calls.foldl (floorStep region) none

/-- A WRITE at offset zero that reaches the flash ends at or below the lowest
payload offset programmed before it. -/
def HeaderFits (port : Port) (system : System) (step : Step) : Prop :=
  match step.op with
  | .request frame _ =>
      WriteAdmitted port system.session frame → frame.writeOffset = 0 →
        ∀ floor, payloadFloor
            (port.layout.slot system.session.targetSlot) system.calls =
          some floor → frame.writeLength.toNat ≤ floor
  | _ => True

/-! ### Histories that grow -/

theorem programmed_append (calls new : List PortCall) :
    Programmed (calls ++ new) =
      programmedAfter (Programmed calls) (new.flatMap PortCall.events) := by
  unfold Programmed
  rw [List.flatMap_append, programmedAfter_append]

theorem noDoubleProgram_append (calls new : List PortCall) :
    NoDoubleProgram (calls ++ new) ↔
      NoDoubleProgram calls ∧
        Respects (Programmed calls) (new.flatMap PortCall.events) := by
  unfold NoDoubleProgram
  rw [List.flatMap_append, respects_append]
  rfl

theorem payloadFloor_append (region : BlRegion) (calls new : List PortCall) :
    payloadFloor region (calls ++ new) =
      new.foldl (floorStep region) (payloadFloor region calls) :=
  List.foldl_append

theorem programmed_write (calls : List PortCall) (address : U32)
    (data : List U8) (outcome : FlashOutcome) (cell : Nat) :
    Programmed (calls ++ [.write address data outcome]) cell ↔
      Programmed calls cell ∨
        (outcome.took = true ∧ address.toNat ≤ cell ∧
          cell < address.toNat + data.length) := by
  rw [programmed_append]
  rfl

theorem programmed_erase (calls : List PortCall) (address length : U32)
    (cell : Nat) :
    Programmed (calls ++ [.erase address length .success]) cell ↔
      Programmed calls cell ∧ ¬ (address.toNat ≤ cell ∧
        cell < address.toNat + length.toNat) := by
  rw [programmed_append]
  rfl

theorem programmed_erase_unfinished (calls : List PortCall)
    (address length : U32) {outcome : FlashOutcome}
    (unfinished : outcome ≠ .success) :
    Programmed (calls ++ [.erase address length outcome]) =
      Programmed calls := by
  rw [programmed_append]
  simp only [List.flatMap_cons, List.flatMap_nil, PortCall.events,
    if_neg unfinished, List.append_nil]
  rfl

/-! ### The invariant -/

/-- The session's guards against the bytes that are programmed. -/
structure Tracks (port : Port) (session : BlSession)
    (calls : List PortCall) : Prop where
  targetOk : slotIsValid session.targetSlot = true
  /-- The payload floor of a slot is programmed. -/
  floors : ∀ slot, slotIsValid slot = true → ∀ floor,
    payloadFloor (port.layout.slot slot) calls = some floor →
      0 < floor ∧ floor < (port.layout.slot slot).size.toNat ∧
        Programmed calls ((port.layout.slot slot).base.toNat + floor)
  opened : session.erased = true → ∀ cell,
    (port.layout.slot session.targetSlot).Holds cell →
    Programmed calls cell →
      cell < (port.layout.slot session.targetSlot).base.toNat +
        session.highestOffset.toNat ∧
      (session.headerWritten = false → ∃ floor,
        payloadFloor (port.layout.slot session.targetSlot) calls =
          some floor ∧
        (port.layout.slot session.targetSlot).base.toNat + floor ≤ cell)

section Steps

variable {port : Port} {session : BlSession} {calls : List PortCall}

theorem Tracks.zeroed (tracks : Tracks port session calls) :
    Tracks port .zeroed calls :=
  { targetOk := BlSession.zeroed_targetOk
    floors := tracks.floors
    opened := fun impossible => absurd impossible Bool.false_ne_true }

theorem tracks_initial : Tracks port .zeroed [] :=
  { targetOk := BlSession.zeroed_targetOk
    floors := fun _ _ _ impossible => by cases impossible
    opened := fun impossible => absurd impossible Bool.false_ne_true }

/-- New calls that neither program nor erase a byte of a slot. -/
structure SlotNeutral (port : Port) (calls new : List PortCall) : Prop where
  floor : ∀ slot, slotIsValid slot = true →
    payloadFloor (port.layout.slot slot) (calls ++ new) =
      payloadFloor (port.layout.slot slot) calls
  programmed : ∀ slot, slotIsValid slot = true → ∀ cell,
    (port.layout.slot slot).Holds cell →
      (Programmed (calls ++ new) cell ↔ Programmed calls cell)

theorem SlotNeutral.nil : SlotNeutral port calls [] :=
  { floor := fun _ _ => by rw [List.append_nil]
    programmed := fun _ _ _ _ => by rw [List.append_nil] }

theorem Tracks.neutral {new : List PortCall}
    (tracks : Tracks port session calls)
    (neutral : SlotNeutral port calls new) :
    Tracks port session (calls ++ new) := by
  refine ⟨tracks.targetOk, ?_, ?_⟩
  · intro slot valid floor found
    rw [neutral.floor slot valid] at found
    obtain ⟨positive, inside, programmed⟩ := tracks.floors slot valid floor found
    refine ⟨positive, inside,
      (neutral.programmed slot valid _ ⟨by omega, by omega⟩).mpr programmed⟩
  · intro erased cell inside programmed
    rw [neutral.floor _ tracks.targetOk]
    exact tracks.opened erased cell inside
      ((neutral.programmed _ tracks.targetOk cell inside).mp programmed)

theorem CommitCalls.allowed {flash : Flash} {slot state attempts : U8}
    {new : List PortCall}
    (commit : CommitCalls port flash slot state attempts new)
    (programmed : Nat → Prop) :
    Respects programmed (new.flatMap PortCall.events) := by
  cases commit with
  | refused => trivial
  | erased outcome unfinished =>
      simp only [List.flatMap_cons, List.flatMap_nil, commitErase,
        PortCall.events, if_neg unfinished, List.append_nil]
      trivial
  | written outcome =>
      have room := commitRegion_room port flash
      have length : (commitRecord port flash slot state attempts).toBytes.length
          = 16 := commitRecord_length
      exact respects_erase_program outcome.took (by rw [length]; exact room)

theorem CommitCalls.neutral {flash : Flash} {slot state attempts : U8}
    {new : List PortCall}
    (commit : CommitCalls port flash slot state attempts new)
    (calls : List PortCall) : SlotNeutral port calls new := by
  have room := commitRegion_room port flash
  have fields : ∀ slot, slotIsValid slot = true →
      (port.layout.slot slot).Apart (commitRegion port flash) ∧
        0 < (port.layout.slot slot).size.toNat := by
    intro slot valid
    have size := port.slotHoldsImage slot valid
    exact ⟨port.slotMetaApart slot _ valid (commitPlan_valid port flash),
      by omega⟩
  have notBase : ∀ slot, slotIsValid slot = true →
      (commitRegion port flash).base ≠ (port.layout.slot slot).base := by
    intro slot valid same
    obtain ⟨apart, positive⟩ := fields slot valid
    unfold BlRegion.Apart Memory.Apart at apart
    rw [same] at apart
    omega
  have notHeld : ∀ slot, slotIsValid slot = true →
      ¬ (port.layout.slot slot).Holds (commitRegion port flash).base.toNat := by
    intro slot valid held
    obtain ⟨apart, _positive⟩ := fields slot valid
    unfold BlRegion.Apart Memory.Apart at apart
    unfold BlRegion.Holds at held
    omega
  have eraseFloor : ∀ slot, slotIsValid slot = true → ∀ floor outcome,
      floorStep (port.layout.slot slot) floor
        (commitErase port flash outcome) = floor := by
    intro slot valid floor outcome
    exact if_neg (fun both => notBase slot valid both.2)
  have writeFloor : ∀ slot', slotIsValid slot' = true → ∀ floor outcome,
      floorStep (port.layout.slot slot') floor
        (commitWrite port flash slot state attempts outcome) = floor := by
    intro slot' valid floor outcome
    exact if_neg (fun all => notHeld slot' valid all.2.2)
  cases commit with
  | refused => exact .nil
  | erased outcome unfinished =>
      have programmed : Programmed
          (calls ++ [commitErase port flash outcome]) = Programmed calls :=
        programmed_erase_unfinished calls _ _ unfinished
      refine ⟨?_, ?_⟩
      · intro slot' valid
        rw [payloadFloor_append]
        exact eraseFloor slot' valid _ outcome
      · intro slot' valid cell inside
        rw [programmed]
  | written outcome =>
      refine ⟨?_, ?_⟩
      · intro slot' valid
        rw [payloadFloor_append, List.foldl_cons, List.foldl_cons,
          List.foldl_nil, eraseFloor slot' valid, writeFloor slot' valid]
      · intro slot' valid cell inside
        obtain ⟨apart, _positive⟩ := fields slot' valid
        unfold BlRegion.Apart Memory.Apart at apart
        unfold BlRegion.Holds at inside
        rw [List.append_cons, commitWrite, programmed_write, commitRecord_length,
          commitErase, programmed_erase]
        constructor
        · rintro (⟨programmed, _outside⟩ | ⟨_took, lower, upper⟩)
          · exact programmed
          · omega
        · intro programmed
          exact Or.inl ⟨programmed, by omega⟩

theorem jump_events (new : List PortCall) (jump : Option U32) :
    (new ++ jump.toList.map PortCall.jump).flatMap PortCall.events =
      new.flatMap PortCall.events := by
  rw [List.flatMap_append]
  cases jump <;> exact List.append_nil _

theorem SlotNeutral.jump {new : List PortCall}
    (neutral : SlotNeutral port calls new) (jump : Option U32) :
    SlotNeutral port calls (new ++ jump.toList.map PortCall.jump) := by
  refine ⟨?_, ?_⟩
  · intro slot valid
    rw [← neutral.floor slot valid, payloadFloor_append,
      payloadFloor_append, List.foldl_append]
    cases jump <;> rfl
  · intro slot valid cell inside
    rw [← neutral.programmed slot valid cell inside, programmed_append,
      programmed_append, jump_events]

theorem AsideCalls.neutral {flash : Flash} {new : List PortCall}
    (aside : AsideCalls port flash new) (calls : List PortCall) :
    SlotNeutral port calls new := by
  cases aside with
  | none jump => exact SlotNeutral.nil.jump jump
  | commit slot state attempts new commit jump =>
      exact (commit.neutral calls).jump jump

theorem AsideCalls.allowed {flash : Flash} {new : List PortCall}
    (aside : AsideCalls port flash new) (programmed : Nat → Prop) :
    Respects programmed (new.flatMap PortCall.events) := by
  cases aside with
  | none jump =>
      have quiet := jump_events [] jump
      rw [List.nil_append] at quiet
      rw [quiet]
      trivial
  | commit slot state attempts new commit jump =>
      rw [jump_events]
      exact commit.allowed programmed

/-! ### Erasing a slot -/

theorem eraseCall_allowed (programmed : Nat → Prop) (slot : U8)
    (outcome : FlashOutcome) :
    Respects programmed
      ([eraseCall port slot outcome].flatMap PortCall.events) := by
  simp only [List.flatMap_cons, List.flatMap_nil, List.append_nil, eraseCall,
    PortCall.events]
  split
  · exact ⟨trivial, trivial⟩
  · trivial

theorem SlotNeutral.erase_unfinished (slot : U8) {outcome : FlashOutcome}
    (unfinished : outcome ≠ .success) :
    SlotNeutral port calls [eraseCall port slot outcome] := by
  refine ⟨?_, ?_⟩
  · intro other valid
    rw [payloadFloor_append]
    exact if_neg (fun both => unfinished both.1)
  · intro other valid cell inside
    rw [eraseCall, programmed_erase_unfinished calls _ _ unfinished]

theorem Tracks.erase (tracks : Tracks port session calls) (slot : U8)
    (slotOk : slotIsValid slot = true) :
    Tracks port (session.eraseSlot slot)
      (calls ++ [eraseCall port slot .success]) := by
  refine ⟨slotOk, ?_, ?_⟩
  · intro other otherOk floor found
    rw [payloadFloor_append] at found
    by_cases same : other = slot
    · subst same
      have cleared : floorStep (port.layout.slot other)
          (payloadFloor (port.layout.slot other) calls)
          (eraseCall port other .success) = none := if_pos ⟨rfl, rfl⟩
      rw [List.foldl_cons, List.foldl_nil, cleared] at found
      cases found
    · have apart := port.slots_apart slotOk otherOk same
      have size := port.slotHoldsImage slot slotOk
      unfold BlRegion.Apart Memory.Apart at apart
      have kept : floorStep (port.layout.slot other)
          (payloadFloor (port.layout.slot other) calls)
          (eraseCall port slot .success) =
            payloadFloor (port.layout.slot other) calls := by
        refine if_neg (fun both => ?_)
        have sameBase := both.2
        have otherSize := port.slotHoldsImage other otherOk
        rw [sameBase] at apart
        omega
      rw [List.foldl_cons, List.foldl_nil, kept] at found
      obtain ⟨positive, inside, programmed⟩ :=
        tracks.floors other otherOk floor found
      refine ⟨positive, inside, ?_⟩
      rw [eraseCall, programmed_erase]
      exact ⟨programmed, by omega⟩
  · intro _erased cell inside programmed
    rw [eraseCall, programmed_erase] at programmed
    exact absurd inside programmed.2

/-! ### Programming the target slot -/

section Write

variable {request : BlFrame}
  (admitted : WriteAdmitted port session request)
  (targetOk : slotIsValid session.targetSlot = true)

include admitted

theorem writeLength_positive : 0 < request.writeLength.toNat := by
  have nonempty := admitted.nonempty
  have length := request.writeData_length nonempty
  rw [← length, BlFrame.writeData, List.length_drop, request.bytes_length]
  omega

include targetOk

theorem payloadFloor_write_target (outcome : FlashOutcome) :
    payloadFloor (port.layout.slot session.targetSlot)
        (calls ++ [writeCall port session request outcome]) =
      let floor := payloadFloor (port.layout.slot session.targetSlot) calls
      if outcome.took = true ∧ request.writeOffset ≠ 0 then
        some (min (floor.getD request.writeOffset.toNat)
          request.writeOffset.toNat)
      else floor := by
  have address := writeCall_address admitted targetOk
  have inside := admitted.inside
  have positive := writeLength_positive admitted
  rw [payloadFloor_append, List.foldl_cons, List.foldl_nil]
  simp only [floorStep, writeCall, address, Nat.add_sub_cancel_left]
  refine if_congr (and_congr_right fun _took => ?_) rfl rfl
  constructor
  · rintro ⟨notBase, _held⟩ zero
    rw [zero] at notBase
    exact notBase (BitVec.add_zero _).symm
  · intro nonzero
    refine ⟨fun same => nonzero ?_, Nat.le_add_right _ _, by omega⟩
    rw [← same] at address
    bv_omega

theorem payloadFloor_write_low {outcome : FlashOutcome} {bound : Nat}
    (low : ∀ floor, payloadFloor (port.layout.slot session.targetSlot) calls =
      some floor → bound ≤ floor)
    (above : request.writeOffset ≠ 0 → bound ≤ request.writeOffset.toNat)
    (floor : Nat)
    (found : payloadFloor (port.layout.slot session.targetSlot)
      (calls ++ [writeCall port session request outcome]) = some floor) :
    bound ≤ floor := by
  rw [payloadFloor_write_target admitted targetOk] at found
  dsimp only at found
  split at found
  · rename_i behind
    cases old : payloadFloor (port.layout.slot session.targetSlot) calls with
    | none =>
        rw [old] at found
        cases found
        rw [Option.getD_none, Nat.min_self]
        exact above behind.2
    | some lowest =>
        have oldLow := low lowest old
        rw [old] at found
        cases found
        rw [Option.getD_some]
        exact Nat.le_min.mpr ⟨oldLow, above behind.2⟩
  · exact low floor found

theorem payloadFloor_write_other (outcome : FlashOutcome) {slot : U8}
    (slotOk : slotIsValid slot = true)
    (different : slot ≠ session.targetSlot) :
    payloadFloor (port.layout.slot slot)
        (calls ++ [writeCall port session request outcome]) =
      payloadFloor (port.layout.slot slot) calls := by
  have address := writeCall_address admitted targetOk
  have inside := admitted.inside
  have positive := writeLength_positive admitted
  have apart := port.slots_apart targetOk slotOk different
  unfold BlRegion.Apart Memory.Apart at apart
  rw [payloadFloor_append]
  refine if_neg (fun all => ?_)
  have held := all.2.2
  unfold BlRegion.Holds at held
  rw [address] at held
  omega

theorem programmed_writeCall (outcome : FlashOutcome) (cell : Nat) :
    Programmed (calls ++ [writeCall port session request outcome]) cell ↔
      Programmed calls cell ∨ (outcome.took = true ∧
        (port.layout.slot session.targetSlot).base.toNat +
          request.writeOffset.toNat ≤ cell ∧
        cell < (port.layout.slot session.targetSlot).base.toNat +
          request.writeOffset.toNat + request.writeLength.toNat) := by
  rw [writeCall, programmed_write, writeCall_address admitted targetOk,
    request.writeData_length admitted.nonempty]

omit targetOk in
theorem write_floors (tracks : Tracks port session calls)
    (outcome : FlashOutcome) (slot : U8) (slotOk : slotIsValid slot = true)
    (floor : Nat)
    (found : payloadFloor (port.layout.slot slot)
      (calls ++ [writeCall port session request outcome]) = some floor) :
    0 < floor ∧ floor < (port.layout.slot slot).size.toNat ∧
      Programmed (calls ++ [writeCall port session request outcome])
        ((port.layout.slot slot).base.toNat + floor) := by
  have inside := admitted.inside
  have positive := writeLength_positive admitted
  rw [programmed_writeCall admitted tracks.targetOk]
  by_cases target : slot = session.targetSlot
  · subst target
    rw [payloadFloor_write_target admitted tracks.targetOk] at found
    dsimp only at found
    split at found
    · rename_i took
      have nonzero : 0 < request.writeOffset.toNat := by
        have different := took.2
        bv_omega
      cases found
      cases old : payloadFloor (port.layout.slot session.targetSlot) calls with
      | none =>
          simp only [Option.getD_none, Nat.min_self]
          exact ⟨nonzero, by omega,
            Or.inr ⟨took.1, Nat.le_refl _, by omega⟩⟩
      | some floor =>
          obtain ⟨oldPositive, oldInside, oldProgrammed⟩ :=
            tracks.floors _ slotOk floor old
          simp only [Option.getD_some]
          rcases Nat.le_total floor request.writeOffset.toNat with
            below | above
          · rw [Nat.min_eq_left below]
            exact ⟨oldPositive, oldInside, Or.inl oldProgrammed⟩
          · rw [Nat.min_eq_right above]
            exact ⟨nonzero, by omega,
              Or.inr ⟨took.1, Nat.le_refl _, by omega⟩⟩
    · obtain ⟨oldPositive, oldInside, oldProgrammed⟩ :=
        tracks.floors _ slotOk floor found
      exact ⟨oldPositive, oldInside, Or.inl oldProgrammed⟩
  · rw [payloadFloor_write_other admitted tracks.targetOk outcome slotOk
      target] at found
    obtain ⟨oldPositive, oldInside, oldProgrammed⟩ :=
      tracks.floors slot slotOk floor found
    exact ⟨oldPositive, oldInside, Or.inl oldProgrammed⟩

omit targetOk in
theorem Tracks.write (tracks : Tracks port session calls) :
    Tracks port
      (session.advance request.writeOffset request.writeLength)
      (calls ++ [writeCall port session request .success]) := by
  have inside := admitted.inside
  have floorEq : payloadFloor (port.layout.slot session.targetSlot)
      (calls ++ [writeCall port session request .success]) = _ :=
    payloadFloor_write_target admitted tracks.targetOk .success
  refine ⟨tracks.targetOk, write_floors admitted tracks .success, ?_⟩
  intro _erased cell held programmed
  have highest : (session.advance request.writeOffset
      request.writeLength).highestOffset.toNat =
        max session.highestOffset.toNat
          (request.writeOffset.toNat + request.writeLength.toNat) := by
    simp only [BlSession.advance]
    split <;> bv_omega
  rw [highest]
  have place := (programmed_writeCall admitted tracks.targetOk .success
    cell).mp programmed
  refine ⟨?_, fun unwritten => ?_⟩
  · rcases place with old | ⟨_took, _lower, upper⟩
    · have below := (tracks.opened admitted.erased cell held old).1
      change cell < (port.layout.slot session.targetSlot).base.toNat + _
      omega
    · change cell < (port.layout.slot session.targetSlot).base.toNat + _
      omega
  · have nonzero : request.writeOffset ≠ 0 := by
      intro zero
      simp only [BlSession.advance, if_pos zero] at unwritten
      cases unwritten
    have before : session.headerWritten = false := by
      simpa only [BlSession.advance, if_neg nonzero] using unwritten
    refine ⟨_, floorEq.trans (if_pos ⟨rfl, nonzero⟩), ?_⟩
    change (port.layout.slot session.targetSlot).base.toNat + _ ≤ cell
    rcases place with old | ⟨_took, lower, _upper⟩
    · obtain ⟨floor, found, low⟩ :=
        (tracks.opened admitted.erased cell held old).2 before
      rw [found, Option.getD_some]
      omega
    · omega

theorem SlotNeutral.write_failed (error : FlashError) :
    SlotNeutral port calls
      [writeCall port session request (.failure error)] := by
  refine ⟨?_, ?_⟩
  · intro slot slotOk
    by_cases target : slot = session.targetSlot
    · subst target
      rw [payloadFloor_write_target admitted targetOk]
      exact if_neg (fun both => Bool.false_ne_true both.1)
    · exact payloadFloor_write_other admitted targetOk _ slotOk target
  · intro slot _slotOk cell _inside
    rw [programmed_writeCall admitted targetOk]
    exact or_iff_left (fun both => Bool.false_ne_true both.1)

omit targetOk in
/-- The call is allowed except at offset zero over programmed payload. -/
theorem writeCall_allowed_iff (tracks : Tracks port session calls)
    (outcome : FlashOutcome) :
    Respects (Programmed calls)
        ([writeCall port session request outcome].flatMap PortCall.events) ↔
      (request.writeOffset = 0 → ∀ floor,
        payloadFloor (port.layout.slot session.targetSlot) calls =
          some floor → request.writeLength.toNat ≤ floor) := by
  have address := writeCall_address admitted tracks.targetOk
  have inside := admitted.inside
  have ordered := admitted.ordered
  have covered : Respects (Programmed calls)
        ([writeCall port session request outcome].flatMap PortCall.events) ↔
      ∀ cell, (port.layout.slot session.targetSlot).base.toNat +
          request.writeOffset.toNat ≤ cell →
        cell < (port.layout.slot session.targetSlot).base.toNat +
          request.writeOffset.toNat + request.writeLength.toNat →
        ¬ Programmed calls cell := by
    simp only [writeCall, List.flatMap_cons, List.flatMap_nil,
      List.append_nil, PortCall.events, Respects, Event.Allowed, and_true,
      address, request.writeData_length admitted.nonempty]
  rw [covered]
  constructor
  · intro free zero floor found
    obtain ⟨_positive, _inside, programmed⟩ :=
      tracks.floors _ tracks.targetOk floor found
    have zeroNat : request.writeOffset.toNat = 0 := by
      rw [zero]
      rfl
    by_contra reaches
    exact free _ (by omega) (by omega) programmed
  · intro fits cell lower upper programmed
    obtain ⟨below, floored⟩ := tracks.opened admitted.erased cell
      ⟨by omega, by omega⟩ programmed
    by_cases zero : request.writeOffset = 0
    · rw [if_pos zero] at ordered
      have zeroNat : request.writeOffset.toNat = 0 := by
        rw [zero]
        rfl
      obtain ⟨floor, found, low⟩ := floored ordered
      have reach := fits zero floor found
      omega
    · rw [if_neg zero] at ordered
      omega

end Write

end Steps

/-! ### Steps and runs -/

section Runs

variable {port : Port} {system : System}

theorem request_tracks
    (tracks : Tracks port system.session system.calls) {frame : BlFrame}
    (responseSize : Nat) (outcomes : List FlashOutcome) {after : BlSession}
    {new : List PortCall} {status : Option BlResult}
    (calls : RequestCalls port system.session system.flash frame after new
      status) :
    (status ≠ none → Tracks port after (system.calls ++ new)) ∧
    Tracks port .zeroed (system.calls ++ new) ∧
    (Respects (Programmed system.calls) (new.flatMap PortCall.events) ↔
      HeaderFits port system ⟨.request frame responseSize, outcomes⟩) := by
  have passive : ∀ {new : List PortCall},
      ¬ WriteAdmitted port system.session frame →
      Respects (Programmed system.calls) (new.flatMap PortCall.events) →
      (Respects (Programmed system.calls) (new.flatMap PortCall.events) ↔
        HeaderFits port system ⟨.request frame responseSize, outcomes⟩) :=
    fun unadmitted allowed =>
      ⟨fun _ admitted => absurd admitted unadmitted, fun _ => allowed⟩
  have unchanged := tracks.neutral SlotNeutral.nil
  cases calls with
  | refused status failed unadmitted =>
      exact ⟨fun _ => unchanged, unchanged.zeroed,
        passive unadmitted trivial⟩
  | answered isQuery status =>
      refine ⟨fun _ => unchanged, unchanged.zeroed,
        passive (unadmitted_cmd fun isWrite => ?_) trivial⟩
      rcases isQuery with isHello | isVerify | isArm
      · exact BlFrame.cmd_clash isWrite isHello
      · exact BlFrame.cmd_clash isWrite isVerify
      · exact BlFrame.cmd_clash isWrite isArm
  | reset isReset =>
      exact ⟨fun _ => ⟨unchanged.targetOk, unchanged.floors, unchanged.opened⟩,
        unchanged.zeroed, passive (unadmitted_cmd fun isWrite =>
          BlFrame.cmd_clash isWrite isReset) trivial⟩
  | erase slot erases slotOk outcome =>
      have kept : Tracks port
          (if outcome = .success then system.session.eraseSlot slot
          else system.session)
          (system.calls ++ [eraseCall port slot outcome]) := by
        by_cases success : outcome = .success
        · rw [if_pos success, success]
          exact tracks.erase slot slotOk
        · rw [if_neg success]
          exact tracks.neutral (.erase_unfinished slot success)
      exact ⟨fun _ => kept, kept.zeroed,
        passive (unadmitted_cmd fun isWrite =>
          BlFrame.cmd_clash isWrite erases.1)
          (eraseCall_allowed _ slot outcome)⟩
  | write admitted outcome =>
      have floors := write_floors admitted tracks outcome
      refine ⟨fun answered => ?_, ⟨tracks.zeroed.targetOk, floors,
        fun impossible => absurd impossible Bool.false_ne_true⟩, ?_⟩
      · cases outcome with
        | success => exact tracks.write admitted
        | failure error =>
            exact tracks.neutral
              (.write_failed admitted tracks.targetOk error)
        | powerLoss units => exact absurd rfl answered
      · exact (writeCall_allowed_iff admitted tracks outcome).trans
          ⟨fun fits _ => fits, fun fits => fits admitted⟩
  | arm isArm oneByte validates new commit status =>
      have kept := tracks.neutral (commit.neutral system.calls)
      exact ⟨fun _ => kept, kept.zeroed,
        passive (unadmitted_cmd fun isWrite =>
          BlFrame.cmd_clash isWrite isArm) (commit.allowed _)⟩

/-- A step keeps the invariant, and is allowed exactly when its header write
fits. -/
theorem systemStep_tracks
    (tracks : Tracks port system.session system.calls) (step : Step) :
    Tracks port (systemStep port system step).session
        (systemStep port system step).calls ∧
    (NoDoubleProgram (systemStep port system step).calls ↔
      NoDoubleProgram system.calls ∧ HeaderFits port system step) := by
  obtain ⟨session, new, made, calls⟩ := systemStep_made port system step
  rw [made, noDoubleProgram_append]
  obtain ⟨op, outcomes⟩ := step
  have aside : ∀ {new : List PortCall} {fits : Prop},
      session = system.session ∨ session = .zeroed →
      AsideCalls port system.flash new → fits →
      Tracks port session (system.calls ++ new) ∧
        (NoDoubleProgram system.calls ∧
          Respects (Programmed system.calls) (new.flatMap PortCall.events) ↔
          NoDoubleProgram system.calls ∧ fits) := by
    intro new fits kept quiet holds
    constructor
    · rcases kept with rfl | rfl
      · exact tracks.neutral (quiet.neutral _)
      · exact (tracks.neutral (quiet.neutral _)).zeroed
    · exact and_congr_right fun _ =>
        ⟨fun _ => holds, fun _ => quiet.allowed _⟩
  cases calls with
  | request frame responseSize after new status calls =>
      obtain ⟨kept, _zeroed, fits⟩ :=
        request_tracks tracks responseSize outcomes calls
      exact ⟨kept (Option.some_ne_none _), and_congr_right fun _ => fits⟩
  | cutOff frame responseSize after new calls =>
      obtain ⟨_kept, zeroed, fits⟩ :=
        request_tracks tracks responseSize outcomes calls
      exact ⟨zeroed, and_congr_right fun _ => fits⟩
  | boot session kept new trial jump =>
      exact aside kept (trial.aside jump) trivial
  | confirm session kept new calls => exact aside kept calls.aside trivial
  | powerCycle => exact aside (Or.inr rfl) .nil trivial

theorem tracks_run (port : Port) (flash : Flash) (steps : List Step) :
    Tracks port
      (run (systemStep port) (System.initial flash) steps).session
      (run (systemStep port) (System.initial flash) steps).calls :=
  run_invariant
    (fun system : System => Tracks port system.session system.calls)
    tracks_initial (fun _ step tracks => (systemStep_tracks tracks step).1)
    steps

end Runs

/-- No location is programmed twice between erases exactly in the runs in
which every WRITE at offset zero stays below the payload programmed before
it. -/
theorem noDoubleProgram_iff (port : Port) (flash : Flash)
    (steps : List Step) :
    NoDoubleProgram
        (run (systemStep port) (System.initial flash) steps).calls ↔
      AllAlong (systemStep port) (HeaderFits port) (System.initial flash)
        steps := by
  induction steps using List.reverseRecOn with
  | nil => exact ⟨fun _ => AllAlong.nil, fun _ => trivial⟩
  | append_singleton steps step ih =>
      rw [run_snoc, (systemStep_tracks (tracks_run port flash steps) step).2,
        AllAlong.snoc_iff]
      exact and_congr_left' ih

/-- A payload block at offset 8 and then a header block that covers it. -/
def overlapRun : List Step :=
  [⟨.request (eraseRequest blSlotA) 64, []⟩,
    ⟨.request (writeRequest 8 (List.replicate 8 0) (by decide)) 64, []⟩,
    ⟨.request (writeRequest 0 (List.replicate 16 0) (by decide)) 64, []⟩]

theorem overlapRun_doubleProgram :
    ¬ NoDoubleProgram (run (systemStep hostPort)
      (System.initial fun _ => 0xFF) overlapRun).calls := by
  have calls : (run (systemStep hostPort)
      (System.initial fun _ => 0xFF) overlapRun).calls =
        [.erase 0x08009000 0x0001B000 .success,
          .write 0x08009008 (List.replicate 8 0) .success,
          .write 0x08009000 (List.replicate 16 0) .success] := by
    decide +kernel
  rw [calls]
  rintro ⟨_erase, _payload, header, _end⟩
  exact header 0x08009008 (by decide) (by decide)
    (Or.inr ⟨rfl, by decide, by decide⟩)

end Stm32Bootloader
