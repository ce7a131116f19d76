/-
Histories of commits and erases of the metadata, on a flash whose calls may
all fail.

As long as a commit sees the records that there are, the two regions hold
consecutive sequence numbers.  A commit that sees no record starts over at
one, beside whatever record it could not read.
-/

import Stm32Bootloader.FallibleRead
import Stm32Bootloader.Library.TransitionRun

namespace Stm32Bootloader

open Interruptible FallibleRead LittleEndian ShiftRegister TransitionRun

inductive MetaOp where
  | commit (activeSlot state bootAttempts : U8)
  | eraseAll
  deriving DecidableEq, Repr

/-- A call, and how its reads and its erase and program calls end. -/
structure MetaStep where
  op : MetaOp
  reads : List (Option FlashError)
  outcomes : List FlashOutcome
  deriving DecidableEq, Repr

/-- Power that is lost during a call leaves the flash that it has reached. -/
def metaStep (port : Port) (flash : Flash) (step : MetaStep) : Flash :=
  let device : Device := ⟨flash, step.outcomes, []⟩
  match step.op with
  | .commit activeSlot state bootAttempts =>
      (FallibleRead.blMetaCommit port activeSlot state bootAttempts
        ⟨device, step.reads⟩).state.device.flash
  | .eraseAll => (blMetaEraseAll port device).state.flash

/-- Two valid records have consecutive sequence numbers, modulo 2 ^ 32. -/
def Unambiguous (layout : BlLayout) (flash : Flash) : Prop :=
  ∀ first second, readRegion layout flash 0 = some first →
    readRegion layout flash 1 = some second →
      first.seq = second.seq + 1 ∨ second.seq = first.seq + 1

def MetaErased (port : Port) (flash : Flash) : Prop :=
  ∀ index, index < blMetaCount →
    ∀ address, (port.layout.metaRegion index).Holds address →
      flash address = 0xFF

/-- A commit that goes through although it has seen no record: the second
region holds one, its read fails, and the first region holds none or cannot
be read either.  A record with the number zero or two is next to the new one
by chance. -/
structure Overlooks (port : Port) (flash : Flash) (step : MetaStep) :
    Prop where
  accepted : ∃ activeSlot state bootAttempts,
    step.op = .commit activeSlot state bootAttempts ∧
      slotIsValid activeSlot = true ∧ stateIsValid state = true
  unseen : (step.reads.getD 1 none).isSome = true
  alone : readRegion port.layout flash 0 = none ∨
    (step.reads.getD 0 none).isSome = true
  present : ∃ held, readRegion port.layout flash 1 = some held ∧
    held.seq ≠ 0 ∧ held.seq ≠ 2
  erases : step.outcomes.headD .success = .success
  programs : (step.outcomes.tail.headD .success).extent 8 16 = 16

/-! ### One call -/

theorem Unambiguous.of_cells {layout : BlLayout} {before after : Flash}
    (unambiguous : Unambiguous layout before)
    (kept : ∀ second, metaCells layout after second =
        metaCells layout before second ∨
      metaCells layout after second = none) :
    Unambiguous layout after := by
  intro first second firstRead secondRead
  refine unambiguous first second ?_ ?_
  · rcases kept false with same | gone
    · exact same.symm.trans firstRead
    · exact absurd (gone.symm.trans firstRead) (by simp)
  · rcases kept true with same | gone
    · exact same.symm.trans secondRead
    · exact absurd (gone.symm.trans secondRead) (by simp)

theorem blMetaEraseAll_unambiguous {port : Port} {flash : Flash}
    (unambiguous : Unambiguous port.layout flash)
    (outcomes : List FlashOutcome) :
    Unambiguous port.layout
      (blMetaEraseAll port ⟨flash, outcomes, []⟩).state.flash := by
  obtain ⟨idle, between, both⟩ :=
    blMetaEraseAll_cells port ⟨flash, outcomes, []⟩
  refine unambiguous.of_cells fun second => ?_
  by_cases effective : (Device.mk flash outcomes []).outcome.Effective
  swap
  · exact Or.inl (congrFun (idle effective) second)
  by_cases stops : (Device.mk flash outcomes []).StopsBetween
  · rw [between stops]
    cases second with
    | false => exact Or.inr (Function.update_self _ _ _)
    | true => exact Or.inl (Function.update_of_ne (by decide) _ _)
  · exact Or.inr (both effective stops second)

/-- The only four bytes that would make a checksum of erased flash right are
not the fields of a record. -/
theorem firstRecord_torn {layout : BlLayout} {flash : Flash} {index : U32}
    {activeSlot state bootAttempts : U8}
    (torn : Memory.load flash (layout.metaRegion index).base.toNat 16 =
      (newRecord 1 activeSlot state bootAttempts).toBytes.take 8 ++
        List.replicate 8 0xFF) :
    readRegion layout flash index = none := by
  cases read : readRegion layout flash index with
  | none => rfl
  | some found =>
      exfalso
      have residue := readRegion_residue read
      have fields : (newRecord 1 activeSlot state bootAttempts).toBytes.take 8 =
          [1, 0, 0, 0] ++ [activeSlot, state, bootAttempts, 0] := by
        have number : bytes32 1#32 = [1, 0, 0, 0] := by decide
        simp [newRecord, BlMeta.toBytes, BlMeta.coveredBytes, number]
      have differs : [activeSlot, state, bootAttempts, 0] ≠
          [0xE4, 0xB2, 0x21, 0xF4] := by
        simp
      have intact : blCrc32 0 ([1, 0, 0, 0] ++ [0xE4, 0xB2, 0x21, 0xF4] ++
          List.replicate 8 0xFF) = crcResidue := by
        decide +kernel
      have burst := Burst.intro [1, 0, 0, 0] [0xE4, 0xB2, 0x21, 0xF4]
        [activeSlot, state, bootAttempts, 0] (List.replicate 8 0xFF) rfl
        (show 4 ≤ 4 from Nat.le_refl 4) differs
      rw [torn, fields] at residue
      exact blCrc32_burst_residue burst intact residue

section Rewrite

variable {port : Port} {flash : Flash} {second : Bool} {record held : BlMeta}
  {new : List PortCall}

theorem Unambiguous.of_content
    (unambiguous : Unambiguous port.layout flash)
    (calls : RewriteCalls port second record new)
    (content : readRegion port.layout (replay port flash new)
          (regionIndex second) =
        readRegion port.layout flash (regionIndex second) ∨
      readRegion port.layout (replay port flash new)
          (regionIndex second) = none) :
    Unambiguous port.layout (replay port flash new) := by
  refine unambiguous.of_cells fun index => ?_
  rw [calls.cells]
  by_cases target : index = second
  · rw [target, Function.update_self]
    exact content
  · exact Or.inl (Function.update_of_ne target _ _)

theorem Unambiguous.of_next (unambiguous : Unambiguous port.layout flash)
    (calls : RewriteCalls port (!second) record new)
    (other : metaCells port.layout flash second = some held)
    (next : record.seq = held.seq + 1) :
    Unambiguous port.layout (replay port flash new) := by
  have cells := @RewriteCalls.cells port flash (!second) record new calls
  rcases @RewriteCalls.content port flash (!second) record new calls with
    old | empty | ⟨found, read, fields⟩
  · exact unambiguous.of_content calls (Or.inl old)
  · exact unambiguous.of_content calls (Or.inr empty)
  · have after : metaCells port.layout (replay port flash new) second =
        some held := by
      rw [cells, Function.update_of_ne (by simp), other]
    have number : found.seq = held.seq + 1 := fields.1.trans next
    intro left right leftRead rightRead
    cases second with
    | false =>
        cases leftRead.symm.trans after
        cases rightRead.symm.trans read
        exact Or.inr number
    | true =>
        cases leftRead.symm.trans read
        cases rightRead.symm.trans after
        exact Or.inl number

end Rewrite

theorem visible_none {reads : List (Option FlashError)} {index : Nat}
    {record : Option BlMeta} :
    visible reads index record = none ↔
      record = none ∨ (reads.getD index none).isSome = true := by
  unfold visible
  split
  · exact iff_of_true rfl (Or.inr ‹_›)
  · exact (or_iff_left ‹_›).symm

theorem visible_some {reads : List (Option FlashError)} {index : Nat}
    {record : Option BlMeta} {held : BlMeta}
    (seen : visible reads index record = some held) : record = some held := by
  unfold visible at seen
  split at seen
  · cases seen
  · exact seen

theorem firstRecord_unambiguous_iff {port : Port} {flash : Flash}
    {held : BlMeta} (unambiguous : Unambiguous port.layout flash)
    (present : readRegion port.layout flash 1 = some held)
    {activeSlot state bootAttempts : U8}
    (slotOk : slotIsValid activeSlot = true)
    (stateOk : stateIsValid state = true) (outcomes : List FlashOutcome) :
    Unambiguous port.layout (replay port flash
        (rewriteBy port false (newRecord 1 activeSlot state bootAttempts)
          outcomes)) ↔
      ¬ ((held.seq ≠ 0 ∧ held.seq ≠ 2) ∧
        outcomes.headD .success = .success ∧
        (outcomes.tail.headD .success).extent 8 16 = 16) := by
  have calls := rewriteBy_rewrites port false
    (newRecord 1 activeSlot state bootAttempts) outcomes
  by_cases erases : outcomes.headD .success = .success
  swap
  · refine iff_of_true (unambiguous.of_content calls ?_)
      fun lands => erases lands.2.1
    have self := metaEraseCall_self port flash false (outcomes.headD .success)
    unfold rewriteBy
    rw [if_neg erases]
    split at self
    · exact Or.inr self
    · exact Or.inl self
  have made : rewriteBy port false
      (newRecord 1 activeSlot state bootAttempts) outcomes =
        [metaEraseCall port false .success,
          metaWriteCall port false
            (newRecord 1 activeSlot state bootAttempts)
            (outcomes.tail.headD .success)] := if_pos erases
  rw [made] at calls ⊢
  generalize outcomes.tail.headD .success = outcome at calls ⊢
  rcases extent_granules outcome with nothing | torn | whole
  · refine iff_of_true (unambiguous.of_content calls
      (Or.inr (written_nothing nothing))) fun lands => ?_
    rw [nothing] at lands
    exact absurd lands.2.2 (by decide)
  · refine iff_of_true (unambiguous.of_content calls
      (Or.inr (firstRecord_torn (written_torn torn)))) fun lands => ?_
    rw [torn] at lands
    exact absurd lands.2.2 (by decide)
  · have first := @written_whole port flash false
      (newRecord 1 activeSlot state bootAttempts) outcome whole
    rw [if_pos ⟨rfl, of_decide_eq_true slotOk, stateOk⟩] at first
    have cells := @RewriteCalls.cells port flash false _ _ calls
    have kept := (congrFun cells true).trans
      (Function.update_of_ne (by decide) _ _)
    rw [and_iff_left ⟨erases, whole⟩, not_and_or, not_not, not_not]
    constructor
    · intro consecutive
      rcases consecutive _ held first (kept.trans present) with above | below
      · have number : (1 : U32) = held.seq + 1 := above
        left
        bv_omega
      · have number : held.seq = (1 : U32) + 1 := below
        exact Or.inr number
    · intro near left right leftRead rightRead
      cases leftRead.symm.trans first
      cases rightRead.symm.trans (kept.trans present)
      rcases near with zero | two
      · left
        rw [zero]
        rfl
      · right
        rw [two]
        rfl

theorem Overlooks.newest {port : Port} {flash : Flash} {step : MetaStep}
    (overlooks : Overlooks port flash step) :
    PingPong.newest metaRank (visibleCells port.layout flash step.reads) =
      none := by
  cases newest : PingPong.newest metaRank
      (visibleCells port.layout flash step.reads) with
  | none => rfl
  | some entry =>
      obtain ⟨held, index⟩ := entry
      have seen := PingPong.newest_cell newest
      have unseen :
          visibleCells port.layout flash step.reads index = none := by
        cases index with
        | false => exact visible_none.mpr overlooks.alone
        | true => exact visible_none.mpr (Or.inr overlooks.unseen)
      exact absurd (seen.symm.trans unseen) (by simp)

theorem unseenCommit_unambiguous_iff {port : Port} {flash : Flash}
    (unambiguous : Unambiguous port.layout flash)
    {activeSlot state bootAttempts : U8}
    (slotOk : slotIsValid activeSlot = true)
    (stateOk : stateIsValid state = true)
    {reads : List (Option FlashError)} {outcomes : List FlashOutcome}
    (newest : PingPong.newest metaRank
      (visibleCells port.layout flash reads) = none) :
    Unambiguous port.layout (replay port flash
        (rewriteBy port false (newRecord 1 activeSlot state bootAttempts)
          outcomes)) ↔
      ¬ Overlooks port flash
        ⟨.commit activeSlot state bootAttempts, reads, outcomes⟩ := by
  have alone : readRegion port.layout flash 0 = none ∨ _ :=
    visible_none.mp (PingPong.newest_none newest false)
  have second : readRegion port.layout flash 1 = none ∨ _ :=
    visible_none.mp (PingPong.newest_none newest true)
  cases present : readRegion port.layout flash 1 with
  | none =>
      have calls := rewriteBy_rewrites port false
        (newRecord 1 activeSlot state bootAttempts) outcomes
      have kept := readRegion_other port false
        (@RewriteCalls.agreesOutside port flash _ _ _ calls)
      refine iff_of_true (fun left right _ rightRead => ?_)
        fun overlooks => ?_
      · exact absurd (rightRead.symm.trans (kept.trans present)) (by simp)
      · obtain ⟨held, holds, _⟩ := overlooks.present
        exact absurd (holds.symm.trans present) (by simp)
  | some held =>
      have unseen := second.resolve_left (by rw [present]; simp)
      refine (firstRecord_unambiguous_iff unambiguous present slotOk stateOk
        outcomes).trans (not_congr ?_)
      constructor
      · rintro ⟨apart, erases, programs⟩
        exact ⟨⟨_, _, _, rfl, slotOk, stateOk⟩, unseen, alone,
          ⟨held, present, apart⟩, erases, programs⟩
      · intro overlooks
        obtain ⟨other, holds, apart⟩ := overlooks.present
        cases present.symm.trans holds
        exact ⟨apart, overlooks.erases, overlooks.programs⟩

/-- One call keeps the records unambiguous unless it overlooks one. -/
theorem metaStep_unambiguous_iff {port : Port} {flash : Flash}
    (unambiguous : Unambiguous port.layout flash) (step : MetaStep) :
    Unambiguous port.layout (metaStep port flash step) ↔
      ¬ Overlooks port flash step := by
  obtain ⟨op, reads, outcomes⟩ := step
  cases op with
  | eraseAll =>
      refine iff_of_true (blMetaEraseAll_unambiguous unambiguous outcomes) ?_
      rintro ⟨⟨_, _, _, impossible, _⟩, _⟩
      cases impossible
  | commit activeSlot state bootAttempts =>
      by_cases accepted : slotIsValid activeSlot = true ∧
          stateIsValid state = true
      swap
      · have refused := FallibleRead.blMetaCommit_refused port bootAttempts
          accepted ⟨⟨flash, outcomes, []⟩, reads⟩
        refine iff_of_true ?_ ?_
        · unfold metaStep
          dsimp only
          rw [refused]
          exact unambiguous
        · rintro ⟨⟨_, _, _, same, slotOk, stateOk⟩, _⟩
          cases same
          exact accepted ⟨slotOk, stateOk⟩
      have after := blMetaCommit_flash port bootAttempts accepted.1 accepted.2
        ⟨⟨flash, outcomes, []⟩, reads⟩
      change metaStep port flash
        ⟨.commit activeSlot state bootAttempts, reads, outcomes⟩ = _ at after
      rw [after]
      dsimp only
      unfold plan
      cases newest : PingPong.newest metaRank
          (visibleCells port.layout flash reads) with
      | some entry =>
          obtain ⟨held, index⟩ := entry
          have seen := PingPong.newest_cell newest
          refine iff_of_true (unambiguous.of_next
            (rewriteBy_rewrites port _ _ outcomes) (visible_some seen) rfl)
            fun overlooks => ?_
          exact absurd (newest.symm.trans overlooks.newest) (by simp)
      | none =>
          exact unseenCommit_unambiguous_iff unambiguous accepted.1
            accepted.2 newest

/-! ### Histories -/

theorem MetaErased.unambiguous {port : Port} {flash : Flash}
    (erased : MetaErased port flash) : Unambiguous port.layout flash := by
  have empty : readRegion port.layout flash 0 = none := by
    have room := port.metaHoldsRecord 0 (by decide)
    refine readRegion_erased ?_
    rw [List.eq_replicate_iff]
    refine ⟨Memory.load_length _ _ _, fun byte member => ?_⟩
    obtain ⟨index, within, rfl⟩ := List.mem_map.mp member
    have inside := List.mem_range.mp within
    refine erased 0 (by decide) _ ⟨Nat.le_add_right _ _, ?_⟩
    exact Nat.add_lt_add_left (Nat.lt_of_lt_of_le inside room) _
  intro first _second read
  rw [empty] at read
  cases read

/-- From erased metadata on, two valid records have consecutive numbers in
every state that is reached, exactly when no commit on the way has overlooked
a record. -/
theorem metaHistory_unambiguous_iff {port : Port} {flash : Flash}
    (erased : MetaErased port flash) (steps : List MetaStep) :
    (∀ earlier, earlier <+: steps →
      Unambiguous port.layout (run (metaStep port) flash earlier)) ↔
      AllAlong (metaStep port)
        (fun flash step => ¬ Overlooks port flash step) flash steps :=
  AllAlong.invariant_iff erased.unambiguous
    (fun _ step unambiguous => metaStep_unambiguous_iff unambiguous step)
    steps

/-- While the second region can be read, it does not matter how erases and
writes fail or are cut, nor how the read-back ends. -/
theorem metaHistory_readable {port : Port} {flash : Flash}
    (erased : MetaErased port flash) {steps : List MetaStep}
    (readable : ∀ step, step ∈ steps → step.reads.getD 1 none = none) :
    Unambiguous port.layout (run (metaStep port) flash steps) := by
  have along : AllAlong (metaStep port)
      (fun _ step => step.reads.getD 1 none = none) flash steps := by
    rintro earlier next later rfl
    exact readable next (by simp)
  refine along.invariant _ erased.unambiguous
    fun flash step unambiguous reads => ?_
  refine (metaStep_unambiguous_iff unambiguous step).mpr fun overlooks => ?_
  have unseen := overlooks.unseen
  rw [reads] at unseen
  cases unseen

/-- A commit, and one whose write is cut after the first granule. -/
theorem metaHistory_unambiguous_iff_torn :
    (∀ earlier, earlier <+:
        [⟨.commit blSlotA blBootConfirmed 0, [], []⟩,
          ⟨.commit blSlotB blBootTrial 0, [], [.success, .powerLoss 1]⟩] →
      Unambiguous hostPort.layout
        (run (metaStep hostPort) (fun _ => 0xFF) earlier)) ↔
      AllAlong (metaStep hostPort)
        (fun flash step => ¬ Overlooks hostPort flash step) (fun _ => 0xFF)
        [⟨.commit blSlotA blBootConfirmed 0, [], []⟩,
          ⟨.commit blSlotB blBootTrial 0, [], [.success, .powerLoss 1]⟩] :=
  metaHistory_unambiguous_iff (fun _ _ _ _ => rfl) _

/-- Four commits, one whose program call fails after its erase, and one that
cannot read the record that is left. -/
def overlookedHistory : List MetaStep :=
  List.replicate 4 ⟨.commit blSlotA blBootConfirmed 0, [], []⟩ ++
    [⟨.commit blSlotB blBootTrial 0, [], [.success, .failure .program]⟩,
      ⟨.commit blSlotB blBootTrial 0, [none, some .verify], []⟩]

theorem overlookedHistory_reads :
    let flash := run (metaStep hostPort) (fun _ => 0xFF) overlookedHistory
    readRegion hostPort.layout flash 0 =
        some (newRecord 1 blSlotB blBootTrial 0) ∧
      readRegion hostPort.layout flash 1 =
        some (newRecord 4 blSlotA blBootConfirmed 0) := by
  decide +kernel

theorem overlookedHistory_ambiguous :
    ¬ ∀ (port : Port) (flash : Flash), MetaErased port flash →
      ∀ steps earlier : List MetaStep, earlier <+: steps →
        Unambiguous port.layout (run (metaStep port) flash earlier) := by
  intro always
  obtain ⟨first, second⟩ := overlookedHistory_reads
  have consecutive := always hostPort (fun _ => 0xFF) (fun _ _ _ _ => rfl)
    overlookedHistory overlookedHistory (List.prefix_refl _) _ _ first second
  exact absurd consecutive (by decide)

end Stm32Bootloader
