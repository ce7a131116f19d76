/-
What a metadata commit does to the two regions, interrupted or not.

A commit changes only the spare region, and whatever it leaves there is
nothing, the old contents, or a record with the fields of the new one.  The
ping-pong register then says how the metadata reads afterwards.
-/

import Stm32Bootloader.MetaRegion

namespace Stm32Bootloader

open Interruptible

/-- The region that the next commit rewrites. -/
def commitRegion (port : Port) (flash : Flash) : BlRegion :=
  port.layout.metaRegion (commitPlan port.layout flash).2

def commitRecord (port : Port) (flash : Flash)
    (activeSlot state bootAttempts : U8) : BlMeta :=
  newRecord (commitPlan port.layout flash).1 activeSlot state bootAttempts

def commitErase (port : Port) (flash : Flash) (outcome : FlashOutcome) :
    PortCall :=
  .erase (commitRegion port flash).base (commitRegion port flash).size
    outcome

def commitWrite (port : Port) (flash : Flash)
    (activeSlot state bootAttempts : U8) (outcome : FlashOutcome) :
    PortCall :=
  .write (commitRegion port flash).base
    (commitRecord port flash activeSlot state bootAttempts).toBytes outcome

/-- The calls of one commit: none when the arguments are refused, otherwise
an erase, followed by a write when the erase succeeded. -/
inductive CommitCalls (port : Port) (flash : Flash)
    (activeSlot state bootAttempts : U8) : List PortCall → Prop where
  | refused : CommitCalls port flash activeSlot state bootAttempts []
  | erased (outcome : FlashOutcome) (unfinished : outcome ≠ .success) :
      CommitCalls port flash activeSlot state bootAttempts
        [commitErase port flash outcome]
  | written (outcome : FlashOutcome) :
      CommitCalls port flash activeSlot state bootAttempts
        [commitErase port flash .success,
          commitWrite port flash activeSlot state bootAttempts outcome]

theorem commitPlan_valid (port : Port) (flash : Flash) :
    (commitPlan port.layout flash).2 < blMetaCount := by
  rw [commitPlan_eq]
  exact regionIndex_valid _

theorem commitRegion_room (port : Port) (flash : Flash) :
    16 ≤ (commitRegion port flash).size.toNat :=
  port.metaHoldsRecord _ (commitPlan_valid port flash)

theorem commitPlan_target (port : Port) (flash : Flash) :
    (commitPlan port.layout flash).2 =
      regionIndex (PingPong.spare metaRank (metaCells port.layout flash)) := by
  rw [commitPlan_eq]

private def verdict (read : Option BlMeta) (record : BlMeta) : BlResult :=
  match read with
  | none => .errFlashVerify
  | some verify =>
      if verify.seq ≠ record.seq ∨ verify.activeSlot ≠ record.activeSlot ∨
          verify.state ≠ record.state ∨
          verify.bootAttempts ≠ record.bootAttempts then .errFlashVerify
      else .ok

private theorem verdict_pure (read : Option BlMeta) (record : BlMeta) :
    (match read with
      | none => pure .errFlashVerify
      | some verify =>
          if verify.seq ≠ record.seq ∨
              verify.activeSlot ≠ record.activeSlot ∨
              verify.state ≠ record.state ∨
              verify.bootAttempts ≠ record.bootAttempts then
            pure .errFlashVerify
          else pure .ok : PortM BlResult) = pure (verdict read record) := by
  cases read with
  | none => rfl
  | some verify =>
      simp only [verdict]
      split <;> rfl

private theorem blMetaCommit_accepted (port : Port)
    (activeSlot state bootAttempts : U8) (device : Device)
    (slotOk : slotIsValid activeSlot = true)
    (stateOk : stateIsValid state = true) :
    blMetaCommit port activeSlot state bootAttempts device =
      match device.outcome with
      | .success =>
          let erased := device.called port
            (commitErase port device.flash .success)
          let written := erased.called port
            (commitWrite port device.flash activeSlot state bootAttempts
              erased.outcome)
          match erased.outcome with
          | .success =>
              .returned
                (verdict
                  (readRegion port.layout written.flash
                    (commitPlan port.layout device.flash).2)
                  (commitRecord port device.flash activeSlot state
                    bootAttempts)) written
          | .failure error => .returned error.result written
          | .powerLoss _ => .lost written
      | .failure error =>
          .returned error.result (device.called port
            (commitErase port device.flash (.failure error)))
      | .powerLoss units =>
          .lost (device.called port
            (commitErase port device.flash (.powerLoss units))) := by
  have accepted : ¬ (activeSlot ≥ blSlotCount ∨ ¬ stateIsValid state) :=
    fun refused => commitRefused_iff.mp refused ⟨slotOk, stateOk⟩
  have erasable := metaRegion_erasable port
    (commitPlan_valid port device.flash)
  unfold blMetaCommit
  rw [if_neg accepted]
  simp only [readFlash_bind]
  rw [if_neg erasable, Prog.bind_apply]
  simp only [blFlashErase]
  cases eraseOutcome : device.outcome with
  | failure error =>
      simp only [FlashOutcome.conclude]
      rw [if_pos error.result_ne_ok]
      rfl
  | powerLoss units => rfl
  | success =>
      simp only [FlashOutcome.conclude]
      rw [if_neg (fun failed : BlResult.ok ≠ .ok => failed rfl),
        Prog.bind_apply]
      simp only [blFlashWrite]
      rw [← commitRegion, ← commitErase, ← commitRecord, ← commitWrite]
      cases writeOutcome : (device.called port
          (commitErase port device.flash .success)).outcome with
      | failure error =>
          simp only [FlashOutcome.conclude]
          rw [if_pos error.result_ne_ok]
          rfl
      | powerLoss units => rfl
      | success =>
          simp only [FlashOutcome.conclude]
          rw [if_neg (fun failed : BlResult.ok ≠ .ok => failed rfl)]
          simp only [readFlash_bind]
          exact congrFun (verdict_pure _ _) _

theorem blMetaCommit_refused (port : Port)
    (activeSlot state bootAttempts : U8) (device : Device)
    (refused : ¬ (slotIsValid activeSlot = true ∧
      stateIsValid state = true)) :
    blMetaCommit port activeSlot state bootAttempts device =
      .returned .errInvalidArgument device := by
  unfold blMetaCommit
  rw [if_pos (commitRefused_iff.mpr refused), Prog.pure_apply]

theorem blMetaCommit_calls (port : Port)
    (activeSlot state bootAttempts : U8) (device : Device) :
    ∃ new, CommitCalls port device.flash activeSlot state bootAttempts new ∧
      (blMetaCommit port activeSlot state bootAttempts device).state.calls =
        device.calls ++ new ∧
      (blMetaCommit port activeSlot state bootAttempts device).state.flash =
        replay port device.flash new := by
  by_cases accepted : slotIsValid activeSlot = true ∧
      stateIsValid state = true
  · rw [blMetaCommit_accepted port _ _ _ _ accepted.1 accepted.2]
    cases device.outcome with
    | failure error => exact ⟨_, .erased _ (by simp), rfl, rfl⟩
    | powerLoss units => exact ⟨_, .erased _ (by simp), rfl, rfl⟩
    | success =>
        dsimp only
        generalize (device.called port
          (commitErase port device.flash .success)).outcome = outcome
        refine ⟨_, .written outcome, ?_⟩
        cases outcome <;>
          exact ⟨List.append_assoc _ _ _, rfl⟩
  · rw [blMetaCommit_refused port _ _ _ _ accepted]
    exact ⟨[], .refused, (List.append_nil _).symm, rfl⟩

theorem blMetaCommit_returns (port : Port)
    (activeSlot state bootAttempts : U8) (flash : Flash)
    (faults : List (Option FlashError)) (calls : List PortCall) :
    ∃ result after, blMetaCommit port activeSlot state bootAttempts
      ⟨flash, faults.map .ofFault, calls⟩ = .returned result after := by
  by_cases accepted : slotIsValid activeSlot = true ∧
      stateIsValid state = true
  · rw [blMetaCommit_accepted port _ _ _ _ accepted.1 accepted.2]
    match faults with
    | some error :: _ => exact ⟨_, _, rfl⟩
    | [] => exact ⟨_, _, rfl⟩
    | none :: [] => exact ⟨_, _, rfl⟩
    | none :: none :: _ => exact ⟨_, _, rfl⟩
    | none :: some error :: _ => exact ⟨_, _, rfl⟩
  · exact ⟨_, _, blMetaCommit_refused port _ _ _ _ accepted⟩

/-! ### The regions after a commit -/

section Commit

variable {port : Port} {flash : Flash} {activeSlot state bootAttempts : U8}
  {new : List PortCall}

theorem commitRecord_length :
    (commitRecord port flash activeSlot state bootAttempts).toBytes.length =
      16 :=
  BlMeta.toBytes_length _

theorem CommitCalls.rewrites
    (calls : CommitCalls port flash activeSlot state bootAttempts new) :
    RewriteCalls port
      (PingPong.spare metaRank (metaCells port.layout flash))
      (commitRecord port flash activeSlot state bootAttempts) new := by
  have target := commitPlan_target port flash
  cases calls with
  | refused => exact .refused
  | erased outcome unfinished =>
      rw [commitErase, commitRegion, target]
      exact .erased outcome unfinished
  | written outcome =>
      rw [commitErase, commitWrite, commitRegion, target]
      exact .written outcome

theorem CommitCalls.agreesOutside
    (calls : CommitCalls port flash activeSlot state bootAttempts new) :
    Memory.AgreesOutside (commitRegion port flash).base.toNat
      (commitRegion port flash).size.toNat flash (replay port flash new) := by
  rw [commitRegion, commitPlan_target]
  exact calls.rewrites.agreesOutside

theorem CommitCalls.otherRegion
    (calls : CommitCalls port flash activeSlot state bootAttempts new)
    (index : U32) (valid : index < blMetaCount)
    (different : index ≠ (commitPlan port.layout flash).2)
    (length : Nat)
    (within : length ≤ (port.layout.metaRegion index).size.toNat) :
    Memory.load (replay port flash new)
        (port.layout.metaRegion index).base.toNat length =
      Memory.load flash (port.layout.metaRegion index).base.toNat length := by
  have apart : (commitRegion port flash).Apart
      (port.layout.metaRegion index) := by
    unfold commitRegion
    rcases metaIndex_cases (commitPlan_valid port flash) with target | target <;>
      rcases metaIndex_cases valid with rfl | rfl <;>
      rw [target] at different ⊢
    · exact absurd rfl different
    · exact port.metaApart
    · exact port.metaApart.symm
    · exact absurd rfl different
  apply calls.agreesOutside.load
  exact (apart.symm.of_within (Nat.le_refl _)
    (Nat.add_le_add_left within _)).symm

theorem CommitCalls.cells
    (calls : CommitCalls port flash activeSlot state bootAttempts new) :
    metaCells port.layout (replay port flash new) =
      PingPong.rewriteSpare metaRank (metaCells port.layout flash)
        (readRegion port.layout (replay port flash new)
          (commitPlan port.layout flash).2) := by
  rw [commitPlan_target]
  exact calls.rewrites.cells

/-- Whatever an interruption leaves in the target region: the old contents,
nothing, or a record with the fields of the new one. -/
theorem CommitCalls.content
    (calls : CommitCalls port flash activeSlot state bootAttempts new) :
    readRegion port.layout (replay port flash new)
        (commitPlan port.layout flash).2 =
      readRegion port.layout flash (commitPlan port.layout flash).2 ∨
    readRegion port.layout (replay port flash new)
        (commitPlan port.layout flash).2 = none ∨
    ∃ found, readRegion port.layout (replay port flash new)
        (commitPlan port.layout flash).2 = some found ∧
      found.SameFields
        (commitRecord port flash activeSlot state bootAttempts) := by
  rw [commitPlan_target]
  exact calls.rewrites.content

theorem commitRecord_seq :
    (commitRecord port flash activeSlot state bootAttempts).seq =
      (commitPlan port.layout flash).1 := rfl

/-- The sequence number of the next record is one more than that of the
authoritative one, and starts at one. -/
theorem commitPlan_seq {held : BlMeta} {index : Bool}
    (found : PingPong.newest metaRank (metaCells port.layout flash) =
      some (held, index)) :
    (commitPlan port.layout flash).1 = held.seq + 1 := by
  rw [commitPlan_eq, found]

/-- The metadata reads as before a commit, or as a record with the fields of
the new one, whatever interrupted the commit. -/
theorem CommitCalls.read
    (calls : CommitCalls port flash activeSlot state bootAttempts new) :
    blMetaRead port.layout (replay port flash new) =
        blMetaRead port.layout flash ∨
      ∃ found, blMetaRead port.layout (replay port flash new) = .ok found ∧
        found.SameFields
          (commitRecord port flash activeSlot state bootAttempts) := by
  have cells := calls.cells
  rcases calls.content with old | empty | ⟨found, read, fields⟩
  · left
    have target : readRegion port.layout flash
        (commitPlan port.layout flash).2 = metaCells port.layout flash
          (PingPong.spare metaRank (metaCells port.layout flash)) := by
      rw [commitPlan_eq]
      rfl
    rw [old, target, PingPong.rewriteSpare, Function.update_eq_self] at cells
    rw [blMetaRead_eq, blMetaRead_eq, cells]
  · left
    rw [empty] at cells
    rw [blMetaRead_eq, blMetaRead_eq, cells,
      PingPong.newest_rewriteSpare_none]
  · rw [read] at cells
    cases newest : PingPong.newest metaRank (metaCells port.layout flash) with
    | none =>
        right
        have higher := PingPong.newest_rewriteSpare_higher metaRank
          (metaCells port.layout flash) found (fun held index present => by
            rw [newest] at present
            cases present)
        refine ⟨found, ?_, fields⟩
        rw [blMetaRead_eq, cells, higher]
    | some entry =>
        obtain ⟨held, index⟩ := entry
        have seqEq : found.seq = held.seq + 1 :=
          fields.1.trans (commitPlan_seq newest)
        by_cases last : held.seq = 0xFFFFFFFF
        · left
          have lower : metaRank found < metaRank held := by
            simp only [metaRank, seqEq, last]
            decide
          rw [blMetaRead_eq, blMetaRead_eq, cells,
            PingPong.newest_rewriteSpare_lower newest lower, newest]
        · right
          have higher := PingPong.newest_rewriteSpare_higher metaRank
            (metaCells port.layout flash) found
            (fun other otherIndex present => by
              rw [newest] at present
              cases present
              simp only [metaRank, seqEq]
              bv_omega)
          refine ⟨found, ?_, fields⟩
          rw [blMetaRead_eq, cells, higher]

theorem CommitCalls.reads
    (calls : CommitCalls port flash activeSlot state bootAttempts new)
    {held : BlMeta} (read : blMetaRead port.layout flash = .ok held) :
    ∃ next, blMetaRead port.layout (replay port flash new) = .ok next := by
  rcases calls.read with same | ⟨next, nextRead, _fields⟩
  · exact ⟨held, same.trans read⟩
  · exact ⟨next, nextRead⟩

end Commit

/-! ### Completed commits -/

/-- The flash after a commit whose calls both succeed. -/
def committed (port : Port) (flash : Flash)
    (activeSlot state bootAttempts : U8) : Flash :=
  replay port flash
    [commitErase port flash .success,
      commitWrite port flash activeSlot state bootAttempts .success]

theorem committed_target {port : Port} {flash : Flash}
    {activeSlot state bootAttempts : U8}
    (slotOk : slotIsValid activeSlot = true)
    (stateOk : stateIsValid state = true) :
    readRegion port.layout
        (committed port flash activeSlot state bootAttempts)
        (commitPlan port.layout flash).2 =
      some (commitRecord port flash activeSlot state bootAttempts) := by
  have written := @written_whole port flash
    (PingPong.spare metaRank (metaCells port.layout flash))
    (commitRecord port flash activeSlot state bootAttempts) .success rfl
  rw [if_pos ⟨rfl, of_decide_eq_true slotOk, stateOk⟩] at written
  unfold committed commitErase commitWrite commitRegion
  rw [commitPlan_target]
  exact written

theorem committed_cells {port : Port} {flash : Flash}
    {activeSlot state bootAttempts : U8}
    (slotOk : slotIsValid activeSlot = true)
    (stateOk : stateIsValid state = true) :
    metaCells port.layout
        (committed port flash activeSlot state bootAttempts) =
      PingPong.rewriteSpare metaRank (metaCells port.layout flash)
        (some (commitRecord port flash activeSlot state bootAttempts)) := by
  have calls : CommitCalls port flash activeSlot state bootAttempts _ :=
    .written .success
  have target : readRegion port.layout
      (committed port flash activeSlot state bootAttempts) _ = some _ :=
    committed_target slotOk stateOk
  rw [committed] at target ⊢
  rw [calls.cells, target]

theorem committed_read {port : Port} {flash : Flash}
    {activeSlot state bootAttempts : U8}
    (slotOk : slotIsValid activeSlot = true)
    (stateOk : stateIsValid state = true)
    (room : ∀ held, blMetaRead port.layout flash = .ok held →
      held.seq ≠ 0xFFFFFFFF) :
    blMetaRead port.layout
        (committed port flash activeSlot state bootAttempts) =
      .ok (commitRecord port flash activeSlot state bootAttempts) := by
  have higher := PingPong.newest_rewriteSpare_higher metaRank
    (metaCells port.layout flash)
    (commitRecord port flash activeSlot state bootAttempts)
    (fun held index newest => by
      have below := room held (blMetaRead_ok_iff.mpr ⟨index, newest⟩)
      simp only [metaRank, commitRecord_seq, commitPlan_seq newest]
      bv_omega)
  rw [blMetaRead_eq, committed_cells slotOk stateOk, higher]

/-- At the last sequence number the next one is zero, which outranks
nothing, and the old record stays authoritative. -/
theorem committed_read_last {port : Port} {flash : Flash} {held : BlMeta}
    {activeSlot state bootAttempts : U8}
    (slotOk : slotIsValid activeSlot = true)
    (stateOk : stateIsValid state = true)
    (read : blMetaRead port.layout flash = .ok held)
    (last : held.seq = 0xFFFFFFFF) :
    blMetaRead port.layout
        (committed port flash activeSlot state bootAttempts) = .ok held := by
  obtain ⟨index, newest⟩ := blMetaRead_ok_iff.mp read
  have lower : metaRank (commitRecord port flash activeSlot state
      bootAttempts) < metaRank held := by
    simp only [metaRank, commitRecord_seq, commitPlan_seq newest, last]
    decide
  rw [blMetaRead_eq, committed_cells slotOk stateOk,
    PingPong.newest_rewriteSpare_lower newest lower]

private theorem committed_verdict {port : Port} (flash : Flash)
    {activeSlot state : U8} (bootAttempts : U8)
    (slotOk : slotIsValid activeSlot = true)
    (stateOk : stateIsValid state = true) :
    verdict
      (readRegion port.layout
        (committed port flash activeSlot state bootAttempts)
        (commitPlan port.layout flash).2)
      (commitRecord port flash activeSlot state bootAttempts) = .ok := by
  have target : readRegion port.layout
      (committed port flash activeSlot state bootAttempts) _ = some _ :=
    committed_target slotOk stateOk
  rw [target]
  exact if_neg (by simp)

theorem blMetaCommit_faultFree {port : Port}
    {activeSlot state bootAttempts : U8} (device : Device)
    (slotOk : slotIsValid activeSlot = true)
    (stateOk : stateIsValid state = true)
    (faultFree : device.outcomes = []) :
    blMetaCommit port activeSlot state bootAttempts device =
      .returned .ok
        { flash := committed port device.flash activeSlot state bootAttempts
          outcomes := []
          calls := device.calls ++
            [commitErase port device.flash .success,
              commitWrite port device.flash activeSlot state bootAttempts
                .success] } := by
  obtain ⟨flash, outcomes, calls⟩ := device
  cases faultFree
  rw [blMetaCommit_accepted port _ _ _ _ slotOk stateOk]
  have verified := @committed_verdict port flash _ _ bootAttempts slotOk
    stateOk
  simp only [Device.outcome, Device.called, List.headD_nil, List.tail_nil,
    List.append_assoc, List.cons_append, List.nil_append]
  exact congrArg (fun result => Outcome.returned result _) verified

theorem blMetaCommit_succeeds {port : Port}
    {activeSlot state bootAttempts : U8} (device : Device)
    (slotOk : slotIsValid activeSlot = true)
    (stateOk : stateIsValid state = true)
    (succeed : ∀ outcome, outcome ∈ device.outcomes → outcome = .success) :
    ∃ left,
      blMetaCommit port activeSlot state bootAttempts device =
        .returned .ok
          { flash := committed port device.flash activeSlot state bootAttempts
            outcomes := left
            calls := device.calls ++
              [commitErase port device.flash .success,
                commitWrite port device.flash activeSlot state bootAttempts
                  .success] } := by
  have given : ∀ outcomes : List FlashOutcome,
      (∀ outcome, outcome ∈ outcomes → outcome = .success) →
        outcomes.headD .success = .success := by
    intro outcomes every
    cases outcomes with
    | nil => rfl
    | cons outcome later => exact every outcome List.mem_cons_self
  obtain ⟨flash, outcomes, calls⟩ := device
  have first : outcomes.headD .success = .success := given outcomes succeed
  have second : outcomes.tail.headD .success = .success :=
    given outcomes.tail fun outcome member =>
      succeed outcome (List.mem_of_mem_tail member)
  have verified := @committed_verdict port flash _ _ bootAttempts slotOk
    stateOk
  rw [blMetaCommit_accepted port _ _ _ _ slotOk stateOk]
  simp only [Device.outcome, Device.called, first, second, List.append_assoc,
    List.cons_append, List.nil_append]
  exact ⟨_, congrArg (fun result => Outcome.returned result _) verified⟩

private theorem read_unwritten (port : Port) (flash : Flash)
    (activeSlot state bootAttempts : U8) (error : FlashError) :
    blMetaRead port.layout (replay port flash
        [commitErase port flash .success,
          commitWrite port flash activeSlot state bootAttempts
            (.failure error)]) =
      blMetaRead port.layout flash := by
  have calls : CommitCalls port flash activeSlot state bootAttempts _ :=
    .written (.failure error)
  have cells := calls.cells
  have unwritten : readRegion port.layout
      (replay port flash
        [commitErase port flash .success,
          commitWrite port flash activeSlot state bootAttempts
            (.failure error)])
      (commitPlan port.layout flash).2 = none := by
    rw [commitErase, commitWrite, commitRegion, commitPlan_target]
    exact written_nothing rfl
  rw [unwritten] at cells
  rw [blMetaRead_eq, blMetaRead_eq, cells, PingPong.newest_rewriteSpare_none]

theorem blMetaCommit_failed {port : Port}
    {activeSlot state bootAttempts : U8} {device device' : Device}
    {result : BlResult}
    (ran : blMetaCommit port activeSlot state bootAttempts device =
      .returned result device') (failed : result ≠ .ok) :
    blMetaRead port.layout device'.flash =
      blMetaRead port.layout device.flash := by
  by_cases accepted : slotIsValid activeSlot = true ∧
      stateIsValid state = true
  swap
  · rw [blMetaCommit_refused port _ _ _ _ accepted] at ran
    cases ran
    rfl
  rw [blMetaCommit_accepted port _ _ _ _ accepted.1 accepted.2] at ran
  cases eraseOutcome : device.outcome with
  | failure error =>
      rw [eraseOutcome] at ran
      cases ran
      exact congrArg _ (apply_erase_failure port device.flash _ _ error)
  | powerLoss units =>
      rw [eraseOutcome] at ran
      cases ran
  | success =>
      rw [eraseOutcome] at ran
      dsimp only at ran
      cases writeOutcome : (device.called port
          (commitErase port device.flash .success)).outcome with
      | failure error =>
          rw [writeOutcome] at ran
          cases ran
          exact read_unwritten port device.flash _ _ _ error
      | powerLoss units =>
          rw [writeOutcome] at ran
          cases ran
      | success =>
          rw [writeOutcome] at ran
          obtain ⟨same, _device⟩ := Outcome.returned.inj ran
          exact absurd (same.symm.trans (committed_verdict device.flash
            bootAttempts accepted.1 accepted.2)) failed

/-! ### What a commit guarantees -/

/-- Wherever a commit stops, the metadata reads as before or as the new
record, a readable record is never lost, and the region that was
authoritative keeps every byte. -/
theorem blMetaCommit_crash_atomic (port : Port)
    (activeSlot state bootAttempts : U8) (device : Device) :
    let before := device.flash
    let after :=
      (blMetaCommit port activeSlot state bootAttempts device).state.flash
    (blMetaRead port.layout after = blMetaRead port.layout before ∨
      ∃ record, blMetaRead port.layout after = .ok record ∧
        record.SameFields
          (commitRecord port before activeSlot state bootAttempts)) ∧
    ((∃ held, blMetaRead port.layout before = .ok held) →
      ∃ held, blMetaRead port.layout after = .ok held) ∧
    ∀ held index, findNewest port.layout before = some (held, index) →
      ∀ address, (port.layout.metaRegion index).Holds address →
        after address = before address := by
  intro before after
  obtain ⟨new, calls, _log, flashEq⟩ :=
    blMetaCommit_calls port activeSlot state bootAttempts device
  have afterEq : after = replay port before new := flashEq
  rw [afterEq]
  refine ⟨calls.read, ?_, ?_⟩
  · rintro ⟨held, read⟩
    exact calls.reads read
  · intro held index newest address inside
    rw [findNewest_eq] at newest
    cases found : PingPong.newest metaRank
        (metaCells port.layout before) with
    | none => rw [found] at newest; cases newest
    | some entry =>
        rw [found] at newest
        cases newest
        have different : regionIndex entry.2 ≠
            (commitPlan port.layout before).2 := by
          rw [commitPlan_eq, PingPong.spare_ne found]
          exact fun same => Bool.not_ne_self entry.2
            (regionIndex_injective same).symm
        have kept := calls.otherRegion _ (regionIndex_valid entry.2)
          different _ (Nat.le_refl _)
        have pointwise := congrArg
          (fun bytes => bytes[address -
            (port.layout.metaRegion (regionIndex entry.2)).base.toNat]?) kept
        unfold BlRegion.Holds at inside
        rw [Memory.getElem?_load _ _ _ _ (by omega),
          Memory.getElem?_load _ _ _ _ (by omega),
          Nat.add_sub_cancel' inside.1] at pointwise
        exact Option.some.inj pointwise

/-- On flash that works, a commit succeeds and its record is read back and
supersedes the one before, unless that one carries the last sequence number;
then it stays authoritative. -/
theorem blMetaCommit_authoritative (port : Port) (flash : Flash)
    (activeSlot state bootAttempts : U8) (calls : List PortCall)
    (slotOk : slotIsValid activeSlot = true)
    (stateOk : stateIsValid state = true) :
    ∃ after,
      blMetaCommit port activeSlot state bootAttempts ⟨flash, [], calls⟩ =
        .returned .ok after ∧
      ((∀ held, blMetaRead port.layout flash = .ok held →
          held.seq ≠ 0xFFFFFFFF) →
        ∃ record, blMetaRead port.layout after.flash = .ok record ∧
          record.activeSlot = activeSlot ∧ record.state = state ∧
          record.bootAttempts = bootAttempts ∧
          ∀ held, blMetaRead port.layout flash = .ok held →
            held.seq < record.seq) ∧
      ∀ held, blMetaRead port.layout flash = .ok held →
        held.seq = 0xFFFFFFFF →
        blMetaRead port.layout after.flash = .ok held := by
  refine ⟨_, blMetaCommit_faultFree _ slotOk stateOk rfl, ?_, ?_⟩
  · intro room
    refine ⟨_, committed_read slotOk stateOk room, rfl, rfl, rfl, ?_⟩
    intro held read
    obtain ⟨index, newest⟩ := blMetaRead_ok_iff.mp read
    have below := room held read
    rw [commitRecord_seq, commitPlan_seq newest]
    bv_omega
  · intro held read last
    exact committed_read_last slotOk stateOk read last

/-- Flash whose only record confirms slot A with the last sequence number. -/
def lastSeqFlash : Flash :=
  Memory.store (fun _ => 0xFF) 0x08008000
    (newRecord 0xFFFFFFFF blSlotA blBootConfirmed 0).toBytes

theorem lastSeqFlash_read :
    blMetaRead hostLayout lastSeqFlash =
      .ok (newRecord 0xFFFFFFFF blSlotA blBootConfirmed 0) := by
  decide +kernel

/-- Flash whose records confirm slot A and then arm slot B. -/
def recordedFlash : Flash :=
  Memory.store
    (Memory.store (fun _ => 0xFF) 0x08008000
      (newRecord 1 blSlotA blBootConfirmed 0).toBytes) 0x08008800
    (newRecord 2 blSlotB blBootTrial 0).toBytes

theorem recordedFlash_read :
    blMetaRead hostLayout recordedFlash =
      .ok (newRecord 2 blSlotB blBootTrial 0) := by
  decide +kernel

/-- Another attempt of the trial supersedes the two records, but nothing
supersedes one with the last sequence number. -/
theorem blMetaCommit_authoritative_recorded :
    (∃ after record,
      blMetaCommit hostPort blSlotB blBootTrial 1 ⟨recordedFlash, [], []⟩ =
        .returned .ok after ∧
      blMetaRead hostLayout after.flash = .ok record ∧
      record.activeSlot = blSlotB ∧ record.state = blBootTrial ∧
      record.bootAttempts = 1 ∧ 2 < record.seq) ∧
    ∃ after,
      blMetaCommit hostPort blSlotB blBootTrial 0 ⟨lastSeqFlash, [], []⟩ =
        .returned .ok after ∧
      blMetaRead hostLayout after.flash =
        .ok (newRecord 0xFFFFFFFF blSlotA blBootConfirmed 0) := by
  constructor
  · obtain ⟨after, ran, superseded, _kept⟩ := blMetaCommit_authoritative
      hostPort recordedFlash blSlotB blBootTrial 1 [] (by decide) (by decide)
    have unused : ∀ held, blMetaRead hostPort.layout recordedFlash =
        .ok held → held.seq ≠ 0xFFFFFFFF := by
      intro held read
      cases recordedFlash_read.symm.trans read
      decide
    obtain ⟨record, read, slotEq, stateEq, attemptsEq, newer⟩ :=
      superseded unused
    exact ⟨after, record, ran, read, slotEq, stateEq, attemptsEq,
      newer _ recordedFlash_read⟩
  · obtain ⟨after, ran, _superseded, kept⟩ := blMetaCommit_authoritative
      hostPort lastSeqFlash blSlotB blBootTrial 0 [] (by decide) (by decide)
    exact ⟨after, ran, kept _ lastSeqFlash_read rfl⟩

theorem blMetaCommit_last_seq_ignored :
    ∃ after,
      blMetaCommit hostPort blSlotB blBootTrial 0 ⟨lastSeqFlash, [], []⟩ =
        .returned .ok after ∧
      ¬ ∃ record, blMetaRead hostLayout after.flash = .ok record ∧
        record.activeSlot = blSlotB ∧ record.state = blBootTrial ∧
        record.bootAttempts = 0 := by
  refine ⟨_, blMetaCommit_faultFree _ (by decide) (by decide) rfl, ?_⟩
  rintro ⟨record, read, slotEq, _stateEq, _attemptsEq⟩
  have kept : blMetaRead hostLayout
      (committed hostPort lastSeqFlash blSlotB blBootTrial 0) =
        .ok (newRecord 0xFFFFFFFF blSlotA blBootConfirmed 0) :=
    @committed_read_last hostPort _ _ _ _ _ (by decide) (by decide)
      lastSeqFlash_read (by decide)
  dsimp only at read
  rw [kept] at read
  cases read
  exact absurd slotEq (by decide)

end Stm32Bootloader
