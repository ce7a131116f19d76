/-
How often the two metadata pages are erased.

A commit erases the spare page, and a record that it leaves there makes the
pages change places.  So over any run the erases alternate between the pages,
except for those of commits that went wrong, and the sequence number counts
them.
-/

import Stm32Bootloader.DoubleProgram
import Stm32Bootloader.Trial

namespace Stm32Bootloader

open Memory PingPong TransitionRun

/-! ### Counting calls -/

def PortCall.ErasesAt (base : U32) : PortCall → Prop
  | .erase address _ _ => address = base
  | _ => False

/-- The call failed or was cut off. -/
def PortCall.DisturbedAt (base : U32) : PortCall → Prop
  | .erase address _ outcome | .write address _ outcome =>
      address = base ∧ outcome ≠ .success
  | .jump _ => False

instance (base : U32) : DecidablePred (PortCall.ErasesAt base)
  | .erase address _ _ => inferInstanceAs (Decidable (address = base))
  | .write _ _ _ => .isFalse id
  | .jump _ => .isFalse id

instance (base : U32) : DecidablePred (PortCall.DisturbedAt base)
  | .erase address _ outcome =>
      inferInstanceAs (Decidable (address = base ∧ outcome ≠ .success))
  | .write address _ outcome =>
      inferInstanceAs (Decidable (address = base ∧ outcome ≠ .success))
  | .jump _ => .isFalse id

def metaBase (port : Port) (second : Bool) : U32 :=
  (port.layout.metaRegion (regionIndex second)).base

def metaErases (port : Port) (calls : List PortCall) (second : Bool) : Nat :=
  calls.countP (PortCall.ErasesAt (metaBase port second))

/-- The erases and writes of metadata that did not succeed. -/
def metaFaults (port : Port) (calls : List PortCall) : Nat :=
  calls.countP fun call => call.DisturbedAt (metaBase port false) ∨
    call.DisturbedAt (metaBase port true)

section Counts

variable {port : Port}

theorem metaErases_append (calls new : List PortCall) (second : Bool) :
    metaErases port (calls ++ new) second =
      metaErases port calls second + metaErases port new second :=
  List.countP_append

theorem metaFaults_append (calls new : List PortCall) :
    metaFaults port (calls ++ new) =
      metaFaults port calls + metaFaults port new :=
  List.countP_append

theorem metaBase_ne (port : Port) (second : Bool) :
    metaBase port second ≠ metaBase port (!second) := by
  have apart := port.metaApart
  have first := port.metaHoldsRecord 0 (by decide)
  have other := port.metaHoldsRecord 1 (by decide)
  have size : BlMeta.byteSize = 16 := rfl
  unfold BlRegion.Apart Memory.Apart at apart
  have distinct : (port.layout.metaRegion 0).base ≠
      (port.layout.metaRegion 1).base := by
    intro same
    rw [same] at apart
    omega
  cases second
  · exact distinct
  · exact distinct.symm

def PortCall.SparesMeta (port : Port) : PortCall → Prop
  | .erase address _ _ | .write address _ _ =>
      ∀ second, address ≠ metaBase port second
  | .jump _ => True

theorem PortCall.SparesMeta.quiet {call : PortCall}
    (spared : call.SparesMeta port) (second : Bool) :
    ¬ call.ErasesAt (metaBase port second) ∧
      ¬ call.DisturbedAt (metaBase port second) := by
  cases call with
  | erase address length outcome =>
      exact ⟨spared second, fun both => spared second both.1⟩
  | write address data outcome =>
      exact ⟨id, fun both => spared second both.1⟩
  | jump target => exact ⟨id, id⟩

theorem spared_counts {new : List PortCall}
    (spared : ∀ call, call ∈ new → call.SparesMeta port) :
    (∀ second, metaErases port new second = 0) ∧ metaFaults port new = 0 := by
  constructor
  · intro second
    refine List.countP_eq_zero.mpr fun call made => ?_
    rw [decide_eq_true_eq]
    exact ((spared call made).quiet second).1
  · refine List.countP_eq_zero.mpr fun call made => ?_
    rw [decide_eq_true_eq]
    rintro (first | other)
    · exact ((spared call made).quiet false).2 first
    · exact ((spared call made).quiet true).2 other

end Counts

/-! ### Commits -/

section Commit

variable {port : Port} {flash : Flash} {slot state attempts : U8}
  {new : List PortCall}

/-- The metadata page that the next commit erases. -/
def metaSpare (port : Port) (flash : Flash) : Bool :=
  spare metaRank (metaCells port.layout flash)

/-- The sequence number in force, zero without metadata. -/
def metaLevel (port : Port) (flash : Flash) : Nat :=
  level metaRank (metaCells port.layout flash)

theorem commitPlan_level (room : metaLevel port flash + 1 < 2 ^ 32) :
    (commitPlan port.layout flash).1.toNat = metaLevel port flash + 1 := by
  unfold metaLevel level at room ⊢
  rw [commitPlan_eq]
  cases found : newest metaRank (metaCells port.layout flash) with
  | none => rfl
  | some entry =>
      obtain ⟨held, index⟩ := entry
      rw [found] at room
      dsimp only [metaRank] at room ⊢
      rw [BitVec.toNat_add]
      exact Nat.mod_eq_of_lt room

theorem commitRegion_base :
    (commitRegion port flash).base = metaBase port (metaSpare port flash) := by
  unfold commitRegion
  rw [commitPlan_target]
  rfl

/-- Whatever becomes of a commit, the pages have changed places under the next
sequence number or are as they were. -/
theorem CommitCalls.moves (room : metaLevel port flash + 1 < 2 ^ 32)
    (commit : CommitCalls port flash slot state attempts new) :
    (metaSpare port (replay port flash new) = (!metaSpare port flash) ∧
        metaLevel port (replay port flash new) =
          metaLevel port flash + 1) ∨
      (metaSpare port (replay port flash new) = metaSpare port flash ∧
        metaLevel port (replay port flash new) =
          metaLevel port flash) := by
  have cells := commit.cells
  unfold metaSpare metaLevel
  rcases commit.content with old | empty | ⟨found, read, fields⟩
  · have own : readRegion port.layout flash (commitPlan port.layout flash).2 =
        metaCells port.layout flash
          (spare metaRank (metaCells port.layout flash)) := by
      rw [commitPlan_target]
      rfl
    rw [old, own, rewriteSpare, Function.update_eq_self] at cells
    rw [cells]
    exact Or.inr ⟨rfl, rfl⟩
  · rw [empty] at cells
    rw [cells]
    exact Or.inr (rewriteSpare_none _)
  · rw [read] at cells
    rw [cells]
    have follows : metaRank found =
        level metaRank (metaCells port.layout flash) + 1 := by
      unfold metaRank
      rw [fields.1, commitRecord_seq]
      exact commitPlan_level room
    exact Or.inl (rewriteSpare_next metaRank _ follows)

theorem committed_moves (slotOk : slotIsValid slot = true)
    (stateOk : stateIsValid state = true)
    (room : metaLevel port flash + 1 < 2 ^ 32) :
    metaSpare port (committed port flash slot state attempts) =
        (!metaSpare port flash) ∧
      metaLevel port (committed port flash slot state attempts) =
        metaLevel port flash + 1 := by
  unfold metaSpare metaLevel
  rw [committed_cells slotOk stateOk]
  exact rewriteSpare_next metaRank _ (commitPlan_level room)

theorem metaErases_cons (call : PortCall) (later : List PortCall)
    (second : Bool) :
    metaErases port (call :: later) second = metaErases port later second +
      if call.ErasesAt (metaBase port second) then 1 else 0 := by
  unfold metaErases
  rw [List.countP_cons]
  simp only [decide_eq_true_eq]

theorem metaFaults_disturbed {calls : List PortCall} {call : PortCall}
    {second : Bool} (made : call ∈ calls)
    (disturbed : call.DisturbedAt (metaBase port second)) :
    1 ≤ metaFaults port calls := by
  refine List.countP_pos_iff.mpr ⟨call, made, ?_⟩
  rw [decide_eq_true_eq]
  cases second
  · exact Or.inl disturbed
  · exact Or.inr disturbed

theorem CommitCalls.costs
    (commit : CommitCalls port flash slot state attempts new) :
    new = [] ∨
      metaErases port new (metaSpare port flash) = 1 ∧
        metaErases port new (!metaSpare port flash) = 0 := by
  have target := @commitRegion_base port flash
  have different := metaBase_ne port (metaSpare port flash)
  have erased : ∀ {outcome : FlashOutcome} {later : List PortCall},
      (∀ second, metaErases port later second = 0) →
      metaErases port (commitErase port flash outcome :: later)
          (metaSpare port flash) = 1 ∧
        metaErases port (commitErase port flash outcome :: later)
          (!metaSpare port flash) = 0 := by
    intro outcome later quiet
    rw [metaErases_cons, metaErases_cons, quiet, quiet, Nat.zero_add,
      Nat.zero_add]
    exact ⟨if_pos target, if_neg fun same =>
      different (target.symm.trans same)⟩
  cases commit with
  | refused => exact Or.inl rfl
  | erased outcome unfinished => exact Or.inr (erased fun _ => rfl)
  | written outcome => exact Or.inr (erased fun _ => rfl)

theorem CommitCalls.takes (slotOk : slotIsValid slot = true)
    (stateOk : stateIsValid state = true)
    (room : metaLevel port flash + 1 < 2 ^ 32)
    (commit : CommitCalls port flash slot state attempts new)
    (made : new ≠ []) :
    (metaSpare port (replay port flash new) = (!metaSpare port flash) ∧
        metaLevel port (replay port flash new) =
          metaLevel port flash + 1) ∨
      ((metaSpare port (replay port flash new) = metaSpare port flash ∧
        metaLevel port (replay port flash new) = metaLevel port flash) ∧
        1 ≤ metaFaults port new) := by
  have target := @commitRegion_base port flash
  have moves := commit.moves room
  cases commit with
  | refused => exact absurd rfl made
  | erased outcome unfinished =>
      exact moves.imp_right fun stays => ⟨stays,
        metaFaults_disturbed List.mem_cons_self ⟨target, unfinished⟩⟩
  | written outcome =>
      by_cases success : outcome = .success
      · subst success
        exact Or.inl (committed_moves slotOk stateOk room)
      · exact moves.imp_right fun stays => ⟨stays,
          metaFaults_disturbed (List.mem_cons_of_mem _ List.mem_cons_self)
            ⟨target, success⟩⟩

end Commit

/-! ### Steps -/

/-- What a step costs the metadata: nothing, or one commit. -/
inductive MetaCalls (port : Port) (flash : Flash) : List PortCall → Prop where
  | spared (new : List PortCall)
      (spared : ∀ call, call ∈ new → call.SparesMeta port)
      (kept : metaCells port.layout (replay port flash new) =
        metaCells port.layout flash) :
      MetaCalls port flash new
  | commit (slot state attempts : U8) (slotOk : slotIsValid slot = true)
      (stateOk : stateIsValid state = true) (new : List PortCall)
      (commit : CommitCalls port flash slot state attempts new)
      (jump : Option U32) :
      MetaCalls port flash (new ++ jump.toList.map PortCall.jump)

section Steps

variable {port : Port} {flash : Flash} {system : System}

theorem MetaCalls.jump (jump : Option U32) :
    MetaCalls port flash (jump.toList.map PortCall.jump) := by
  refine .spared _ (fun call made => ?_) (by rw [replay_jump])
  obtain ⟨address, _taken, rfl⟩ := List.mem_map.mp made
  trivial

theorem CommitCalls.metaCalls {slot state attempts : U8}
    {new : List PortCall} (slotOk : slotIsValid slot = true)
    (stateOk : stateIsValid state = true)
    (commit : CommitCalls port flash slot state attempts new) :
    MetaCalls port flash new := by
  have alone := MetaCalls.commit slot state attempts slotOk stateOk new
    commit none
  rw [Option.toList_none, List.map_nil, List.append_nil] at alone
  exact alone

theorem metaBase_outside {slot : U8} (slotOk : slotIsValid slot = true)
    {address : U32} (inside : (port.layout.slot slot).Holds address.toNat)
    (second : Bool) : address ≠ metaBase port second := by
  have valid := regionIndex_valid second
  have apart := port.slotMetaApart slot _ slotOk valid
  have size := port.metaHoldsRecord _ valid
  have positive : BlMeta.byteSize = 16 := rfl
  unfold BlRegion.Holds at inside
  unfold BlRegion.Apart Memory.Apart at apart
  rintro rfl
  unfold metaBase at inside
  omega

theorem RequestCalls.metaCalls {session after : BlSession}
    {request : BlFrame} {new : List PortCall} {status : Option BlResult}
    (targetOk : slotIsValid session.targetSlot = true)
    (calls : RequestCalls port session flash request after new status) :
    MetaCalls port flash new := by
  have nothing : MetaCalls port flash [] :=
    .spared [] (fun _ made => by cases made) rfl
  cases calls with
  | refused status failed unadmitted => exact nothing
  | answered isQuery status => exact nothing
  | reset isReset => exact nothing
  | erase slot erases slotOk outcome =>
      refine .spared _ (fun call made => ?_) ?_
      · obtain rfl := List.mem_singleton.mp made
        have size := port.slotHoldsImage slot slotOk
        exact metaBase_outside slotOk ⟨Nat.le_refl _, by omega⟩
      · exact metaCells_outside slotOk
          (apply_erase_agreesOutside port flash _ _ outcome)
  | write admitted outcome =>
      have address := writeCall_address admitted targetOk
      have positive := writeLength_positive admitted
      have bound := admitted.inside
      refine .spared _ (fun call made => ?_) ?_
      · obtain rfl := List.mem_singleton.mp made
        exact metaBase_outside targetOk ⟨by omega, by omega⟩
      · exact metaCells_outside targetOk
          ((writeCall_agreesOutside admitted targetOk flash outcome).widen
            (Nat.le_add_right _ _) (by omega))
  | arm isArm oneByte validates new commit status =>
      obtain ⟨hdr, accepted⟩ := validates
      exact commit.metaCalls (blCoreValidateSlot_valid accepted)
        stateIsValid_trial

theorem StepCalls.metaCalls {op : Op} {session : BlSession}
    {new : List PortCall}
    (targetOk : slotIsValid system.session.targetSlot = true)
    (calls : StepCalls port system op session new) :
    MetaCalls port system.flash new := by
  cases calls with
  | request frame responseSize after new status calls =>
      exact calls.metaCalls targetOk
  | cutOff frame responseSize after new calls =>
      exact calls.metaCalls targetOk
  | boot session kept new trial jump =>
      rcases trial with ⟨_none, rfl⟩ | ⟨slot, state, attempts, plan, commit⟩
      · exact .jump jump
      · have valid := trialCommit_valid plan
        exact .commit slot state attempts valid.1 valid.2 new commit jump
  | confirm session kept new calls =>
      rcases calls with rfl | ⟨record, read, _trial, commit⟩
      · exact .spared [] (fun _ made => by cases made) rfl
      · exact commit.metaCalls (blMetaRead_valid read).1
          stateIsValid_confirmed
  | powerCycle => exact .spared [] (fun _ made => by cases made) rfl

/-- The pages and the calls made to them since the flash was like this. -/
def MetaWorn (port : Port) (flash : Flash) (system : System) : Prop :=
  Worn (metaSpare port flash) (metaLevel port flash)
    (metaErases port system.calls) (metaFaults port system.calls)
    (metaSpare port system.flash) (metaLevel port system.flash)

def metaErasesTotal (port : Port) (calls : List PortCall) : Nat :=
  metaErases port calls false + metaErases port calls true

theorem MetaWorn.spared {calls new : List PortCall} {session : BlSession}
    {after : Flash} (worn : MetaWorn port flash system)
    (spared : ∀ call, call ∈ new → call.SparesMeta port)
    (kept : metaCells port.layout after =
      metaCells port.layout system.flash)
    (log : calls = system.calls ++ new) :
    MetaWorn port flash ⟨session, after, calls⟩ := by
  obtain ⟨erases, faults⟩ := spared_counts spared
  have sameErases : metaErases port calls = metaErases port system.calls := by
    funext second
    rw [log, metaErases_append, erases, Nat.add_zero]
  have sameFaults : metaFaults port calls = metaFaults port system.calls := by
    rw [log, metaFaults_append, faults, Nat.add_zero]
  unfold MetaWorn metaSpare metaLevel at *
  dsimp only
  rw [sameErases, sameFaults, kept]
  exact worn

theorem MetaWorn.commit {slot state attempts : U8} {session : BlSession}
    {new : List PortCall} (worn : MetaWorn port flash system)
    (slotOk : slotIsValid slot = true) (stateOk : stateIsValid state = true)
    (commit : CommitCalls port system.flash slot state attempts new)
    (room : metaLevel port flash +
      metaErasesTotal port (system.calls ++ new) < 2 ^ 32) :
    MetaWorn port flash
      ⟨session, replay port system.flash new, system.calls ++ new⟩ := by
  rcases commit.costs with rfl | ⟨own, other⟩
  · exact worn.spared (fun _ made => by cases made) rfl rfl
  have made : new ≠ [] := by
    rintro rfl
    cases own
  have once : metaErases port (system.calls ++ new)
      (metaSpare port system.flash) = metaErases port system.calls
        (metaSpare port system.flash) + 1 := by
    rw [metaErases_append, own]
  have rest : metaErases port (system.calls ++ new)
      (!metaSpare port system.flash) = metaErases port system.calls
        (!metaSpare port system.flash) := by
    rw [metaErases_append, other, Nat.add_zero]
  have sum := sum_rewrites once rest
  have reached := worn.reached
  unfold metaErasesTotal at room
  have faults := @metaFaults_append port system.calls new
  rcases commit.takes slotOk stateOk (by omega) made with
    ⟨flipped, next⟩ | ⟨⟨same, level⟩, disturbed⟩
  · unfold MetaWorn
    dsimp only
    rw [flipped, next]
    exact worn.advance once rest (by omega)
  · unfold MetaWorn
    dsimp only
    rw [same, level]
    exact worn.fail once rest (by omega)

theorem systemStep_worn
    (targetOk : slotIsValid system.session.targetSlot = true)
    (worn : MetaWorn port flash system) (step : Step)
    (room : metaLevel port flash +
      metaErasesTotal port (systemStep port system step).calls < 2 ^ 32) :
    MetaWorn port flash (systemStep port system step) := by
  obtain ⟨session, new, made, calls⟩ := systemStep_made port system step
  rw [made] at room ⊢
  cases calls.metaCalls targetOk with
  | spared new spared kept => exact worn.spared spared kept rfl
  | commit slot state attempts slotOk stateOk new commit jump =>
      have jumps : ∀ call, call ∈ jump.toList.map PortCall.jump →
          call.SparesMeta port := by
        intro call jumped
        obtain ⟨address, _taken, rfl⟩ := List.mem_map.mp jumped
        trivial
      have after : MetaWorn port flash
          ⟨session, replay port system.flash new, system.calls ++ new⟩ := by
        refine worn.commit slotOk stateOk commit (Nat.lt_of_le_of_lt ?_ room)
        dsimp only
        unfold metaErasesTotal
        rw [← List.append_assoc, metaErases_append (_ ++ _),
          metaErases_append (_ ++ _)]
        omega
      refine after.spared jumps ?_ (List.append_assoc _ _ _).symm
      rw [replay_append, replay_jump]

theorem metaWorn_run (steps : List Step)
    (room : metaLevel port flash + metaErasesTotal port
      (run (systemStep port) (System.initial flash) steps).calls < 2 ^ 32) :
    MetaWorn port flash
      (run (systemStep port) (System.initial flash) steps) := by
  induction steps using List.reverseRecOn with
  | nil => exact Worn.start _ _
  | append_singleton steps step ih =>
      rw [run_snoc] at room ⊢
      refine systemStep_worn (targetOk_run port flash steps)
        (ih (Nat.lt_of_le_of_lt ?_ room)) step room
      obtain ⟨new, _calls, log, _flashEq⟩ := systemStep_calls port
        (run (systemStep port) (System.initial flash) steps) step
      rw [log]
      unfold metaErasesTotal
      rw [metaErases_append, metaErases_append]
      omega

/-- The wear of the metadata pages.  Over any run of requests, boots,
confirmations and power cycles, with any faults, that leaves a sequence number
unused, the erases of the two pages differ by one and the faults at most, and
the sequence number in force has grown by the erases, less the faults at most.
Without faults the pages take turns. -/
theorem metadata_wear (port : Port) (flash : Flash) (steps : List Step) :
    let reached := run (systemStep port) (System.initial flash) steps
    let first := metaSpare port flash
    let erases := metaErases port reached.calls
    let faults := metaFaults port reached.calls
    metaLevel port flash + metaErasesTotal port reached.calls < 2 ^ 32 →
      erases first ≤ erases (!first) + 1 + faults ∧
      erases (!first) ≤ erases first + faults ∧
      metaLevel port reached.flash ≤
        metaLevel port flash + metaErasesTotal port reached.calls ∧
      metaLevel port flash + metaErasesTotal port reached.calls ≤
        metaLevel port reached.flash + faults ∧
      (faults = 0 → erases first = erases (!first) +
        if metaSpare port reached.flash = first then 0 else 1) := by
  intro reached first erases faults room
  have worn : MetaWorn port flash reached := metaWorn_run steps room
  have even := worn.even
  have upper := worn.reached
  have lower := worn.spent
  unfold metaErasesTotal
  refine ⟨even.1, even.2, by omega, by omega, fun clean => ?_⟩
  split
  · rename_i same
    have bounds := worn.ahead same
    change _ ≤ _ + faults ∧ _ ≤ _ + faults at bounds
    rw [clean] at bounds
    exact Nat.le_antisymm bounds.1 bounds.2
  · rename_i different
    have bounds := worn.behind different
    change _ ≤ _ + faults ∧ _ ≤ _ + faults at bounds
    rw [clean] at bounds
    exact Nat.le_antisymm bounds.1 bounds.2

/-- Four boots of a trial: the erase of the first fails, and the power goes
during the write of the third. -/
def wornRun : List Step :=
  [⟨.boot, [.failure .erase]⟩, ⟨.boot, []⟩,
    ⟨.boot, [.success, .powerLoss 1]⟩, ⟨.boot, []⟩]

theorem metadata_wear_trial :
    let reached := run (systemStep hostPort) (System.initial trialFlash)
      wornRun
    metaErases hostPort reached.calls (!metaSpare hostPort trialFlash) ≤
      metaErases hostPort reached.calls (metaSpare hostPort trialFlash) +
        metaFaults hostPort reached.calls :=
  (metadata_wear hostPort trialFlash wornRun (by decide +kernel)).2.1

end Steps

end Stm32Bootloader
