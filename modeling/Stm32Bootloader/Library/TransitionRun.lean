/-
Runs of a deterministic transition function over a list of steps.

An invariant is proved once per step and holds after every run.  A condition
on steps may look at the state in which the step is taken.  A state predicate
that holds at the end of a run, but not at its beginning, was entered by some
step of the run and has held ever since.
-/

import Mathlib.Data.List.Induction

namespace TransitionRun

variable {State Step : Type}

def run (step : State → Step → State) (initial : State)
    (steps : List Step) : State :=
  steps.foldl step initial

/-- Every step of the run satisfies the condition in the state it starts
from. -/
def AllAlong (step : State → Step → State)
    (condition : State → Step → Prop) (initial : State)
    (steps : List Step) : Prop :=
  ∀ earlier next later, steps = earlier ++ next :: later →
    condition (run step initial earlier) next

variable (step : State → Step → State) (initial : State)

@[simp] theorem run_nil : run step initial [] = initial := rfl

theorem run_cons (next : Step) (later : List Step) :
    run step initial (next :: later) = run step (step initial next) later :=
  rfl

theorem run_append (earlier later : List Step) :
    run step initial (earlier ++ later) =
      run step (run step initial earlier) later :=
  List.foldl_append

theorem run_snoc (earlier : List Step) (next : Step) :
    run step initial (earlier ++ [next]) =
      step (run step initial earlier) next := by
  rw [run_append]
  rfl

variable {step} {initial}

theorem AllAlong.dropLast {condition : State → Step → Prop}
    {steps later : List Step}
    (along : AllAlong step condition initial (steps ++ later)) :
    AllAlong step condition initial steps := by
  intro earlier next rest stepsEq
  apply along earlier next (rest ++ later)
  rw [stepsEq, List.append_assoc, List.cons_append]

theorem AllAlong.last {condition : State → Step → Prop}
    {steps : List Step} {next : Step}
    (along : AllAlong step condition initial (steps ++ [next])) :
    condition (run step initial steps) next :=
  along steps next [] rfl

theorem AllAlong.nil {condition : State → Step → Prop} :
    AllAlong step condition initial [] := by
  intro earlier next later impossible
  cases earlier <;> cases impossible

theorem AllAlong.snoc_iff {condition : State → Step → Prop}
    {steps : List Step} {next : Step} :
    AllAlong step condition initial (steps ++ [next]) ↔
      AllAlong step condition initial steps ∧
        condition (run step initial steps) next := by
  refine ⟨fun along => ⟨along.dropLast, along.last⟩, ?_⟩
  rintro ⟨along, holds⟩ earlier entry later stepsEq
  rcases List.eq_nil_or_concat later with rfl | ⟨rest, last, rfl⟩
  · obtain ⟨rfl, same⟩ := List.append_inj' stepsEq rfl
    cases same
    exact holds
  · rw [List.concat_eq_append, ← List.cons_append, ← List.append_assoc] at stepsEq
    obtain ⟨same, _last⟩ := List.append_inj' stepsEq rfl
    exact along earlier entry rest same

theorem AllAlong.of_forall {condition : State → Step → Prop}
    {steps : List Step}
    (every : ∀ state next, next ∈ steps → condition state next) :
    AllAlong step condition initial steps := by
  intro earlier next later stepsEq
  apply every
  rw [stepsEq]
  exact List.mem_append_right earlier (List.mem_cons_self)

theorem AllAlong.invariant {condition : State → Step → Prop}
    {steps : List Step} (along : AllAlong step condition initial steps)
    (holds : State → Prop) (initially : holds initial)
    (kept : ∀ state next, holds state → condition state next →
      holds (step state next)) :
    holds (run step initial steps) := by
  induction steps using List.reverseRecOn with
  | nil => exact initially
  | append_singleton steps next ih =>
      rw [run_snoc]
      exact kept _ next (ih along.dropLast) along.last

/-- Where each step keeps an invariant exactly under a condition, the
invariant holds all along a run exactly when the condition does. -/
theorem AllAlong.invariant_iff {condition : State → Step → Prop}
    {holds : State → Prop} (initially : holds initial)
    (exactly : ∀ state next, holds state →
      (holds (step state next) ↔ condition state next))
    (steps : List Step) :
    (∀ earlier, earlier <+: steps → holds (run step initial earlier)) ↔
      AllAlong step condition initial steps := by
  constructor
  · rintro always earlier next later rfl
    have before := always earlier (List.prefix_append _ _)
    have after := always (earlier ++ [next])
      ⟨later, List.append_assoc _ _ _⟩
    rw [run_snoc] at after
    exact (exactly _ next before).mp after
  · rintro along earlier ⟨later, rfl⟩
    exact along.dropLast.invariant holds initially
      (fun state next before allowed => (exactly state next before).mpr allowed)

theorem run_invariant (holds : State → Prop) (initially : holds initial)
    (kept : ∀ state next, holds state → holds (step state next))
    (steps : List Step) : holds (run step initial steps) := by
  induction steps using List.reverseRecOn with
  | nil => exact initially
  | append_singleton steps next ih =>
      rw [run_snoc]
      exact kept _ next ih

/-- A predicate that holds at the end and not at the beginning was entered by
some step, and has held after that step and after every later one. -/
theorem entered_since (holds : State → Prop) (initially : ¬ holds initial)
    (steps : List Step) (finally_ : holds (run step initial steps)) :
    ∃ earlier next later, steps = earlier ++ next :: later ∧
      ¬ holds (run step initial earlier) ∧
      ∀ middle, middle <+: later →
        holds (run step initial (earlier ++ next :: middle)) := by
  induction steps using List.reverseRecOn with
  | nil => exact absurd finally_ initially
  | append_singleton steps next ih =>
      by_cases before : holds (run step initial steps)
      · obtain ⟨earlier, entry, later, stepsEq, outside, since⟩ := ih before
        refine ⟨earlier, entry, later ++ [next], ?_, outside, ?_⟩
        · rw [stepsEq, List.append_assoc, List.cons_append]
        · intro middle isPrefix
          rcases List.prefix_concat_iff.mp isPrefix with whole | part
          · rw [whole]
            rw [stepsEq, List.append_assoc, List.cons_append] at finally_
            exact finally_
          · exact since middle part
      · refine ⟨steps, next, [], rfl, before, ?_⟩
        intro middle isPrefix
        rw [List.prefix_nil.mp isPrefix]
        exact finally_

/-- What some steps set and others clear holds after a history exactly if a
step has set it and none has cleared it since. -/
theorem latched_iff {holds : List Step → Prop}
    {sets : List Step → Step → Prop} {clears : Step → Prop}
    (initially : ¬ holds [])
    (exactly : ∀ earlier next, holds (earlier ++ [next]) ↔
      sets earlier next ∨ (holds earlier ∧ ¬ clears next))
    (steps : List Step) :
    holds steps ↔ ∃ earlier next later, steps = earlier ++ next :: later ∧
      sets earlier next ∧ ∀ step, step ∈ later → ¬ clears step := by
  induction steps using List.reverseRecOn with
  | nil =>
      refine iff_of_false initially ?_
      rintro ⟨earlier, next, later, impossible, _set⟩
      cases earlier <;> cases impossible
  | append_singleton steps last ih =>
      rw [exactly, ih]
      constructor
      · rintro (set | ⟨⟨earlier, next, later, rfl, set, since⟩, kept⟩)
        · exact ⟨steps, last, [], rfl, set,
            fun _ impossible => by cases impossible⟩
        · refine ⟨earlier, next, later ++ [last],
            List.append_assoc _ _ _, set, fun step member => ?_⟩
          rcases List.mem_append.mp member with old | new
          · exact since step old
          · rw [List.mem_singleton.mp new]
            exact kept
      · rintro ⟨earlier, next, later, stepsEq, set, since⟩
        rcases List.eq_nil_or_concat later with rfl | ⟨rest, final, rfl⟩
        · obtain ⟨rfl, same⟩ := List.append_inj' stepsEq rfl
          cases same
          exact Or.inl set
        · rw [List.concat_eq_append] at stepsEq since
          rw [← List.cons_append, ← List.append_assoc] at stepsEq
          obtain ⟨rfl, same⟩ := List.append_inj' stepsEq rfl
          cases same
          exact Or.inr ⟨⟨earlier, next, rest, rfl, set, fun step member =>
            since step (List.mem_append_left _ member)⟩,
            since last (List.mem_append_right _ List.mem_cons_self)⟩

end TransitionRun
