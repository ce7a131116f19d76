/-
Contracts of computations that may raise an error or be cut off.

A contract says what holds of the value and the state that a computation
returns, and what holds of the state in which it stops without a value.
Contracts compose along sequencing and may be weakened.  An invariant is a
contract that promises, however the computation ends, what it asks for.
-/

import Stm32Bootloader.Library.Interruptible

namespace Fallible

open Interruptible

variable {ε σ α β : Type}

/-- A stop is either a raised error or, for `none`, the cut. -/
structure Ensures (before : σ → Prop) (program : ExceptT ε (Prog σ) α)
    (after : α → σ → Prop) (stopped : Option ε → σ → Prop) : Prop where
  holds : ∀ state, before state →
    match program.run state with
    | .returned (.ok value) state => after value state
    | .returned (.error error) state => stopped (some error) state
    | .lost state => stopped none state

abbrev Keeps (invariant : σ → Prop) (program : ExceptT ε (Prog σ) α) :
    Prop :=
  Ensures invariant program (fun _ => invariant) (fun _ => invariant)

/-- The value that was returned, if one was. -/
def result : Outcome σ (Except ε α) → Option α
  | .returned (.ok value) _ => some value
  | _ => none

theorem result_some {outcome : Outcome σ (Except ε α)} {value : α}
    (returned : result outcome = some value) :
    outcome = .returned (.ok value) outcome.state := by
  cases outcome with
  | returned ended state =>
      cases ended with
      | ok value =>
          cases returned
          rfl
      | error error => cases returned
  | lost state => cases returned

/-- What a computation ends with, for the one that goes on from there. -/
def caught (program : ExceptT ε (Prog σ) α) :
    ExceptT ε (Prog σ) (Except ε α) :=
  ExceptT.lift program.run

theorem pure_bind (value : α) (next : α → ExceptT ε (Prog σ) β) :
    ((pure value : ExceptT ε (Prog σ) α) >>= next) = next value := rfl

theorem throw_bind (error : ε) (next : α → ExceptT ε (Prog σ) β) :
    ((throw error : ExceptT ε (Prog σ) α) >>= next) = throw error := rfl

section Runs

variable {program : ExceptT ε (Prog σ) α} {next : α → ExceptT ε (Prog σ) β}
  {state state' : σ}

theorem run_bind_ok {value : α}
    (ran : program.run state = .returned (.ok value) state') :
    (program >>= next).run state = (next value).run state' := by
  rw [ExceptT.run_bind, Prog.bind_returned ran]

theorem run_bind_error {error : ε}
    (ran : program.run state = .returned (.error error) state') :
    (program >>= next).run state = .returned (.error error) state' := by
  rw [ExceptT.run_bind, Prog.bind_returned ran]
  rfl

theorem run_lift {action : Prog σ α} {value : α}
    (ran : action state = .returned value state') :
    (ExceptT.lift action : ExceptT ε (Prog σ) α).run state =
      .returned (.ok value) state' := by
  change (do let value ← action; Pure.pure (Except.ok value) :
    Prog σ (Except ε α)) state = _
  rw [Prog.bind_returned ran]
  rfl

end Runs

section Contracts

variable {before : σ → Prop} {program : ExceptT ε (Prog σ) α}
  {after : α → σ → Prop} {stopped : Option ε → σ → Prop}

theorem Ensures.pure {value : α}
    (holds : ∀ state, before state → after value state) :
    Ensures before (pure value : ExceptT ε (Prog σ) α) after stopped :=
  ⟨holds⟩

theorem Ensures.throw {error : ε}
    (holds : ∀ state, before state → stopped (some error) state) :
    Ensures before (throw error : ExceptT ε (Prog σ) α) after stopped :=
  ⟨holds⟩

theorem Ensures.bind {next : α → ExceptT ε (Prog σ) β}
    {middle : α → σ → Prop} {finally_ : β → σ → Prop}
    (first : Ensures before program middle stopped)
    (second : ∀ value, Ensures (middle value) (next value) finally_ stopped) :
    Ensures before (program >>= next) finally_ stopped := by
  refine ⟨fun state start => ?_⟩
  have reached := first.holds state start
  rw [ExceptT.run_bind, Prog.bind_apply]
  cases ran : program.run state with
  | returned result state' =>
      rw [ran] at reached
      cases result with
      | ok value => exact (second value).holds state' reached
      | error error => exact reached
  | lost state' =>
      rw [ran] at reached
      exact reached

theorem Ensures.weaken {before' : σ → Prop} {after' : α → σ → Prop}
    {stopped' : Option ε → σ → Prop}
    (contract : Ensures before program after stopped)
    (weaker : ∀ state, before' state → before state)
    (ends : ∀ value state, after value state → after' value state)
    (stops : ∀ reason state, stopped reason state → stopped' reason state) :
    Ensures before' program after' stopped' := by
  refine ⟨fun state start => ?_⟩
  have reached := contract.holds state (weaker state start)
  cases ran : program.run state with
  | returned result state' =>
      rw [ran] at reached
      cases result with
      | ok value => exact ends value state' reached
      | error error => exact stops _ state' reached
  | lost state' =>
      rw [ran] at reached
      exact stops _ state' reached

theorem Ensures.and {before' : σ → Prop} {after' : α → σ → Prop}
    {stopped' : Option ε → σ → Prop}
    (left : Ensures before program after stopped)
    (right : Ensures before' program after' stopped') :
    Ensures (fun state => before state ∧ before' state) program
      (fun value state => after value state ∧ after' value state)
      (fun reason state => stopped reason state ∧ stopped' reason state) := by
  refine ⟨fun state start => ?_⟩
  have first := left.holds state start.1
  have second := right.holds state start.2
  cases ran : program.run state with
  | returned result state' =>
      rw [ran] at first second
      cases result <;> exact ⟨first, second⟩
  | lost state' =>
      rw [ran] at first second
      exact ⟨first, second⟩

/-- The second part need only cope with the value that the first returns. -/
theorem Ensures.bind_known {next : α → ExceptT ε (Prog σ) β} {known : α}
    {middle : σ → Prop} {finally_ : β → σ → Prop}
    (first : Ensures before program
      (fun value state => value = known ∧ middle state) stopped)
    (second : Ensures middle (next known) finally_ stopped) :
    Ensures before (program >>= next) finally_ stopped := by
  refine Ensures.bind first fun value => ⟨fun state reached => ?_⟩
  obtain ⟨rfl, start⟩ := reached
  exact second.holds state start

theorem Ensures.each
    (every : ∀ state, before state →
      Ensures (fun start => start = state) program after stopped) :
    Ensures before program after stopped :=
  ⟨fun state start => (every state start).holds state rfl⟩

theorem Ensures.lift {action : Prog σ α}
    (holds : ∀ state, before state →
      match action state with
      | .returned value state => after value state
      | .lost state => stopped none state) :
    Ensures before (ExceptT.lift action : ExceptT ε (Prog σ) α) after
      stopped := by
  refine ⟨fun state start => ?_⟩
  have reached := holds state start
  change match (do let value ← action; Pure.pure (Except.ok value) :
      Prog σ (Except ε α)) state with
    | .returned (.ok value) state => after value state
    | .returned (.error error) state => stopped (some error) state
    | .lost state => stopped none state
  rw [Prog.bind_apply]
  cases ran : action state with
  | returned value state' => rw [ran] at reached; exact reached
  | lost state' => rw [ran] at reached; exact reached

theorem Ensures.catches
    (contract : Ensures before program after stopped) :
    Ensures before (caught program)
      (fun ended state => match ended with
        | .ok value => after value state
        | .error error => stopped (some error) state)
      stopped := by
  refine Ensures.lift fun state start => ?_
  have reached := contract.holds state start
  cases ran : program.run state with
  | returned ended state' =>
      rw [ran] at reached
      cases ended <;> exact reached
  | lost state' =>
      rw [ran] at reached
      exact reached

/-- A computation that cannot stop goes on with its value. -/
theorem Ensures.catches_known {known : α} {middle : σ → Prop}
    {next : Except ε α → ExceptT ε (Prog σ) β} {finally_ : β → σ → Prop}
    (first : Ensures before program
      (fun value state => value = known ∧ middle state) fun _ _ => False)
    (second : Ensures middle (next (.ok known)) finally_ stopped) :
    Ensures before (caught program >>= next) finally_ stopped := by
  refine Ensures.bind (first.catches.weaken (fun _ start => start)
    (fun _ _ ended => ended) fun _ _ impossible => impossible.elim)
    fun ended => ⟨fun state reached => ?_⟩
  cases ended with
  | ok value =>
      obtain ⟨rfl, holds⟩ := reached
      exact second.holds state holds
  | error error => exact reached.elim

theorem Ensures.state {state : σ} {reached : σ → Prop}
    (contract : Ensures before program (fun _ => reached) (fun _ => reached))
    (start : before state) : reached (program.run state).state := by
  have ended := contract.holds state start
  cases ran : program.run state with
  | returned result state' =>
      rw [ran] at ended
      cases result <;> exact ended
  | lost state' =>
      rw [ran] at ended
      exact ended

theorem Ensures.value {state state' : σ} {value : α}
    (contract : Ensures before program after stopped) (start : before state)
    (ran : program.run state = .returned (.ok value) state') :
    after value state' := by
  have ended := contract.holds state start
  rw [ran] at ended
  exact ended

theorem Ensures.returns {state : σ}
    (contract : Ensures before program after fun _ _ => False)
    (start : before state) :
    ∃ value state', program.run state = .returned (.ok value) state' ∧
      after value state' := by
  have ended := contract.holds state start
  cases ran : program.run state with
  | returned result state' =>
      rw [ran] at ended
      cases result with
      | ok value => exact ⟨value, state', rfl, ended⟩
      | error error => exact ended.elim
  | lost state' =>
      rw [ran] at ended
      exact ended.elim

theorem Ensures.raises {state : σ} {error : ε} {reached : σ → Prop}
    (contract : Ensures before program (fun _ _ => False)
      (fun reason state => reason = some error ∧ reached state))
    (start : before state) :
    ∃ state', program.run state = .returned (.error error) state' ∧
      reached state' := by
  have ended := contract.holds state start
  cases ran : program.run state with
  | returned result state' =>
      rw [ran] at ended
      cases result with
      | ok value => exact ended.elim
      | error raised =>
          obtain ⟨same, holds⟩ := ended
          cases same
          exact ⟨state', rfl, holds⟩
  | lost state' =>
      rw [ran] at ended
      cases ended.1

end Contracts

/-! ### Invariants -/

section Invariants

variable {invariant : σ → Prop}

theorem Keeps.pure (value : α) :
    Keeps invariant (pure value : ExceptT ε (Prog σ) α) :=
  Ensures.pure fun _ holds => holds

theorem Keeps.throw (error : ε) :
    Keeps invariant (throw error : ExceptT ε (Prog σ) α) :=
  Ensures.throw fun _ holds => holds

theorem Keeps.bind {program : ExceptT ε (Prog σ) α}
    {next : α → ExceptT ε (Prog σ) β} (first : Keeps invariant program)
    (second : ∀ value, Keeps invariant (next value)) :
    Keeps invariant (program >>= next) :=
  Ensures.bind first second

theorem Keeps.caught {program : ExceptT ε (Prog σ) α}
    (keeps : Keeps invariant program) :
    Keeps invariant (caught program) :=
  keeps.catches.weaken (fun _ holds => holds)
    (fun ended _ holds => by cases ended <;> exact holds)
    (fun _ _ holds => holds)

theorem Keeps.lift {action : Prog σ α}
    (kept : ∀ state, invariant state → invariant (action state).state) :
    Keeps invariant (ExceptT.lift action : ExceptT ε (Prog σ) α) := by
  refine Ensures.lift fun state holds => ?_
  have reached := kept state holds
  cases ran : action state with
  | returned value state' => rw [ran] at reached; exact reached
  | lost state' => rw [ran] at reached; exact reached

end Invariants

end Fallible
