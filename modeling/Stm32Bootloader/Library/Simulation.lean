/-
Computations over related states.

Two computations simulate each other when, from related states, both end in
the same way: with the same value, with the same error or without either, and
in related states again.  Sequences of such computations simulate each other,
so a program need not be looked at twice to be run on another machine.
-/

import Stm32Bootloader.Library.Fallible

namespace Fallible

open Interruptible

variable {ε σ τ α β : Type}

/-- Both have ended in the same way. -/
inductive Ended (related : σ → τ → Prop) :
    Outcome σ α → Outcome τ α → Prop where
  | returned (value : α) {state : σ} {state' : τ}
      (states : related state state') :
      Ended related (.returned value state) (.returned value state')
  | lost {state : σ} {state' : τ} (states : related state state') :
      Ended related (.lost state) (.lost state')

/-- From related states both end in the same way. -/
def Alike (related : σ → τ → Prop) (program : Prog σ α)
    (other : Prog τ α) : Prop :=
  ∀ state state', related state state' →
    Ended related (program state) (other state')

structure Simulates (related : σ → τ → Prop)
    (program : ExceptT ε (Prog σ) α) (other : ExceptT ε (Prog τ) α) :
    Prop where
  alike : Alike related program.run other.run

section Rules

variable {related : σ → τ → Prop}

theorem Ended.of_returned {outcome : Outcome σ α} {value : α} {state' : τ}
    (ended : Ended related outcome (.returned value state')) :
    ∃ state, outcome = .returned value state ∧ related state state' := by
  generalize reached : Outcome.returned value state' = outcome' at ended
  cases ended with
  | returned value states =>
      cases reached
      exact ⟨_, rfl, states⟩
  | lost states => cases reached

theorem Alike.pure (value : α) :
    Alike related (pure value : Prog σ α) (pure value : Prog τ α) :=
  fun _ _ states => .returned value states

theorem Alike.bind {program : Prog σ α} {other : Prog τ α}
    {next : α → Prog σ β} {next' : α → Prog τ β}
    (first : Alike related program other)
    (second : ∀ value, Alike related (next value) (next' value)) :
    Alike related (program >>= next) (other >>= next') := by
  intro state state' states
  have ended := first state state' states
  rw [Prog.bind_apply, Prog.bind_apply]
  revert ended
  generalize program state = outcome
  generalize other state' = outcome'
  intro ended
  cases ended with
  | returned value states => exact second value _ _ states
  | lost states => exact .lost states

theorem Simulates.pure (value : α) :
    Simulates related (pure value : ExceptT ε (Prog σ) α)
      (pure value : ExceptT ε (Prog τ) α) :=
  ⟨Alike.pure _⟩

theorem Simulates.throw (error : ε) :
    Simulates related (throw error : ExceptT ε (Prog σ) α)
      (throw error : ExceptT ε (Prog τ) α) :=
  ⟨Alike.pure (Except.error error)⟩

theorem Simulates.lift {action : Prog σ α} {action' : Prog τ α}
    (alike : Alike related action action') :
    Simulates related (ExceptT.lift action : ExceptT ε (Prog σ) α)
      (ExceptT.lift action' : ExceptT ε (Prog τ) α) :=
  ⟨alike.bind fun value => Alike.pure (Except.ok value)⟩

theorem Simulates.bind {program : ExceptT ε (Prog σ) α}
    {other : ExceptT ε (Prog τ) α} {next : α → ExceptT ε (Prog σ) β}
    {next' : α → ExceptT ε (Prog τ) β}
    (first : Simulates related program other)
    (second : ∀ value, Simulates related (next value) (next' value)) :
    Simulates related (program >>= next) (other >>= next') := by
  refine ⟨first.alike.bind fun result => ?_⟩
  cases result with
  | ok value => exact (second value).alike
  | error error => exact Alike.pure _

theorem Simulates.ite {condition : Prop} [Decidable condition]
    {first second : ExceptT ε (Prog σ) α}
    {first' second' : ExceptT ε (Prog τ) α}
    (whenTrue : Simulates related first first')
    (whenFalse : Simulates related second second') :
    Simulates related (if condition then first else second)
      (if condition then first' else second') := by
  split
  · exact whenTrue
  · exact whenFalse

end Rules

end Fallible
