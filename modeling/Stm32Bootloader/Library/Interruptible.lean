/-
Stateful computations that the environment may cut off.

A computation either returns a value in a new state or is lost, leaving the
state it had reached.
-/

namespace Interruptible

inductive Outcome (σ α : Type) where
  | returned (value : α) (state : σ)
  | lost (state : σ)

def Outcome.state {σ α : Type} : Outcome σ α → σ
  | .returned _ state => state
  | .lost state => state

@[simp] theorem Outcome.state_returned {σ α : Type} (value : α) (state : σ) :
    (Outcome.returned value state).state = state := rfl

def Outcome.drop {σ α : Type} : Outcome σ α → Outcome σ Unit
  | .returned _ state => .returned () state
  | .lost state => .lost state

@[simp] theorem Outcome.state_drop {σ α : Type} (outcome : Outcome σ α) :
    outcome.drop.state = outcome.state := by
  cases outcome <;> rfl

def Outcome.mapState {σ τ α : Type} (view : σ → τ) :
    Outcome σ α → Outcome τ α
  | .returned value state => .returned value (view state)
  | .lost state => .lost (view state)

def Prog (σ α : Type) := σ → Outcome σ α

namespace Prog

variable {σ α β : Type}

protected def pure (value : α) : Prog σ α :=
  fun state => .returned value state

protected def bind (program : Prog σ α) (next : α → Prog σ β) : Prog σ β :=
  fun state =>
    match program state with
    | .returned value state => next value state
    | .lost state => .lost state

instance : Monad (Prog σ) where
  pure := Prog.pure
  bind := Prog.bind

@[simp] theorem pure_apply (value : α) (state : σ) :
    (pure value : Prog σ α) state = .returned value state := rfl

theorem bind_apply (program : Prog σ α) (next : α → Prog σ β) (state : σ) :
    (program >>= next) state =
      match program state with
      | .returned value state => next value state
      | .lost state => .lost state := rfl

theorem bind_returned {program : Prog σ α} {next : α → Prog σ β}
    {state state' : σ} {value : α}
    (ran : program state = .returned value state') :
    (program >>= next) state = next value state' := by
  rw [bind_apply, ran]

theorem bind_lost {program : Prog σ α} {next : α → Prog σ β}
    {state state' : σ} (ran : program state = .lost state') :
    (program >>= next) state = .lost state' := by
  rw [bind_apply, ran]

@[simp] theorem pure_bind (value : α) (next : α → Prog σ β) (state : σ) :
    (pure value >>= next) state = next value state := rfl

theorem bind_drop (program : Prog σ α) (state : σ) :
    (do let _ ← program; pure () : Prog σ Unit) state =
      (program state).drop := by
  rw [bind_apply]
  cases program state <;> rfl

end Prog

end Interruptible
