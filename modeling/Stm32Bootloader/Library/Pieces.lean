/-
Reading in pieces, and parsing at once.

A reading takes what it needs off a source that hands out a stream in pieces,
and has a number of turns for it.  It implements a parser when it has the
parser's result and leaves the parser's rest, unless it has had fewer turns
than the items and the empty pieces of the stream may take.
-/

import Mathlib.Data.List.Basic

namespace Pieces

/-- How a reading ends: with a value and the turns that are left, or with an
error. -/
inductive Reading (ε σ β : Type) where
  | got (value : β) (turns : Nat) (state : σ)
  | failed (error : ε) (state : σ)

section Readings

variable {ε σ β γ : Type}

def Reading.bind (reading : Reading ε σ β)
    (next : β → Nat → σ → Reading ε σ γ) : Reading ε σ γ :=
  match reading with
  | .got value turns state => next value turns state
  | .failed error state => .failed error state

def Reading.state : Reading ε σ β → σ
  | .got _ _ state => state
  | .failed _ state => state

def Reading.outcome : Reading ε σ β → Except ε β
  | .got value _ _ => .ok value
  | .failed error _ => .error error

end Readings

/-! ### Parsers -/

/-- What a parser makes of the start of a stream, and what it leaves; nothing
when the stream is too short. -/
abbrev Parse (ε α β : Type) := List α → Option (Except ε β × List α)

namespace Parse

variable {ε α β γ : Type}

def bind (parse : Parse ε α β) (next : β → Parse ε α γ) : Parse ε α γ :=
  fun stream =>
    match parse stream with
    | none => none
    | some (.error error, rest) => some (.error error, rest)
    | some (.ok value, rest) => next value rest

def ok (value : β) : Parse ε α β := fun stream => some (.ok value, stream)

def fail (error : ε) : Parse ε α β := fun stream => some (.error error, stream)

def exactly (count : Nat) : Parse ε α (List α) := fun stream =>
  if stream.length < count then none
  else some (.ok (stream.take count), stream.drop count)

end Parse

/-! ### Readings that implement parsers -/

section Following

variable {ε σ α β γ : Type} {timeout : ε} {stream : σ → List α}
  {waits : σ → Nat} {invariant : σ → Prop}

/-- The reading has the result of the parse, or is too late. -/
inductive Reading.Follows (timeout : ε) (stream : σ → List α)
    (waits : σ → Nat) (invariant : σ → Prop) (parse : Parse ε α β)
    (turns : Nat) (before : σ) : Reading ε σ β → Prop where
  | got (value : β) (left : Nat) (after : σ) (holds : invariant after)
      (sooner : waits after ≤ waits before)
      (parsed : parse (stream before) = some (.ok value, stream after))
      (paid : (stream after).length + waits after + turns ≤
        (stream before).length + waits before + left) :
      Follows timeout stream waits invariant parse turns before
        (.got value left after)
  | failed (error : ε) (after : σ) (holds : invariant after)
      (parsed : parse (stream before) = some (.error error, stream after)) :
      Follows timeout stream waits invariant parse turns before
        (.failed error after)
  | late (after : σ) (holds : invariant after)
      (short : turns < (stream before).length + waits before ∨
        parse (stream before) = none) :
      Follows timeout stream waits invariant parse turns before
        (.failed timeout after)

/-- With any number of turns, the reading follows the parser. -/
def Reading.Implements (timeout : ε) (stream : σ → List α)
    (waits : σ → Nat) (invariant : σ → Prop)
    (read : Nat → σ → Reading ε σ β) (parse : Parse ε α β) : Prop :=
  ∀ turns state, invariant state →
    Reading.Follows timeout stream waits invariant parse turns state
      (read turns state)

theorem Reading.Implements.bind {read : Nat → σ → Reading ε σ β}
    {parse : Parse ε α β} {next : β → Nat → σ → Reading ε σ γ}
    {later : β → Parse ε α γ}
    (first : Reading.Implements timeout stream waits invariant read parse)
    (second : ∀ value, Reading.Implements timeout stream waits invariant (next value)
      (later value)) :
    Reading.Implements timeout stream waits invariant
      (fun turns state => (read turns state).bind next)
      (parse.bind later) := by
  intro turns state holds
  have follows := first turns state holds
  dsimp only
  generalize read turns state = reading at follows ⊢
  cases follows with
  | got value left after holds sooner parsed paid =>
      have rest := second value left after holds
      have composed : (parse.bind later) (stream state) =
          later value (stream after) := by
        unfold Parse.bind
        rw [parsed]
      dsimp only [Reading.bind]
      generalize next value left after = reading at rest ⊢
      cases rest with
      | got value left' final holds sooner' parsed' paid' =>
          exact .got value left' final holds (Nat.le_trans sooner' sooner)
            (composed.trans parsed') (by omega)
      | failed error final holds parsed' =>
          exact .failed error final holds (composed.trans parsed')
      | late final holds short =>
          refine .late final holds ?_
          rcases short with few | dry
          · exact Or.inl (by omega)
          · exact Or.inr (composed.trans dry)
  | failed error after holds parsed =>
      refine .failed error after holds ?_
      unfold Parse.bind
      rw [parsed]
  | late after holds short =>
      refine .late after holds ?_
      rcases short with few | dry
      · exact Or.inl few
      · refine Or.inr ?_
        unfold Parse.bind
        rw [dry]

/-- A turn that takes something off the port has paid for itself. -/
theorem Reading.Follows.later {parse parse' : Parse ε α β} {turns : Nat}
    {before after : σ} {reading : Reading ε σ β}
    (follows : Reading.Follows timeout stream waits invariant parse' turns after
      reading)
    (same : parse (stream before) = parse' (stream after))
    (sooner : waits after ≤ waits before)
    (paid : (stream after).length + waits after <
      (stream before).length + waits before) :
    Reading.Follows timeout stream waits invariant parse (turns + 1) before
      reading := by
  cases follows with
  | got value left final holds sooner' parsed cost =>
      exact .got value left final holds (Nat.le_trans sooner' sooner)
        (same.trans parsed) (by omega)
  | failed error final holds parsed =>
      exact .failed error final holds (same.trans parsed)
  | late final holds short =>
      refine .late final holds ?_
      rcases short with few | dry
      · exact Or.inl (by omega)
      · exact Or.inr (same.trans dry)

theorem Reading.Follows.again {parse parse' : Parse ε α β}
    {fuel turns left : Nat} {before after : σ} {reading : Reading ε σ β}
    (follows : Reading.Follows timeout stream waits invariant parse'
      (min fuel left) after reading)
    (same : parse (stream before) = parse' (stream after))
    (sooner : waits after ≤ waits before)
    (shorter : (stream after).length < (stream before).length)
    (paid : (stream after).length + waits after + turns ≤
      (stream before).length + waits before + left) :
    Reading.Follows timeout stream waits invariant parse (min (fuel + 1) turns)
      before reading := by
  cases follows with
  | got value left' final holds sooner' parsed cost =>
      exact .got value left' final holds (Nat.le_trans sooner' sooner)
        (same.trans parsed) (by omega)
  | failed error final holds parsed =>
      exact .failed error final holds (same.trans parsed)
  | late final holds short =>
      refine .late final holds ?_
      rcases short with few | dry
      · exact Or.inl (by omega)
      · exact Or.inr (same.trans dry)

theorem Reading.Implements.ok (value : β) :
    Reading.Implements timeout stream waits invariant
      (fun turns state => .got value turns state) (Parse.ok value) :=
  fun _turns _state holds =>
    .got value _ _ holds (Nat.le_refl _) rfl (Nat.le_refl _)

theorem Reading.Implements.fail (error : ε) :
    Reading.Implements timeout stream waits invariant
      (fun _turns state => .failed error state)
      (Parse.fail error : Parse ε α β) :=
  fun _turns _state holds => .failed error _ holds rfl

end Following

end Pieces
