/-
Sets of indices packed into words, one bit an index.

Setting or clearing a bit through its mask changes the membership of its own
index and of no other, in the same word or another one.  Loops over a range
of indices are the folds of these operations.
-/

import Mathlib.Logic.Function.Basic

namespace Bitmap

variable {width : Nat}

def mask (width index : Nat) : BitVec width :=
  BitVec.twoPow width (index % width)

def get (words : Nat → BitVec width) (index : Nat) : Bool :=
  (words (index / width)).getLsbD (index % width)

def set (words : Nat → BitVec width) (index : Nat) : Nat → BitVec width :=
  Function.update words (index / width)
    (words (index / width) ||| mask width index)

def clear (words : Nat → BitVec width) (index : Nat) : Nat → BitVec width :=
  Function.update words (index / width)
    (words (index / width) &&& ~~~mask width index)

def overRange {α : Type} (step : α → Nat → α) (base count : Nat)
    (initial : α) : α :=
  (List.range count).foldl (fun state index => step state (base + index))
    initial

theorem overRange_succ {α : Type} (step : α → Nat → α) (base count : Nat)
    (initial : α) :
    overRange step base (count + 1) initial =
      step (overRange step base count initial) (base + count) := by
  simp only [overRange, List.range_succ, List.foldl_append, List.foldl_cons,
    List.foldl_nil]

/-! ### One index -/

theorem eq_of_place {index other : Nat} (word : other / width = index / width)
    (bit : other % width = index % width) : other = index := by
  rw [← Nat.div_add_mod other width, ← Nat.div_add_mod index width, word, bit]

theorem getLsbD_mask (positive : 0 < width) (index bit : Nat) :
    (mask width index).getLsbD bit = decide (bit = index % width) := by
  have inside : index % width < width := Nat.mod_lt _ positive
  rw [mask, BitVec.getLsbD_twoPow, decide_eq_true inside, Bool.true_and]
  exact decide_eq_decide.mpr eq_comm

theorem get_set (positive : 0 < width) (words : Nat → BitVec width)
    (index other : Nat) :
    get (set words index) other =
      (decide (other = index) || get words other) := by
  unfold get set
  by_cases word : other / width = index / width
  · have same : other % width = index % width ↔ other = index :=
      ⟨eq_of_place word, fun equal => by rw [equal]⟩
    rw [word, Function.update_self, BitVec.getLsbD_or, getLsbD_mask positive,
      decide_eq_decide.mpr same, Bool.or_comm]
  · have different : other ≠ index := fun equal => word (by rw [equal])
    rw [Function.update_of_ne word, decide_eq_false different,
      Bool.false_or]

theorem get_clear (positive : 0 < width) (words : Nat → BitVec width)
    (index other : Nat) :
    get (clear words index) other =
      (!decide (other = index) && get words other) := by
  have inside : other % width < width := Nat.mod_lt _ positive
  unfold get clear
  by_cases word : other / width = index / width
  · have same : other % width = index % width ↔ other = index :=
      ⟨eq_of_place word, fun equal => by rw [equal]⟩
    rw [word, Function.update_self, BitVec.getLsbD_and, BitVec.getLsbD_not,
      decide_eq_true inside, Bool.true_and, getLsbD_mask positive,
      decide_eq_decide.mpr same, Bool.and_comm]
  · have different : other ≠ index := fun equal => word (by rw [equal])
    rw [Function.update_of_ne word, decide_eq_false different,
      Bool.not_false, Bool.true_and]

/-! ### A range of indices -/

theorem get_setRange (positive : 0 < width) (words : Nat → BitVec width)
    (base count other : Nat) :
    get (overRange set base count words) other =
      (decide (base ≤ other ∧ other < base + count) || get words other) := by
  induction count with
  | zero =>
      rw [decide_eq_false (by omega), Bool.false_or]
      rfl
  | succ count ih =>
      have split : (base ≤ other ∧ other < base + (count + 1)) ↔
          (other = base + count ∨ base ≤ other ∧ other < base + count) := by
        omega
      rw [overRange_succ, get_set positive, ih, ← Bool.or_assoc,
        ← Bool.decide_or, decide_eq_decide.mpr split]

theorem get_clearRange (positive : 0 < width) (words : Nat → BitVec width)
    (base count other : Nat) :
    get (overRange clear base count words) other =
      (!decide (base ≤ other ∧ other < base + count) &&
        get words other) := by
  induction count with
  | zero =>
      rw [decide_eq_false (by omega), Bool.not_false, Bool.true_and]
      rfl
  | succ count ih =>
      have split : (base ≤ other ∧ other < base + (count + 1)) ↔
          (other = base + count ∨ base ≤ other ∧ other < base + count) := by
        omega
      rw [overRange_succ, get_clear positive, ih, ← Bool.and_assoc,
        ← Bool.not_or, ← Bool.decide_or, decide_eq_decide.mpr split]

end Bitmap
