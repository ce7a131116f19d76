/-
Memories as total functions from addresses, with block load, block store and
range fill.

Every operation comes with what it changes and what it leaves alone: a load
from the changed range, a load from a disjoint range, and the range outside
which two memories agree.
-/

import Mathlib.Data.List.Range
import Mathlib.Tactic.Ring

namespace Memory

variable {α : Type}

/-- `[base, base + size)` and `[base', base' + size')` share no address. -/
def Apart (base size base' size' : Nat) : Prop :=
  base + size ≤ base' ∨ base' + size' ≤ base

instance (base size base' size' : Nat) :
    Decidable (Apart base size base' size') :=
  inferInstanceAs (Decidable (_ ∨ _))

theorem Apart.symm {base size base' size' : Nat}
    (apart : Apart base size base' size') : Apart base' size' base size :=
  Or.symm apart

theorem Apart.of_within {base size base' size' inner length : Nat}
    (apart : Apart base size base' size')
    (lower : base ≤ inner) (upper : inner + length ≤ base + size) :
    Apart inner length base' size' := by
  unfold Apart at *
  omega

def load (memory : Nat → α) (base size : Nat) : List α :=
  (List.range size).map fun index => memory (base + index)

def store (memory : Nat → α) (base : Nat) (block : List α) : Nat → α :=
  fun address =>
    if base ≤ address then
      (block[address - base]?).getD (memory address)
    else memory address

def fill (memory : Nat → α) (base size : Nat) (value : α) : Nat → α :=
  fun address =>
    if base ≤ address ∧ address < base + size then value
    else memory address

/-- The second memory differs from the first only inside the range. -/
def AgreesOutside (base size : Nat) (before after : Nat → α) : Prop :=
  ∀ address, (address < base ∨ base + size ≤ address) →
    after address = before address

/-! ### Loads -/

@[simp] theorem load_length (memory : Nat → α) (base size : Nat) :
    (load memory base size).length = size := by
  simp only [load, List.length_map, List.length_range]

@[simp] theorem load_zero (memory : Nat → α) (base : Nat) :
    load memory base 0 = [] := rfl

theorem getElem?_load (memory : Nat → α) (base size index : Nat)
    (inside : index < size) :
    (load memory base size)[index]? = some (memory (base + index)) := by
  simp only [load, List.getElem?_map, List.getElem?_range inside,
    Option.map_some]

theorem load_add (memory : Nat → α) (base left right : Nat) :
    load memory base (left + right) =
      load memory base left ++ load memory (base + left) right := by
  simp only [load, List.range_add, List.map_append, List.map_map]
  congr 1
  apply List.map_congr_left
  intro index _member
  simp only [Function.comp_apply, Nat.add_assoc]

theorem load_congr {before after : Nat → α} {base size : Nat}
    (same : ∀ index, index < size →
      after (base + index) = before (base + index)) :
    load after base size = load before base size := by
  apply List.map_congr_left
  intro index member
  exact same index (List.mem_range.mp member)

/-! ### What an operation leaves alone -/

theorem AgreesOutside.refl (base size : Nat) (memory : Nat → α) :
    AgreesOutside base size memory memory :=
  fun _address _outside => rfl

theorem AgreesOutside.trans {base size : Nat} {first second third : Nat → α}
    (left : AgreesOutside base size first second)
    (right : AgreesOutside base size second third) :
    AgreesOutside base size first third :=
  fun address outside =>
    (right address outside).trans (left address outside)

theorem AgreesOutside.widen {base size inner length : Nat}
    {before after : Nat → α}
    (agrees : AgreesOutside inner length before after)
    (lower : base ≤ inner) (upper : inner + length ≤ base + size) :
    AgreesOutside base size before after :=
  fun address outside => agrees address (by omega)

theorem AgreesOutside.load {base size base' size' : Nat}
    {before after : Nat → α}
    (agrees : AgreesOutside base size before after)
    (apart : Apart base size base' size') :
    load after base' size' = load before base' size' := by
  apply load_congr
  intro index inside
  apply agrees
  unfold Apart at apart
  omega

theorem store_agreesOutside (memory : Nat → α) (base : Nat)
    (block : List α) :
    AgreesOutside base block.length memory (store memory base block) := by
  intro address outside
  unfold store
  by_cases above : base ≤ address
  · rw [if_pos above, List.getElem?_eq_none (by omega), Option.getD_none]
  · rw [if_neg above]

theorem fill_agreesOutside (memory : Nat → α) (base size : Nat)
    (value : α) :
    AgreesOutside base size memory (fill memory base size value) := by
  intro address outside
  unfold fill
  rw [if_neg (by omega)]

/-! ### What an operation writes -/

theorem store_inside (memory : Nat → α) (base : Nat) (block : List α)
    (index : Nat) (inside : index < block.length) :
    store memory base block (base + index) = block[index] := by
  unfold store
  rw [if_pos (Nat.le_add_right base index), Nat.add_sub_cancel_left,
    List.getElem?_eq_getElem inside, Option.getD_some]

theorem load_store (memory : Nat → α) (base : Nat) (block : List α) :
    load (store memory base block) base block.length = block := by
  apply List.ext_getElem
  · exact load_length _ _ _
  · intro index _bound inside
    simp only [load, List.getElem_map, List.getElem_range]
    exact store_inside memory base block index inside

theorem load_store_within (memory : Nat → α) (base : Nat) (block : List α)
    (skip length : Nat) (inside : skip + length ≤ block.length) :
    load (store memory base block) (base + skip) length =
      (block.drop skip).take length := by
  apply List.ext_getElem
  · rw [load_length, List.length_take, List.length_drop]
    omega
  · intro index bound _inside
    rw [load_length] at bound
    simp only [load, List.getElem_map, List.getElem_range, List.getElem_take,
      List.getElem_drop, Nat.add_assoc]
    exact store_inside memory base block (skip + index) (by omega)

theorem store_append (memory : Nat → α) (base : Nat) (left right : List α) :
    store (store memory base left) (base + left.length) right =
      store memory base (left ++ right) := by
  funext address
  unfold store
  by_cases above : base + left.length ≤ address
  · have inside : base ≤ address := by omega
    rw [if_pos above, if_pos inside, if_pos inside,
      List.getElem?_append_right (by omega),
      List.getElem?_eq_none (show left.length ≤ address - base by omega),
      Option.getD_none, Nat.sub_add_eq]
  · rw [if_neg above]
    by_cases inside : base ≤ address
    · rw [if_pos inside, if_pos inside,
        List.getElem?_append_left (by omega)]
    · rw [if_neg inside, if_neg inside]

theorem store_set (memory : Nat → α) (base size index : Nat) (value : α)
    (inside : index < size) :
    store memory base ((load memory base size).set index value) =
      Function.update memory (base + index) value := by
  funext address
  by_cases target : address = base + index
  · subst target
    rw [Function.update_self, store_inside _ _ _ _ (by
      rw [List.length_set, load_length]
      exact inside)]
    exact List.getElem_set_self _
  rw [Function.update_of_ne target]
  unfold store
  by_cases above : base ≤ address
  · rw [if_pos above, List.getElem?_set_ne (by omega)]
    by_cases within : address - base < size
    · rw [getElem?_load _ _ _ _ within, Option.getD_some,
        Nat.add_sub_cancel' above]
    · rw [List.getElem?_eq_none (by rw [load_length]; omega),
        Option.getD_none]
  · rw [if_neg above]

theorem load_update (memory : Nat → α) (base size index : Nat) (value : α) :
    load (Function.update memory (base + index) value) base size =
      (load memory base size).set index value := by
  apply List.ext_getElem
  · rw [List.length_set, load_length, load_length]
  · intro place _bound _inside
    simp only [load, List.getElem_set, List.getElem_map, List.getElem_range]
    by_cases target : index = place
    · rw [if_pos target, target, Function.update_self]
    · rw [if_neg target, Function.update_of_ne (by omega)]

theorem fill_inside (memory : Nat → α) (base size : Nat) (value : α)
    (address : Nat) (lower : base ≤ address) (upper : address < base + size) :
    fill memory base size value address = value := by
  unfold fill
  rw [if_pos ⟨lower, upper⟩]

theorem fill_fill (memory : Nat → α) (base size : Nat) (value : α) :
    fill (fill memory base size value) base size value =
      fill memory base size value := by
  funext address
  unfold fill
  split <;> rfl

theorem load_fill (memory : Nat → α) (base size : Nat) (value : α)
    (inner length : Nat) (lower : base ≤ inner)
    (upper : inner + length ≤ base + size) :
    load (fill memory base size value) inner length =
      List.replicate length value := by
  rw [List.eq_replicate_iff]
  refine ⟨load_length _ _ _, ?_⟩
  intro item member
  obtain ⟨index, indexMember, itemEq⟩ := List.mem_map.mp member
  have inside := List.mem_range.mp indexMember
  rw [← itemEq]
  exact fill_inside memory base size value _ (by omega) (by omega)

/-- A store that stops after `count` items leaves the old tail in place. -/
theorem load_store_take (memory : Nat → α) (base : Nat) (block : List α)
    (count : Nat) (within : count ≤ block.length) :
    load (store memory base (block.take count)) base block.length =
      block.take count ++
        load memory (base + count) (block.length - count) := by
  have takeLength : (block.take count).length = count := by
    rw [List.length_take]
    omega
  have split : block.length = count + (block.length - count) := by omega
  conv_lhs => rw [split]
  rw [load_add]
  congr 1
  · have stored := load_store memory base (block.take count)
    rwa [takeLength] at stored
  · apply (store_agreesOutside memory base (block.take count)).load
    rw [takeLength]
    exact Or.inl (Nat.le_refl _)

end Memory
