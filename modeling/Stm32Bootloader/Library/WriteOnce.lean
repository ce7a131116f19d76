/-
Memory whose cells can be programmed once between two erases.

A history of erase and program events determines which cells are programmed.
It respects the medium when no program event, completed or not, covers a cell
that is programmed at that time.

A history of completed actions also determines what the cells hold: the item
that was last programmed into the cell since it was last erased.
-/

import Stm32Bootloader.Library.Memory

namespace WriteOnce

inductive Event where
  | erase (base size : Nat)
  | program (base size : Nat) (completed : Bool)

def Event.after (programmed : Nat → Prop) : Event → Nat → Prop
  | .erase base size => fun cell =>
      programmed cell ∧ ¬ (base ≤ cell ∧ cell < base + size)
  | .program base size completed => fun cell =>
      programmed cell ∨
        (completed = true ∧ base ≤ cell ∧ cell < base + size)

def Event.Allowed (programmed : Nat → Prop) : Event → Prop
  | .erase _ _ => True
  | .program base size _ =>
      ∀ cell, base ≤ cell → cell < base + size → ¬ programmed cell

def programmedAfter (programmed : Nat → Prop) (events : List Event) :
    Nat → Prop :=
  events.foldl Event.after programmed

def Respects (programmed : Nat → Prop) : List Event → Prop
  | [] => True
  | event :: later =>
      event.Allowed programmed ∧ Respects (event.after programmed) later

variable {programmed : Nat → Prop}

theorem programmedAfter_append (left right : List Event) :
    programmedAfter programmed (left ++ right) =
      programmedAfter (programmedAfter programmed left) right :=
  List.foldl_append

theorem respects_append (left right : List Event) :
    Respects programmed (left ++ right) ↔
      Respects programmed left ∧
        Respects (programmedAfter programmed left) right := by
  induction left generalizing programmed with
  | nil => exact (iff_of_eq (true_and _)).symm
  | cons event left ih =>
      simp only [List.cons_append, Respects, ih, and_assoc]
      rfl

theorem respects_erase_program {base size length : Nat} (completed : Bool)
    (within : length ≤ size) :
    Respects programmed [.erase base size, .program base length completed] := by
  refine ⟨trivial, fun cell lower upper erased => ?_, trivial⟩
  exact erased.2 ⟨lower, by omega⟩

theorem programmedAfter_congr {left right : Nat → Prop} {cell : Nat}
    (agree : left cell ↔ right cell) (events : List Event) :
    programmedAfter left events cell ↔ programmedAfter right events cell := by
  induction events generalizing left right with
  | nil => exact agree
  | cons event later ih =>
      apply ih
      cases event with
      | erase base size => exact and_congr_left' agree
      | program base size completed => exact or_congr_left agree

theorem respects_program_congr {left right : Nat → Prop} {base size : Nat}
    (completed : Bool)
    (agree : ∀ cell, base ≤ cell → cell < base + size →
      (left cell ↔ right cell)) :
    Respects left [.program base size completed] ↔
      Respects right [.program base size completed] := by
  refine and_congr_left' (forall_congr' fun cell => ?_)
  exact forall_congr' fun lower => forall_congr' fun upper =>
    not_congr (agree cell lower upper)

/-! ### What the cells hold -/

inductive Action (α : Type) where
  | erase (base size : Nat)
  | program (base : Nat) (block : List α)

variable {α : Type}

/-- The content of the cells after an action; an erased cell holds nothing. -/
def Action.apply (content : Nat → Option α) : Action α → Nat → Option α
  | .erase base size => Memory.fill content base size none
  | .program base block => Memory.store content base (block.map some)

def Action.Covers (cell : Nat) : Action α → Prop
  | .erase base size => base ≤ cell ∧ cell < base + size
  | .program base block => base ≤ cell ∧ cell < base + block.length

def contents (actions : List (Action α)) : Nat → Option α :=
  actions.foldl Action.apply fun _ => none

/-- The item was programmed into the cell, and the cell has been left alone
since. -/
def LastProgrammed (actions : List (Action α)) (cell : Nat) (item : α) :
    Prop :=
  ∃ earlier base block later,
    actions = earlier ++ .program base block :: later ∧
      base ≤ cell ∧ block[cell - base]? = some item ∧
      ∀ action, action ∈ later → ¬ action.Covers cell

theorem contents_concat (actions : List (Action α)) (action : Action α) :
    contents (actions ++ [action]) = action.apply (contents actions) := by
  unfold contents
  rw [List.foldl_append]
  rfl

theorem Action.apply_agrees {action : Action α} {cell : Nat}
    (content : Nat → Option α) (apart : ¬ action.Covers cell) :
    action.apply content cell = content cell := by
  cases action with
  | erase base size =>
      have outside : ¬ (base ≤ cell ∧ cell < base + size) := apart
      exact Memory.fill_agreesOutside content base size none cell (by omega)
  | program base block =>
      have outside : ¬ (base ≤ cell ∧ cell < base + block.length) := apart
      refine Memory.store_agreesOutside content base _ cell ?_
      rw [List.length_map]
      omega

theorem LastProgrammed.concat {actions : List (Action α)} {cell : Nat}
    {item : α} (last : LastProgrammed actions cell item)
    {action : Action α} (apart : ¬ action.Covers cell) :
    LastProgrammed (actions ++ [action]) cell item := by
  obtain ⟨earlier, base, block, later, rfl, lower, inside, since⟩ := last
  refine ⟨earlier, base, block, later ++ [action], ?_, lower, inside, ?_⟩
  · rw [List.append_assoc, List.cons_append]
  · intro other member
    rcases List.mem_append.mp member with old | new
    · exact since other old
    · rw [List.mem_singleton.mp new]
      exact apart

/-- What a history that ends with an action says of a cell: the action made
it so, or it leaves the cell alone. -/
theorem LastProgrammed.concat_iff {actions : List (Action α)} {cell : Nat}
    {item : α} {action : Action α} :
    LastProgrammed (actions ++ [action]) cell item ↔
      (∃ base block, action = .program base block ∧ base ≤ cell ∧
          block[cell - base]? = some item) ∨
        ¬ action.Covers cell ∧ LastProgrammed actions cell item := by
  constructor
  · rintro ⟨earlier, base, block, later, split, lower, inside, since⟩
    rcases List.eq_nil_or_concat later with rfl | ⟨front, last, rfl⟩
    · left
      obtain ⟨_same, single⟩ := List.append_inj' split rfl
      exact ⟨base, block, List.singleton_inj.mp single, lower, inside⟩
    · right
      rw [List.concat_eq_append] at split since
      rw [← List.cons_append, ← List.append_assoc] at split
      obtain ⟨same, single⟩ := List.append_inj' split rfl
      rw [List.singleton_inj.mp single]
      refine ⟨since last (by simp), earlier, base, block, front, same, lower,
        inside, fun other member => since other ?_⟩
      exact List.mem_append_left _ member
  · rintro (⟨base, block, rfl, lower, inside⟩ | ⟨apart, last⟩)
    · exact ⟨actions, base, block, [], rfl, lower, inside,
        fun _ impossible => by cases impossible⟩
    · exact last.concat apart

theorem contents_eq_some_iff {actions : List (Action α)} {cell : Nat}
    {item : α} :
    contents actions cell = some item ↔
      LastProgrammed actions cell item := by
  induction actions using List.reverseRecOn with
  | nil =>
      refine iff_of_false (by simp [contents]) ?_
      rintro ⟨earlier, base, block, later, split, _⟩
      cases earlier <;> cases split
  | append_singleton actions action ih =>
      rw [contents_concat, LastProgrammed.concat_iff, ← ih]
      by_cases covered : action.Covers cell
      swap
      · rw [Action.apply_agrees _ covered, and_iff_right covered]
        refine (or_iff_right ?_).symm
        rintro ⟨base, block, rfl, lower, inside⟩
        have bound := (List.getElem?_eq_some_iff.mp inside).1
        exact covered ⟨lower, by omega⟩
      rw [or_iff_left (fun both => both.1 covered)]
      cases action with
      | erase base size =>
          have empty : Action.apply (contents actions) (.erase base size)
              cell = none :=
            Memory.fill_inside _ _ _ _ _ covered.1 covered.2
          rw [empty]
          refine iff_of_false (by simp) ?_
          rintro ⟨_, _, impossible, _⟩
          cases impossible
      | program base block =>
          have bound : cell - base < block.length := by
            have upper := covered.2
            have lower := covered.1
            omega
          have holds : Action.apply (contents actions)
              (.program base block) cell = some block[cell - base] := by
            have stored := Memory.store_inside (contents actions) base
              (block.map some) (cell - base) (by simpa using bound)
            rw [Nat.add_sub_cancel' covered.1, List.getElem_map] at stored
            exact stored
          rw [holds, ← List.getElem?_eq_getElem bound]
          constructor
          · exact fun inside => ⟨base, block, rfl, covered.1, inside⟩
          · rintro ⟨_, _, same, _lower, inside⟩
            cases same
            exact inside

end WriteOnce
