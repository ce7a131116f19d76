/-
A register kept in two cells that are written alternately.

Each cell is empty or holds a ranked value, and the authoritative value is the
one of highest rank, the first cell winning a tie.  An update rewrites only
the spare cell.  Whatever an interrupted update leaves there, the register
still reads as before or already reads as updated.
-/

import Mathlib.Logic.Function.Basic
import Mathlib.Order.Basic

namespace PingPong

variable {α : Type} (rank : α → Nat)

/-- `false` names the first cell and `true` the second. -/
abbrev Cells (α : Type) := Bool → Option α

def newest (cells : Cells α) : Option (α × Bool) :=
  match cells false, cells true with
  | none, none => none
  | some first, none => some (first, false)
  | none, some second => some (second, true)
  | some first, some second =>
      if rank first < rank second then some (second, true)
      else some (first, false)

def value (cells : Cells α) : Option α :=
  (newest rank cells).map Prod.fst

def spare (cells : Cells α) : Bool :=
  match newest rank cells with
  | none => false
  | some (_, index) => !index

def rewriteSpare (cells : Cells α) (content : Option α) : Cells α :=
  Function.update cells (spare rank cells) content

variable {rank}

theorem newest_cell {cells : Cells α} {held : α} {index : Bool}
    (found : newest rank cells = some (held, index)) :
    cells index = some held := by
  unfold newest at found
  split at found <;> rename_i first second
  · cases found
  · cases found
    exact first
  · cases found
    exact second
  · split at found <;> cases found
    · exact second
    · exact first

theorem newest_none {cells : Cells α} (found : newest rank cells = none)
    (index : Bool) : cells index = none := by
  unfold newest at found
  split at found <;> rename_i first second
  · cases index
    · exact first
    · exact second
  · cases found
  · cases found
  · split at found <;> cases found

theorem newest_eq_of_outranks {cells : Cells α} {held : α} {index : Bool}
    (occupied : cells index = some held)
    (outranks : ∀ other, cells (!index) = some other →
      rank other < rank held) :
    newest rank cells = some (held, index) := by
  unfold newest
  cases index with
  | false =>
      rw [occupied]
      cases second : cells true with
      | none => rfl
      | some other =>
          have below := outranks other second
          simp only [if_neg (Nat.lt_asymm below)]
  | true =>
      rw [occupied]
      cases first : cells false with
      | none => rfl
      | some other =>
          have below := outranks other first
          simp only [if_pos below]

theorem spare_ne {cells : Cells α} {held : α} {index : Bool}
    (found : newest rank cells = some (held, index)) :
    spare rank cells = !index := by
  simp only [spare, found]

variable (rank) in
theorem newest_isSome_of_cell {cells : Cells α} {held : α} {index : Bool}
    (occupied : cells index = some held) :
    ∃ entry, newest rank cells = some entry := by
  cases found : newest rank cells with
  | none => rw [newest_none found index] at occupied; cases occupied
  | some entry => exact ⟨entry, rfl⟩

/-! ### The register under a rewrite of the spare cell -/

variable (rank) in
theorem rewriteSpare_other (cells : Cells α) (content : Option α) :
    rewriteSpare rank cells content (!spare rank cells) =
      cells (!spare rank cells) :=
  Function.update_of_ne (by simp) _ _

variable (rank) in
theorem rewriteSpare_spare (cells : Cells α) (content : Option α) :
    rewriteSpare rank cells content (spare rank cells) = content :=
  Function.update_self _ _ _

theorem newest_rewriteSpare_outranked {cells : Cells α} {held : α}
    {index : Bool} (found : newest rank cells = some (held, index))
    {content : Option α}
    (lower : ∀ rival, content = some rival → rank rival < rank held) :
    newest rank (rewriteSpare rank cells content) = some (held, index) := by
  have other := rewriteSpare_other rank cells content
  have own := rewriteSpare_spare rank cells content
  rw [spare_ne found, Bool.not_not] at other
  rw [spare_ne found] at own
  apply newest_eq_of_outranks
  · rw [other, newest_cell found]
  · intro rival occupied
    exact lower rival (own.symm.trans occupied)

theorem newest_rewriteSpare_none (cells : Cells α) :
    newest rank (rewriteSpare rank cells none) = newest rank cells := by
  cases found : newest rank cells with
  | none =>
      have other := rewriteSpare_other rank cells none
      have own := rewriteSpare_spare rank cells none
      rw [newest_none found] at other
      cases cell : spare rank cells <;>
        rw [cell] at other own <;>
        simp only [Bool.not_false, Bool.not_true] at other <;>
        simp only [newest, other, own]
  | some entry =>
      refine newest_rewriteSpare_outranked found fun rival impossible => ?_
      cases impossible

variable (rank) in
theorem newest_rewriteSpare_higher (cells : Cells α) (next : α)
    (higher : ∀ held index, newest rank cells = some (held, index) →
      rank held < rank next) :
    newest rank (rewriteSpare rank cells (some next)) =
      some (next, spare rank cells) := by
  apply newest_eq_of_outranks (rewriteSpare_spare _ _ _)
  intro rival occupied
  rw [rewriteSpare_other] at occupied
  obtain ⟨⟨held, index⟩, found⟩ :=
    newest_isSome_of_cell rank occupied
  rw [spare_ne found, Bool.not_not, newest_cell found] at occupied
  cases occupied
  exact higher _ index found

theorem newest_rewriteSpare_lower {cells : Cells α} {held next : α}
    {index : Bool} (found : newest rank cells = some (held, index))
    (lower : rank next < rank held) :
    newest rank (rewriteSpare rank cells (some next)) =
      some (held, index) := by
  refine newest_rewriteSpare_outranked found fun rival same => ?_
  cases same
  exact lower

/-! ### Wear -/

variable (rank) in
/-- The rank of the register, zero while it is empty. -/
def level (cells : Cells α) : Nat :=
  match newest rank cells with
  | none => 0
  | some (held, _) => rank held

variable (rank) in
theorem rewriteSpare_next (cells : Cells α) {next : α}
    (follows : rank next = level rank cells + 1) :
    spare rank (rewriteSpare rank cells (some next)) =
        (!spare rank cells) ∧
      level rank (rewriteSpare rank cells (some next)) =
        level rank cells + 1 := by
  have taken := newest_rewriteSpare_higher rank cells next
    (fun held index found => by
      simp only [level, found] at follows
      omega)
  refine ⟨spare_ne taken, ?_⟩
  calc
    level rank (rewriteSpare rank cells (some next)) = rank next := by
      simp only [level, taken]
    _ = level rank cells + 1 := follows

theorem rewriteSpare_none (cells : Cells α) :
    spare rank (rewriteSpare rank cells none) = spare rank cells ∧
      level rank (rewriteSpare rank cells none) = level rank cells := by
  constructor
  · simp only [spare, newest_rewriteSpare_none]
  · simp only [level, newest_rewriteSpare_none]

/-- How often each cell has been rewritten and how many rewrites have gone
wrong, since the register had this spare cell and this rank. -/
structure Worn (first : Bool) (start : Nat) (rewrites : Bool → Nat)
    (faults : Nat) (spare : Bool) (level : Nat) : Prop where
  reached : level ≤ start + rewrites false + rewrites true
  spent : start + rewrites false + rewrites true ≤ level + faults
  ahead : spare = first →
    rewrites first ≤ rewrites (!first) + faults ∧
      rewrites (!first) ≤ rewrites first + faults
  behind : spare ≠ first →
    rewrites first ≤ rewrites (!first) + 1 + faults ∧
      rewrites (!first) + 1 ≤ rewrites first + faults

theorem Worn.start (first : Bool) (start : Nat) :
    Worn first start (fun _ => 0) 0 first start :=
  ⟨Nat.le_refl _, Nat.le_refl _, fun _ => ⟨Nat.le_refl _, Nat.le_refl _⟩,
    fun different => absurd rfl different⟩

section Worn

variable {first : Bool} {start : Nat} {rewrites rewrites' : Bool → Nat}
  {faults faults' : Nat} {spare : Bool} {level : Nat}

theorem sum_rewrites (once : rewrites' spare = rewrites spare + 1)
    (other : rewrites' (!spare) = rewrites (!spare)) :
    rewrites' false + rewrites' true =
      rewrites false + rewrites true + 1 := by
  cases spare
  · simp only [Bool.not_false] at other
    omega
  · simp only [Bool.not_true] at other
    omega

theorem Worn.advance (worn : Worn first start rewrites faults spare level)
    (once : rewrites' spare = rewrites spare + 1)
    (other : rewrites' (!spare) = rewrites (!spare))
    (more : faults ≤ faults') :
    Worn first start rewrites' faults' (!spare) (level + 1) := by
  have sum := sum_rewrites once other
  obtain ⟨reached, spent, ahead, behind⟩ := worn
  refine ⟨by omega, by omega, fun same => ?_, fun different => ?_⟩
  · have was : spare ≠ first := fun same' => by
      rw [← same'] at same
      exact absurd same (by simp)
    have flipped : (!first) = spare := by rw [← same, Bool.not_not]
    have bounds := behind was
    rw [flipped] at bounds ⊢
    rw [← same] at bounds ⊢
    rw [once, other]
    omega
  · have was : spare = first := by
      cases spare <;> cases first <;> simp_all
    subst was
    have bounds := ahead rfl
    rw [once, other]
    omega

theorem Worn.fail (worn : Worn first start rewrites faults spare level)
    (once : rewrites' spare = rewrites spare + 1)
    (other : rewrites' (!spare) = rewrites (!spare))
    (more : faults + 1 ≤ faults') :
    Worn first start rewrites' faults' spare level := by
  have sum := sum_rewrites once other
  obtain ⟨reached, spent, ahead, behind⟩ := worn
  refine ⟨by omega, by omega, fun same => ?_, fun different => ?_⟩
  · subst same
    have bounds := ahead rfl
    rw [once, other]
    omega
  · have flipped : first = !spare := by
      cases spare <;> cases first <;> simp_all
    have bounds := behind different
    rw [flipped, Bool.not_not] at bounds ⊢
    rw [once, other]
    omega

theorem Worn.even (worn : Worn first start rewrites faults spare level) :
    rewrites first ≤ rewrites (!first) + 1 + faults ∧
      rewrites (!first) ≤ rewrites first + faults := by
  by_cases same : spare = first
  · have bounds := worn.ahead same
    omega
  · have bounds := worn.behind same
    omega

end Worn

/-! ### The register when cells are emptied -/

theorem value_alone {cells : Cells α} {index : Bool}
    (empty : cells (!index) = none) : value rank cells = cells index := by
  unfold value newest
  cases index with
  | false =>
      have second : cells true = none := empty
      rw [second]
      cases cells false <;> rfl
  | true =>
      have first : cells false = none := empty
      rw [first]
      cases cells true <;> rfl

theorem value_empty {cells : Cells α} (empty : ∀ index, cells index = none) :
    value rank cells = none := by
  rw [@value_alone α rank cells false (empty true), empty false]

variable (rank) in
/-- The second cell holds another value that the first one supersedes. -/
def Superseded (cells : Cells α) : Prop :=
  ∃ held older, cells false = some held ∧ cells true = some older ∧
    older ≠ held ∧ ¬ rank held < rank older

theorem value_first {cells : Cells α} {held older : α}
    (first : cells false = some held) (second : cells true = some older)
    (higher : ¬ rank held < rank older) :
    value rank cells = some held := by
  simp only [value, newest, first, second, if_neg higher, Option.map_some]

variable (rank) in
/-- A register whose first cell is emptied reads as before or as empty, unless
that brings back a value it had superseded. -/
theorem value_emptyFirst_iff (cells : Cells α) :
    value rank (Function.update cells false none) = value rank cells ∨
        value rank (Function.update cells false none) = none ↔
      ¬ Superseded rank cells := by
  have emptied : value rank (Function.update cells false none) =
      cells true := by
    have first : Function.update cells false none (!true) = none :=
      Function.update_self _ _ _
    rw [value_alone first]
    exact Function.update_of_ne (by decide) _ _
  rw [emptied]
  constructor
  · rintro kept ⟨held, older, first, second, differ, higher⟩
    rw [value_first first second higher, second] at kept
    rcases kept with same | gone
    · exact differ (Option.some.inj same)
    · cases gone
  · intro alone
    cases second : cells true with
    | none => exact Or.inr rfl
    | some older =>
        left
        cases first : cells false with
        | none => rw [@value_alone α rank _ true first, second]
        | some held =>
            by_cases higher : rank held < rank older
            · simp only [value, newest, first, second, if_pos higher,
                Option.map_some]
            · rw [value_first first second higher]
              by_contra differ
              exact alone ⟨held, older, first, second,
                fun same => differ (congrArg some same), higher⟩

end PingPong
