/-
Linear feedback shift registers that take their input in symbols of a fixed
number of bits, least significant bit first.

A shift is linear and, when the highest tap is set, injective.  Symbols that
together fit in the register therefore act on it as the one word they spell,
so two inputs that differ within such a window leave different states.
-/

import Mathlib.Data.List.Basic
import Mathlib.Logic.Function.Iterate

namespace ShiftRegister

/-- Two sequences that differ, and only within a window of this length. -/
inductive Burst {α : Type} (limit : Nat) : List α → List α → Prop where
  | intro (front window changed back : List α)
      (sameLength : changed.length = window.length)
      (short : window.length ≤ limit) (differs : changed ≠ window) :
      Burst limit (front ++ window ++ back) (front ++ changed ++ back)

theorem Burst.length_eq {α : Type} {limit : Nat} {before after : List α}
    (burst : Burst limit before after) : after.length = before.length := by
  obtain ⟨front, window, changed, back, sameLength, _short, _differs⟩ := burst
  simp only [List.length_append, sameLength]

theorem Burst.set {α : Type} {limit : Nat} {items : List α} {index : Nat}
    {item : α} (inside : index < items.length) (differs : items[index] ≠ item)
    (positive : 0 < limit) : Burst limit items (items.set index item) := by
  have window := Burst.intro (items.take index) [items[index]] [item]
    (items.drop (index + 1)) rfl positive
    fun same => differs (List.singleton_inj.mp same).symm
  rw [List.append_assoc, List.append_assoc, List.singleton_append,
    List.singleton_append, List.getElem_cons_drop, List.take_append_drop]
    at window
  rw [List.set_eq_take_append_cons_drop, if_pos inside]
  exact window

/-- An item that is intact in front lies outside the window, or can be left
out of it. -/
theorem Burst.of_cons {α : Type} {limit : Nat} {item : α}
    {before after : List α}
    (burst : Burst limit (item :: before) (item :: after)) :
    Burst limit before after := by
  generalize left : item :: before = whole at burst
  generalize right : item :: after = whole' at burst
  obtain ⟨front, window, changed, back, sameLength, short, differs⟩ := burst
  cases front with
  | cons _ front =>
      cases left
      cases right
      exact .intro front window changed back sameLength short differs
  | nil =>
      cases window with
      | nil => exact absurd (List.length_eq_zero_iff.mp sameLength) differs
      | cons _ window =>
          obtain ⟨_, changed, rfl⟩ :=
            List.exists_cons_of_length_eq_add_one sameLength
          cases left
          cases right
          have shorter : window.length ≤ limit := Nat.le_of_succ_le short
          exact .intro [] window changed back (Nat.succ_inj.mp sameLength)
            shorter (fun same => differs (congrArg _ same))

variable {width bits : Nat}

/-- The bit that is shifted out decides whether the taps are added. -/
def shift (taps state : BitVec width) : BitVec width :=
  (state >>> 1) ^^^ (if state.getLsbD 0 then taps else BitVec.ofNat width 0)

def feed (taps state : BitVec width) (symbol : BitVec bits) : BitVec width :=
  (shift taps)^[bits] (state ^^^ symbol.setWidth width)

/-- The word that a sequence of symbols spells, the first symbol lowest. -/
def word : List (BitVec bits) → BitVec width
  | [] => BitVec.ofNat width 0
  | symbol :: later => symbol.setWidth width ^^^ (word later <<< bits)

/-! ### Shifts -/

theorem shift_xor (taps left right : BitVec width) :
    shift taps (left ^^^ right) = shift taps left ^^^ shift taps right := by
  apply BitVec.eq_of_getLsbD_eq
  intro index _inside
  unfold shift
  simp only [BitVec.getLsbD_xor, BitVec.getLsbD_ushiftRight]
  cases left.getLsbD 0 <;> cases right.getLsbD 0 <;>
    cases left.getLsbD (1 + index) <;> cases right.getLsbD (1 + index) <;>
    cases taps.getLsbD index <;> simp [*]

theorem iterate_shift_xor (taps left right : BitVec width) (count : Nat) :
    (shift taps)^[count] (left ^^^ right) =
      (shift taps)^[count] left ^^^ (shift taps)^[count] right := by
  induction count generalizing left right with
  | zero => rfl
  | succ count ih =>
      simp only [Function.iterate_succ_apply, shift_xor]
      exact ih _ _

theorem shift_top {taps : BitVec width}
    (top : taps.getLsbD (width - 1) = true) (state : BitVec width) :
    (shift taps state).getLsbD (width - 1) = state.getLsbD 0 := by
  have inside : width - 1 < width := BitVec.lt_of_getLsbD top
  have above : state.getLsbD (1 + (width - 1)) = false :=
    BitVec.getLsbD_of_ge _ _ (by omega)
  unfold shift
  rw [BitVec.getLsbD_xor, BitVec.getLsbD_ushiftRight, above,
    Bool.false_xor]
  cases state.getLsbD 0
  · exact BitVec.getLsbD_zero
  · exact top

theorem shift_injective {taps : BitVec width}
    (top : taps.getLsbD (width - 1) = true) :
    Function.Injective (shift taps) := by
  intro left right same
  have low : left.getLsbD 0 = right.getLsbD 0 := by
    rw [← shift_top top left, ← shift_top top right, same]
  unfold shift at same
  rw [low] at same
  have shifted : left >>> 1 = right >>> 1 :=
    (BitVec.xor_left_inj _).mp same
  apply BitVec.eq_of_getLsbD_eq
  intro index _inside
  cases index with
  | zero => exact low
  | succ index =>
      have bit := congrArg (fun word => word.getLsbD index) shifted
      simpa only [BitVec.getLsbD_ushiftRight, Nat.add_comm 1] using bit

theorem iterate_shift_low (taps value : BitVec width) (count : Nat)
    (high : ∀ index, width ≤ index + count → value.getLsbD index = false) :
    (shift taps)^[count] (value <<< count) = value := by
  induction count with
  | zero => exact BitVec.shiftLeft_zero value
  | succ count ih =>
      have low : (value <<< (count + 1)).getLsbD 0 = false := by
        simp
      have once : shift taps (value <<< (count + 1)) = value <<< count := by
        unfold shift
        rw [low, if_neg Bool.false_ne_true, BitVec.xor_zero]
        apply BitVec.eq_of_getLsbD_eq
        intro index inside
        rw [BitVec.getLsbD_ushiftRight, BitVec.getLsbD_shiftLeft,
          BitVec.getLsbD_shiftLeft]
        by_cases early : index < count
        · simp [early, Nat.add_comm 1]
        · have kept : 1 + index - (count + 1) = index - count := by omega
          rw [kept]
          by_cases last : 1 + index < width
          · have within : index + 1 < width := by omega
            simp [early, inside, within, Nat.add_comm 1]
          · rw [high (index - count) (by omega)]
            simp
      rw [Function.iterate_succ_apply, once]
      exact ih (fun index bound => high index (by omega))

/-! ### Windows -/

theorem word_high (symbols : List (BitVec bits)) (index : Nat)
    (above : bits * symbols.length ≤ index) :
    (word symbols : BitVec width).getLsbD index = false := by
  induction symbols generalizing index with
  | nil => exact BitVec.getLsbD_zero
  | cons symbol later ih =>
      rw [List.length_cons, Nat.mul_succ] at above
      have beyond : symbol.getLsbD index = false :=
        BitVec.getLsbD_of_ge _ _ (by omega)
      rw [word, BitVec.getLsbD_xor, BitVec.getLsbD_setWidth,
        BitVec.getLsbD_shiftLeft, ih (index - bits) (by omega), beyond]
      simp

/-- Symbols that fit in the register together act as one word. -/
theorem feed_window (taps state : BitVec width) (symbols : List (BitVec bits))
    (fits : bits * symbols.length ≤ width) :
    symbols.foldl (feed taps) state =
      (shift taps)^[bits * symbols.length] (state ^^^ word symbols) := by
  induction symbols generalizing state with
  | nil => exact BitVec.xor_zero.symm
  | cons symbol later ih =>
      rw [List.length_cons, Nat.mul_succ] at fits ⊢
      have rest : (shift taps)^[bits] (word later <<< bits) = word later :=
        iterate_shift_low taps (word later) bits
          (fun index bound => word_high later index (by omega))
      calc (symbol :: later).foldl (feed taps) state
          = (shift taps)^[bits * later.length]
              (feed taps state symbol ^^^ word later) :=
            ih (feed taps state symbol) (by omega)
        _ = (shift taps)^[bits * later.length]
              ((shift taps)^[bits] (state ^^^ word (symbol :: later))) := by
            refine congrArg _ ?_
            rw [word, ← BitVec.xor_assoc, iterate_shift_xor, rest]
            rfl
        _ = _ := (Function.iterate_add_apply _ _ _ _).symm

theorem word_injective {left right : List (BitVec bits)}
    (sameLength : left.length = right.length)
    (fits : bits * left.length ≤ width)
    (same : (word left : BitVec width) = word right) : left = right := by
  induction left generalizing right with
  | nil => exact (List.length_eq_zero_iff.mp sameLength.symm).symm
  | cons symbol later ih =>
      obtain ⟨symbol', later', rfl⟩ :=
        List.exists_cons_of_length_eq_add_one sameLength.symm
      rw [List.length_cons, List.length_cons, Nat.succ_inj] at sameLength
      rw [List.length_cons, Nat.mul_succ] at fits
      have bit := fun index => congrArg (fun word => word.getLsbD index) same
      simp only [word, BitVec.getLsbD_xor, BitVec.getLsbD_setWidth,
        BitVec.getLsbD_shiftLeft] at bit
      have first : symbol = symbol' := by
        apply BitVec.eq_of_getLsbD_eq
        intro index inside
        have low := bit index
        have within : index < width := by omega
        simpa [inside, within] using low
      have second : (word later : BitVec width) = word later' := by
        apply BitVec.eq_of_getLsbD_eq
        intro index _inside
        by_cases above : bits * later.length ≤ index
        · rw [word_high later index above,
            word_high later' index (sameLength ▸ above)]
        · have high := bit (index + bits)
          have within : index + bits < width := by omega
          have past : ¬ index + bits < bits := by omega
          have beyond : ∀ item : BitVec bits,
              item.getLsbD (index + bits) = false :=
            fun item => BitVec.getLsbD_of_ge _ _ (by omega)
          simpa [within, past, beyond] using high
      rw [first, ih sameLength (by omega) second]

/-! ### What a change does to the state -/

section Injective

variable {taps : BitVec width} (top : taps.getLsbD (width - 1) = true)

include top

theorem feed_injective (symbol : BitVec bits) :
    Function.Injective fun state => feed taps state symbol := by
  intro left right same
  exact (BitVec.xor_left_inj _).mp
    ((shift_injective top).iterate bits same)

theorem foldl_feed_injective (symbols : List (BitVec bits)) :
    Function.Injective fun state => symbols.foldl (feed taps) state := by
  induction symbols with
  | nil => exact Function.injective_id
  | cons symbol later ih => exact ih.comp (feed_injective top symbol)

theorem feed_window_injective {state : BitVec width}
    {left right : List (BitVec bits)}
    (sameLength : left.length = right.length)
    (fits : bits * left.length ≤ width)
    (same : left.foldl (feed taps) state = right.foldl (feed taps) state) :
    left = right := by
  rw [feed_window taps state left fits,
    feed_window taps state right (sameLength ▸ fits), sameLength] at same
  have words := (shift_injective top).iterate _ same
  exact word_injective sameLength fits ((BitVec.xor_right_inj state).mp words)

/-- A burst that fits in the register changes its state. -/
theorem foldl_feed_burst {limit : Nat} (fits : bits * limit ≤ width)
    {before after : List (BitVec bits)} (burst : Burst limit before after)
    (state : BitVec width) :
    after.foldl (feed taps) state ≠ before.foldl (feed taps) state := by
  obtain ⟨front, window, changed, back, sameLength, short, differs⟩ := burst
  intro same
  simp only [List.foldl_append] at same
  have inside : bits * changed.length ≤ width := by
    rw [sameLength]
    exact Nat.le_trans (Nat.mul_le_mul_left bits short) fits
  exact differs (feed_window_injective top sameLength inside
    (foldl_feed_injective top back same))

end Injective

end ShiftRegister
