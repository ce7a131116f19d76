/-
Words of bits as polynomials over GF(2), and the shift register as a division
by its generator.

A register that takes its input least significant bit first holds its
polynomial in reverse.  A shift then multiplies by the indeterminate modulo
the generator, so a register that has taken in a message holds a remainder.
-/

import Mathlib.Algebra.Field.ZMod
import Mathlib.Algebra.Polynomial.Div
import Mathlib.Data.BitVec
import Stm32Bootloader.Library.ShiftRegister

namespace BitPolynomial

open Polynomial ShiftRegister

/-- The coefficients in the order of a long division, the highest power
first. -/
noncomputable def ofBits (bits : List Bool) : (ZMod 2)[X] :=
  bits.foldl (fun value bit => X * value + C (bit.toNat : ZMod 2)) 0

variable {width bits : Nat}

def highFirst (word : BitVec width) : List Bool :=
  (List.range width).map word.getMsbD

def lowFirst (word : BitVec width) : List Bool :=
  (List.range width).map word.getLsbD

/-- Bit `power` of the word is the coefficient of that power. -/
noncomputable def ofWord (word : BitVec width) : (ZMod 2)[X] :=
  ofBits (highFirst word)

noncomputable def toWord (value : (ZMod 2)[X]) : BitVec width :=
  (BitVec.ofBoolListLE ((List.range width).map fun power =>
    decide (value.coeff power = 1))).setWidth width

/-! ### Coefficients -/

theorem ofBits_concat (front : List Bool) (bit : Bool) :
    ofBits (front ++ [bit]) =
      X * ofBits front + C (bit.toNat : ZMod 2) := by
  unfold ofBits
  rw [List.foldl_append]
  rfl

theorem coeff_ofBits (coefficients : List Bool) (power : Nat) :
    (ofBits coefficients).coeff power =
      ((coefficients.reverse.getD power false).toNat : ZMod 2) := by
  induction coefficients using List.reverseRecOn generalizing power with
  | nil => exact coeff_zero power
  | append_singleton front bit ih =>
      rw [ofBits_concat, List.reverse_append, coeff_add, coeff_C]
      cases power with
      | zero => simp
      | succ power =>
          rw [coeff_X_mul, ih, if_neg (Nat.succ_ne_zero power), add_zero]
          rfl

theorem ofBits_append (front back : List Bool) :
    ofBits (front ++ back) =
      X ^ back.length * ofBits front + ofBits back := by
  induction back using List.reverseRecOn with
  | nil =>
      rw [List.append_nil, List.length_nil, pow_zero, one_mul]
      exact (add_zero _).symm
  | append_singleton back bit ih =>
      rw [← List.append_assoc, ofBits_concat, ofBits_concat, ih,
        List.length_append, List.length_singleton, pow_succ]
      ring

@[simp] theorem lowFirst_length (word : BitVec width) :
    (lowFirst word).length = width := by
  simp only [lowFirst, List.length_map, List.length_range]

theorem highFirst_reverse (word : BitVec width) :
    highFirst word.reverse = lowFirst word := by
  refine List.map_congr_left fun index _inside => ?_
  exact BitVec.getMsbD_reverse

theorem coeff_ofWord (word : BitVec width) (power : Nat) :
    (ofWord word).coeff power = ((word.getLsbD power).toNat : ZMod 2) := by
  rw [ofWord, coeff_ofBits, highFirst, List.getD_eq_getElem?_getD]
  by_cases inside : power < width
  · have within : power < ((List.range width).map word.getMsbD).length := by
      simpa using inside
    rw [List.getElem?_reverse within, List.length_map, List.length_range,
      List.getElem?_map, List.getElem?_range (by omega), Option.map_some,
      Option.getD_some, BitVec.getMsbD_eq_getLsbD]
    have place : width - 1 - (width - 1 - power) = power := by omega
    rw [place, decide_eq_true (by omega), Bool.true_and]
  · rw [List.getElem?_eq_none (by simpa using inside),
      BitVec.getLsbD_of_ge _ _ (by omega)]
    rfl

theorem toWord_ofWord (word : BitVec width) : toWord (ofWord word) = word := by
  apply BitVec.eq_of_getLsbD_eq
  intro index inside
  rw [toWord, BitVec.getLsbD_setWidth, BitVec.getLsbD_ofBoolListLE,
    List.getD_eq_getElem?_getD, List.getElem?_map,
    List.getElem?_range inside, Option.map_some, Option.getD_some,
    decide_eq_true inside, Bool.true_and, coeff_ofWord]
  cases word.getLsbD index <;> decide

theorem ofWord_xor (left right : BitVec width) :
    ofWord (left ^^^ right) = ofWord left + ofWord right := by
  ext power
  rw [coeff_add, coeff_ofWord, coeff_ofWord, coeff_ofWord,
    BitVec.getLsbD_xor]
  cases left.getLsbD power <;> cases right.getLsbD power <;> decide

theorem ofWord_degree (word : BitVec width) :
    (ofWord word).degree < width := by
  rw [degree_lt_iff_coeff_zero]
  intro power above
  rw [coeff_ofWord, BitVec.getLsbD_of_ge _ _ above]
  rfl

/-! ### Shifts as multiplications -/

/-- The polynomial that a register with these taps divides by. -/
noncomputable def generator (taps : BitVec width) : (ZMod 2)[X] :=
  X ^ width + ofWord taps.reverse

/-- The polynomial that a register holds. -/
noncomputable def held (state : BitVec width) : (ZMod 2)[X] :=
  ofWord state.reverse

theorem held_xor (left right : BitVec width) :
    held (left ^^^ right) = held left + held right := by
  have reversed : (left ^^^ right).reverse = left.reverse ^^^ right.reverse := by
    apply BitVec.eq_of_getLsbD_eq
    intro index _inside
    simp only [BitVec.getLsbD_reverse, BitVec.getLsbD_xor,
      BitVec.getMsbD_xor]
  rw [held, reversed, ofWord_xor]
  rfl

theorem coeff_held (state : BitVec width) (power : Nat) :
    (held state).coeff power = ((state.getMsbD power).toNat : ZMod 2) := by
  rw [held, coeff_ofWord, BitVec.getLsbD_reverse]

theorem generator_monic (taps : BitVec width) : (generator taps).Monic :=
  monic_X_pow_add (ofWord_degree _)

theorem generator_degree (taps : BitVec width) :
    (generator taps).degree = width := by
  rw [generator, degree_add_eq_left_of_degree_lt, degree_X_pow]
  rw [degree_X_pow]
  exact ofWord_degree _

/-- The bit that is shifted out is the leading coefficient of the product. -/
theorem held_ushiftRight (state : BitVec width) :
    held (state >>> 1) + C ((state.getLsbD 0).toNat : ZMod 2) * X ^ width =
      X * held state := by
  ext power
  rw [coeff_add, coeff_C_mul, coeff_X_pow, coeff_held,
    BitVec.getMsbD_ushiftRight]
  cases power with
  | zero =>
      rw [coeff_X_mul_zero]
      cases width with
      | zero => simp
      | succ width => simp
  | succ power =>
      rw [coeff_X_mul, coeff_held, Nat.add_sub_cancel]
      rcases Nat.lt_trichotomy (power + 1) width with inside | top | above
      · simp [inside, inside.ne]
      · subst top
        simp [BitVec.getMsbD_eq_getLsbD]
      · have beyond : state.getMsbD power = false :=
          BitVec.getMsbD_of_ge _ _ (by omega)
        simp [beyond, above.ne']

/-- The taps are what the leading power leaves modulo the generator. -/
theorem held_shift (taps state : BitVec width) :
    held (shift taps state) +
        generator taps * C ((state.getLsbD 0).toNat : ZMod 2) =
      X * held state := by
  rw [← held_ushiftRight, shift, held_xor, generator, ← held]
  cases state.getLsbD 0 with
  | false =>
      have zero : held (BitVec.ofNat width 0) = 0 := by
        ext power
        rw [coeff_held, BitVec.getMsbD_zero]
        rfl
      simp [zero]
  | true =>
      have cancel := CharTwo.add_self_eq_zero (held taps)
      simp only [if_true, Bool.toNat_true, Nat.cast_one, map_one, mul_one,
        one_mul]
      calc held (state >>> 1) + held taps + (X ^ width + held taps)
          = held (state >>> 1) + X ^ width +
              (held taps + held taps) := by ring
        _ = held (state >>> 1) + X ^ width := by rw [cancel, add_zero]

theorem held_degree (taps state : BitVec width) :
    (held state).degree < (generator taps).degree := by
  rw [generator_degree]
  exact ofWord_degree _

theorem held_mod (taps state : BitVec width) :
    held state %ₘ generator taps = held state :=
  (modByMonic_eq_self_iff (generator_monic taps)).mpr
    (held_degree taps state)

theorem held_shift_mod (taps state : BitVec width) :
    held (shift taps state) = (X * held state) %ₘ generator taps :=
  (div_modByMonic_unique _ _ (generator_monic taps)
    ⟨held_shift taps state, held_degree taps _⟩).2.symm

/-! ### Messages -/

theorem mul_mod_generator (taps : BitVec width) (factor value : (ZMod 2)[X]) :
    (factor * (value %ₘ generator taps)) %ₘ generator taps =
      (factor * value) %ₘ generator taps := by
  apply modByMonic_eq_of_dvd_sub (generator_monic taps)
  rw [← mul_sub]
  exact dvd_mul_of_dvd_right (dvd_modByMonic_sub _ _) _

theorem held_iterate_shift (taps state : BitVec width) (count : Nat) :
    held ((shift taps)^[count] state) =
      (X ^ count * held state) %ₘ generator taps := by
  induction count with
  | zero =>
      rw [pow_zero, one_mul, Function.iterate_zero_apply, held_mod]
  | succ count ih =>
      rw [Function.iterate_succ_apply', held_shift_mod, ih,
        mul_mod_generator, ← mul_assoc, ← pow_succ']

theorem held_eq (state : BitVec width) :
    held state = ofBits (lowFirst state) := by
  rw [held, ofWord, highFirst_reverse]

theorem held_setWidth (symbol : BitVec bits) (fits : bits ≤ width) :
    X ^ bits * held (symbol.setWidth width) =
      X ^ width * ofBits (lowFirst symbol) := by
  ext power
  rw [← held_eq, coeff_X_pow_mul', coeff_X_pow_mul', coeff_held, coeff_held,
    BitVec.getMsbD_setWidth]
  by_cases reached : width ≤ power
  · have below : bits ≤ power := Nat.le_trans fits reached
    rw [if_pos reached, if_pos below, decide_eq_true (by omega),
      Bool.true_and, Nat.sub_add_cancel below]
  · rw [if_neg reached]
    split
    · rw [decide_eq_false (by omega), Bool.false_and]
      rfl
    · rfl

/-- The register after a message is the remainder of the initial register,
moved up by the length of the message, plus the message, moved up by the
width of the register. -/
theorem held_foldl_feed (taps state : BitVec width) (fits : bits ≤ width)
    (message : List (BitVec bits)) :
    held (message.foldl (feed taps) state) =
      (X ^ (bits * message.length) * held state +
          X ^ width * ofBits (message.flatMap lowFirst)) %ₘ
        generator taps := by
  induction message using List.reverseRecOn with
  | nil =>
      rw [List.length_nil, Nat.mul_zero, pow_zero, one_mul, List.flatMap_nil]
      change held state = (held state + X ^ width * 0) %ₘ generator taps
      rw [mul_zero, add_zero, held_mod]
  | append_singleton message symbol ih =>
      have length : (message ++ [symbol]).length = message.length + 1 := by
        rw [List.length_append, List.length_singleton]
      rw [List.foldl_append, List.foldl_cons, List.foldl_nil, feed,
        held_iterate_shift, held_xor, mul_add, held_setWidth symbol fits,
        ih, add_modByMonic, mul_mod_generator, ← add_modByMonic, length,
        List.flatMap_append, List.flatMap_singleton, ofBits_append,
        lowFirst_length]
      congr 1
      ring

end BitPolynomial
