/-
The period of a shift register, and the noise that a register notices because
its period is long.

A single bit that was taken in comes back after one period and not before.
Two flipped bits that lie closer together cannot cancel, and the two ends of
an inverted run cannot either, however long the run is.
-/

import Mathlib.Data.Nat.Prime.Basic
import Mathlib.Algebra.BigOperators.Associated
import Mathlib.Dynamics.PeriodicPts.Defs
import Stm32Bootloader.Library.BitPolynomial

namespace BitPolynomial

open Function Polynomial ShiftRegister

variable {width : Nat}

/-! ### Registers as residues -/

def one : BitVec width := BitVec.twoPow width (width - 1)

/-- The product of two residues, one coefficient of the left one after
another, the highest power first. -/
def multiply (taps left right : BitVec width) : BitVec width :=
  (lowFirst left).foldl
    (fun product bit =>
      shift taps product ^^^ (if bit then right else BitVec.ofNat width 0))
    (BitVec.ofNat width 0)

/-- The register after this many shifts, by squaring, for a count that fits in
this many binary digits. -/
def iterated (taps : BitVec width) : Nat → Nat → BitVec width
  | 0, _count => one
  | digits + 1, count =>
      let root := iterated taps digits (count / 2)
      let square := multiply taps root root
      if count % 2 = 1 then shift taps square else square

theorem held_injective :
    Injective (held : BitVec width → (ZMod 2)[X]) := by
  intro left right same
  have words : left.reverse = right.reverse := by
    rw [← toWord_ofWord left.reverse, ← toWord_ofWord right.reverse]
    exact congrArg toWord same
  rw [← BitVec.reverse_reverse_eq (x := left), words,
    BitVec.reverse_reverse_eq]

theorem held_zero : held (BitVec.ofNat width 0) = 0 := by
  ext power
  rw [coeff_held, BitVec.getMsbD_zero]
  rfl

theorem held_one (positive : 0 < width) : held (one : BitVec width) = 1 := by
  ext power
  rw [coeff_held, one, BitVec.getMsbD_eq_getLsbD, BitVec.getLsbD_twoPow,
    coeff_one]
  by_cases constant : power = 0
  · subst constant
    simp [positive]
  · by_cases inside : power < width
    · have other : ¬ width - 1 = width - 1 - power := by omega
      simp [constant, other]
    · simp [constant, inside]

theorem held_multiply (taps left right : BitVec width) :
    held (multiply taps left right) =
      (held left * held right) %ₘ generator taps := by
  have each : ∀ coefficients : List Bool,
      held (coefficients.foldl
        (fun product bit => shift taps product ^^^
          (if bit then right else BitVec.ofNat width 0))
        (BitVec.ofNat width 0)) =
        (ofBits coefficients * held right) %ₘ generator taps := by
    intro coefficients
    induction coefficients using List.reverseRecOn with
    | nil =>
        rw [List.foldl_nil, held_zero]
        change 0 = (0 * held right) %ₘ generator taps
        rw [zero_mul, zero_modByMonic]
    | append_singleton front bit ih =>
        have last : held (if bit then right else BitVec.ofNat width 0) =
            (C (bit.toNat : ZMod 2) * held right) %ₘ generator taps := by
          cases bit with
          | true => simp [held_mod]
          | false => simp [held_zero]
        rw [List.foldl_append, List.foldl_cons, List.foldl_nil, held_xor,
          held_shift_mod, ih, mul_mod_generator, last, ← add_modByMonic,
          ofBits_concat]
        congr 1
        ring
  rw [multiply, each, ← held_eq]

theorem iterated_eq (taps : BitVec width) (positive : 0 < width)
    {digits count : Nat} (fits : count < 2 ^ digits) :
    iterated taps digits count = (shift taps)^[count] one := by
  apply held_injective
  induction digits generalizing count with
  | zero =>
      obtain rfl : count = 0 := by omega
      rfl
  | succ digits ih =>
      have half : count / 2 < 2 ^ digits := by
        rw [Nat.pow_succ] at fits
        omega
      have square : held (multiply taps (iterated taps digits (count / 2))
          (iterated taps digits (count / 2))) =
            X ^ (2 * (count / 2)) %ₘ generator taps := by
        rw [held_multiply, ih half, held_iterate_shift, held_one positive,
          mul_one, mul_mod_generator, mul_comm, mul_mod_generator, ← pow_add,
          ← two_mul]
      rw [held_iterate_shift, held_one positive, mul_one]
      unfold iterated
      dsimp only
      rcases Nat.mod_two_eq_zero_or_one count with even | odd
      · have whole : 2 * (count / 2) = count := by omega
        rw [if_neg (by omega), square, whole]
      · have whole : 2 * (count / 2) + 1 = count := by omega
        rw [if_pos odd, held_shift_mod, square, mul_mod_generator,
          ← pow_succ', whole]

/-! ### The least period -/

/-- A period is the least one when dividing it by any of its primes leaves
none. -/
theorem minimalPeriod_of_primes {α : Type} {step : α → α} {state : α}
    {primes : List Nat} (prime : ∀ factor ∈ primes, factor.Prime)
    (periodic : IsPeriodicPt step primes.prod state)
    (least : ∀ factor ∈ primes,
      ¬ IsPeriodicPt step (primes.prod / factor) state) :
    minimalPeriod step state = primes.prod := by
  obtain ⟨times, product⟩ := periodic.minimalPeriod_dvd
  by_contra differs
  have proper : times ≠ 1 := fun single =>
    differs (by rw [product, single, mul_one])
  obtain ⟨factor, isPrime, rest, rfl⟩ := Nat.exists_prime_and_dvd proper
  have member : factor ∈ primes := by
    refine mem_list_primes_of_dvd_prod isPrime.prime
      (fun other mem => (prime other mem).prime) ?_
    rw [product]
    exact ⟨minimalPeriod step state * rest, by ring⟩
  refine least factor member ?_
  have quotient : primes.prod / factor = minimalPeriod step state * rest := by
    rw [product, Nat.mul_left_comm, Nat.mul_div_cancel_left _ isPrime.pos]
  rw [quotient]
  exact (isPeriodicPt_minimalPeriod step state).mul_const rest

theorem iterate_shift_lone (taps : BitVec width) {place : Nat}
    (inside : place < width) :
    (shift taps)^[place] (BitVec.twoPow width place) =
      BitVec.ofNat width 1 := by
  rw [BitVec.twoPow_eq]
  refine iterate_shift_low taps _ _ fun index above => ?_
  by_cases reached : index < width
  · have later : index ≠ 0 := by omega
    rw [BitVec.getLsbD_one, decide_eq_false later, Bool.and_false]
  · exact BitVec.getLsbD_of_ge _ _ (by omega)

theorem minimalPeriod_lone (taps : BitVec width) (positive : 0 < width)
    (periodic : one ∈ periodicPts (shift taps)) :
    minimalPeriod (shift taps) (BitVec.ofNat width 1) =
      minimalPeriod (shift taps) one := by
  have low : (shift taps)^[width - 1] one = BitVec.ofNat width 1 :=
    iterate_shift_lone taps (Nat.sub_one_lt_of_lt positive)
  rw [← low, minimalPeriod_apply_iterate periodic]

/-- The period of a lone bit, from residues that can be computed. -/
theorem minimalPeriod_of_iterated (taps : BitVec width)
    (positive : 0 < width) {primes : List Nat}
    (prime : ∀ factor ∈ primes, factor.Prime) {digits : Nat}
    (fits : primes.prod < 2 ^ digits)
    (returns : iterated taps digits primes.prod = one)
    (least : ∀ factor ∈ primes,
      iterated taps digits (primes.prod / factor) ≠ one) :
    minimalPeriod (shift taps) (BitVec.ofNat width 1) = primes.prod := by
  have periodic : IsPeriodicPt (shift taps) primes.prod one := by
    rwa [iterated_eq taps positive fits] at returns
  have positive' : 0 < primes.prod :=
    List.prod_pos fun factor member => (prime factor member).pos
  rw [minimalPeriod_lone taps positive (mk_mem_periodicPts positive' periodic)]
  refine minimalPeriod_of_primes prime periodic fun factor member => ?_
  have smaller : primes.prod / factor < 2 ^ digits :=
    Nat.lt_of_le_of_lt (Nat.div_le_self _ _) fits
  have proper := least factor member
  rwa [iterated_eq taps positive smaller] at proper

/-! ### Noise -/

section Noise

variable {bits : Nat}

/-- Bits are counted from the start of the message, in the order in which the
register takes them in. -/
def flip (message : List (BitVec bits)) (place : Nat) : List (BitVec bits) :=
  message.modify (place / bits)
    fun symbol => symbol ^^^ BitVec.twoPow bits (place % bits)

/-- One flipped bit, two flipped bits, or a run of inverted symbols. -/
inductive Noise : List (BitVec bits) → List (BitVec bits) → Prop where
  | single {message : List (BitVec bits)} {place : Nat}
      (inside : place < bits * message.length) :
      Noise message (flip message place)
  | pair {message : List (BitVec bits)} {first second : Nat}
      (order : first < second) (inside : second < bits * message.length) :
      Noise message (flip (flip message first) second)
  | inverted (front back : List (BitVec bits)) {run : List (BitVec bits)}
      (nonempty : run ≠ []) :
      Noise (front ++ run ++ back) (front ++ run.map (~~~·) ++ back)

@[simp] theorem flip_length (message : List (BitVec bits)) (place : Nat) :
    (flip message place).length = message.length :=
  List.length_modify ..

theorem Noise.length_eq {before after : List (BitVec bits)}
    (noise : Noise before after) : after.length = before.length := by
  cases noise with
  | single _inside => exact flip_length _ _
  | pair _order _inside => rw [flip_length, flip_length]
  | inverted _front _back _nonempty =>
      simp only [List.length_append, List.length_map]

/-! ### What noise adds to a register -/

/-- The bit that is added before a shift and what is left of earlier ones. -/
def inverting (taps error : BitVec width) : BitVec width :=
  shift taps (error ^^^ BitVec.ofNat width 1)

variable (taps state error : BitVec width)

theorem shift_zero :
    shift taps (BitVec.ofNat width 0) = BitVec.ofNat width 0 := by
  have twice := shift_xor taps (BitVec.ofNat width 0) (BitVec.ofNat width 0)
  rwa [BitVec.xor_self, BitVec.xor_self] at twice

theorem feed_xor (symbol change : BitVec bits) :
    feed taps (state ^^^ error) (symbol ^^^ change) =
      feed taps state symbol ^^^ feed taps error change := by
  unfold feed
  rw [← iterate_shift_xor, BitVec.setWidth_xor]
  congr 1
  ac_rfl

theorem foldl_feed_xor (message : List (BitVec bits)) :
    message.foldl (feed taps) (state ^^^ error) =
      message.foldl (feed taps) state ^^^
        (shift taps)^[bits * message.length] error := by
  induction message generalizing state error with
  | nil => rfl
  | cons symbol later ih =>
      have quiet : feed taps (state ^^^ error) symbol =
          feed taps state symbol ^^^ (shift taps)^[bits] error := by
        unfold feed
        rw [← iterate_shift_xor]
        congr 1
        ac_rfl
      rw [List.foldl_cons, List.foldl_cons, quiet, ih, List.length_cons,
        Nat.mul_succ, iterate_add_apply]

theorem feed_twoPow (fits : bits ≤ width) {place : Nat}
    (inside : place < bits) :
    feed taps (BitVec.ofNat width 0) (BitVec.twoPow bits place) =
      (shift taps)^[bits - place] (BitVec.ofNat width 1) := by
  have symbol : (BitVec.twoPow bits place).setWidth width =
      BitVec.twoPow width place := by
    apply BitVec.eq_of_getLsbD_eq
    intro index reached
    rw [BitVec.getLsbD_setWidth, BitVec.getLsbD_twoPow,
      BitVec.getLsbD_twoPow, decide_eq_true reached, decide_eq_true inside,
      decide_eq_true (Nat.lt_of_lt_of_le inside fits)]
    rfl
  rw [feed, BitVec.zero_xor, symbol,
    ← iterate_shift_lone taps (Nat.lt_of_lt_of_le inside fits),
    ← iterate_add_apply, Nat.sub_add_cancel (Nat.le_of_lt inside)]

theorem foldl_feed_flip (fits : bits ≤ width)
    {message : List (BitVec bits)} {place : Nat}
    (inside : place < bits * message.length) :
    (flip message place).foldl (feed taps) state =
      message.foldl (feed taps) state ^^^
        (shift taps)^[bits * message.length - place]
          (BitVec.ofNat width 1) := by
  have within : place / bits < message.length :=
    Nat.div_lt_of_lt_mul inside
  have low : place % bits < bits :=
    Nat.mod_lt _ (Nat.pos_of_lt_mul_right inside)
  have behind : bits * (message.drop (place / bits + 1)).length +
      (bits - place % bits) = bits * message.length - place := by
    have whole := Nat.div_add_mod place bits
    have room : bits * (place / bits + 1) ≤ bits * message.length :=
      Nat.mul_le_mul_left bits within
    rw [List.length_drop, Nat.mul_sub]
    rw [Nat.mul_add] at room ⊢
    omega
  have changed : ∀ running : BitVec width,
      feed taps running
          (message[place / bits] ^^^ BitVec.twoPow bits (place % bits)) =
        feed taps running message[place / bits] ^^^
          (shift taps)^[bits - place % bits] (BitVec.ofNat width 1) := by
    intro running
    rw [← feed_twoPow taps fits low, ← feed_xor, BitVec.xor_zero]
  rw [flip, List.modify_eq_take_cons_drop within, List.foldl_append,
    List.foldl_cons, changed, foldl_feed_xor, ← iterate_add_apply, behind,
    ← List.foldl_cons, ← List.foldl_append, List.cons_getElem_drop_succ,
    List.take_append_drop]

/-! A run of inverted symbols adds one bit before each of its shifts. -/

theorem iterate_shift_allOnes {count : Nat} (fits : count ≤ width) :
    (shift taps)^[count]
        (error ^^^ (BitVec.allOnes count).setWidth width) =
      (inverting taps)^[count] error := by
  induction count generalizing error with
  | zero =>
      have nothing : (BitVec.allOnes 0).setWidth width =
          BitVec.ofNat width 0 := by
        apply BitVec.eq_of_getLsbD_eq
        intro index _inside
        simp
      rw [nothing, BitVec.xor_zero]
      rfl
  | succ count ih =>
      have ones : (BitVec.allOnes (count + 1)).setWidth width =
          BitVec.ofNat width 1 ^^^
            ((BitVec.allOnes count).setWidth width <<< 1) := by
        apply BitVec.eq_of_getLsbD_eq
        intro index inside
        cases index with
        | zero => simp [inside]
        | succ index => simp [inside]
      have moved : shift taps
          ((BitVec.allOnes count).setWidth width <<< 1) =
            (BitVec.allOnes count).setWidth width := by
        refine iterate_shift_low taps _ 1 fun index above => ?_
        have high : count ≤ index := by omega
        rw [BitVec.getLsbD_setWidth, BitVec.getLsbD_allOnes,
          decide_eq_false (Nat.not_lt.mpr high), Bool.and_false]
      rw [iterate_succ_apply, iterate_succ_apply, ones, ← BitVec.xor_assoc,
        shift_xor, moved, ih _ (Nat.le_of_succ_le fits)]
      rfl

theorem foldl_feed_inverted (fits : bits ≤ width)
    (run : List (BitVec bits)) :
    (run.map (~~~·)).foldl (feed taps) (state ^^^ error) =
      run.foldl (feed taps) state ^^^
        (inverting taps)^[bits * run.length] error := by
  induction run generalizing state error with
  | nil => rfl
  | cons symbol later ih =>
      have inverse : ~~~symbol = symbol ^^^ BitVec.allOnes bits :=
        BitVec.xor_allOnes.symm
      have ones : feed taps error (BitVec.allOnes bits) =
          (inverting taps)^[bits] error :=
        iterate_shift_allOnes taps error fits
      rw [List.map_cons, List.foldl_cons, List.foldl_cons, inverse, feed_xor,
        ones, ih, List.length_cons, Nat.mul_succ, iterate_add_apply]

private theorem xor_cancel (left middle right : BitVec width) :
    left ^^^ middle ^^^ (middle ^^^ right) = left ^^^ right := by
  rw [BitVec.xor_assoc, ← BitVec.xor_assoc middle, BitVec.xor_self,
    BitVec.zero_xor]

/-- Of the bits that a run has added only those at its two ends are left in
the sum of two consecutive registers. -/
theorem inverting_ends (count : Nat) :
    shift taps ((inverting taps)^[count] (BitVec.ofNat width 0)) ^^^
        (inverting taps)^[count] (BitVec.ofNat width 0) =
      shift taps ((shift taps)^[count] (BitVec.ofNat width 1)) ^^^
        shift taps (BitVec.ofNat width 1) := by
  induction count with
  | zero =>
      rw [iterate_zero_apply, iterate_zero_apply, shift_zero,
        BitVec.xor_self, BitVec.xor_self]
  | succ count ih =>
      rw [iterate_succ_apply', iterate_succ_apply']
      generalize (inverting taps)^[count] (BitVec.ofNat width 0) = error
        at ih
      calc shift taps (inverting taps error) ^^^ inverting taps error
          = shift taps (inverting taps error ^^^
              (error ^^^ BitVec.ofNat width 1)) := by
            rw [inverting, ← shift_xor]
        _ = shift taps (shift taps error ^^^ error ^^^
              (shift taps (BitVec.ofNat width 1) ^^^
                BitVec.ofNat width 1)) := by
            refine congrArg (shift taps) ?_
            rw [inverting, shift_xor]
            ac_rfl
        _ = shift taps (shift taps ((shift taps)^[count]
              (BitVec.ofNat width 1)) ^^^ BitVec.ofNat width 1) := by
            rw [ih, xor_cancel]
        _ = _ := shift_xor _ _ _

section Period

variable {taps} (top : taps.getLsbD (width - 1) = true)

include top

theorem iterate_shift_differs {count : Nat} (positive : 0 < count)
    (early : count < minimalPeriod (shift taps) (BitVec.ofNat width 1))
    (later : Nat) :
    (shift taps)^[later + count] (BitVec.ofNat width 1) ≠
      (shift taps)^[later] (BitVec.ofNat width 1) := by
  intro same
  rw [iterate_add_apply] at same
  exact not_isPeriodicPt_of_pos_of_lt_minimalPeriod positive.ne' early
    ((shift_injective top).iterate later same)

theorem inverting_iterate_ne {count : Nat} (positive : 0 < count)
    (early : count < minimalPeriod (shift taps) (BitVec.ofNat width 1)) :
    (inverting taps)^[count] (BitVec.ofNat width 0) ≠
      BitVec.ofNat width 0 := by
  intro nothing
  have ends := inverting_ends taps count
  rw [nothing, shift_zero, BitVec.xor_self, eq_comm, BitVec.xor_eq_zero_iff]
    at ends
  exact not_isPeriodicPt_of_pos_of_lt_minimalPeriod positive.ne' early
    (shift_injective top ends)

/-- Noise changes the state of a register whose period is longer than the
message. -/
theorem foldl_feed_noise (fits : bits ≤ width) (positive : 0 < bits)
    {before after : List (BitVec bits)} (noise : Noise before after)
    (short : bits * before.length <
      minimalPeriod (shift taps) (BitVec.ofNat width 1))
    (state : BitVec width) :
    after.foldl (feed taps) state ≠ before.foldl (feed taps) state := by
  have added : ∀ {clean error : BitVec width},
      error ≠ BitVec.ofNat width 0 → clean ^^^ error ≠ clean := by
    intro clean error changed same
    refine changed ((BitVec.xor_right_inj clean).mp ?_)
    rw [same, BitVec.xor_zero]
  cases noise with
  | @single _ place inside =>
      rw [foldl_feed_flip taps state fits inside]
      refine added fun nothing => ?_
      have fixed : (shift taps)^[bits * before.length - place]
          (BitVec.ofNat width 0) = BitVec.ofNat width 0 :=
        iterate_fixed (shift_zero taps) _
      have lone : BitVec.ofNat width 1 = BitVec.ofNat width 0 :=
        (shift_injective top).iterate _ (nothing.trans fixed.symm)
      have bit := congrArg (fun word => word.getLsbD 0) lone
      have inside : 0 < width := Nat.zero_lt_of_lt (BitVec.lt_of_getLsbD top)
      simp [inside] at bit
  | @pair _ first second order inside =>
      have inside' : second < bits * (flip before first).length := by
        rwa [flip_length]
      rw [foldl_feed_flip taps state fits inside', flip_length,
        foldl_feed_flip taps state fits (Nat.lt_trans order inside),
        BitVec.xor_assoc]
      refine added fun same => ?_
      rw [BitVec.xor_eq_zero_iff] at same
      have apart : bits * before.length - first =
          bits * before.length - second + (second - first) := by omega
      rw [apart] at same
      exact iterate_shift_differs top (by omega) (by omega) _ same
  | @inverted front back run nonempty =>
      have length : 0 < run.length := List.length_pos_iff.mpr nonempty
      have within : bits * run.length <
          minimalPeriod (shift taps) (BitVec.ofNat width 1) := by
        refine Nat.lt_of_le_of_lt (Nat.mul_le_mul_left bits ?_) short
        simp only [List.length_append]
        omega
      intro same
      simp only [List.foldl_append] at same
      have middle := foldl_feed_injective top back same
      have changed := foldl_feed_inverted taps
        (front.foldl (feed taps) state) (BitVec.ofNat width 0) fits run
      rw [BitVec.xor_zero] at changed
      rw [changed] at middle
      exact added (inverting_iterate_ne top
        (Nat.mul_pos positive length) within) middle

end Period

end Noise

end BitPolynomial
