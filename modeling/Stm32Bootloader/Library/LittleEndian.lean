/-
Little-endian encoding of 16-bit and 32-bit words as byte lists, and the words
found at an offset of a byte list.

A record is laid out by appending the encodings of its fields; the lemmas at
the end read one field of such a concatenation back.
-/

import Mathlib.Tactic.IntervalCases

namespace LittleEndian

def word32 (first second third fourth : BitVec 8) : BitVec 32 :=
  first.setWidth 32 ||| (second.setWidth 32 <<< 8) |||
    (third.setWidth 32 <<< 16) ||| (fourth.setWidth 32 <<< 24)

def word16 (first second : BitVec 8) : BitVec 16 :=
  first.setWidth 16 ||| (second.setWidth 16 <<< 8)

def bytes32 (value : BitVec 32) : List (BitVec 8) :=
  [(value &&& 0xFF#32).setWidth 8,
    ((value >>> 8) &&& 0xFF#32).setWidth 8,
    ((value >>> 16) &&& 0xFF#32).setWidth 8,
    ((value >>> 24) &&& 0xFF#32).setWidth 8]

def bytes16 (value : BitVec 16) : List (BitVec 8) :=
  [(value &&& 0xFF#16).setWidth 8,
    ((value >>> 8) &&& 0xFF#16).setWidth 8]

@[simp] theorem bytes32_length (value : BitVec 32) :
    (bytes32 value).length = 4 := rfl

@[simp] theorem bytes16_length (value : BitVec 16) :
    (bytes16 value).length = 2 := rfl

private theorem masked_setWidth {width : Nat} (value mask : BitVec width)
    (maskLow : mask.setWidth 8 = BitVec.allOnes 8) :
    (value &&& mask).setWidth 8 = value.setWidth 8 := by
  rw [BitVec.setWidth_and, maskLow, BitVec.and_allOnes]

theorem bytes32_eq (value : BitVec 32) :
    bytes32 value =
      [value.setWidth 8, (value >>> 8).setWidth 8,
        (value >>> 16).setWidth 8, (value >>> 24).setWidth 8] := by
  simp only [bytes32, masked_setWidth _ 0xFF#32 (by decide)]

theorem bytes16_eq (value : BitVec 16) :
    bytes16 value = [value.setWidth 8, (value >>> 8).setWidth 8] := by
  simp only [bytes16, masked_setWidth _ 0xFF#16 (by decide)]

theorem word32_setWidth (value : BitVec 32) :
    word32 (value.setWidth 8) ((value >>> 8).setWidth 8)
      ((value >>> 16).setWidth 8) ((value >>> 24).setWidth 8) = value := by
  apply BitVec.eq_of_getElem_eq
  intro index bound
  unfold word32
  interval_cases index <;> simp

theorem word16_setWidth (value : BitVec 16) :
    word16 (value.setWidth 8) ((value >>> 8).setWidth 8) = value := by
  apply BitVec.eq_of_getElem_eq
  intro index bound
  unfold word16
  interval_cases index <;> simp

theorem bytes16_word16 (first second : BitVec 8) :
    bytes16 (word16 first second) = [first, second] := by
  rw [bytes16_eq]
  unfold word16
  simp only [List.cons.injEq, and_true]
  refine ⟨?_, ?_⟩ <;> apply BitVec.eq_of_getElem_eq <;>
    intro index bound <;> interval_cases index <;> simp

theorem bytes32_word32 (first second third fourth : BitVec 8) :
    bytes32 (word32 first second third fourth) =
      [first, second, third, fourth] := by
  rw [bytes32_eq]
  unfold word32
  simp only [List.cons.injEq, and_true]
  refine ⟨?_, ?_, ?_, ?_⟩ <;> apply BitVec.eq_of_getElem_eq <;>
    intro index bound <;> interval_cases index <;> simp

/-! ### Unbounded integers -/

/-- The integer whose bytes these are, however many there are. -/
def natOfBytes (bytes : List (BitVec 8)) : Nat :=
  bytes.foldr (fun byte rest => byte.toNat + 256 * rest) 0

theorem natOfBytes_bytes32 (value : BitVec 32) :
    natOfBytes (bytes32 value) = value.toNat := by
  rw [bytes32_eq]
  simp only [natOfBytes, List.foldr_cons, List.foldr_nil]
  bv_omega

theorem natOfBytes_take {value : Nat} (inWord : value < 2 ^ 32) :
    natOfBytes ((bytes32 (BitVec.ofNat 32 value)).take 4) = value := by
  rw [List.take_of_length_le (Nat.le_of_eq (bytes32_length _)),
    natOfBytes_bytes32, BitVec.toNat_ofNat, Nat.mod_eq_of_lt inWord]

theorem natOfBytes_lt (bytes : List (BitVec 8)) :
    natOfBytes bytes < 256 ^ bytes.length := by
  induction bytes with
  | nil => exact Nat.one_pos
  | cons byte rest ih =>
      have bound := byte.isLt
      change byte.toNat + 256 * natOfBytes rest < 256 ^ (rest.length + 1)
      rw [Nat.pow_succ]
      omega

/-- So many bytes of an integer; what does not fit is cut off. -/
def bytesOfNat : Nat → Nat → List (BitVec 8)
  | 0, _ => []
  | count + 1, value =>
      BitVec.ofNat 8 value :: bytesOfNat count (value / 256)

theorem natOfBytes_bytesOfNat {count value : Nat}
    (fits : value < 256 ^ count) :
    natOfBytes (bytesOfNat count value) = value := by
  induction count generalizing value with
  | zero => exact (Nat.lt_one_iff.mp fits).symm
  | succ count ih =>
      change (BitVec.ofNat 8 value).toNat +
        256 * natOfBytes (bytesOfNat count (value / 256)) = value
      rw [ih (Nat.div_lt_of_lt_mul (by rwa [Nat.mul_comm, ← Nat.pow_succ])),
        BitVec.toNat_ofNat]
      exact Nat.mod_add_div value 256

theorem bytesOfNat_natOfBytes (bytes : List (BitVec 8)) :
    bytesOfNat bytes.length (natOfBytes bytes) = bytes := by
  induction bytes with
  | nil => rfl
  | cons byte rest ih =>
      have bound := byte.isLt
      change BitVec.ofNat 8 (byte.toNat + 256 * natOfBytes rest) ::
        bytesOfNat rest.length ((byte.toNat + 256 * natOfBytes rest) / 256) =
          byte :: rest
      have low : BitVec.ofNat 8 (byte.toNat + 256 * natOfBytes rest) =
          byte := by
        apply BitVec.eq_of_toNat_eq
        rw [BitVec.toNat_ofNat]
        omega
      have high : (byte.toNat + 256 * natOfBytes rest) / 256 =
          natOfBytes rest := by omega
      rw [low, high, ih]

/-! ### Words at an offset -/

def word32At (bytes : List (BitVec 8)) (offset : Nat) : BitVec 32 :=
  word32 (bytes.getD offset 0) (bytes.getD (offset + 1) 0)
    (bytes.getD (offset + 2) 0) (bytes.getD (offset + 3) 0)

def word16At (bytes : List (BitVec 8)) (offset : Nat) : BitVec 16 :=
  word16 (bytes.getD offset 0) (bytes.getD (offset + 1) 0)

def slice (bytes : List (BitVec 8)) (offset length : Nat) :
    List (BitVec 8) :=
  (bytes.drop offset).take length

theorem getD_append_left (left right : List (BitVec 8))
    (index : Nat) (inside : index < left.length) :
    (left ++ right).getD index 0 = left.getD index 0 := by
  simp only [List.getD_eq_getElem?_getD, List.getElem?_append_left inside]

theorem getD_append_right (left right : List (BitVec 8))
    (index : Nat) :
    (left ++ right).getD (left.length + index) 0 = right.getD index 0 := by
  simp only [List.getD_eq_getElem?_getD,
    List.getElem?_append_right (Nat.le_add_right _ _),
    Nat.add_sub_cancel_left]

theorem word32At_append_right (left right : List (BitVec 8))
    (offset index : Nat) (position : offset = left.length + index) :
    word32At (left ++ right) offset = word32At right index := by
  subst position
  unfold word32At
  simp only [Nat.add_assoc, getD_append_right]

theorem word32At_bytes32 (value : BitVec 32) (rest : List (BitVec 8)) :
    word32At (bytes32 value ++ rest) 0 = value := by
  rw [bytes32_eq]
  exact word32_setWidth value

theorem word32At_snoc (bytes : List (BitVec 8)) (byte : BitVec 8)
    (room : bytes.length < 4) :
    word32At (bytes ++ [byte]) 0 =
      word32At bytes 0 ||| (byte.setWidth 32 <<< (8 * bytes.length)) := by
  match bytes, room with
  | [], _ => simp [word32At, word32]
  | [_], _ => simp [word32At, word32]
  | [_, _], _ => simp [word32At, word32]
  | [_, _, _], _ => simp [word32At, word32]

theorem bytes32_word32At (bytes : List (BitVec 8)) (four : bytes.length = 4) :
    bytes32 (word32At bytes 0) = bytes := by
  match bytes, four with
  | [first, second, third, fourth], _ =>
      exact bytes32_word32 first second third fourth

theorem word16At_bytes16 (value : BitVec 16) (rest : List (BitVec 8)) :
    word16At (bytes16 value ++ rest) 0 = value := by
  rw [bytes16_eq]
  exact word16_setWidth value

theorem word16At_append_right (left right : List (BitVec 8))
    (offset index : Nat) (position : offset = left.length + index) :
    word16At (left ++ right) offset = word16At right index := by
  subst position
  unfold word16At
  simp only [Nat.add_assoc, getD_append_right]

theorem getD_of_append (left right : List (BitVec 8)) (offset index : Nat)
    (position : offset = left.length + index) :
    (left ++ right).getD offset 0 = right.getD index 0 := by
  subst position
  exact getD_append_right left right index

theorem bytes32_injective {left right : BitVec 32}
    (same : bytes32 left = bytes32 right) : left = right := by
  rw [← word32At_bytes32 left [], same, word32At_bytes32]

theorem bytes16_injective {left right : BitVec 16}
    (same : bytes16 left = bytes16 right) : left = right := by
  rw [← word16At_bytes16 left [], same, word16At_bytes16]

/-! ### Slices -/

theorem slice_append (bytes : List (BitVec 8)) (offset left right : Nat) :
    slice bytes offset left ++ slice bytes (offset + left) right =
      slice bytes offset (left + right) := by
  unfold slice
  rw [← List.drop_drop, List.take_add]

theorem getElem_slice_getD (bytes : List (BitVec 8)) (offset length index : Nat)
    (bound : index < (slice bytes offset length).length) :
    (slice bytes offset length)[index] = bytes.getD (offset + index) 0 := by
  have inside : offset + index < bytes.length := by
    unfold slice at bound
    rw [List.length_take, List.length_drop] at bound
    omega
  simp only [slice, List.getElem_take, List.getElem_drop,
    List.getD_eq_getElem?_getD, List.getElem?_eq_getElem inside,
    Option.getD_some]

theorem slice_length (bytes : List (BitVec 8)) {offset length : Nat}
    (inside : offset + length ≤ bytes.length) :
    (slice bytes offset length).length = length := by
  unfold slice
  rw [List.length_take, List.length_drop]
  omega

theorem bytes32_slice (bytes : List (BitVec 8)) {offset : Nat}
    (inside : offset + 4 ≤ bytes.length) :
    bytes32 (word32At bytes offset) = slice bytes offset 4 := by
  rw [word32At, bytes32_word32]
  refine List.ext_getElem (slice_length bytes inside).symm ?_
  intro index bound within
  rw [getElem_slice_getD]
  match index, bound with
  | 0, _ | 1, _ | 2, _ | 3, _ => rfl

theorem bytes16_slice (bytes : List (BitVec 8)) {offset : Nat}
    (inside : offset + 2 ≤ bytes.length) :
    bytes16 (word16At bytes offset) = slice bytes offset 2 := by
  rw [word16At, bytes16_word16]
  refine List.ext_getElem (slice_length bytes inside).symm ?_
  intro index bound within
  rw [getElem_slice_getD]
  match index, bound with
  | 0, _ | 1, _ => rfl

end LittleEndian
