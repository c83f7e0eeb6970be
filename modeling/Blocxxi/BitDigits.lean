import Mathlib.Algebra.Order.Ring.Nat
import Mathlib.Data.Nat.Size
import Mathlib.Tactic.Ring

/-!
# Numbers in digits of a fixed number of bits

The number that digits of one width spell, most significant digit first.  What is
known bit by bit of the digits is known of the number: its order, its bits, the
number of zero bits in front of it and its exclusive or with another number.
-/

namespace BitDigits

variable {width : Nat}

/-- The number that the digits spell. -/
def number (digits : List (BitVec width)) : Nat :=
  digits.foldl (fun number digit => 2 ^ width * number + digit.toNat) 0

@[simp]
theorem number_nil : number ([] : List (BitVec width)) = 0 := rfl

theorem number_cons (digit : BitVec width) (rest : List (BitVec width)) :
    number (digit :: rest) =
      2 ^ (width * rest.length) * digit.toNat + number rest := by
  have from_start (start : Nat) (digits : List (BitVec width)) :
      digits.foldl (fun number digit => 2 ^ width * number + digit.toNat) start =
        2 ^ (width * digits.length) * start + number digits := by
    unfold number
    induction digits generalizing start with
    | nil => simp
    | cons head tail ih =>
        rw [List.foldl_cons, List.foldl_cons, ih, ih (2 ^ width * 0 + _),
          List.length_cons, Nat.mul_succ, pow_add]
        ring
  rw [number, List.foldl_cons, from_start]
  simp

theorem number_lt (digits : List (BitVec width)) :
    number digits < 2 ^ (width * digits.length) := by
  induction digits with
  | nil => simp
  | cons digit rest ih =>
      rw [number_cons, List.length_cons, Nat.mul_succ, pow_add]
      calc
        2 ^ (width * rest.length) * digit.toNat + number rest
          < 2 ^ (width * rest.length) * digit.toNat + 2 ^ (width * rest.length) :=
            Nat.add_lt_add_left ih _
        _ = 2 ^ (width * rest.length) * (digit.toNat + 1) := by ring
        _ ≤ 2 ^ (width * rest.length) * 2 ^ width :=
            Nat.mul_le_mul_left _ digit.isLt

theorem testBit_number_cons (digit : BitVec width) (rest : List (BitVec width))
    (index : Nat) :
    (number (digit :: rest)).testBit index =
      if index < width * rest.length then (number rest).testBit index
      else digit.toNat.testBit (index - width * rest.length) := by
  rw [number_cons, Nat.testBit_two_pow_mul_add _ (number_lt rest)]

/-- The first digit in which two numbers differ decides between them. -/
theorem number_cons_lt_iff {first second : BitVec width}
    {firstRest secondRest : List (BitVec width)}
    (lengths : firstRest.length = secondRest.length) :
    number (first :: firstRest) < number (second :: secondRest) ↔
      first < second ∨ first = second ∧ number firstRest < number secondRest := by
  have firstLt := number_lt firstRest
  have secondLt := number_lt secondRest
  rw [lengths] at firstLt
  rw [number_cons, number_cons, lengths, BitVec.lt_def, BitVec.toNat_eq]
  generalize 2 ^ (width * secondRest.length) = scale at firstLt secondLt ⊢
  rcases lt_trichotomy first.toNat second.toNat with less | same | more
  · have scaled : scale * (first.toNat + 1) ≤ scale * second.toNat :=
      Nat.mul_le_mul_left scale less
    rw [Nat.mul_succ] at scaled
    exact ⟨fun _ => .inl less, fun _ => by omega⟩
  · rw [same]
    simp
  · have scaled : scale * (second.toNat + 1) ≤ scale * first.toNat :=
      Nat.mul_le_mul_left scale more
    rw [Nat.mul_succ] at scaled
    exact ⟨fun _ => by omega, fun _ => by omega⟩

theorem eq_of_number_eq {first second : List (BitVec width)}
    (lengths : first.length = second.length) (same : number first = number second) :
    first = second := by
  induction first generalizing second with
  | nil => exact (List.eq_nil_of_length_eq_zero lengths.symm).symm
  | cons head rest ih =>
      cases second with
      | nil => simp at lengths
      | cons other others =>
          have restLengths : rest.length = others.length := by simpa using lengths
          have notLess := mt (number_cons_lt_iff restLengths).mpr (Nat.not_lt.mpr same.ge)
          have notMore := mt (number_cons_lt_iff restLengths.symm).mpr
            (Nat.not_lt.mpr same.le)
          push Not at notLess notMore
          have sameHead : head = other :=
            BitVec.le_antisymm (BitVec.not_lt.mp notMore.1) (BitVec.not_lt.mp notLess.1)
          subst sameHead
          have sameRest := le_antisymm (notMore.2 rfl) (notLess.2 rfl)
          rw [ih restLengths sameRest]

theorem number_xor {first second : List (BitVec width)}
    (lengths : first.length = second.length) :
    number (List.zipWith (· ^^^ ·) first second) = number first ^^^ number second := by
  induction first generalizing second with
  | nil => rw [List.eq_nil_of_length_eq_zero lengths.symm]; simp
  | cons head rest ih =>
      cases second with
      | nil => simp at lengths
      | cons other others =>
          have restLengths : rest.length = others.length := by simpa using lengths
          have zipped : (List.zipWith (· ^^^ ·) rest others).length = others.length := by
            simp [restLengths]
          apply Nat.eq_of_testBit_eq
          intro index
          rw [List.zipWith_cons_cons, Nat.testBit_xor, testBit_number_cons,
            testBit_number_cons, testBit_number_cons, ih restLengths, zipped, restLengths]
          split
          · rw [Nat.testBit_xor]
          · rw [BitVec.toNat_xor, Nat.testBit_xor]

/-- The number of zero bits in front of the number. -/
def leadingZeros (digits : List (BitVec width)) : Nat :=
  width * digits.length - (number digits).size

theorem leadingZeros_nil : leadingZeros ([] : List (BitVec width)) = 0 := by
  simp [leadingZeros]

theorem leadingZeros_cons_zero (rest : List (BitVec width)) :
    leadingZeros (0 :: rest) = width + leadingZeros rest := by
  have fits : (number rest).size ≤ width * rest.length :=
    Nat.size_le.mpr (number_lt rest)
  have isZero : (0 : BitVec width).toNat = 0 := BitVec.toNat_zero
  rw [leadingZeros, number_cons, leadingZeros, List.length_cons, Nat.mul_succ, isZero,
    Nat.mul_zero, Nat.zero_add]
  omega

/-- The size of a number is that of its first digit, in front of the others. -/
theorem size_number_cons {digit : BitVec width} (nonzero : digit ≠ 0)
    (rest : List (BitVec width)) :
    (number (digit :: rest)).size = width * rest.length + digit.toNat.size := by
  have positive : 0 < digit.toNat := by
    rw [Nat.pos_iff_ne_zero]
    exact fun isZero => nonzero (BitVec.eq_of_toNat_eq isZero)
  obtain ⟨top, isSize⟩ : ∃ top, digit.toNat.size = top + 1 :=
    ⟨_, (Nat.succ_pred (Nat.size_pos.mpr positive).ne').symm⟩
  apply le_antisymm
  · rw [Nat.size_le, number_cons, pow_add]
    calc
      2 ^ (width * rest.length) * digit.toNat + number rest
        < 2 ^ (width * rest.length) * digit.toNat + 2 ^ (width * rest.length) :=
          Nat.add_lt_add_left (number_lt rest) _
      _ = 2 ^ (width * rest.length) * (digit.toNat + 1) := by ring
      _ ≤ 2 ^ (width * rest.length) * 2 ^ digit.toNat.size :=
          Nat.mul_le_mul_left _ digit.toNat.lt_size_self
  · have reaches : 2 ^ top ≤ digit.toNat := by
      rw [← Nat.lt_size, isSize]
      exact Nat.lt_succ_self top
    rw [isSize, ← Nat.add_assoc, Nat.succ_le_iff, Nat.lt_size, number_cons, pow_add]
    exact Nat.le_add_right_of_le (Nat.mul_le_mul_left _ reaches)

theorem leadingZeros_cons {digit : BitVec width} (nonzero : digit ≠ 0)
    (rest : List (BitVec width)) :
    leadingZeros (digit :: rest) = width - digit.toNat.size := by
  rw [leadingZeros, size_number_cons nonzero, List.length_cons, Nat.mul_succ]
  omega

/-- Every bit of the number is spread over the places below it, fewer than the span. -/
def Filled (number span filled : Nat) : Prop :=
  ∀ index, filled.testBit index = true ↔
    ∃ distance < span, number.testBit (index + distance) = true

theorem filled_one (number : Nat) : Filled number 1 number := by
  intro index
  simp

/-- Shifting by the span and joining doubles the span. -/
theorem Filled.double {number span filled : Nat} (isFilled : Filled number span filled) :
    Filled number (2 * span) (filled ||| filled >>> span) := by
  intro index
  rw [Nat.testBit_or, Nat.testBit_shiftRight, Bool.or_eq_true, isFilled,
    Nat.add_comm span, isFilled]
  constructor
  · rintro (⟨distance, near, isSet⟩ | ⟨distance, near, isSet⟩)
    · exact ⟨distance, by omega, isSet⟩
    · exact ⟨span + distance, by omega, by rwa [← Nat.add_assoc]⟩
  · rintro ⟨distance, near, isSet⟩
    by_cases low : distance < span
    · exact .inl ⟨distance, low, isSet⟩
    · refine .inr ⟨distance - span, by omega, ?_⟩
      rwa [show index + span + (distance - span) = index + distance by omega]

theorem testBit_top {number top : Nat} (isSize : number.size = top + 1) :
    number.testBit top = true := by
  have reaches : 2 ^ top ≤ number := by
    rw [← Nat.lt_size, isSize]
    exact Nat.lt_succ_self top
  have below : number < 2 ^ (top + 1) := by
    rw [← isSize]
    exact Nat.lt_size_self number
  rw [Nat.testBit_eq_decide_div_mod_eq, decide_eq_true_eq]
  have quotient : number / 2 ^ top = 1 := by
    apply Nat.div_eq_of_lt_le
    · rwa [Nat.one_mul]
    · rwa [Nat.mul_comm, ← pow_succ]
  rw [quotient]

/-- A number whose bits are spread over all places below them has every bit that its
size has room for. -/
theorem Filled.eq_ones {number span filled : Nat} (isFilled : Filled number span filled)
    (wide : number.size ≤ span) : filled = 2 ^ number.size - 1 := by
  apply Nat.eq_of_testBit_eq
  intro index
  rw [Nat.testBit_two_pow_sub_one, Bool.eq_iff_iff, isFilled, decide_eq_true_eq]
  constructor
  · rintro ⟨distance, -, isSet⟩
    have reaches : index + distance < number.size := by
      rw [Nat.lt_size]
      exact Nat.ge_two_pow_of_testBit isSet
    omega
  · intro inside
    obtain ⟨top, isSize⟩ : ∃ top, number.size = top + 1 := ⟨number.size - 1, by omega⟩
    refine ⟨top - index, by omega, ?_⟩
    rw [show index + (top - index) = top by omega]
    exact testBit_top isSize

end BitDigits
