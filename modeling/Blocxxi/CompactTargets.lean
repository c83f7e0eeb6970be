import Blocxxi.BigEndianBytes
import Blocxxi.BitcoinBytes
import Mathlib.Data.Nat.Bitwise

/-!
# Compact targets as numbers

A compact value has a sign bit, an exponent and a mantissa of 23 bits.  Its
target is the mantissa shifted by whole bytes; the adapter places the three
bytes of the mantissa in an array of 32 and compares that with the limit.
-/

namespace Blocxxi

namespace Bitcoin

open Cxx ByteText

/-- The number that a text of hexadecimal digits denotes. -/
def hexNumber (text : ByteString) : Nat :=
  text.foldl (fun number character => 16 * number + (Hex.decForIndex character).toNat) 0

theorem hexNumber_cons (first : UInt8) (rest : ByteString) :
    hexNumber (first :: rest) =
      (Hex.decForIndex first).toNat * 16 ^ rest.length + hexNumber rest := by
  have from_start (start : Nat) (text : ByteString) :
      text.foldl (fun number character =>
          16 * number + (Hex.decForIndex character).toNat) start =
        start * 16 ^ text.length + hexNumber text := by
    unfold hexNumber
    induction text generalizing start with
    | nil => simp
    | cons head tail ih =>
        rw [List.foldl_cons, List.foldl_cons, ih, ih (16 * 0 + _), List.length_cons,
          pow_succ]
        ring
  rw [hexNumber, List.foldl_cons, from_start]
  simp

/-- Two digits are extracted as the byte that they denote. -/
theorem extractHex_pair {first second : UInt8} (firstDigit : Hex.HexDigit first)
    (secondDigit : Hex.HexDigit second) :
    ∃ parsed, extractHex [first, second] = some parsed ∧
      parsed.toUInt8.toNat =
        16 * (Hex.decForIndex first).toNat + (Hex.decForIndex second).toNat := by
  have table : ∀ first ∈ Hex.alphabetUpperCase ++ Hex.alphabetLowerCase,
      ∀ second ∈ Hex.alphabetUpperCase ++ Hex.alphabetLowerCase,
        (extractHex [first, second]).map (fun parsed => parsed.toUInt8.toNat) =
          some (16 * (Hex.decForIndex first).toNat +
            (Hex.decForIndex second).toNat) := by
    decide +kernel
  exact Option.map_eq_some_iff.mp (table first (List.mem_append.mpr firstDigit) second
    (List.mem_append.mpr secondDigit))

/-- Pairs of digits are extracted as the number of the whole text. -/
theorem extractPairs_digits {text : ByteString} (even : text.length % 2 = 0)
    (digits : ∀ character ∈ text, Hex.HexDigit character) :
    ∃ bytes, extractPairs text = some bytes ∧ 2 * bytes.length = text.length ∧
      BigEndian.value bytes = hexNumber text := by
  induction text using extractPairs.induct with
  | case1 first second rest ih =>
      have evenRest : rest.length % 2 = 0 := by
        simp only [List.length_cons] at even
        omega
      obtain ⟨bytes, extracted, lengths, number⟩ := ih evenRest fun character member =>
        digits character (by simp [member])
      obtain ⟨parsed, isParsed, isByte⟩ :=
        extractHex_pair (digits first (by simp)) (digits second (by simp))
      refine ⟨parsed.toUInt8 :: bytes, ?_, ?_, ?_⟩
      · rw [extractPairs, isParsed, extracted]
        rfl
      · simp only [List.length_cons]
        omega
      · have scale : 256 ^ bytes.length = 16 ^ rest.length := by
          rw [← lengths, pow_mul]
          norm_num
        rw [BigEndian.value_cons, isByte, number, scale, hexNumber_cons, hexNumber_cons,
          List.length_cons, pow_succ]
        ring
  | case2 text noPair =>
      rcases short_of_noPair noPair with rfl | ⟨character, rfl⟩
      · exact ⟨[], rfl, rfl, rfl⟩
      · simp at even

/-- A hash text of 64 digits is the big-endian form of its number. -/
theorem hashBytesFromHex_digits {text : ByteString} (length : text.length = 64)
    (digits : ∀ character ∈ text, Hex.HexDigit character) :
    ∃ bytes, hashBytesFromHex text = some bytes ∧ bytes.length = 32 ∧
      BigEndian.value bytes = hexNumber text := by
  obtain ⟨bytes, extracted, lengths, number⟩ :=
    extractPairs_digits (by omega : text.length % 2 = 0) digits
  refine ⟨bytes, ?_, by omega, number⟩
  rw [hashBytesFromHex, if_neg (by omega), extracted]

theorem hashBytesFromHex_length {text bytes : ByteString}
    (isHash : hashBytesFromHex text = some bytes) :
    text.length = 64 ∧ bytes.length = 32 := by
  unfold hashBytesFromHex at isHash
  split at isHash
  · cases isHash
  · rename_i length
    have long : text.length = 64 := not_not.mp length
    have halves := extractPairs_length isHash
    exact ⟨long, by omega⟩

def compactSign (bits : UInt32) : Nat := bits.toNat / 2 ^ 23 % 2

def compactExponent (bits : UInt32) : Nat := bits.toNat / 2 ^ 24

def compactMantissa (bits : UInt32) : Nat := bits.toNat % 2 ^ 23

/-- The number that a compact value stands for, its sign apart. -/
def compactNumber (bits : UInt32) : Nat :=
  if 3 ≤ compactExponent bits then
    compactMantissa bits * 256 ^ (compactExponent bits - 3)
  else compactMantissa bits / 256 ^ (3 - compactExponent bits)

theorem and_byteMask (number : Nat) : number &&& 255 = number % 256 :=
  Nat.and_two_pow_sub_one_eq_mod number 8

theorem exponent_toNat (bits : UInt32) :
    ((bits >>> 24) &&& 0xFF).toNat = compactExponent bits := by
  have small := bits.toNat_lt
  have masked := and_byteMask (bits.toNat / 2 ^ 24)
  simp only [UInt32.toNat_and, UInt32.toNat_shiftRight, UInt32.reduceToNat,
    Nat.reduceMod, Nat.shiftRight_eq_div_pow, compactExponent]
  omega

theorem mantissa_toNat (bits : UInt32) :
    (bits &&& 0x007FFFFF).toNat = compactMantissa bits := by
  have masked := Nat.and_two_pow_sub_one_eq_mod bits.toNat 23
  simpa only [UInt32.toNat_and, UInt32.reduceToNat, compactMantissa] using masked

theorem sign_eq_zero_iff (bits : UInt32) :
    bits &&& 0x00800000 = 0 ↔ compactSign bits = 0 := by
  have mask : (0x00800000 : UInt32).toNat = 2 ^ 23 := by decide
  rw [← UInt32.toNat_inj, UInt32.toNat_and, mask, Nat.and_two_pow,
    Nat.testBit_eq_decide_div_mod_eq, compactSign]
  simp

/-- The three bytes of a mantissa, most significant first. -/
def mantissaBytes (mantissa : UInt32) : ByteString :=
  [((mantissa >>> 16) &&& 0xFF).toUInt8, ((mantissa >>> 8) &&& 0xFF).toUInt8,
    (mantissa &&& 0xFF).toUInt8]

theorem mantissaBytes_value (mantissa : UInt32) :
    BigEndian.value (mantissaBytes mantissa) = mantissa.toNat % 2 ^ 24 := by
  simp only [mantissaBytes, BigEndian.value, List.foldl_cons, List.foldl_nil,
    UInt32.toNat_toUInt8, UInt32.toNat_and, UInt32.toNat_shiftRight,
    UInt32.reduceToNat, Nat.reduceMod, Nat.shiftRight_eq_div_pow, and_byteMask]
  omega

/-- With at most 29 zero bytes behind it the mantissa lies inside the array. -/
theorem placeMantissa_eq (mantissa : UInt32) {offset : Nat} (inside : offset ≤ 29) :
    placeMantissa mantissa offset =
      List.replicate (29 - offset) 0 ++ mantissaBytes mantissa ++
        List.replicate offset 0 := by
  have zeros : List.replicate 32 (0 : UInt8) =
      List.replicate (29 - offset) 0 ++ ([0, 0, 0] ++ List.replicate offset 0) := by
    have three : ([0, 0, 0] : ByteString) = List.replicate 3 0 := rfl
    rw [three, List.replicate_append_replicate, List.replicate_append_replicate]
    congr 1
    omega
  have first : 32 - offset - 3 = 29 - offset := by omega
  have second : 32 - offset - 2 = 29 - offset + 1 := by omega
  have third : 32 - offset - 1 = 29 - offset + 2 := by omega
  rw [placeMantissa, zeros, first, second, third]
  simp [List.set_append_right, mantissaBytes]

theorem placeMantissa_length (mantissa : UInt32) (offset : Nat) :
    (placeMantissa mantissa offset).length = 32 := by
  simp [placeMantissa]

theorem placeMantissa_value (mantissa : UInt32) {offset : Nat} (inside : offset ≤ 29) :
    BigEndian.value (placeMantissa mantissa offset) =
      mantissa.toNat % 2 ^ 24 * 256 ^ offset := by
  rw [placeMantissa_eq mantissa inside, BigEndian.value_append, BigEndian.value_append,
    BigEndian.value_zeros, BigEndian.value_zeros, mantissaBytes_value,
    List.length_replicate]
  simp

theorem compactMantissa_lt (bits : UInt32) : compactMantissa bits < 2 ^ 23 :=
  Nat.mod_lt _ (by decide)

/-- A mantissa shifted to the right by whole bytes. -/
theorem shiftedMantissa_toNat (bits : UInt32) (small : compactExponent bits ≤ 3) :
    ((bits &&& 0x007FFFFF) >>>
        UInt32.ofNat (8 * (3 - compactExponent bits))).toNat =
      compactMantissa bits / 256 ^ (3 - compactExponent bits) := by
  have shift : (UInt32.ofNat (8 * (3 - compactExponent bits))).toNat % 32 =
      8 * (3 - compactExponent bits) := by
    rw [UInt32.toNat_ofNat']
    omega
  rw [UInt32.toNat_shiftRight, mantissa_toNat, shift, Nat.shiftRight_eq_div_pow,
    pow_mul]
  norm_num

/-- The target of a compact value that is neither negative, nor zero, nor too
large for the array. -/
def placedTarget (bits : UInt32) : ByteString :=
  if compactExponent bits ≤ 3 then
    placeMantissa ((bits &&& 0x007FFFFF) >>>
      UInt32.ofNat (8 * (3 - compactExponent bits))) 0
  else placeMantissa (bits &&& 0x007FFFFF) (compactExponent bits - 3)

theorem placedTarget_length (bits : UInt32) : (placedTarget bits).length = 32 := by
  unfold placedTarget
  split <;> exact placeMantissa_length _ _

theorem placedTarget_value {bits : UInt32} (inside : compactExponent bits ≤ 32) :
    BigEndian.value (placedTarget bits) = compactNumber bits := by
  have mantissaLt := compactMantissa_lt bits
  unfold placedTarget
  split
  · rename_i small
    have shiftedLe : compactMantissa bits / 256 ^ (3 - compactExponent bits) ≤
        compactMantissa bits := Nat.div_le_self _ _
    rw [placeMantissa_value _ (by omega), shiftedMantissa_toNat bits small, pow_zero,
      Nat.mul_one, Nat.mod_eq_of_lt (by omega), compactNumber]
    split
    · have three : compactExponent bits = 3 := by omega
      simp [three]
    · rfl
  · rw [placeMantissa_value _ (by omega), mantissa_toNat,
      Nat.mod_eq_of_lt (by omega), compactNumber, if_pos (by omega)]

/-- A negative value, one without a mantissa and one that does not fit the array
have no target; the others are compared with the limit. -/
theorem targetFromCompact_placed (bits : UInt32) (powLimitHex : ByteString) :
    targetFromCompact bits powLimitHex =
      if compactSign bits ≠ 0 ∨ compactMantissa bits = 0 ∨ 32 < compactExponent bits then
        none
      else (hashBytesFromHex powLimitHex).bind fun powLimit =>
        if powLimit < placedTarget bits then none else some (placedTarget bits) := by
  have noMantissa : bits &&& 0x007FFFFF = 0 ↔ compactMantissa bits = 0 := by
    rw [← UInt32.toNat_inj, mantissa_toNat]
    rfl
  have offset : 29 < compactExponent bits - 3 ↔ 32 < compactExponent bits := by omega
  simp only [targetFromCompact, exponent_toNat, ne_eq, sign_eq_zero_iff, noMantissa,
    offset]
  by_cases negative : compactSign bits = 0
  · by_cases zero : compactMantissa bits = 0
    · simp [zero]
    · by_cases small : compactExponent bits ≤ 3
      · have inside : ¬ 32 < compactExponent bits := by omega
        simp [negative, zero, small, inside, placedTarget]
      · by_cases large : 32 < compactExponent bits
        · simp [small, large]
        · simp [negative, zero, small, large, placedTarget]
  · simp [negative]

/-- A target is returned exactly for a positive value that fits the array and does
not exceed the limit. -/
theorem targetFromCompact_eq_some_iff {bits : UInt32}
    {powLimitHex target : ByteString} :
    targetFromCompact bits powLimitHex = some target ↔
      compactSign bits = 0 ∧ compactMantissa bits ≠ 0 ∧ compactExponent bits ≤ 32 ∧
        (∃ powLimit, hashBytesFromHex powLimitHex = some powLimit ∧
          compactNumber bits ≤ BigEndian.value powLimit) ∧
        target = placedTarget bits := by
  rw [targetFromCompact_placed]
  by_cases rejected :
      compactSign bits ≠ 0 ∨ compactMantissa bits = 0 ∨ 32 < compactExponent bits
  · rw [if_pos rejected]
    constructor
    · intro impossible
      cases impossible
    · rintro ⟨positive, nonzero, inside, -⟩
      omega
  · rw [if_neg rejected, Option.bind_eq_some_iff]
    have inside : compactExponent bits ≤ 32 := by omega
    have compared {powLimit : ByteString}
        (isLimit : hashBytesFromHex powLimitHex = some powLimit) :
        ¬ powLimit < placedTarget bits ↔
          compactNumber bits ≤ BigEndian.value powLimit := by
      rw [BigEndian.lt_iff, placedTarget_value inside, Nat.not_lt]
      rw [placedTarget_length, (hashBytesFromHex_length isLimit).2]
    constructor
    · rintro ⟨powLimit, isLimit, returned⟩
      by_cases exceeds : powLimit < placedTarget bits
      · rw [if_pos exceeds] at returned
        cases returned
      · rw [if_neg exceeds] at returned
        cases returned
        exact ⟨by omega, by omega, inside,
          ⟨powLimit, isLimit, (compared isLimit).mp exceeds⟩, rfl⟩
    · rintro ⟨-, -, -, ⟨powLimit, isLimit, bounded⟩, rfl⟩
      exact ⟨powLimit, isLimit, if_neg ((compared isLimit).mpr bounded)⟩

/-- Every target that is returned is the number of the compact value in 32 bytes. -/
theorem value_of_targetFromCompact {bits : UInt32} {powLimitHex target : ByteString}
    (returned : targetFromCompact bits powLimitHex = some target) :
    target.length = 32 ∧ BigEndian.value target = compactNumber bits := by
  obtain ⟨-, -, inside, -, rfl⟩ := targetFromCompact_eq_some_iff.mp returned
  exact ⟨placedTarget_length bits, placedTarget_value inside⟩

/-- The indices that the source writes in its array of 32 bytes, as it computes
them. -/
def writtenIndices (bits : UInt32) : List Int :=
  let exponent := ((bits >>> 24) &&& 0xFF).toNat
  if bits &&& 0x00800000 ≠ 0 ∨ bits &&& 0x007FFFFF = 0 then []
  else if exponent ≤ 3 then [29, 30, 31]
  else
    let offset : Int := exponent - 3
    if 29 < offset then []
    else [32 - offset - 3, 32 - offset - 2, 32 - offset - 1]

theorem writtenIndices_inside (bits : UInt32) :
    ∀ index ∈ writtenIndices bits, 0 ≤ index ∧ index < 32 := by
  intro index written
  simp only [writtenIndices, exponent_toNat] at written
  split at written
  · simp at written
  · split at written
    · simp only [List.mem_cons, List.not_mem_nil, or_false] at written
      omega
    · split at written
      · simp at written
      · simp only [List.mem_cons, List.not_mem_nil, or_false] at written
        omega

/-- A text of 64 digits, as a limit. -/
def IsLimit (powLimitHex : ByteString) : Prop :=
  powLimitHex.length = 64 ∧ ∀ character ∈ powLimitHex, Hex.HexDigit character

/-- The mantissa of the value is shifted out of the number. -/
def ShiftedOut (bits : UInt32) : Prop :=
  compactSign bits = 0 ∧ compactMantissa bits ≠ 0 ∧ compactNumber bits = 0

/-- For a value whose mantissa is not shifted out, a target is returned exactly if
the value is not negative, its exponent is at most 32 and its number is positive
and within the limit; what is returned is that number in 32 bytes, and nothing is
written outside of them. -/
theorem targetFromCompact_number (bits : UInt32) {powLimitHex : ByteString}
    (isLimit : IsLimit powLimitHex) :
    (¬ ShiftedOut bits →
      ((∃ target, targetFromCompact bits powLimitHex = some target) ↔
        compactSign bits = 0 ∧ compactExponent bits ≤ 32 ∧
          0 < compactNumber bits ∧ compactNumber bits ≤ hexNumber powLimitHex)) ∧
    (∀ target, targetFromCompact bits powLimitHex = some target →
      target.length = 32 ∧ BigEndian.value target = compactNumber bits) ∧
    ∀ index ∈ writtenIndices bits, 0 ≤ index ∧ index < 32 := by
  refine ⟨?_, fun target => value_of_targetFromCompact, writtenIndices_inside bits⟩
  intro notShiftedOut
  obtain ⟨powLimit, isBytes, -, number⟩ := hashBytesFromHex_digits isLimit.1 isLimit.2
  constructor
  · rintro ⟨target, returned⟩
    obtain ⟨positive, nonzero, inside, ⟨powLimit', isBytes', bounded⟩, -⟩ :=
      targetFromCompact_eq_some_iff.mp returned
    rw [isBytes, Option.some.injEq] at isBytes'
    subst isBytes'
    have numberPositive : 0 < compactNumber bits := by
      by_contra notPositive
      exact notShiftedOut ⟨positive, nonzero, by omega⟩
    exact ⟨positive, inside, numberPositive, by omega⟩
  · rintro ⟨positive, inside, numberPositive, bounded⟩
    have nonzero : compactMantissa bits ≠ 0 := by
      intro zero
      simp [compactNumber, zero] at numberPositive
    exact ⟨placedTarget bits, targetFromCompact_eq_some_iff.mpr
      ⟨positive, nonzero, inside, ⟨powLimit, isBytes, by omega⟩, rfl⟩⟩

/-- The compact value of the signet limit, against that limit. -/
theorem targetFromCompact_number_signet :
    ((∃ target, targetFromCompact 0x1e0377ae signetPowLimitHex = some target) ↔
        compactSign 0x1e0377ae = 0 ∧ compactExponent 0x1e0377ae ≤ 32 ∧
          0 < compactNumber 0x1e0377ae ∧
            compactNumber 0x1e0377ae ≤ hexNumber signetPowLimitHex) ∧
      compactNumber 0x1e0377ae = hexNumber signetPowLimitHex :=
  ⟨(targetFromCompact_number 0x1e0377ae ⟨by decide, by decide +kernel⟩).1
    (fun shifted => by
      have zero := shifted.2.2
      revert zero
      decide),
    by decide⟩

/-- A target of 33 bytes whose first byte is zero lies within the largest limit and
is not returned. -/
theorem targetFromCompact_exponent33 :
    ¬ ∀ (bits : UInt32) (powLimitHex : ByteString), IsLimit powLimitHex →
      ((∃ target, targetFromCompact bits powLimitHex = some target) ↔
        compactSign bits = 0 ∧ 0 < compactNumber bits ∧
          compactNumber bits ≤ hexNumber powLimitHex) := by
  intro always
  have limit : IsLimit (List.replicate 64 102) := ⟨by decide, by decide +kernel⟩
  obtain ⟨target, returned⟩ :=
    (always 0x2100FFFF (List.replicate 64 102) limit).mpr (by decide +kernel)
  obtain ⟨-, -, inside, -⟩ := targetFromCompact_eq_some_iff.mp returned
  revert inside
  decide

end Bitcoin

end Blocxxi
