import Mathlib.Algebra.Group.Nat.Defs
import Mathlib.Data.List.Basic

/-!
# Base 64

The encoding of RFC 4648: groups of 24 bits are written as four digits of six
bits.  A last group that is shorter is filled up with zero bits, and only the
digits that its bytes reach are written, with padding behind them.
-/

namespace Base64

/-- The byte that stands behind the last digits. -/
abbrev pad : UInt8 := 61

/-- The digit of a value below 64. -/
def digit (value : Nat) : UInt8 :=
  if value < 26 then UInt8.ofNat (65 + value)
  else if value < 52 then UInt8.ofNat (97 + (value - 26))
  else if value < 62 then UInt8.ofNat (48 + (value - 52))
  else if value = 62 then 43
  else 47

def digitValue (byte : UInt8) : Option Nat :=
  if 65 ≤ byte ∧ byte ≤ 90 then some (byte.toNat - 65)
  else if 97 ≤ byte ∧ byte ≤ 122 then some (byte.toNat - 97 + 26)
  else if 48 ≤ byte ∧ byte ≤ 57 then some (byte.toNat - 48 + 52)
  else if byte = 43 then some 62
  else if byte = 47 then some 63
  else none

theorem digitValue_digit {value : Nat} (small : value < 64) :
    digitValue (digit value) = some value := by
  have table : ∀ value : Fin 64, digitValue (digit value) = some value.val := by
    decide +kernel
  exact table ⟨value, small⟩

theorem digit_ne_pad {value : Nat} (small : value < 64) : digit value ≠ pad := by
  have table : ∀ value : Fin 64, digit value ≠ pad := by decide +kernel
  exact table ⟨value, small⟩

/-- The number that three bytes spell. -/
def group (first second third : UInt8) : Nat :=
  first.toNat * 2 ^ 16 + second.toNat * 2 ^ 8 + third.toNat

/-- The four digits of a group. -/
def digits (number : Nat) : List UInt8 :=
  [digit (number / 2 ^ 18 % 64), digit (number / 2 ^ 12 % 64),
    digit (number / 2 ^ 6 % 64), digit (number % 64)]

def encode : List UInt8 → List UInt8
  | [] => []
  | [first] => (digits (group first 0 0)).take 2 ++ [pad, pad]
  | [first, second] => (digits (group first second 0)).take 3 ++ [pad]
  | first :: second :: third :: rest => digits (group first second third) ++ encode rest

/-- The number of four digits. -/
def groupOf (first second third fourth : Nat) : Nat :=
  first * 2 ^ 18 + second * 2 ^ 12 + third * 2 ^ 6 + fourth

/-- The three bytes of a group. -/
def bytesOf (number : Nat) : List UInt8 :=
  [UInt8.ofNat (number / 2 ^ 16), UInt8.ofNat (number / 2 ^ 8), UInt8.ofNat number]

/-- Padding may only stand at the end of the last group. -/
def decode : List UInt8 → Option (List UInt8)
  | [] => some []
  | first :: second :: third :: fourth :: rest => do
      let first ← digitValue first
      let second ← digitValue second
      if rest = [] ∧ third = pad ∧ fourth = pad then
        some ((bytesOf (groupOf first second 0 0)).take 1)
      else
        let third ← digitValue third
        if rest = [] ∧ fourth = pad then
          some ((bytesOf (groupOf first second third 0)).take 2)
        else
          let fourth ← digitValue fourth
          let bytes ← decode rest
          some (bytesOf (groupOf first second third fourth) ++ bytes)
  | _ => none

/-- The digits of a group spell it again. -/
theorem groupOf_digits {number : Nat} (small : number < 2 ^ 24) :
    groupOf (number / 2 ^ 18 % 64) (number / 2 ^ 12 % 64) (number / 2 ^ 6 % 64)
      (number % 64) = number := by
  unfold groupOf
  omega

theorem group_lt (first second third : UInt8) : group first second third < 2 ^ 24 := by
  have firstLt := first.toNat_lt
  have secondLt := second.toNat_lt
  have thirdLt := third.toNat_lt
  unfold group
  omega

/-- Which bits of the bytes the four digits of a group are read from. -/
theorem digits_group (first second third : UInt8) :
    digits (group first second third) =
      [digit (first.toNat / 4), digit (first.toNat % 4 * 16 + second.toNat / 16),
        digit (second.toNat % 16 * 4 + third.toNat / 64), digit (third.toNat % 64)] := by
  have firstLt := first.toNat_lt
  have secondLt := second.toNat_lt
  have thirdLt := third.toNat_lt
  have one : group first second third / 2 ^ 18 % 64 = first.toNat / 4 := by
    unfold group
    omega
  have two : group first second third / 2 ^ 12 % 64 =
      first.toNat % 4 * 16 + second.toNat / 16 := by
    unfold group
    omega
  have three : group first second third / 2 ^ 6 % 64 =
      second.toNat % 16 * 4 + third.toNat / 64 := by
    unfold group
    omega
  have four : group first second third % 64 = third.toNat % 64 := by
    unfold group
    omega
  rw [digits, one, two, three, four]

theorem bytesOf_group (first second third : UInt8) :
    bytesOf (group first second third) = [first, second, third] := by
  have secondLt := second.toNat_lt
  have thirdLt := third.toNat_lt
  have high : group first second third / 2 ^ 16 = first.toNat := by
    unfold group
    omega
  have middle : UInt8.ofNat (group first second third / 2 ^ 8) = second := by
    apply UInt8.toNat_inj.mp
    rw [UInt8.toNat_ofNat', group]
    omega
  have low : UInt8.ofNat (group first second third) = third := by
    apply UInt8.toNat_inj.mp
    rw [UInt8.toNat_ofNat', group]
    omega
  rw [bytesOf, high, middle, low, UInt8.ofNat_toNat]

theorem digitValue_digits (number divisor : Nat) :
    digitValue (digit (number / divisor % 64)) = some (number / divisor % 64) :=
  digitValue_digit (Nat.mod_lt _ (by decide))

/-- A whole group is decoded in front of whatever follows. -/
theorem decode_digits (first second third : UInt8) (rest : List UInt8) :
    decode (digits (group first second third) ++ rest) =
      (decode rest).map ([first, second, third] ++ ·) := by
  have thirdDigit : digit (group first second third / 2 ^ 6 % 64) ≠ pad :=
    digit_ne_pad (Nat.mod_lt _ (by decide))
  have fourthDigit : digit (group first second third % 64) ≠ pad :=
    digit_ne_pad (Nat.mod_lt _ (by decide))
  have fourthValue : digitValue (digit (group first second third % 64)) =
      some (group first second third % 64) :=
    digitValue_digit (Nat.mod_lt _ (by decide))
  simp only [digits, List.cons_append, List.nil_append, decode, digitValue_digits,
    fourthValue, Option.bind_eq_bind, Option.bind_some]
  rw [if_neg fun all => thirdDigit all.2.1, if_neg fun all => fourthDigit all.2,
    groupOf_digits (group_lt first second third), bytesOf_group]
  cases decode rest <;> rfl

theorem decode_encode (bytes : List UInt8) : decode (encode bytes) = some bytes := by
  induction bytes using encode.induct with
  | case1 => rfl
  | case2 first =>
      have filled : group first 0 0 / 2 ^ 6 % 64 = 0 ∧ group first 0 0 % 64 = 0 := by
        simp only [group, UInt8.toNat_zero]
        omega
      have whole := groupOf_digits (group_lt first 0 0)
      rw [filled.1, filled.2] at whole
      simp only [encode, digits, List.take_succ_cons, List.take_zero, List.cons_append,
        List.nil_append, decode, digitValue_digits, Option.bind_eq_bind,
        Option.bind_some, and_self, if_true, whole, bytesOf_group]
  | case3 first second =>
      have filled : group first second 0 % 64 = 0 := by
        simp only [group, UInt8.toNat_zero]
        omega
      have thirdDigit : digit (group first second 0 / 2 ^ 6 % 64) ≠ pad :=
        digit_ne_pad (Nat.mod_lt _ (by decide))
      have whole := groupOf_digits (group_lt first second 0)
      rw [filled] at whole
      simp only [encode, digits, List.take_succ_cons, List.take_zero, List.cons_append,
        List.nil_append, decode, digitValue_digits, Option.bind_eq_bind,
        Option.bind_some, thirdDigit, false_and, and_false, and_self, if_true, if_false,
        whole, bytesOf_group]
  | case4 first second third rest ih =>
      rw [encode, decode_digits, ih]
      rfl

/-- Every three bytes, complete or not, take four digits. -/
theorem encode_length (bytes : List UInt8) :
    (encode bytes).length = 4 * ((bytes.length + 2) / 3) := by
  induction bytes using encode.induct with
  | case1 => rfl
  | case2 first => simp [encode, digits]
  | case3 first second => simp [encode, digits]
  | case4 first second third rest ih =>
      rw [encode, List.length_append, ih]
      simp only [digits, List.length_cons, List.length_nil]
      omega

end Base64
