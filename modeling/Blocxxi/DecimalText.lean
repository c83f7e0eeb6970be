import Blocxxi.ByteText
import Mathlib.Data.Nat.Digits.Lemmas

/-!
# Numbers and their decimal texts

Rendering a number and parsing the text gives the number back.  The parser
accepts more: digits with zeros in front of them, and a minus sign in front of
a zero.  Among all texts of a number, the rendered one is the only minimal one.
-/

namespace ByteText

open Cxx

theorem digitByte_digitValue {byte : UInt8} (digit : isDigit byte = true) :
    digitByte (digitValue byte) = byte := by
  obtain ⟨lower, upper⟩ := (isDigit_iff byte).mp digit
  rw [← UInt8.toNat_inj, digitByte_toNat (by unfold digitValue; omega), digitValue]
  omega

theorem digitsValue_append_singleton (digits : ByteString) (byte : UInt8) :
    digitsValue (digits ++ [byte]) = 10 * digitsValue digits + digitValue byte := by
  simp [digitsValue]

theorem digitsValue_eq_ofDigits (digits : ByteString) :
    digitsValue digits = Nat.ofDigits 10 (digits.reverse.map digitValue) := by
  induction digits using List.reverseRecOn with
  | nil => rfl
  | append_singleton digits byte ih =>
      rw [digitsValue_append_singleton, List.reverse_append,
        List.reverse_singleton, List.singleton_append, List.map_cons,
        Nat.ofDigits_cons, ih, Nat.add_comm]

theorem digitValues_lt {digits : ByteString}
    (allDigits : ∀ byte ∈ digits, isDigit byte = true) :
    ∀ value ∈ digits.reverse.map digitValue, value < 10 := by
  intro value member
  obtain ⟨byte, isByte, rfl⟩ := List.mem_map.mp member
  obtain ⟨-, upper⟩ := (isDigit_iff byte).mp
    (allDigits byte (List.mem_reverse.mp isByte))
  unfold digitValue
  omega

theorem digitsValue_lt {digits : ByteString}
    (allDigits : ∀ byte ∈ digits, isDigit byte = true) :
    digitsValue digits < 10 ^ digits.length := by
  rw [digitsValue_eq_ofDigits]
  have below := Nat.ofDigits_lt_base_pow_length (by decide)
    (digitValues_lt allDigits)
  rwa [List.length_map, List.length_reverse] at below

/-- Digits without a leading zero, unless they are the one digit zero. -/
def Minimal (digits : ByteString) : Prop :=
  digits.head? = some 48 → digits = [48]

instance (digits : ByteString) : Decidable (Minimal digits) :=
  inferInstanceAs (Decidable (_ → _))

/-- Minimal digits are the rendering of the number they spell. -/
theorem decimal_digitsValue {digits : ByteString} (nonempty : digits ≠ [])
    (allDigits : ∀ byte ∈ digits, isDigit byte = true)
    (minimal : Minimal digits) : decimal (digitsValue digits) = digits := by
  cases digits with
  | nil => contradiction
  | cons first rest =>
    by_cases zero : first = 48
    · subst zero
      rw [minimal rfl]
      rfl
    · have firstDigit := allDigits first List.mem_cons_self
      have significant : digitValue first ≠ 0 := by
        obtain ⟨lower, -⟩ := (isDigit_iff first).mp firstDigit
        have differs : first.toNat ≠ 48 :=
          fun same => zero (UInt8.toNat_inj.mp same)
        unfold digitValue
        omega
      have digitsEq : Nat.digits 10 (digitsValue (first :: rest)) =
          (first :: rest).reverse.map digitValue := by
        rw [digitsValue_eq_ofDigits]
        apply Nat.digits_ofDigits 10 (by decide) _ (digitValues_lt allDigits)
        intro _
        simpa using significant
      have positive : digitsValue (first :: rest) ≠ 0 := by
        intro none
        rw [none, Nat.digits_zero] at digitsEq
        simp at digitsEq
      rw [decimal, if_neg positive, digitsEq, List.map_map, ← List.map_reverse,
        List.reverse_reverse]
      conv_rhs => rw [← List.map_id (first :: rest)]
      apply List.map_congr_left
      exact fun byte member => digitByte_digitValue (allDigits byte member)

/-- No digits for a number are fewer than those of its rendering. -/
theorem decimal_length_le {digits : ByteString} (nonempty : digits ≠ [])
    (allDigits : ∀ byte ∈ digits, isDigit byte = true) :
    (decimal (digitsValue digits)).length ≤ digits.length := by
  unfold decimal
  split
  · exact List.length_pos_iff.mpr nonempty
  · rw [List.length_reverse, List.length_map, Nat.digits_length_le_iff (by decide)]
    exact digitsValue_lt allDigits

theorem decimal_minimal (number : Nat) : Minimal (decimal number) := by
  intro leading
  unfold decimal at leading ⊢
  split
  · rfl
  · rename_i positive
    rw [if_neg positive, List.head?_reverse, List.getLast?_map] at leading
    obtain ⟨digit, isLast, isZero⟩ := Option.map_eq_some_iff.mp leading
    have nonempty : Nat.digits 10 number ≠ [] :=
      Nat.digits_ne_nil_iff_ne_zero.mpr positive
    rw [List.getLast?_eq_some_getLast nonempty] at isLast
    cases isLast
    have small := Nat.digits_lt_base (by decide)
      (List.getLast_mem nonempty : _ ∈ Nat.digits 10 number)
    have noZero := Nat.getLast_digit_ne_zero 10 positive
    have toNat := congrArg UInt8.toNat isZero
    rw [digitByte_toNat small] at toNat
    exact (noZero (by simpa using toNat)).elim

theorem fromCharsUnsigned_decimal {number : Nat} (fits : number < 2 ^ 64) :
    fromCharsUnsigned (decimal number) = some number := by
  have digits : ¬ (decimal number).any (fun byte => !isDigit byte) := by
    simpa using decimal_isDigit number
  rw [fromCharsUnsigned, if_neg (by simp [decimal_ne_nil, digits]),
    digitsValue_decimal, if_neg (by omega)]

/-- The signed number with the given magnitude, if it is in range. -/
def signedNumber (negative : Bool) (digits : ByteString) : Option Int64 :=
  let value : Int :=
    if negative then -(digitsValue digits : Int) else digitsValue digits
  if digits = [] ∨ digits.any (fun byte => !isDigit byte) then none
  else if value < -2 ^ 63 ∨ 2 ^ 63 ≤ value then none
  else some (Int64.ofInt value)

theorem fromCharsSigned_minus (digits : ByteString) :
    fromCharsSigned (45 :: digits) = signedNumber true digits :=
  rfl

theorem fromCharsSigned_plain {digits : ByteString}
    (noMinus : digits.head? ≠ some 45) :
    fromCharsSigned digits = signedNumber false digits := by
  unfold fromCharsSigned
  split
  rename_i split
  split at split
  · simp at noMinus
  · cases split
    rfl

theorem signedNumber_decimal {negative : Bool} {magnitude : Nat} {number : Int64}
    (isNumber : (if negative then -(magnitude : Int) else magnitude) =
      number.toInt) :
    signedNumber negative (decimal magnitude) = some number := by
  have lower : -2 ^ 63 ≤ number.toInt := number.le_toInt
  have upper : number.toInt < 2 ^ 63 := number.toInt_lt
  have digits : ¬ (decimal magnitude = [] ∨
      (decimal magnitude).any (fun byte => !isDigit byte) = true) := by
    simpa [decimal_ne_nil] using decimal_isDigit magnitude
  simp only [signedNumber, digitsValue_decimal, if_neg digits, isNumber]
  rw [if_neg (by omega), Int64.ofInt_toInt]

theorem fromCharsSigned_decimalInt (number : Int64) :
    fromCharsSigned (decimalInt number.toInt) = some number := by
  unfold decimalInt
  split
  · rw [fromCharsSigned_minus]
    apply signedNumber_decimal
    rw [if_pos rfl]
    omega
  · rw [fromCharsSigned_plain]
    · apply signedNumber_decimal
      rw [if_neg Bool.false_ne_true]
      omega
    · intro starts
      have digit := decimal_isDigit _ 45 (List.mem_of_mem_head? starts)
      simp [isDigit] at digit

/-- Digits that make up a number without a superfluous sign or zero. -/
def MinimalSigned (text : ByteString) : Prop :=
  if text.head? = some 45 then text.tail.head? ≠ some 48 else Minimal text

instance (text : ByteString) : Decidable (MinimalSigned text) := by
  unfold MinimalSigned
  infer_instance

theorem fromCharsUnsigned_eq_some {text : ByteString} {number : Nat}
    (parsed : fromCharsUnsigned text = some number) :
    text ≠ [] ∧ (∀ byte ∈ text, isDigit byte = true) ∧
      number = digitsValue text ∧ number < 2 ^ 64 := by
  unfold fromCharsUnsigned at parsed
  split at parsed
  · cases parsed
  rename_i digits
  rw [not_or] at digits
  split at parsed
  · cases parsed
  · cases parsed
    exact ⟨digits.1, by simpa using digits.2, rfl, by omega⟩

theorem signedNumber_eq_some {negative : Bool} {digits : ByteString}
    {number : Int64} (parsed : signedNumber negative digits = some number) :
    digits ≠ [] ∧ (∀ byte ∈ digits, isDigit byte = true) ∧
      number.toInt =
        if negative then -(digitsValue digits : Int) else digitsValue digits := by
  simp only [signedNumber, Option.ite_none_left_eq_some, not_or] at parsed
  obtain ⟨⟨nonempty, isDigits⟩, ⟨lower, upper⟩, isNumber⟩ := parsed
  cases isNumber
  refine ⟨nonempty, by simpa using isDigits, ?_⟩
  rw [Int64.toInt_ofInt_of_le (Int.not_lt.mp lower) (Int.not_le.mp upper)]

/-- A number's own rendering is the minimal text that denotes it. -/
theorem decimal_fromCharsUnsigned {text : ByteString} {number : Nat}
    (parsed : fromCharsUnsigned text = some number) (minimal : Minimal text) :
    decimal number = text := by
  obtain ⟨nonempty, digits, rfl, -⟩ := fromCharsUnsigned_eq_some parsed
  exact decimal_digitsValue nonempty digits minimal

theorem decimalInt_fromCharsSigned {text : ByteString} {number : Int64}
    (parsed : fromCharsSigned text = some number) (minimal : MinimalSigned text) :
    decimalInt number.toInt = text := by
  unfold MinimalSigned at minimal
  split at minimal
  · rename_i minus
    obtain ⟨rest, rfl⟩ := List.head?_eq_some_iff.mp minus
    rw [fromCharsSigned_minus] at parsed
    obtain ⟨nonempty, digits, isNumber⟩ := signedNumber_eq_some parsed
    have rendered : decimal (digitsValue rest) = rest :=
      decimal_digitsValue nonempty digits fun zero => (minimal zero).elim
    have positive : digitsValue rest ≠ 0 := by
      intro none
      rw [none] at rendered
      rw [← rendered] at minimal
      exact minimal rfl
    rw [if_pos rfl] at isNumber
    rw [decimalInt, if_pos (by omega), isNumber, Int.natAbs_neg, Int.natAbs_natCast,
      rendered]
  · rename_i noMinus
    rw [fromCharsSigned_plain noMinus] at parsed
    obtain ⟨nonempty, digits, isNumber⟩ := signedNumber_eq_some parsed
    rw [if_neg Bool.false_ne_true] at isNumber
    rw [decimalInt, if_neg (by omega), isNumber, Int.natAbs_natCast,
      decimal_digitsValue nonempty digits minimal]

theorem decimalInt_length_le {text : ByteString} {number : Int64}
    (parsed : fromCharsSigned text = some number) :
    (decimalInt number.toInt).length ≤ text.length := by
  by_cases minus : text.head? = some 45
  · obtain ⟨rest, rfl⟩ := List.head?_eq_some_iff.mp minus
    rw [fromCharsSigned_minus] at parsed
    obtain ⟨nonempty, digits, isNumber⟩ := signedNumber_eq_some parsed
    have shorter := decimal_length_le nonempty digits
    rw [if_pos rfl] at isNumber
    have magnitude : number.toInt.natAbs = digitsValue rest := by omega
    unfold decimalInt
    split
    · rw [magnitude, List.length_cons, List.length_cons]
      omega
    · rw [magnitude, List.length_cons]
      omega
  · rw [fromCharsSigned_plain minus] at parsed
    obtain ⟨nonempty, digits, isNumber⟩ := signedNumber_eq_some parsed
    have shorter := decimal_length_le nonempty digits
    rw [if_neg Bool.false_ne_true] at isNumber
    rwa [decimalInt, if_neg (by omega), isNumber, Int.natAbs_natCast]

theorem decimalInt_minimal (number : Int) : MinimalSigned (decimalInt number) := by
  unfold MinimalSigned decimalInt
  split
  · rename_i negative
    rw [List.head?_cons, if_pos rfl, List.tail_cons]
    intro leading
    have only := decimal_minimal _ leading
    have value := congrArg digitsValue only
    rw [digitsValue_decimal] at value
    have zero : digitsValue [48] = 0 := rfl
    omega
  · rw [if_neg]
    · exact decimal_minimal _
    · intro minus
      have digit := decimal_isDigit _ 45 (List.mem_of_mem_head? minus)
      simp [isDigit] at digit

end ByteText
