import Blocxxi.CxxRuntime
import Mathlib.Data.List.TakeWhile
import Mathlib.Data.Nat.Digits.Defs

/-!
# Text as byte strings

A C++ string is a list of bytes.  This file has the text operations that the
sources take from the standard library: decimal rendering and the parsing
functions that undo it, cutting at the first separator, and reading lines.
-/

/-- The contents of a `std::string`. -/
abbrev ByteString := List UInt8

/-- The bytes of a literal in the basic character set. -/
def ascii (text : String) : ByteString :=
  text.toList.map fun letter => UInt8.ofNat letter.toNat

namespace ByteText

open Cxx

def digitByte (digit : Nat) : UInt8 :=
  UInt8.ofNat (48 + digit)

def isDigit (byte : UInt8) : Bool :=
  48 ≤ byte && byte ≤ 57

def digitValue (byte : UInt8) : Nat :=
  byte.toNat - 48

/-- The number spelled by a string of digits. -/
def digitsValue (digits : ByteString) : Nat :=
  digits.foldl (fun value byte => 10 * value + digitValue byte) 0

/-- `std::to_string` of an unsigned number. -/
def decimal (number : Nat) : ByteString :=
  if number = 0 then [digitByte 0]
  else ((Nat.digits 10 number).map digitByte).reverse

/-- `std::to_string` of a signed number. -/
def decimalInt (number : Int) : ByteString :=
  if number < 0 then 45 :: decimal number.natAbs else decimal number.natAbs

theorem digitByte_toNat {digit : Nat} (small : digit < 10) :
    (digitByte digit).toNat = 48 + digit := by
  unfold digitByte
  rw [UInt8.toNat_ofNat']
  omega

theorem digitValue_digitByte {digit : Nat} (small : digit < 10) :
    digitValue (digitByte digit) = digit := by
  rw [digitValue, digitByte_toNat small]
  omega

theorem isDigit_iff (byte : UInt8) :
    isDigit byte = true ↔ 48 ≤ byte.toNat ∧ byte.toNat ≤ 57 := by
  simp [isDigit, UInt8.le_iff_toNat_le]

theorem isDigit_digitByte {digit : Nat} (small : digit < 10) :
    isDigit (digitByte digit) = true := by
  rw [isDigit_iff, digitByte_toNat small]
  omega

theorem decimal_isDigit (number : Nat) :
    ∀ byte ∈ decimal number, isDigit byte = true := by
  intro byte byteMem
  unfold decimal at byteMem
  split at byteMem
  · rw [List.mem_singleton.mp byteMem]
    exact isDigit_digitByte (by decide)
  · rw [List.mem_reverse] at byteMem
    obtain ⟨digit, digitMem, rfl⟩ := List.mem_map.mp byteMem
    exact isDigit_digitByte (Nat.digits_lt_base (by decide) digitMem)

theorem decimal_ne_nil (number : Nat) : decimal number ≠ [] := by
  unfold decimal
  split
  · simp
  · simpa [Nat.digits_eq_nil_iff_eq_zero] using ‹¬number = 0›

theorem digitsValue_decimal (number : Nat) :
    digitsValue (decimal number) = number := by
  unfold decimal
  split
  · simp [digitsValue, digitValue_digitByte, *]
  · have value (digits : List Nat) (small : ∀ digit ∈ digits, digit < 10) :
        digitsValue (digits.map digitByte).reverse = Nat.ofDigits 10 digits := by
      induction digits with
      | nil => rfl
      | cons digit digits ih =>
          have tail := ih fun member memberMem => small member (by simp [memberMem])
          simp only [digitsValue, List.map_cons, List.reverse_cons,
            List.foldl_append, List.foldl_cons, List.foldl_nil] at tail ⊢
          rw [tail, digitValue_digitByte (small digit (by simp)), Nat.ofDigits_cons]
          simp [Nat.add_comm]
    rw [value _ fun digit digitMem => Nat.digits_lt_base (by decide) digitMem,
      Nat.ofDigits_digits]

theorem decimal_injective : Function.Injective decimal := by
  intro first second equal
  rw [← digitsValue_decimal first, equal, digitsValue_decimal]

theorem notMem_decimal {number : Nat} {separator : UInt8}
    (special : isDigit separator = false) : separator ∉ decimal number := by
  intro member
  rw [decimal_isDigit number separator member] at special
  cases special

theorem notMem_decimalInt {number : Int} {separator : UInt8}
    (special : isDigit separator = false) (notMinus : separator ≠ 45) :
    separator ∉ decimalInt number := by
  unfold decimalInt
  split
  · simp [notMinus, notMem_decimal special]
  · exact notMem_decimal special

def isSpace (byte : UInt8) : Bool :=
  byte == 32 || (9 ≤ byte && byte ≤ 13)

/-- The optional sign in front of the digits that `strtoull` reads. -/
def splitSign : ByteString → Bool × ByteString
  | 45 :: rest => (true, rest)
  | 43 :: rest => (false, rest)
  | text => (false, text)

/-- `std::stoull`: leading white space, an optional sign and the longest run of
digits, whatever follows. -/
def stoull (text : ByteString) : Except Fault UInt64 :=
  let (negative, rest) := splitSign (text.dropWhile isSpace)
  let digits := rest.takeWhile isDigit
  if digits = [] then .error (.exception "stoull")
  else if 2 ^ 64 ≤ digitsValue digits then .error (.exception "stoull")
  else if negative then .ok (-UInt64.ofNat (digitsValue digits))
  else .ok (UInt64.ofNat (digitsValue digits))

/-- `std::stoll`. -/
def stoll (text : ByteString) : Except Fault Int64 :=
  let (negative, rest) := splitSign (text.dropWhile isSpace)
  let digits := rest.takeWhile isDigit
  let value : Int :=
    if negative then -(digitsValue digits : Int) else digitsValue digits
  if digits = [] then .error (.exception "stoll")
  else if value < -2 ^ 63 ∨ 2 ^ 63 ≤ value then .error (.exception "stoll")
  else .ok (Int64.ofInt value)

theorem takeWhile_digits {digits : ByteString}
    (allDigits : ∀ byte ∈ digits, isDigit byte = true) :
    digits.takeWhile isDigit = digits :=
  List.takeWhile_eq_self_iff.mpr allDigits

theorem isSpace_of_isDigit {byte : UInt8} (digit : isDigit byte = true) :
    isSpace byte = false := by
  have range := (isDigit_iff byte).mp digit
  rw [Bool.eq_false_iff]
  intro space
  simp [isSpace, UInt8.le_iff_toNat_le, ← UInt8.toNat_inj] at space
  omega

/-- Neither white space nor a sign is taken from a text of digits. -/
theorem splitSign_digits {digits : ByteString}
    (allDigits : ∀ byte ∈ digits, isDigit byte = true) :
    splitSign (digits.dropWhile isSpace) = (false, digits) := by
  cases digits with
  | nil => rfl
  | cons byte bytes =>
      have digit : 48 ≤ byte.toNat ∧ byte.toNat ≤ 57 :=
        (isDigit_iff byte).mp (allDigits byte List.mem_cons_self)
      have notSpace : isSpace byte = false :=
        isSpace_of_isDigit (allDigits byte List.mem_cons_self)
      rw [List.dropWhile_cons_of_neg (by simp [notSpace])]
      unfold splitSign
      split
      · rename_i rest equal
        cases equal
        simp at digit
      · rename_i rest equal
        cases equal
        simp at digit
      · rfl

theorem takeWhile_decimal (number : Nat) :
    (decimal number).takeWhile isDigit = decimal number :=
  takeWhile_digits (decimal_isDigit number)

theorem splitSign_decimal (number : Nat) :
    splitSign ((decimal number).dropWhile isSpace) = (false, decimal number) :=
  splitSign_digits (decimal_isDigit number)

theorem stoull_decimal (number : UInt64) :
    stoull (decimal number.toNat) = .ok number := by
  have fits : number.toNat < 2 ^ 64 := number.toNat_lt
  simp [stoull, splitSign_decimal, takeWhile_decimal, decimal_ne_nil,
    digitsValue_decimal]
  exact fits

theorem stoll_decimalInt (number : Int64) :
    stoll (decimalInt number.toInt) = .ok number := by
  have lower : -2 ^ 63 ≤ number.toInt := number.le_toInt
  have upper : number.toInt < 2 ^ 63 := number.toInt_lt
  have inRange : ¬ (number.toInt < -2 ^ 63 ∨ 2 ^ 63 ≤ number.toInt) := by omega
  unfold decimalInt
  split
  · have magnitude : -(number.toInt.natAbs : Int) = number.toInt := by omega
    have minus : splitSign (List.dropWhile isSpace
        (45 :: decimal number.toInt.natAbs)) =
        (true, decimal number.toInt.natAbs) := rfl
    simp only [stoll, minus, takeWhile_decimal, digitsValue_decimal,
      decimal_ne_nil, if_true, if_false, magnitude, inRange, Int64.ofInt_toInt]
  · have magnitude : (number.toInt.natAbs : Int) = number.toInt := by omega
    simp only [stoll, splitSign_decimal, takeWhile_decimal, digitsValue_decimal,
      decimal_ne_nil, if_false, Bool.false_eq_true, magnitude, inRange,
      Int64.ofInt_toInt]

/-- `std::from_chars` of a 64-bit unsigned number over the whole text: digits
only, and a value in range. -/
def fromCharsUnsigned (text : ByteString) : Option Nat :=
  if text = [] ∨ text.any (fun byte => !isDigit byte) then none
  else if 2 ^ 64 ≤ digitsValue text then none
  else some (digitsValue text)

/-- `std::from_chars` of a 64-bit signed number over the whole text: an
optional minus sign in front of the digits. -/
def fromCharsSigned (text : ByteString) : Option Int64 :=
  let (negative, digits) : Bool × ByteString :=
    match text with
    | 45 :: rest => (true, rest)
    | text => (false, text)
  let value : Int :=
    if negative then -(digitsValue digits : Int) else digitsValue digits
  if digits = [] ∨ digits.any (fun byte => !isDigit byte) then none
  else if value < -2 ^ 63 ∨ 2 ^ 63 ≤ value then none
  else some (Int64.ofInt value)

/-- `std::string_view::find`: the first position of the byte from `start`
on. -/
def findFrom (byte : UInt8) (text : ByteString) (start : Nat) : Option Nat :=
  ((text.drop start).findIdx? (· == byte)).map (start + ·)

theorem findIdx_of_notMem {byte : UInt8} {text : ByteString} (absent : byte ∉ text) :
    text.findIdx? (· == byte) = none := by
  rw [List.findIdx?_eq_none_iff]
  intro other member
  rw [beq_eq_false_iff_ne]
  rintro rfl
  exact absent member

theorem findFrom_bounds {byte : UInt8} {text : ByteString} {start index : Nat}
    (found : findFrom byte text start = some index) :
    start ≤ index ∧ index < text.length := by
  unfold findFrom at found
  obtain ⟨relative, isFound, rfl⟩ := Option.map_eq_some_iff.mp found
  obtain ⟨within, -, -⟩ := List.findIdx?_eq_some_iff_getElem.mp isFound
  rw [List.length_drop] at within
  omega

/-- The text in front of the first separator and the text behind it. -/
def breakAt (separator : UInt8) (text : ByteString) :
    Option (ByteString × ByteString) :=
  if separator ∈ text then
    some (text.takeWhile (· ≠ separator), (text.dropWhile (· ≠ separator)).tail)
  else none

theorem breakAt_append {separator : UInt8} {front : ByteString}
    (absent : separator ∉ front) (rest : ByteString) :
    breakAt separator (front ++ separator :: rest) = some (front, rest) := by
  have passes : ∀ byte ∈ front, decide (byte ≠ separator) = true := by
    intro byte byteMem
    rw [decide_eq_true_eq]
    rintro rfl
    exact absent byteMem
  simp only [breakAt, List.mem_append, List.mem_cons, true_or, or_true, if_true]
  rw [List.takeWhile_append_of_pos passes, List.dropWhile_append_of_pos passes]
  simp

/-- The text in front of a separator it does not contain is determined by the
joined text. -/
theorem append_separator_inj {separator : UInt8}
    {first second firstRest secondRest : ByteString}
    (firstAbsent : separator ∉ first) (secondAbsent : separator ∉ second)
    (equal : first ++ separator :: firstRest =
      second ++ separator :: secondRest) :
    first = second ∧ firstRest = secondRest := by
  have broken := breakAt_append firstAbsent firstRest
  rw [equal, breakAt_append secondAbsent] at broken
  simpa [eq_comm] using broken

def linesFrom (current : ByteString) : ByteString → List ByteString
  | [] => if current = [] then [] else [current]
  | byte :: rest =>
      if byte = 10 then current :: linesFrom [] rest
      else linesFrom (current ++ [byte]) rest

/-- The lines that repeated `std::getline` calls read. -/
def lines (text : ByteString) : List ByteString :=
  linesFrom [] text

theorem lines_append_newline {line : ByteString} (oneLine : 10 ∉ line)
    (rest : ByteString) :
    lines (line ++ 10 :: rest) = line :: lines rest := by
  have accumulated (current : ByteString) :
      linesFrom current (line ++ 10 :: rest) =
        (current ++ line) :: lines rest := by
    induction line generalizing current with
    | nil => simp [linesFrom, lines]
    | cons byte line ih =>
        simp only [List.mem_cons, not_or] at oneLine
        rw [List.cons_append, linesFrom, if_neg (Ne.symm oneLine.1),
          ih oneLine.2]
        simp
  exact accumulated []

/-- The text made of the given lines, each ended by a newline. -/
def unlines (texts : List ByteString) : ByteString :=
  texts.flatMap fun line => line ++ [10]

theorem lines_unlines {texts : List ByteString}
    (oneLine : ∀ line ∈ texts, 10 ∉ line) :
    lines (unlines texts) = texts := by
  induction texts with
  | nil => rfl
  | cons line texts ih =>
      have tail := ih fun member memberMem => oneLine member (by simp [memberMem])
      simp only [unlines, List.flatMap_cons, List.append_assoc,
        List.singleton_append] at tail ⊢
      rw [lines_append_newline (oneLine line (by simp)), tail]

end ByteText
