import Blocxxi.Base16Codec

/-!
# Byte-level helpers of the Bitcoin adapter

Hashes travel as 32 bytes in wire order and are shown as hexadecimal text in
the opposite order.  Text is turned into bytes by extracting numbers from a
stream of two characters at a time, which accepts more than hexadecimal
digits.
-/

namespace Blocxxi

namespace Bitcoin

open Cxx ByteText

def toHex (bytes : ByteString) : ByteString :=
  Hex.encode bytes false true

def wireHashToHex (bytes : ByteString) : ByteString :=
  toHex bytes.reverse

def isHexDigit (byte : UInt8) : Bool :=
  Hex.decForIndex byte != Hex.invalidValue

/-- A number may start with `0x`; the digits come behind it. -/
def dropHexPrefix : ByteString → ByteString
  | first :: marker :: rest =>
      if first = 48 ∧ (marker = 120 ∨ marker = 88) then rest
      else first :: marker :: rest
  | text => text

/-- Extracting an unsigned number with `std::hex`: leading white space, an
optional sign, an optional `0x`, and the longest run of digits; it fails without
a digit. -/
def extractHex (text : ByteString) : Option UInt32 :=
  let (negative, rest) := splitSign (text.dropWhile isSpace)
  let digits := (dropHexPrefix rest).takeWhile isHexDigit
  let value := digits.foldl
    (fun value byte => 16 * value + (Hex.decForIndex byte).toUInt32) 0
  if digits = [] then none
  else some (if negative then -value else value)

/-- The bytes that the pairs of characters denote. -/
def extractPairs : ByteString → Option ByteString
  | first :: second :: rest => do
      let parsed ← extractHex [first, second]
      let bytes ← extractPairs rest
      some (parsed.toUInt8 :: bytes)
  | _ => some []

def hexToBytes (hex : ByteString) : Option ByteString :=
  if hex.length % 2 ≠ 0 then none else extractPairs hex

/-- Without a first pair there is at most one character. -/
theorem short_of_noPair {text : ByteString}
    (noPair : ∀ first second rest, text = first :: second :: rest → False) :
    text = [] ∨ ∃ character, text = [character] := by
  rcases text with _ | ⟨first, _ | ⟨second, rest⟩⟩
  · exact .inl rfl
  · exact .inr ⟨first, rfl⟩
  · exact (noPair first second rest rfl).elim

theorem extractPairs_length {text bytes : ByteString}
    (extracted : extractPairs text = some bytes) : bytes.length = text.length / 2 := by
  induction text using extractPairs.induct generalizing bytes with
  | case1 first second rest ih =>
      simp only [extractPairs, Option.bind_eq_bind, Option.bind_eq_some_iff,
        Option.some.injEq] at extracted
      obtain ⟨parsed, -, tail, isTail, rfl⟩ := extracted
      simp only [List.length_cons, ih isTail]
      omega
  | case2 text noPair =>
      rcases short_of_noPair noPair with rfl | ⟨character, rfl⟩
      · cases extracted
        rfl
      · cases extracted
        simp

theorem not_isHexDigit_of_isSpace {byte : UInt8} (blank : isSpace byte = true) :
    isHexDigit byte = false := by
  have table : ∀ index : Fin 256, isSpace (UInt8.ofNat index.val) = true →
      isHexDigit (UInt8.ofNat index.val) = false := by
    decide +kernel
  have atByte := table ⟨byte.toNat, byte.toNat_lt⟩
  rw [UInt8.ofNat_toNat] at atByte
  exact atByte blank

theorem extractHex_isSome {text rest : ByteString} {negative : Bool}
    (split : splitSign (text.dropWhile isSpace) = (negative, rest)) :
    (extractHex text).isSome = true ↔
      ∃ digit ∈ (dropHexPrefix rest).head?, isHexDigit digit = true := by
  rw [extractHex, split]
  dsimp only
  cases dropped : dropHexPrefix rest with
  | nil => simp
  | cons digit others => cases isDigit : isHexDigit digit <;> simp [isDigit]

/-- A number is extracted from two characters if the second one is a digit behind a blank
or a sign, or the first one is a digit, unless they are `0x`. -/
theorem extractHex_pair_isSome_iff (first second : UInt8) :
    (extractHex [first, second]).isSome = true ↔
      isHexDigit first = true ∧ ¬ (first = 48 ∧ (second = 120 ∨ second = 88)) ∨
        (isSpace first = true ∨ first = 43 ∨ first = 45) ∧ isHexDigit second = true := by
  have plusNoDigit : isHexDigit 43 = false := by decide
  have minusNoDigit : isHexDigit 45 = false := by decide
  by_cases blank : isSpace first = true
  · have noDigit := not_isHexDigit_of_isSpace blank
    by_cases blankSecond : isSpace second = true
    · have noDigitSecond := not_isHexDigit_of_isSpace blankSecond
      rw [@extractHex_isSome _ [] false (by simp [blank, blankSecond, splitSign])]
      simp [noDigit, noDigitSecond, dropHexPrefix]
    · have dropped : [first, second].dropWhile isSpace = [second] := by
        simp [blank, blankSecond]
      by_cases plus : second = 43
      · rw [@extractHex_isSome _ [] false (by rw [dropped, plus]; rfl)]
        simp [noDigit, plus, plusNoDigit, dropHexPrefix]
      by_cases minus : second = 45
      · rw [@extractHex_isSome _ [] true (by rw [dropped, minus]; rfl)]
        simp [noDigit, minus, minusNoDigit, dropHexPrefix]
      rw [@extractHex_isSome _ [second] false (by rw [dropped]; simp [splitSign, plus, minus])]
      simp [noDigit, blank, dropHexPrefix]
  · have dropped : [first, second].dropWhile isSpace = [first, second] := by simp [blank]
    by_cases plus : first = 43
    · rw [@extractHex_isSome _ [second] false (by rw [dropped, plus]; rfl)]
      simp [plus, plusNoDigit, dropHexPrefix]
    by_cases minus : first = 45
    · rw [@extractHex_isSome _ [second] true (by rw [dropped, minus]; rfl)]
      simp [minus, minusNoDigit, dropHexPrefix]
    rw [@extractHex_isSome _ [first, second] false
      (by rw [dropped]; simp [splitSign, plus, minus])]
    by_cases isPrefix : first = 48 ∧ (second = 120 ∨ second = 88)
    · have noBlank : isSpace 48 = false := by decide
      simp [dropHexPrefix, isPrefix, noBlank]
    · simp [dropHexPrefix, isPrefix, blank, plus, minus]

theorem extractPairs_cons_isSome (first second : UInt8) (rest : ByteString) :
    (extractPairs (first :: second :: rest)).isSome = true ↔
      (extractHex [first, second]).isSome = true ∧ (extractPairs rest).isSome = true := by
  rw [extractPairs]
  cases extractHex [first, second] with
  | none => simp
  | some parsed => cases extractPairs rest <;> simp

/-- Numbers are extracted from a text exactly if one is extracted from each of its
pairs. -/
theorem extractPairs_isSome_iff (text : ByteString) :
    (extractPairs text).isSome = true ↔
      ∀ place, 2 * place + 1 < text.length →
        (extractHex ((text.drop (2 * place)).take 2)).isSome = true := by
  induction text using extractPairs.induct with
  | case1 first second rest ih =>
      have behind (place : Nat) :
          (first :: second :: rest).drop (2 * (place + 1)) = rest.drop (2 * place) := by
        rw [Nat.mul_succ, List.drop_succ_cons, List.drop_succ_cons]
      rw [extractPairs_cons_isSome, ih, List.length_cons, List.length_cons]
      constructor
      · rintro ⟨extracted, others⟩ place inside
        cases place with
        | zero => exact extracted
        | succ place =>
            rw [behind]
            exact others place (by omega)
      · intro all
        refine ⟨all 0 (by omega), fun place inside => ?_⟩
        rw [← behind]
        exact all (place + 1) (by omega)
  | case2 text noPair =>
      rcases short_of_noPair noPair with rfl | ⟨character, rfl⟩ <;> simp [extractPairs]

/-- The two digits of a byte denote it. -/
theorem extractHex_digits (byte : UInt8) :
    (extractHex [Hex.makeHigh Hex.alphabetLowerCase byte,
      Hex.makeLow Hex.alphabetLowerCase byte]).map UInt32.toUInt8 = some byte := by
  have table : ∀ index : Fin 256,
      (extractHex
        [Hex.makeHigh Hex.alphabetLowerCase (UInt8.ofNat index.val),
          Hex.makeLow Hex.alphabetLowerCase (UInt8.ofNat index.val)]).map
        UInt32.toUInt8 = some (UInt8.ofNat index.val) := by
    decide +kernel
  have atByte := table ⟨byte.toNat, byte.toNat_lt⟩
  rwa [UInt8.ofNat_toNat] at atByte

theorem extractPairs_toHex (bytes : ByteString) :
    extractPairs (toHex bytes) = some bytes := by
  induction bytes with
  | nil => rfl
  | cons byte bytes induction =>
      obtain ⟨parsed, extracted, isByte⟩ :=
        Option.map_eq_some_iff.mp (extractHex_digits byte)
      change (extractHex [Hex.makeHigh Hex.alphabetLowerCase byte,
        Hex.makeLow Hex.alphabetLowerCase byte]).bind (fun parsed =>
          (extractPairs (toHex bytes)).bind fun bytes =>
            some (parsed.toUInt8 :: bytes)) = _
      rw [extracted, Option.bind_some, induction, Option.bind_some, isByte]

theorem hexToBytes_toHex (bytes : ByteString) :
    hexToBytes (toHex bytes) = some bytes := by
  have even : ¬ (toHex bytes).length % 2 ≠ 0 := by simp [toHex]
  rw [hexToBytes, if_neg even, extractPairs_toHex]

theorem toHex_injective : Function.Injective toHex :=
  Hex.encode_injective true

theorem wireHashToHex_injective : Function.Injective wireHashToHex :=
  fun _ _ same => List.reverse_inj.mp (toHex_injective same)

def hashBytesFromHex (hashHex : ByteString) : Option ByteString :=
  if hashHex.length ≠ 64 then none else extractPairs hashHex

/-- The bytes of a hash in wire order. -/
def wireHashFromHex (hashHex : ByteString) : Option ByteString :=
  if hashHex.length ≠ 64 then none
  else (extractPairs hashHex).map List.reverse

def signetPowLimitHex : ByteString :=
  ascii "00000377ae000000000000000000000000000000000000000000000000000000"

/-- The 32 bytes with the low three bytes of the mantissa, in front of `offset`
zero bytes. -/
def placeMantissa (mantissa : UInt32) (offset : Nat) : ByteString :=
  let target : ByteString := List.replicate 32 0
  let target :=
    target.set (32 - offset - 3) ((mantissa >>> 16) &&& 0xFF).toUInt8
  let target := target.set (32 - offset - 2) ((mantissa >>> 8) &&& 0xFF).toUInt8
  target.set (32 - offset - 1) (mantissa &&& 0xFF).toUInt8

/-- The target that a compact value stands for. -/
def targetFromCompact (bits : UInt32) (powLimitHex : ByteString) :
    Option ByteString :=
  let exponent := ((bits >>> 24) &&& 0xFF).toNat
  let mantissa := bits &&& 0x007FFFFF
  if bits &&& 0x00800000 ≠ 0 ∨ mantissa = 0 then none
  else do
    let target ←
      if exponent ≤ 3 then
        some (placeMantissa (mantissa >>> UInt32.ofNat (8 * (3 - exponent))) 0)
      else if 29 < exponent - 3 then none
      else some (placeMantissa mantissa (exponent - 3))
    let powLimit ← hashBytesFromHex powLimitHex
    if powLimit < target then none else some target

end Bitcoin

end Blocxxi
