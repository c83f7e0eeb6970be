import Blocxxi.ByteText
import Mathlib.Data.List.GetD

/-!
# The base 16 codec

Encoding looks up both digits of every byte in a table; decoding looks up the
value of every character and throws on the first that is not a digit.  The
reverse direction walks the bytes, respectively the characters, backwards.
-/

namespace Blocxxi

namespace Hex

open Cxx

def alphabetUpperCase : ByteString := ascii "0123456789ABCDEF"

def alphabetLowerCase : ByteString := ascii "0123456789abcdef"

def makeLow (alphabet : ByteString) (index : UInt8) : UInt8 :=
  alphabet.getD (index &&& 0x0F).toNat 0

def makeHigh (alphabet : ByteString) (index : UInt8) : UInt8 :=
  alphabet.getD ((index &&& 0xF0) >>> 4).toNat 0

def invalidValue : UInt8 := 0xFF

/-- The value of a character as a digit of either case. -/
def decForIndex (index : UInt8) : UInt8 :=
  if 48 ≤ index && index ≤ 57 then index - 48
  else if 65 ≤ index && index ≤ 70 then index + 10 - 65
  else if 97 ≤ index && index ≤ 102 then index + 10 - 97
  else invalidValue

def alphabetFor (lowerCase : Bool) : ByteString :=
  if lowerCase then alphabetLowerCase else alphabetUpperCase

def encode (src : ByteString) (reverse lowerCase : Bool) : ByteString :=
  let alphabet := alphabetFor lowerCase
  if reverse then
    src.reverse.flatMap fun byte => [makeLow alphabet byte, makeHigh alphabet byte]
  else
    src.flatMap fun byte => [makeHigh alphabet byte, makeLow alphabet byte]

def lookup (character : UInt8) : Except Fault UInt8 :=
  if decForIndex character = invalidValue then
    .error (.exception ("Character ['" ++ toString character.toInt8.toInt ++
      "'] not a valid hex digit"))
  else .ok (decForIndex character)

/-- The loop over the characters, two for each byte. -/
def decodePairs : ByteString → Except Fault ByteString
  | [] => .ok []
  | [_] => .error .outOfBounds
  | first :: second :: rest => do
      let high ← lookup first
      let low ← lookup second
      let bytes ← decodePairs rest
      .ok (((high <<< 4) ||| low) :: bytes)

/-- Decode into a destination, whose remaining bytes are wiped with zeros. -/
def decode (src dest : ByteString) (reverse : Bool) : Except Fault ByteString :=
  if src.length % 2 ≠ 0 then
    .error (.aborted "the encoded data must contain an even number of hex digits")
  else if dest.length < src.length / 2 then
    .error (.aborted ("buffer to receive the decoded data must be at least " ++
      "half the size of the encoded data"))
  else if src = [] then .ok dest
  else do
    let bytes ← decodePairs (if reverse then src.reverse else src)
    .ok (bytes ++ List.replicate (dest.length - bytes.length) 0)

/-- The digit at a place of an alphabet has the place as its value. -/
theorem lookup_digit (lowerCase : Bool) {half : UInt8} (small : half.toNat < 16) :
    lookup ((alphabetFor lowerCase).getD half.toNat 0) = .ok half := by
  have table : ∀ lowerCase : Bool, ∀ place : Fin 16,
      decForIndex ((alphabetFor lowerCase).getD place.val 0) = UInt8.ofNat place.val ∧
        UInt8.ofNat place.val ≠ invalidValue := by
    decide
  obtain ⟨value, valid⟩ := table lowerCase ⟨half.toNat, small⟩
  rw [UInt8.ofNat_toNat] at value valid
  rw [lookup, value, if_neg valid]

/-- The two digits of a byte decode to its two halves. -/
theorem lookup_digits (lowerCase : Bool) (byte : UInt8) :
    lookup (makeHigh (alphabetFor lowerCase) byte) = .ok (byte >>> 4) ∧
      lookup (makeLow (alphabetFor lowerCase) byte) = .ok (byte &&& 0x0F) ∧
        ((byte >>> 4) <<< 4 ||| (byte &&& 0x0F)) = byte := by
  have table : ∀ index : Fin 256,
      let byte := UInt8.ofNat index.val
      (byte &&& 0xF0) >>> 4 = byte >>> 4 ∧ (byte >>> 4).toNat < 16 ∧
        (byte &&& 0x0F).toNat < 16 ∧
          ((byte >>> 4) <<< 4 ||| (byte &&& 0x0F)) = byte := by
    decide +kernel
  have atByte := table ⟨byte.toNat, byte.toNat_lt⟩
  simp only [UInt8.ofNat_toNat] at atByte
  obtain ⟨high, highSmall, lowSmall, joined⟩ := atByte
  refine ⟨?_, lookup_digit lowerCase lowSmall, joined⟩
  rw [makeHigh, high, lookup_digit lowerCase highSmall]

theorem decodePairs_encode (src : ByteString) (lowerCase : Bool) :
    decodePairs (encode src false lowerCase) = .ok src := by
  induction src with
  | nil => rfl
  | cons byte src ih =>
      obtain ⟨high, low, joined⟩ := lookup_digits lowerCase byte
      simp only [encode, Bool.false_eq_true, if_false, List.flatMap_cons,
        List.cons_append, List.nil_append] at ih ⊢
      simp [decodePairs, high, low, ih, joined, bind, Except.bind]

theorem encode_injective (lowerCase : Bool) :
    Function.Injective fun src => encode src false lowerCase := by
  intro first second equal
  change encode first false lowerCase = encode second false lowerCase at equal
  have decoded := decodePairs_encode first lowerCase
  rw [equal, decodePairs_encode] at decoded
  exact (Except.ok.inj decoded).symm

@[simp]
theorem encode_length (src : ByteString) (reverse lowerCase : Bool) :
    (encode src reverse lowerCase).length = 2 * src.length := by
  cases reverse <;>
    simp [encode, List.length_flatMap, List.map_const', Nat.mul_comm]

/-- The reversed encoding is the plain one read backwards: the bytes and the two
digits of each byte change their order. -/
theorem encode_reverse (src : ByteString) (lowerCase : Bool) :
    encode src true lowerCase = (encode src false lowerCase).reverse := by
  simp only [encode, if_true, Bool.false_eq_true, if_false]
  induction src with
  | nil => rfl
  | cons byte rest ih =>
      rw [List.reverse_cons, List.flatMap_append, ih]
      simp

/-- The characters in the order in which decoding reads them. -/
def readingOrder (src : ByteString) (reverse : Bool) : ByteString :=
  if reverse then src.reverse else src

@[simp]
theorem readingOrder_length (src : ByteString) (reverse : Bool) :
    (readingOrder src reverse).length = src.length := by
  cases reverse <;> simp [readingOrder]

@[simp]
theorem mem_readingOrder {src : ByteString} {reverse : Bool} {character : UInt8} :
    character ∈ readingOrder src reverse ↔ character ∈ src := by
  cases reverse <;> simp [readingOrder]

/-- Read in the same direction, both encodings show the same digits. -/
theorem readingOrder_encode (src : ByteString) (reverse lowerCase : Bool) :
    readingOrder (encode src reverse lowerCase) reverse =
      encode src false lowerCase := by
  cases reverse with
  | false => rfl
  | true => rw [readingOrder, if_pos rfl, encode_reverse, List.reverse_reverse]

/-- What decoding does with a text of even length that is not empty. -/
theorem decode_eq {src dest : ByteString} {reverse : Bool} (nonempty : src ≠ [])
    (even : src.length % 2 = 0) (fits : src.length / 2 ≤ dest.length) :
    decode src dest reverse =
      (decodePairs (readingOrder src reverse)).map fun bytes =>
        bytes ++ List.replicate (dest.length - bytes.length) 0 := by
  rw [decode, if_neg (not_not_intro even), if_neg (by omega), if_neg nonempty,
    readingOrder]
  cases decodePairs (if reverse then src.reverse else src) <;> rfl

/-- Decoding undoes encoding, for a destination that is large enough. -/
theorem decode_encode {src dest : ByteString} {reverse : Bool} (lowerCase : Bool)
    (nonempty : src ≠ []) (fits : src.length ≤ dest.length) :
    decode (encode src reverse lowerCase) dest reverse =
      .ok (src ++ List.replicate (dest.length - src.length) 0) := by
  have encodedNonempty : encode src reverse lowerCase ≠ [] := by
    intro encodedNil
    have lengths := congrArg List.length encodedNil
    simp [nonempty] at lengths
  rw [decode_eq encodedNonempty (by simp) (by simpa using fits),
    readingOrder_encode, decodePairs_encode]
  rfl

/-- Every character of an encoding is a digit of the alphabet. -/
theorem mem_encode {src : ByteString} {reverse lowerCase : Bool}
    {character : UInt8} (member : character ∈ encode src reverse lowerCase) :
    decForIndex character ≠ invalidValue := by
  have digits (byte : UInt8) :
      decForIndex (makeHigh (alphabetFor lowerCase) byte) ≠ invalidValue ∧
        decForIndex (makeLow (alphabetFor lowerCase) byte) ≠ invalidValue := by
    obtain ⟨high, low, -⟩ := lookup_digits lowerCase byte
    unfold lookup at high low
    constructor
    · intro invalid
      simp [invalid] at high
    · intro invalid
      simp [invalid] at low
  have fromByte : ∃ byte : UInt8,
      character = makeHigh (alphabetFor lowerCase) byte ∨
        character = makeLow (alphabetFor lowerCase) byte := by
    unfold encode at member
    split at member
    · obtain ⟨byte, -, pair⟩ := List.mem_flatMap.mp member
      exact ⟨byte, by simpa [or_comm] using pair⟩
    · obtain ⟨byte, -, pair⟩ := List.mem_flatMap.mp member
      exact ⟨byte, by simpa using pair⟩
  obtain ⟨byte, rfl | rfl⟩ := fromByte
  · exact (digits byte).1
  · exact (digits byte).2

/-- A separator that is no digit does not occur in an encoding. -/
theorem notMem_encode {src : ByteString} {separator : UInt8}
    (special : decForIndex separator = invalidValue) :
    separator ∉ encode src false true :=
  fun member => mem_encode member special

theorem decodePairs_length {src bytes : ByteString}
    (decoded : decodePairs src = .ok bytes) : 2 * bytes.length = src.length := by
  induction src using decodePairs.induct generalizing bytes with
  | case1 =>
      cases decoded
      rfl
  | case2 => simp [decodePairs] at decoded
  | case3 first second rest ih =>
      simp only [decodePairs, bind, Except.bind] at decoded
      split at decoded
      · cases decoded
      · split at decoded
        · cases decoded
        · cases tail : decodePairs rest with
          | error fault => simp [tail] at decoded
          | ok tailBytes =>
              simp only [tail, Except.ok.injEq] at decoded
              subst decoded
              have := ih tail
              simp only [List.length_cons]
              omega

/-- A digit above nine in lower case. -/
def lowerCaseDigit (character : UInt8) : UInt8 :=
  if 65 ≤ character ∧ character ≤ 70 then character + 32 else character

/-- The value of a digit is the place of its lower case in the alphabet. -/
theorem lookup_ok {character value : UInt8} (found : lookup character = .ok value) :
    value.toNat < 16 ∧
      alphabetLowerCase.getD value.toNat 0 = lowerCaseDigit character := by
  have table : ∀ index : Fin 256,
      decForIndex (UInt8.ofNat index.val) ≠ invalidValue →
        (decForIndex (UInt8.ofNat index.val)).toNat < 16 ∧
          alphabetLowerCase.getD (decForIndex (UInt8.ofNat index.val)).toNat 0 =
            lowerCaseDigit (UInt8.ofNat index.val) := by
    decide +kernel
  have atCharacter := table ⟨character.toNat, character.toNat_lt⟩
  rw [UInt8.ofNat_toNat] at atCharacter
  unfold lookup at found
  split at found
  · cases found
  · rename_i valid
    cases found
    exact atCharacter valid

theorem digits_of_halves {high low : UInt8} (highSmall : high.toNat < 16)
    (lowSmall : low.toNat < 16) :
    makeHigh alphabetLowerCase ((high <<< 4) ||| low) =
        alphabetLowerCase.getD high.toNat 0 ∧
      makeLow alphabetLowerCase ((high <<< 4) ||| low) =
        alphabetLowerCase.getD low.toNat 0 := by
  have table : ∀ high low : Fin 16,
      makeHigh alphabetLowerCase
          ((UInt8.ofNat high.val <<< 4) ||| UInt8.ofNat low.val) =
        alphabetLowerCase.getD (UInt8.ofNat high.val).toNat 0 ∧
      makeLow alphabetLowerCase
          ((UInt8.ofNat high.val <<< 4) ||| UInt8.ofNat low.val) =
        alphabetLowerCase.getD (UInt8.ofNat low.val).toNat 0 := by
    decide +kernel
  have atHalves := table ⟨high.toNat, highSmall⟩ ⟨low.toNat, lowSmall⟩
  rwa [UInt8.ofNat_toNat, UInt8.ofNat_toNat] at atHalves

/-- What was decoded is encoded as the text in lower case. -/
theorem encode_decodePairs {src bytes : ByteString}
    (decoded : decodePairs src = .ok bytes) :
    encode bytes false true = src.map lowerCaseDigit := by
  induction src using decodePairs.induct generalizing bytes with
  | case1 =>
      cases decoded
      rfl
  | case2 => simp [decodePairs] at decoded
  | case3 first second rest ih =>
      simp only [decodePairs, bind, Except.bind] at decoded
      split at decoded
      · cases decoded
      rename_i high isHigh
      split at decoded
      · cases decoded
      rename_i low isLow
      split at decoded
      · cases decoded
      rename_i tail isTail
      cases decoded
      obtain ⟨highSmall, highDigit⟩ := lookup_ok isHigh
      obtain ⟨lowSmall, lowDigit⟩ := lookup_ok isLow
      obtain ⟨isHighDigit, isLowDigit⟩ := digits_of_halves highSmall lowSmall
      have tailDigits := ih isTail
      simp only [encode, Bool.false_eq_true, if_false] at tailDigits ⊢
      rw [List.flatMap_cons, tailDigits, List.map_cons, List.map_cons,
        alphabetFor, if_pos rfl, isHighDigit, isLowDigit, highDigit, lowDigit]
      rfl

/-- Decoding fills the whole destination. -/
theorem decode_length {src dest bytes : ByteString} {reverse : Bool}
    (decoded : decode src dest reverse = .ok bytes) :
    bytes.length = dest.length := by
  unfold decode at decoded
  split at decoded
  · cases decoded
  · split at decoded
    · cases decoded
    · split at decoded
      · cases decoded
        rfl
      · cases pairs : decodePairs (if reverse then src.reverse else src) with
        | error fault => simp [pairs, bind, Except.bind] at decoded
        | ok pairBytes =>
            simp only [pairs, bind, Except.bind, Except.ok.injEq] at decoded
            subst decoded
            have halves := decodePairs_length pairs
            have lengths : (if reverse then src.reverse else src).length =
                src.length := by
              split <;> simp
            simp only [List.length_append, List.length_replicate]
            omega

/-- A destination that the text fills holds what was decoded. -/
theorem decodePairs_of_decode {src dest bytes : ByteString} (nonempty : src ≠ [])
    (filled : 2 * dest.length = src.length)
    (decoded : decode src dest false = .ok bytes) : decodePairs src = .ok bytes := by
  unfold decode at decoded
  split at decoded
  · cases decoded
  split at decoded
  · cases decoded
  rw [if_neg Bool.false_ne_true] at decoded
  cases pairs : decodePairs src with
  | error fault =>
      rw [pairs] at decoded
      cases decoded
  | ok pairBytes =>
      rw [pairs] at decoded
      cases decoded
      have halves := decodePairs_length pairs
      have noRest : dest.length - pairBytes.length = 0 := by omega
      rw [noRest, List.replicate_zero, List.append_nil]

/-- The hexadecimal digits, in either case. -/
def HexDigit (character : UInt8) : Prop :=
  character ∈ alphabetUpperCase ∨ character ∈ alphabetLowerCase

theorem hexDigit_iff (character : UInt8) :
    HexDigit character ↔ decForIndex character ≠ invalidValue := by
  have table : ∀ index : Fin 256,
      (UInt8.ofNat index.val ∈ alphabetUpperCase ∨
          UInt8.ofNat index.val ∈ alphabetLowerCase) ↔
        decForIndex (UInt8.ofNat index.val) ≠ invalidValue := by
    decide +kernel
  have atCharacter := table ⟨character.toNat, character.toNat_lt⟩
  rwa [UInt8.ofNat_toNat] at atCharacter

instance (character : UInt8) : Decidable (HexDigit character) :=
  inferInstanceAs (Decidable (_ ∨ _))

/-- What is thrown at a character that is no digit. -/
def notHexDigit (character : UInt8) : Fault :=
  .exception ("Character ['" ++ toString character.toInt8.toInt ++
    "'] not a valid hex digit")

theorem lookup_eq (character : UInt8) :
    lookup character =
      if HexDigit character then .ok (decForIndex character)
      else .error (notHexDigit character) := by
  by_cases digit : HexDigit character
  · rw [if_pos digit, lookup, if_neg ((hexDigit_iff character).mp digit)]
  · rw [if_neg digit, lookup, if_pos]
    · rfl
    · by_contra valid
      exact digit ((hexDigit_iff character).mpr valid)

/-- Pairs of digits are decoded. -/
theorem decodePairs_digits {src : ByteString} (even : src.length % 2 = 0)
    (digits : ∀ character ∈ src, HexDigit character) :
    ∃ bytes, decodePairs src = .ok bytes := by
  induction src using decodePairs.induct with
  | case1 => exact ⟨[], rfl⟩
  | case2 => simp at even
  | case3 first second rest ih =>
      have evenRest : rest.length % 2 = 0 := by
        simp only [List.length_cons] at even
        omega
      obtain ⟨bytes, decoded⟩ := ih evenRest fun character member =>
        digits character (by simp [member])
      have isFirst := lookup_eq first
      have isSecond := lookup_eq second
      rw [if_pos (digits first (by simp))] at isFirst
      rw [if_pos (digits second (by simp))] at isSecond
      rw [decodePairs, isFirst, isSecond, decoded]
      exact ⟨_, rfl⟩

/-- A text with another character is rejected at the first of them. -/
theorem decodePairs_notDigit {src : ByteString} (even : src.length % 2 = 0)
    (notDigits : ¬ ∀ character ∈ src, HexDigit character) :
    ∃ character ∈ src, ¬ HexDigit character ∧
      decodePairs src = .error (notHexDigit character) := by
  induction src using decodePairs.induct with
  | case1 => simp at notDigits
  | case2 => simp at even
  | case3 first second rest ih =>
      have evenRest : rest.length % 2 = 0 := by
        simp only [List.length_cons] at even
        omega
      have isFirst := lookup_eq first
      have isSecond := lookup_eq second
      by_cases firstDigit : HexDigit first
      · rw [if_pos firstDigit] at isFirst
        by_cases secondDigit : HexDigit second
        · rw [if_pos secondDigit] at isSecond
          have restNotDigits : ¬ ∀ character ∈ rest, HexDigit character := by
            intro digits
            apply notDigits
            simpa [firstDigit, secondDigit] using digits
          obtain ⟨character, member, notDigit, rejected⟩ := ih evenRest restNotDigits
          refine ⟨character, by simp [member], notDigit, ?_⟩
          rw [decodePairs, isFirst, isSecond, rejected]
          rfl
        · rw [if_neg secondDigit] at isSecond
          refine ⟨second, by simp, secondDigit, ?_⟩
          rw [decodePairs, isFirst, isSecond]
          rfl
      · rw [if_neg firstDigit] at isFirst
        refine ⟨first, by simp, firstDigit, ?_⟩
        rw [decodePairs, isFirst]
        rfl

/-- Both alphabets show the same digits up to letter case. -/
theorem encode_lowerCaseDigit (src : ByteString) (reverse lowerCase : Bool) :
    (encode src reverse lowerCase).map lowerCaseDigit = encode src reverse true := by
  have alphabets : (alphabetFor lowerCase).map lowerCaseDigit = alphabetFor true := by
    cases lowerCase <;> decide
  have digit (place : Nat) :
      lowerCaseDigit ((alphabetFor lowerCase).getD place 0) =
        (alphabetFor true).getD place 0 := by
    rw [← alphabets]
    exact (List.getD_map _ _ lowerCaseDigit).symm
  cases reverse <;>
    simp only [encode, makeHigh, makeLow, List.map_flatMap, List.map_cons,
      List.map_nil, digit, if_true, Bool.false_eq_true, if_false]

/-- A text of even length is decoded exactly when it has only digits; the bytes
then encode to the text, up to letter case. -/
theorem decode_iff {src dest : ByteString} (reverse : Bool)
    (even : src.length % 2 = 0) (fits : src.length / 2 ≤ dest.length) :
    ((∃ decoded, decode src dest reverse = .ok decoded) ↔
        ∀ character ∈ src, HexDigit character) ∧
      ((¬ ∀ character ∈ src, HexDigit character) →
        ∃ character ∈ src, ¬ HexDigit character ∧
          decode src dest reverse = .error (notHexDigit character)) := by
  by_cases empty : src = []
  · subst empty
    simp [decode]
  rw [decode_eq empty even fits]
  have evenRead : (readingOrder src reverse).length % 2 = 0 := by simpa using even
  by_cases digits : ∀ character ∈ src, HexDigit character
  · obtain ⟨bytes, decoded⟩ :=
      decodePairs_digits evenRead (by simpa using digits)
    rw [decoded]
    exact ⟨⟨fun _ => digits, fun _ => ⟨_, rfl⟩⟩, fun notDigits => absurd digits notDigits⟩
  · obtain ⟨character, member, notDigit, rejected⟩ :=
      decodePairs_notDigit evenRead (by simpa using digits)
    rw [rejected]
    refine ⟨⟨?_, fun allDigits => absurd allDigits digits⟩, fun _ => ?_⟩
    · rintro ⟨decoded, isOk⟩
      cases isOk
    · exact ⟨character, mem_readingOrder.mp member, notDigit, rfl⟩

/-- The first half of what was decoded encodes to the text again. -/
theorem encode_decode {src dest decoded : ByteString} {reverse : Bool}
    (lowerCase : Bool) (even : src.length % 2 = 0)
    (fits : src.length / 2 ≤ dest.length)
    (isDecoded : decode src dest reverse = .ok decoded) :
    (encode (decoded.take (src.length / 2)) reverse lowerCase).map lowerCaseDigit =
      src.map lowerCaseDigit := by
  rw [encode_lowerCaseDigit]
  by_cases empty : src = []
  · subst empty
    cases reverse <;> rfl
  rw [decode_eq empty even fits] at isDecoded
  cases pairs : decodePairs (readingOrder src reverse) with
  | error fault =>
      rw [pairs] at isDecoded
      cases isDecoded
  | ok bytes =>
      rw [pairs] at isDecoded
      cases isDecoded
      have halves : src.length / 2 = bytes.length := by
        have doubled := decodePairs_length pairs
        rw [readingOrder_length] at doubled
        omega
      have shown := encode_decodePairs pairs
      rw [halves, List.take_left']
      · cases reverse with
        | false => exact shown
        | true =>
            rw [encode_reverse, shown, readingOrder, if_pos rfl, List.map_reverse,
              List.reverse_reverse]
      · rfl

/-- Encoding and decoding are inverse to each other, in both directions and in both
letter cases. -/
theorem encode_decode_inverse :
    (∀ (src dest : ByteString) (reverse lowerCase : Bool),
      src.length ≤ dest.length →
        decode (encode src reverse lowerCase) dest reverse =
          .ok (if src = [] then dest
            else src ++ List.replicate (dest.length - src.length) 0)) ∧
    ∀ (src dest : ByteString) (reverse : Bool),
      src.length % 2 = 0 → src.length / 2 ≤ dest.length →
        ((∃ decoded, decode src dest reverse = .ok decoded) ↔
          ∀ character ∈ src, HexDigit character) ∧
        ((¬ ∀ character ∈ src, HexDigit character) →
          ∃ character ∈ src, ¬ HexDigit character ∧
            decode src dest reverse = .error (notHexDigit character)) ∧
        ∀ decoded, decode src dest reverse = .ok decoded →
          ∀ lowerCase,
            (encode (decoded.take (src.length / 2)) reverse lowerCase).map
              lowerCaseDigit = src.map lowerCaseDigit := by
  refine ⟨?_, ?_⟩
  · intro src dest reverse lowerCase fits
    by_cases empty : src = []
    · subst empty
      cases reverse <;> simp [encode, decode]
    · rw [if_neg empty, decode_encode lowerCase empty fits]
  · intro src dest reverse even fits
    obtain ⟨accepted, rejected⟩ := decode_iff reverse even fits
    exact ⟨accepted, rejected, fun decoded isDecoded lowerCase =>
      encode_decode lowerCase even fits isDecoded⟩

/-- The text `0aF1` read backwards, into a destination with one byte to spare. -/
theorem encode_decode_inverse_reversed :
    decode (encode [0xA0, 0x1F] true false) [7, 7, 7] true = .ok [0xA0, 0x1F, 0] ∧
      (encode ([0x1F, 0xA0, 0].take 2) true true).map lowerCaseDigit =
        (ascii "0aF1").map lowerCaseDigit :=
  ⟨by
    have roundTrip := encode_decode_inverse.1 [0xA0, 0x1F] [7, 7, 7] true false
      (by decide)
    exact roundTrip,
  (encode_decode_inverse.2 (ascii "0aF1") [7, 7, 7] true (by decide) (by decide)).2.2
    [0x1F, 0xA0, 0] (by decide) true⟩

end Hex

end Blocxxi
