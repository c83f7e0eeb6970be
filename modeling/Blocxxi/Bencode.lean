import Blocxxi.ByteText

/-!
# Bencode

Values are encoded as integers, strings with a length in front, lists and
dictionaries.  The decoder moves one offset through the input; an offset is a
64-bit number, and the sum of an offset and a length field wraps.  The decoder
and its loops take a bound on their steps, so that one that never ends can be
told from one that does.
-/

namespace Blocxxi

namespace Bencode

open Cxx ByteText

inductive Value
  | integer (integer : Int64)
  | string (string : ByteString)
  | list (list : List Value)
  | dictionary (dictionary : List (ByteString × Value))

instance : Inhabited Value := ⟨.integer 0⟩

/-- The entries of a dictionary, in the order of their keys. -/
abbrev DictionaryType := List (ByteString × Value)

namespace Value

def asInteger : Value → Outcome Int64
  | .integer stored => .returned stored
  | _ => .thrown "bencode value is not an integer"

def asString : Value → Outcome ByteString
  | .string stored => .returned stored
  | _ => .thrown "bencode value is not a string"

def asList : Value → Outcome (List Value)
  | .list stored => .returned stored
  | _ => .thrown "bencode value is not a list"

def asDictionary : Value → Outcome DictionaryType
  | .dictionary stored => .returned stored
  | _ => .thrown "bencode value is not a dictionary"

end Value

/-- `std::map::emplace`: an entry whose key is present is left alone. -/
def emplace (key : ByteString) (value : Value) : DictionaryType → DictionaryType
  | [] => [(key, value)]
  | (other, stored) :: rest =>
      if key = other then (other, stored) :: rest
      else if key < other then (key, value) :: (other, stored) :: rest
      else (other, stored) :: emplace key value rest

def appendEncodedString (value : ByteString) : ByteString :=
  decimal value.length ++ ascii ":" ++ value

mutual

def encode : Value → ByteString
  | .integer stored => ascii "i" ++ decimalInt stored.toInt ++ ascii "e"
  | .string stored => appendEncodedString stored
  | .list items => ascii "l" ++ encodeItems items ++ ascii "e"
  | .dictionary entries => ascii "d" ++ encodeEntries entries ++ ascii "e"

def encodeItems : List Value → ByteString
  | [] => []
  | item :: items => encode item ++ encodeItems items

def encodeEntries : List (ByteString × Value) → ByteString
  | [] => []
  | (key, item) :: entries =>
      appendEncodedString key ++ encode item ++ encodeEntries entries

end

/-- A number that makes up the whole of a field. -/
def parseNumber {Number : Type} (parsed : Option Number) (message : String) :
    Outcome Number :=
  match parsed with
  | some number => .returned number
  | none => .thrown message

/-- The bytes from one position up to another. -/
def slice (encoded : ByteString) (first last : Nat) : ByteString :=
  (encoded.drop first).take (last - first)

/-- The token `i`, at the offset behind it. -/
def decodeInteger (encoded : ByteString) (offset : Nat) :
    Outcome (Value × Nat) :=
  match findFrom 101 encoded offset with
  | none => .thrown "unterminated bencode integer"
  | some last => do
      let integer ← parseNumber (fromCharsSigned (slice encoded offset last))
        "invalid bencode integer"
      .returned (.integer integer, last + 1)

/-- A string token, at the first digit of its length. -/
def decodeString (encoded : ByteString) (offset : Nat) : Outcome (Value × Nat) :=
  match findFrom 58 encoded offset with
  | none => .thrown "unterminated bencode string length"
  | some colon => do
      let length ← parseNumber
        (fromCharsUnsigned (slice encoded offset colon))
        "invalid bencode string length"
      if encoded.length < sizeAdd (colon + 1) length then
        .thrown "bencode string exceeds input size"
      else
        .returned (.string ((encoded.drop (colon + 1)).take length),
          sizeAdd (colon + 1) length)

/-- The loop over the items of a list; `decode` decodes one value. -/
def decodeItems (encoded : ByteString)
    (decode : Nat → Outcome (Value × Nat)) :
    Nat → List Value → Nat → Outcome (List Value × Nat)
  | 0, _, _ => .running
  | steps + 1, items, offset =>
      if offset < encoded.length ∧ encoded[offset]? ≠ some 101 then do
        let (item, offset) ← decode offset
        decodeItems encoded decode steps (items ++ [item]) offset
      else .returned (items, offset)

/-- The loop over the entries of a dictionary. -/
def decodeEntries (encoded : ByteString)
    (decode : Nat → Outcome (Value × Nat)) :
    Nat → DictionaryType → Nat → Outcome (DictionaryType × Nat)
  | 0, _, _ => .running
  | steps + 1, entries, offset =>
      if offset < encoded.length ∧ encoded[offset]? ≠ some 101 then do
        let (key, offset) ← decode offset
        match key with
        | .string name => do
            let (item, offset) ← decode offset
            decodeEntries encoded decode steps (emplace name item entries) offset
        | _ => .thrown "bencode dictionary key must be a string"
      else .returned (entries, offset)

/-- Decode the value at an offset, and leave the offset behind it. -/
def decodeValue (encoded : ByteString) : Nat → Nat → Outcome (Value × Nat)
  | 0, _ => .running
  | steps + 1, offset =>
      match encoded[offset]? with
      | none => .thrown "unexpected end of bencode input"
      | some token =>
          if token = 105 then decodeInteger encoded (offset + 1)
          else if token = 108 then do
            let (items, offset) ← decodeItems encoded
              (decodeValue encoded steps) steps [] (offset + 1)
            if encoded.length ≤ offset then
              .thrown "unterminated bencode list"
            else .returned (.list items, offset + 1)
          else if token = 100 then do
            let (entries, offset) ← decodeEntries encoded
              (decodeValue encoded steps) steps [] (offset + 1)
            if encoded.length ≤ offset then
              .thrown "unterminated bencode dictionary"
            else .returned (.dictionary entries, offset + 1)
          else if !isDigit token then .thrown "invalid bencode token"
          else decodeString encoded offset

/-- Decode a whole input. -/
def decode (encoded : ByteString) (steps : Nat) : Outcome Value := do
  let (value, offset) ← decodeValue encoded steps 0
  if offset ≠ encoded.length then .thrown "trailing bencode data"
  else .returned value

section Cases

variable {encoded : ByteString} {decode : Nat → Outcome (Value × Nat)}
  {steps offset behind : Nat} {value : Value}

theorem parseNumber_eq_returned {Number : Type} {parsed : Option Number}
    {message : String} {number : Number}
    (returned : parseNumber parsed message = .returned number) :
    parsed = some number := by
  cases parsed with
  | none => cases returned
  | some found =>
      cases returned
      rfl

theorem decodeInteger_cases
    (decoded : decodeInteger encoded offset = .returned (value, behind)) :
    ∃ last number, findFrom 101 encoded offset = some last ∧
      fromCharsSigned (slice encoded offset last) = some number ∧
      value = .integer number ∧ behind = last + 1 := by
  unfold decodeInteger at decoded
  split at decoded
  · cases decoded
  · rename_i last found
    obtain ⟨number, parsed, result⟩ := Outcome.bind_returned decoded
    cases result
    exact ⟨last, number, found, parseNumber_eq_returned parsed, rfl, rfl⟩

theorem decodeString_cases
    (decoded : decodeString encoded offset = .returned (value, behind)) :
    ∃ colon length, findFrom 58 encoded offset = some colon ∧
      fromCharsUnsigned (slice encoded offset colon) = some length ∧
      sizeAdd (colon + 1) length ≤ encoded.length ∧
      value = .string ((encoded.drop (colon + 1)).take length) ∧
      behind = sizeAdd (colon + 1) length := by
  unfold decodeString at decoded
  split at decoded
  · cases decoded
  rename_i colon found
  obtain ⟨length, parsed, result⟩ := Outcome.bind_returned decoded
  split at result
  · cases result
  · rename_i inside
    cases result
    exact ⟨colon, length, found, parseNumber_eq_returned parsed,
      Nat.le_of_not_lt inside, rfl, rfl⟩

/-- The loop over the items decodes one more, or stops. -/
theorem decodeItems_cases {before items : List Value}
    (decoded : decodeItems encoded decode (steps + 1) before offset =
      .returned (items, behind)) :
    (∃ item next, decode offset = .returned (item, next) ∧
      decodeItems encoded decode steps (before ++ [item]) next =
        .returned (items, behind)) ∨
    ¬ (offset < encoded.length ∧ encoded[offset]? ≠ some 101) ∧
      items = before ∧ behind = offset := by
  unfold decodeItems at decoded
  split at decoded
  · obtain ⟨⟨item, next⟩, isItem, rest⟩ := Outcome.bind_returned decoded
    exact Or.inl ⟨item, next, isItem, rest⟩
  · rename_i stops
    cases decoded
    exact Or.inr ⟨stops, rfl, rfl⟩

/-- The loop over the entries decodes a name and an item, or stops. -/
theorem decodeEntries_cases {before entries : DictionaryType}
    (decoded : decodeEntries encoded decode (steps + 1) before offset =
      .returned (entries, behind)) :
    (∃ name afterKey item next, decode offset = .returned (.string name, afterKey) ∧
      decode afterKey = .returned (item, next) ∧
      decodeEntries encoded decode steps (emplace name item before) next =
        .returned (entries, behind)) ∨
    ¬ (offset < encoded.length ∧ encoded[offset]? ≠ some 101) ∧
      entries = before ∧ behind = offset := by
  unfold decodeEntries at decoded
  split at decoded
  · obtain ⟨⟨key, afterKey⟩, isKey, rest⟩ := Outcome.bind_returned decoded
    cases key with
    | string name =>
        obtain ⟨⟨item, next⟩, isItem, rest⟩ := Outcome.bind_returned rest
        exact Or.inl ⟨name, afterKey, item, next, isKey, isItem, rest⟩
    | integer stored => cases rest
    | list stored => cases rest
    | dictionary stored => cases rest
  · rename_i stops
    cases decoded
    exact Or.inr ⟨stops, rfl, rfl⟩

/-- A value is decoded by what its first byte announces. -/
theorem decodeValue_cases
    (decoded : decodeValue encoded (steps + 1) offset = .returned (value, behind)) :
    (encoded[offset]? = some 105 ∧
      decodeInteger encoded (offset + 1) = .returned (value, behind)) ∨
    (encoded[offset]? = some 108 ∧ ∃ items last,
      decodeItems encoded (decodeValue encoded steps) steps [] (offset + 1) =
        .returned (items, last) ∧
      last < encoded.length ∧ value = .list items ∧ behind = last + 1) ∨
    (encoded[offset]? = some 100 ∧ ∃ entries last,
      decodeEntries encoded (decodeValue encoded steps) steps [] (offset + 1) =
        .returned (entries, last) ∧
      last < encoded.length ∧ value = .dictionary entries ∧ behind = last + 1) ∨
    ∃ token, encoded[offset]? = some token ∧ isDigit token = true ∧
      decodeString encoded offset = .returned (value, behind) := by
  unfold decodeValue at decoded
  split at decoded
  · cases decoded
  rename_i token atOffset
  split at decoded
  · rename_i isInteger
    exact Or.inl ⟨isInteger ▸ atOffset, decoded⟩
  split at decoded
  · rename_i isList
    obtain ⟨⟨items, last⟩, isItems, result⟩ := Outcome.bind_returned decoded
    dsimp only at result
    split at result
    · cases result
    · rename_i inside
      cases result
      exact Or.inr (Or.inl ⟨isList ▸ atOffset, items, last, isItems,
        Nat.lt_of_not_le inside, rfl, rfl⟩)
  split at decoded
  · rename_i isDictionary
    obtain ⟨⟨entries, last⟩, isEntries, result⟩ := Outcome.bind_returned decoded
    dsimp only at result
    split at result
    · cases result
    · rename_i inside
      cases result
      exact Or.inr (Or.inr (Or.inl ⟨isDictionary ▸ atOffset, entries, last,
        isEntries, Nat.lt_of_not_le inside, rfl, rfl⟩))
  split at decoded
  · cases decoded
  · rename_i isDigitToken
    exact Or.inr (Or.inr (Or.inr ⟨token, atOffset, by simpa using isDigitToken,
      decoded⟩))

theorem decode_cases
    (decoded : Bencode.decode encoded steps = .returned value) :
    decodeValue encoded steps 0 = .returned (value, encoded.length) := by
  obtain ⟨⟨found, offset⟩, isValue, result⟩ := Outcome.bind_returned decoded
  dsimp only at result
  split at result
  · cases result
  · rename_i atEnd
    cases result
    rw [isValue, Decidable.not_not.mp atEnd]

end Cases

end Bencode

end Blocxxi
