import Blocxxi.Bencode

/-!
# Progress of the bencode decoder

The offset of the decoder grows with every value unless a length field sends it
backwards: the sum of the offset behind the colon and the length may wrap to a
position that is not behind the string's own.  Without such a field every
decoding makes progress and ends; with one, it does not make progress there.
-/

namespace Blocxxi

namespace Bencode

open Cxx ByteText

/-- The offset behind a string token, as the decoder computes it from the
token's length field. -/
def stringEnd (encoded : ByteString) (position : Nat) : Option Nat :=
  match encoded[position]? with
  | none => none
  | some token =>
      if !isDigit token then none
      else do
        let colon ← findFrom 58 encoded position
        let length ← fromCharsUnsigned (slice encoded position colon)
        some (sizeAdd (colon + 1) length)

/-- No string token sends the offset back to its own position or further. -/
def LengthsStayForward (encoded : ByteString) : Prop :=
  ∀ position behind, stringEnd encoded position = some behind →
    position < behind

/-- A position inside the input from which a decoding moved on stays inside the
input. -/
def Advances (encoded : ByteString) (decode : Nat → Outcome (Value × Nat)) :
    Prop :=
  ∀ offset value behind, decode offset = .returned (value, behind) →
    offset < behind ∧ behind ≤ encoded.length

theorem decodeInteger_advances {encoded : ByteString} {offset : Nat}
    {value : Value} {behind : Nat}
    (decoded : decodeInteger encoded offset = .returned (value, behind)) :
    offset < behind ∧ behind ≤ encoded.length := by
  obtain ⟨last, number, found, -, -, rfl⟩ := decodeInteger_cases decoded
  have bounds := findFrom_bounds found
  omega

/-- A string token that decodes leaves the offset that its length field
gives. -/
theorem decodeString_behind {encoded : ByteString} {position : Nat}
    {token : UInt8} (atPosition : encoded[position]? = some token)
    (digit : isDigit token = true) {value : Value} {behind : Nat}
    (decoded : decodeString encoded position = .returned (value, behind)) :
    stringEnd encoded position = some behind ∧ behind ≤ encoded.length := by
  obtain ⟨colon, length, found, field, inside, -, rfl⟩ :=
    decodeString_cases decoded
  refine ⟨?_, inside⟩
  simp [stringEnd, atPosition, digit, found, field]

theorem decodeItems_advances {encoded : ByteString}
    {decode : Nat → Outcome (Value × Nat)} (advances : Advances encoded decode)
    (steps : Nat) {items decodedItems : List Value} {offset behind : Nat}
    (decoded : decodeItems encoded decode steps items offset =
      .returned (decodedItems, behind)) : offset ≤ behind := by
  induction steps generalizing items offset with
  | zero => cases decoded
  | succ steps ih =>
      rcases decodeItems_cases decoded with
        ⟨item, next, isItem, rest⟩ | ⟨-, -, rfl⟩
      · have forward := (advances offset item next isItem).1
        have later := ih rest
        omega
      · exact Nat.le_refl _

theorem decodeEntries_advances {encoded : ByteString}
    {decode : Nat → Outcome (Value × Nat)} (advances : Advances encoded decode)
    (steps : Nat) {entries decodedEntries : DictionaryType}
    {offset behind : Nat}
    (decoded : decodeEntries encoded decode steps entries offset =
      .returned (decodedEntries, behind)) : offset ≤ behind := by
  induction steps generalizing entries offset with
  | zero => cases decoded
  | succ steps ih =>
      rcases decodeEntries_cases decoded with
        ⟨name, afterKey, item, afterItem, isKey, isItem, rest⟩ | ⟨-, -, rfl⟩
      · have keyForward := (advances offset _ afterKey isKey).1
        have itemForward := (advances afterKey item afterItem isItem).1
        have later := ih rest
        omega
      · exact Nat.le_refl _

/-- As long as no length field points backwards, every value that is decoded
moves the offset forward and keeps it inside the input. -/
theorem decodeValue_advances {encoded : ByteString}
    (forward : LengthsStayForward encoded) (steps : Nat) :
    Advances encoded (decodeValue encoded steps) := by
  induction steps with
  | zero =>
      intro offset value behind decoded
      cases decoded
  | succ steps ih =>
      intro offset value behind decoded
      rcases decodeValue_cases decoded with ⟨-, isInteger⟩ |
        ⟨-, items, last, isList, inside, -, rfl⟩ |
        ⟨-, entries, last, isDictionary, inside, -, rfl⟩ |
        ⟨token, atOffset, digit, isString⟩
      · have advanced := decodeInteger_advances isInteger
        omega
      · have later := decodeItems_advances ih steps isList
        omega
      · have later := decodeEntries_advances ih steps isDictionary
        omega
      · obtain ⟨field, inside⟩ := decodeString_behind atOffset digit isString
        exact ⟨forward offset behind field, inside⟩

/-- A decoding that ends from every offset with fewer bytes left than there
are steps. -/
def EndsWithin (encoded : ByteString) (decode : Nat → Outcome (Value × Nat))
    (steps : Nat) : Prop :=
  ∀ offset, encoded.length - offset < steps → decode offset ≠ .running

theorem decodeItems_ends {encoded : ByteString}
    {decode : Nat → Outcome (Value × Nat)} (advances : Advances encoded decode)
    {within : Nat} (ends : EndsWithin encoded decode within) (steps : Nat)
    (items : List Value) {offset : Nat}
    (enough : encoded.length - offset < steps)
    (inside : encoded.length - offset < within) :
    decodeItems encoded decode steps items offset ≠ .running := by
  induction steps generalizing items offset with
  | zero => omega
  | succ steps ih =>
      unfold decodeItems
      split
      · rename_i goesOn
        apply Outcome.bind_ends (ends offset inside)
        rintro ⟨item, next⟩ isItem
        have forward := (advances offset item next isItem).1
        exact ih (items ++ [item]) (by omega) (by omega)
      · exact fun running => by cases running

theorem decodeEntries_ends {encoded : ByteString}
    {decode : Nat → Outcome (Value × Nat)} (advances : Advances encoded decode)
    {within : Nat} (ends : EndsWithin encoded decode within) (steps : Nat)
    (entries : DictionaryType) {offset : Nat}
    (enough : encoded.length - offset < steps)
    (inside : encoded.length - offset < within) :
    decodeEntries encoded decode steps entries offset ≠ .running := by
  induction steps generalizing entries offset with
  | zero => omega
  | succ steps ih =>
      unfold decodeEntries
      split
      · rename_i goesOn
        apply Outcome.bind_ends (ends offset inside)
        rintro ⟨key, afterKey⟩ isKey
        have keyForward := (advances offset key afterKey isKey).1
        cases key with
        | string name =>
            apply Outcome.bind_ends (ends afterKey (by omega))
            rintro ⟨item, afterItem⟩ isItem
            have itemForward := (advances afterKey item afterItem isItem).1
            exact ih (emplace name item entries) (by omega) (by omega)
        | integer stored => exact fun running => by cases running
        | list stored => exact fun running => by cases running
        | dictionary stored => exact fun running => by cases running
      · exact fun running => by cases running

theorem parseNumber_ends {Number : Type} (parsed : Option Number)
    (message : String) : parseNumber parsed message ≠ .running := by
  cases parsed <;> simp [parseNumber]

theorem decodeInteger_ends (encoded : ByteString) (offset : Nat) :
    decodeInteger encoded offset ≠ .running := by
  unfold decodeInteger
  split
  · simp
  · apply Outcome.bind_ends (parseNumber_ends _ _)
    simp

theorem decodeString_ends (encoded : ByteString) (offset : Nat) :
    decodeString encoded offset ≠ .running := by
  unfold decodeString
  split
  · simp
  · apply Outcome.bind_ends (parseNumber_ends _ _)
    intro length _
    split <;> simp

/-- As long as no length field points backwards, decoding a value ends within
one step more than there are bytes left. -/
theorem decodeValue_ends {encoded : ByteString}
    (forward : LengthsStayForward encoded) (steps : Nat) :
    EndsWithin encoded (decodeValue encoded steps) steps := by
  induction steps with
  | zero =>
      intro offset enough
      omega
  | succ steps ih =>
      intro offset enough
      have advances := decodeValue_advances forward steps
      unfold decodeValue
      split
      · simp
      rename_i token atOffset
      have inside : offset < encoded.length :=
        (List.getElem?_eq_some_iff.mp atOffset).1
      split
      · exact decodeInteger_ends encoded (offset + 1)
      split
      · apply Outcome.bind_ends
          (decodeItems_ends advances ih steps [] (by omega) (by omega))
        rintro ⟨items, last⟩ _
        dsimp only
        split <;> simp
      split
      · apply Outcome.bind_ends
          (decodeEntries_ends advances ih steps [] (by omega) (by omega))
        rintro ⟨entries, last⟩ _
        dsimp only
        split <;> simp
      split
      · simp
      · exact decodeString_ends encoded offset

theorem decode_ends {encoded : ByteString}
    (forward : LengthsStayForward encoded) {steps : Nat}
    (enough : encoded.length + 1 ≤ steps) : decode encoded steps ≠ .running := by
  unfold decode
  apply Outcome.bind_ends (decodeValue_ends forward _ 0 (by omega))
  rintro ⟨value, offset⟩ _
  dsimp only
  split <;> simp

theorem stringEnd_inside {encoded : ByteString} {position behind : Nat}
    (field : stringEnd encoded position = some behind) :
    position < encoded.length := by
  unfold stringEnd at field
  split at field
  · cases field
  · rename_i atPosition
    exact (List.getElem?_eq_some_iff.mp atPosition).1

/-- The decoder follows a length field that points backwards. -/
theorem decodeValue_backwards {encoded : ByteString} {position behind : Nat}
    (field : stringEnd encoded position = some behind)
    (backwards : behind ≤ position) :
    ∃ value, decodeValue encoded 1 position = .returned (value, behind) := by
  unfold stringEnd at field
  split at field
  · cases field
  rename_i token atPosition
  have inside : position < encoded.length :=
    (List.getElem?_eq_some_iff.mp atPosition).1
  split at field
  · cases field
  rename_i isDigitToken
  have digit : isDigit token = true := by simpa using isDigitToken
  obtain ⟨colon, found, rest⟩ := Option.bind_eq_some_iff.mp field
  obtain ⟨length, parsed, sum⟩ := Option.bind_eq_some_iff.mp rest
  cases sum
  have digitRange := (isDigit_iff token).mp digit
  have notInteger : token ≠ 105 := by
    rintro rfl
    simp at digitRange
  have notList : token ≠ 108 := by
    rintro rfl
    simp at digitRange
  have notDictionary : token ≠ 100 := by
    rintro rfl
    simp at digitRange
  have fits : ¬ encoded.length < sizeAdd (colon + 1) length := by omega
  refine ⟨.string ((encoded.drop (colon + 1)).take length), ?_⟩
  simp [decodeValue, atPosition, notInteger, notList, notDictionary, digit,
    decodeString, found, parsed, parseNumber, fits]

end Bencode

end Blocxxi
