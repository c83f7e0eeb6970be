import Blocxxi.BencodeProgress
import Blocxxi.DecimalText
import Blocxxi.ListParts

/-!
# Spellings of bencoded values

The decoder takes more texts than the encoder writes: a number may have zeros
in front of it, and the keys of a dictionary may come in any order and again.  A
spelling is a value together with what its text leaves open.  Every text of a
spelling is decoded to the spelling's value, wherever it stands in the input;
the text that the encoder writes is one of them.
-/

namespace Blocxxi

namespace Bencode

open Cxx ByteText ListParts

/-- A value with the digits of its numbers, and its dictionaries with all
entries in the order in which they are written. -/
inductive Spelling
  | integer (digits : ByteString)
  | string (length : ByteString) (bytes : ByteString)
  | list (items : List Spelling)
  | dictionary (entries : List ((ByteString × ByteString) × Spelling))

namespace Spelling

/-- The induction over a spelling, with a hypothesis for every spelling in a
list. -/
@[elab_as_elim]
theorem inductionOn {motive : Spelling → Prop} (spelling : Spelling)
    (integer : ∀ digits, motive (.integer digits))
    (string : ∀ length bytes, motive (.string length bytes))
    (list : ∀ items, (∀ item ∈ items, motive item) → motive (.list items))
    (dictionary : ∀ entries, (∀ entry ∈ entries, motive entry.2) →
      motive (.dictionary entries)) : motive spelling := by
  refine @Spelling.rec motive (fun items => ∀ item ∈ items, motive item)
    (fun entries => ∀ entry ∈ entries, motive entry.2)
    (fun entry => motive entry.2)
    integer string list dictionary ?_ ?_ ?_ ?_ ?_ spelling
  · simp
  · intro item items first rest
    exact List.forall_mem_cons.mpr ⟨first, rest⟩
  · simp
  · intro entry entries first rest
    exact List.forall_mem_cons.mpr ⟨first, rest⟩
  · exact fun key item ih => ih

end Spelling

/-- The text of a string, with the digits of its length. -/
def stringText (string : ByteString × ByteString) : ByteString :=
  string.1 ++ ascii ":" ++ string.2

namespace Spelling

mutual

def text : Spelling → ByteString
  | .integer digits => ascii "i" ++ digits ++ ascii "e"
  | .string length bytes => stringText (length, bytes)
  | .list items => ascii "l" ++ itemsText items ++ ascii "e"
  | .dictionary entries => ascii "d" ++ entriesText entries ++ ascii "e"

def itemsText : List Spelling → ByteString
  | [] => []
  | item :: items => item.text ++ itemsText items

def entriesText : List ((ByteString × ByteString) × Spelling) → ByteString
  | [] => []
  | (key, item) :: entries => stringText key ++ item.text ++ entriesText entries

end

mutual

/-- The value that is meant.  Of several entries with one key the first
counts. -/
def value : Spelling → Value
  | .integer digits => .integer ((fromCharsSigned digits).getD 0)
  | .string _ bytes => .string bytes
  | .list items => .list (itemsValue items)
  | .dictionary entries => .dictionary (entriesValue [] entries)

def itemsValue : List Spelling → List Value
  | [] => []
  | item :: items => item.value :: itemsValue items

def entriesValue (before : DictionaryType) :
    List ((ByteString × ByteString) × Spelling) → DictionaryType
  | [] => before
  | (key, item) :: entries =>
      entriesValue (emplace key.2 item.value before) entries

end

/-- The digits of a string's length give its length. -/
def StringValid (string : ByteString × ByteString) : Prop :=
  fromCharsUnsigned string.1 = some string.2.length

mutual

/-- The digits denote numbers, and the lengths are the lengths of the
strings. -/
def Valid : Spelling → Prop
  | .integer digits => (fromCharsSigned digits).isSome = true
  | .string length bytes => StringValid (length, bytes)
  | .list items => ItemsValid items
  | .dictionary entries => EntriesValid entries

def ItemsValid : List Spelling → Prop
  | [] => True
  | item :: items => item.Valid ∧ ItemsValid items

def EntriesValid : List ((ByteString × ByteString) × Spelling) → Prop
  | [] => True
  | (key, item) :: entries =>
      StringValid key ∧ item.Valid ∧ EntriesValid entries

end

end Spelling

theorem findFrom_partAt {text front : ByteString} {byte : UInt8} {start : Nat}
    (absent : byte ∉ front) (stands : PartAt text start (front ++ [byte])) :
    findFrom byte text start = some (start + front.length) := by
  obtain ⟨after, rest⟩ := stands.drop_eq
  simp [findFrom, rest, List.findIdx?_append, findIdx_of_notMem absent, List.findIdx?_cons]

theorem slice_partAt {text part : ByteString} {start : Nat}
    (stands : PartAt text start part) :
    slice text start (start + part.length) = part := by
  rw [slice, Nat.add_sub_cancel_left, stands.take_drop]

theorem notMem_of_digits {digits : ByteString} {byte : UInt8}
    (allDigits : ∀ digit ∈ digits, isDigit digit = true)
    (special : isDigit byte = false) : byte ∉ digits := by
  intro member
  rw [allDigits byte member] at special
  cases special

/-- The digits of a number that is parsed contain no letter. -/
theorem notMem_of_fromCharsSigned {digits : ByteString} {number : Int64}
    (parsed : fromCharsSigned digits = some number) : 101 ∉ digits := by
  by_cases minus : digits.head? = some 45
  · obtain ⟨rest, rfl⟩ := List.head?_eq_some_iff.mp minus
    obtain ⟨-, isDigits, -⟩ := signedNumber_eq_some parsed
    rw [List.mem_cons, not_or]
    exact ⟨by decide, notMem_of_digits isDigits rfl⟩
  · rw [fromCharsSigned_plain minus] at parsed
    obtain ⟨-, isDigits, -⟩ := signedNumber_eq_some parsed
    exact notMem_of_digits isDigits rfl

variable {encoded : ByteString}

theorem decodeInteger_text {digits : ByteString} {number : Int64} {offset : Nat}
    (parsed : fromCharsSigned digits = some number)
    (stands : PartAt encoded offset (digits ++ ascii "e")) :
    decodeInteger encoded offset =
      .returned (.integer number, offset + digits.length + 1) := by
  have found : findFrom 101 encoded offset = some (offset + digits.length) :=
    findFrom_partAt (notMem_of_fromCharsSigned parsed) stands
  simp [decodeInteger, found, slice_partAt stands.left, parsed, parseNumber]

/-- A string is decoded where it stands, as long as positions in the input are
in the range of the machine. -/
theorem decodeString_text {string : ByteString × ByteString} {offset : Nat}
    (small : encoded.length < 2 ^ 64) (valid : Spelling.StringValid string)
    (stands : PartAt encoded offset (stringText string)) :
    decodeString encoded offset =
      .returned (.string string.2, offset + (stringText string).length) := by
  obtain ⟨length, bytes⟩ := string
  have parsed : fromCharsUnsigned length = some bytes.length := valid
  obtain ⟨-, isDigits, -⟩ := fromCharsUnsigned_eq_some parsed
  have found : findFrom 58 encoded offset = some (offset + length.length) :=
    findFrom_partAt (notMem_of_digits isDigits rfl) stands.left
  have behind : PartAt encoded (offset + length.length + 1) bytes := by
    have bytesAt := stands.right
    rwa [List.length_append] at bytesAt
  have inside := behind.inside
  have sum : sizeAdd (offset + length.length + 1) bytes.length =
      offset + length.length + 1 + bytes.length :=
    sizeAdd_of_lt (by omega)
  have isLength : slice encoded offset (offset + length.length) = length :=
    slice_partAt stands.left.left
  have total : (stringText (length, bytes)).length =
      length.length + 1 + bytes.length := by
    simp [stringText, ascii]
    omega
  simp only [decodeString, found, isLength, parsed, parseNumber,
    Outcome.returned_bind, sum, behind.take_drop, total]
  rw [if_neg (by omega)]
  congr 2
  omega

/-- The text of a string starts with a digit. -/
theorem stringText_head {string : ByteString × ByteString}
    (valid : Spelling.StringValid string) :
    ∃ digit rest, stringText string = digit :: rest ∧ isDigit digit = true := by
  obtain ⟨length, bytes⟩ := string
  obtain ⟨nonempty, isDigits, -⟩ := fromCharsUnsigned_eq_some valid
  cases length with
  | nil => contradiction
  | cons digit rest =>
      exact ⟨digit, _, rfl, isDigits digit List.mem_cons_self⟩

theorem not_token_of_digit {digit : UInt8} (isDigitByte : isDigit digit = true) :
    digit ≠ 100 ∧ digit ≠ 101 ∧ digit ≠ 105 ∧ digit ≠ 108 := by
  have range := (isDigit_iff digit).mp isDigitByte
  refine ⟨?_, ?_, ?_, ?_⟩ <;>
    · rintro rfl
      simp at range

theorem decodeValue_string {string : ByteString × ByteString} {offset : Nat}
    (valid : Spelling.StringValid string)
    (stands : PartAt encoded offset (stringText string)) (steps : Nat) :
    decodeValue encoded (steps + 1) offset = decodeString encoded offset := by
  obtain ⟨digit, rest, text, isDigitByte⟩ := stringText_head valid
  rw [text] at stands
  obtain ⟨notDictionary, -, notInteger, notList⟩ := not_token_of_digit isDigitByte
  simp [decodeValue, stands.getElem?_eq, notDictionary, notInteger, notList,
    isDigitByte]

namespace Spelling

theorem itemsValid_iff {items : List Spelling} :
    ItemsValid items ↔ ∀ item ∈ items, item.Valid := by
  induction items with
  | nil => simp [ItemsValid]
  | cons item items ih => rw [ItemsValid, ih, List.forall_mem_cons]

theorem entriesValid_iff
    {entries : List ((ByteString × ByteString) × Spelling)} :
    EntriesValid entries ↔
      ∀ entry ∈ entries, StringValid entry.1 ∧ entry.2.Valid := by
  induction entries with
  | nil => simp [EntriesValid]
  | cons entry entries ih =>
      rw [EntriesValid, ih, List.forall_mem_cons, and_assoc]

theorem list_text_length (items : List Spelling) :
    (list items).text.length = (itemsText items).length + 2 := by
  rw [text, List.length_append, List.length_append]
  exact Nat.add_right_comm 1 _ 1 |>.trans (Nat.add_comm 2 _)

theorem dictionary_text_length
    (entries : List ((ByteString × ByteString) × Spelling)) :
    (dictionary entries).text.length = (entriesText entries).length + 2 := by
  rw [text, List.length_append, List.length_append]
  exact Nat.add_right_comm 1 _ 1 |>.trans (Nat.add_comm 2 _)

/-- The text of a spelling starts with a token, which does not end a list. -/
theorem text_head {spelling : Spelling} (valid : spelling.Valid) :
    ∃ token rest, spelling.text = token :: rest ∧ token ≠ 101 := by
  cases spelling with
  | integer digits => exact ⟨105, _, rfl, by decide⟩
  | string length bytes =>
      obtain ⟨digit, rest, text, isDigitByte⟩ := stringText_head valid
      exact ⟨digit, rest, text, (not_token_of_digit isDigitByte).2.1⟩
  | list items => exact ⟨108, _, rfl, by decide⟩
  | dictionary entries => exact ⟨100, _, rfl, by decide⟩

/-- Where the text of a spelling stands a loop goes on. -/
theorem goesOn_of_text {spelling : Spelling} (valid : spelling.Valid)
    {offset : Nat} (stands : PartAt encoded offset spelling.text) :
    0 < spelling.text.length ∧
      (offset < encoded.length ∧ encoded[offset]? ≠ some 101) := by
  obtain ⟨token, rest, isText, notEnd⟩ := text_head valid
  have inside := stands.inside
  rw [isText] at stands
  have positive : 0 < spelling.text.length := by simp [isText]
  refine ⟨positive, by omega, ?_⟩
  rw [stands.getElem?_eq]
  simpa using notEnd

/-- The decoding function decodes the texts of the spelling that are shorter
than the bound. -/
def DecodesBy (encoded : ByteString) (decode : Nat → Outcome (Value × Nat))
    (bound : Nat) (spelling : Spelling) : Prop :=
  ∀ offset, PartAt encoded offset spelling.text →
    spelling.text.length < bound →
      decode offset =
        .returned (spelling.value, offset + spelling.text.length)

end Spelling

open Spelling

theorem decodeItems_text {decode : Nat → Outcome (Value × Nat)} {bound : Nat}
    (items : List Spelling) (valid : ItemsValid items)
    (decodes : ∀ item ∈ items, item.DecodesBy encoded decode bound)
    (steps : Nat) (before : List Value) {offset : Nat}
    (stands : PartAt encoded offset (itemsText items ++ ascii "e"))
    (enough : (itemsText items).length < steps)
    (within : (itemsText items).length < bound) :
    decodeItems encoded decode steps before offset =
      .returned (before ++ itemsValue items,
        offset + (itemsText items).length) := by
  induction items generalizing steps before offset with
  | nil =>
      have stops : encoded[offset]? = some 101 := stands.getElem?_eq
      cases steps with
      | zero => simp at enough
      | succ steps => simp [decodeItems, stops, itemsValue, itemsText]
  | cons item items ih =>
      rw [itemsText, List.append_assoc] at stands
      rw [itemsText, List.length_append] at enough within
      obtain ⟨positive, goesOn⟩ := goesOn_of_text valid.1 stands.left
      cases steps with
      | zero => omega
      | succ steps =>
          have decoded := decodes item List.mem_cons_self offset stands.left
            (by omega)
          rw [decodeItems, if_pos goesOn, decoded, Outcome.returned_bind]
          dsimp only
          rw [ih valid.2 (fun other member =>
              decodes other (List.mem_cons_of_mem item member)) steps _
              stands.right (by omega) (by omega)]
          simp [itemsValue, itemsText, Nat.add_assoc]

theorem decodeEntries_text {decode : Nat → Outcome (Value × Nat)} {bound : Nat}
    (entries : List ((ByteString × ByteString) × Spelling))
    (valid : EntriesValid entries)
    (decodesKeys : ∀ entry ∈ entries,
      (string entry.1.1 entry.1.2).DecodesBy encoded decode bound)
    (decodes : ∀ entry ∈ entries, entry.2.DecodesBy encoded decode bound)
    (steps : Nat) (before : DictionaryType) {offset : Nat}
    (stands : PartAt encoded offset (entriesText entries ++ ascii "e"))
    (enough : (entriesText entries).length < steps)
    (within : (entriesText entries).length < bound) :
    decodeEntries encoded decode steps before offset =
      .returned (entriesValue before entries,
        offset + (entriesText entries).length) := by
  induction entries generalizing steps before offset with
  | nil =>
      have stops : encoded[offset]? = some 101 := stands.getElem?_eq
      cases steps with
      | zero => simp at enough
      | succ steps => simp [decodeEntries, stops, entriesValue, entriesText]
  | cons entry entries ih =>
      obtain ⟨key, item⟩ := entry
      rw [entriesText, List.append_assoc, List.append_assoc] at stands
      rw [entriesText, List.length_append, List.length_append] at enough within
      have keyValid : (string key.1 key.2).Valid := valid.1
      obtain ⟨positive, goesOn⟩ := goesOn_of_text keyValid stands.left
      change 0 < (stringText key).length at positive
      cases steps with
      | zero => omega
      | succ steps =>
          have isKey : decode offset =
              .returned (.string key.2, offset + (stringText key).length) :=
            decodesKeys (key, item) List.mem_cons_self offset stands.left
              (show (stringText key).length < bound by omega)
          have isItem : decode (offset + (stringText key).length) =
              .returned (item.value,
                offset + (stringText key).length + item.text.length) :=
            decodes (key, item) List.mem_cons_self _ stands.right.left
              (by dsimp only; omega)
          rw [decodeEntries, if_pos goesOn, isKey, Outcome.returned_bind]
          dsimp only
          rw [isItem, Outcome.returned_bind,
            ih valid.2.2 (fun other member =>
                decodesKeys other (List.mem_cons_of_mem _ member))
              (fun other member =>
                decodes other (List.mem_cons_of_mem _ member)) steps _
              stands.right.right (by omega) (by omega)]
          simp [entriesValue, entriesText, Nat.add_assoc]

theorem string_decodesBy (small : encoded.length < 2 ^ 64)
    {string : ByteString × ByteString} (valid : StringValid string)
    (steps : Nat) :
    (Spelling.string string.1 string.2).DecodesBy encoded
      (decodeValue encoded steps) steps := by
  intro offset stands enough
  cases steps with
  | zero => omega
  | succ steps =>
      rw [decodeValue_string valid stands]
      exact decodeString_text small valid stands

/-- Every text of a spelling is decoded to its value, in one step more than it
has bytes. -/
theorem decodeValue_text (small : encoded.length < 2 ^ 64) (spelling : Spelling)
    (valid : spelling.Valid) (steps : Nat) :
    spelling.DecodesBy encoded (decodeValue encoded steps) steps := by
  induction spelling using Spelling.inductionOn generalizing steps with
  | integer digits =>
      intro offset stands enough
      obtain ⟨number, parsed⟩ := Option.isSome_iff_exists.mp valid
      rw [Spelling.text, List.append_assoc] at stands
      have token : encoded[offset]? = some 105 := stands.getElem?_eq
      have decoded : decodeInteger encoded (offset + 1) =
          .returned (.integer number, offset + 1 + digits.length + 1) :=
        decodeInteger_text parsed stands.right
      cases steps with
      | zero => omega
      | succ steps =>
          simp [decodeValue, token, decoded, value, parsed, Spelling.text, ascii]
          omega
  | string length bytes => exact string_decodesBy small valid steps
  | list items ih =>
      intro offset stands enough
      have itemValid := itemsValid_iff.mp valid
      rw [list_text_length] at enough ⊢
      rw [Spelling.text, List.append_assoc] at stands
      have token : encoded[offset]? = some 108 := stands.getElem?_eq
      have inside : offset + 1 + (itemsText items).length + 1 ≤ encoded.length :=
        stands.right.right.inside
      cases steps with
      | zero => omega
      | succ steps =>
          have decoded : decodeItems encoded (decodeValue encoded steps) steps []
              (offset + 1) = .returned (itemsValue items,
                offset + 1 + (itemsText items).length) :=
            decodeItems_text items valid
              (fun item member => ih item member (itemValid item member) steps)
              steps [] stands.right (by omega) (by omega)
          have notLast : ¬ encoded.length ≤
              offset + 1 + (itemsText items).length := by omega
          simp [decodeValue, token, decoded, value, notLast]
          omega
  | dictionary entries ih =>
      intro offset stands enough
      have entryValid := entriesValid_iff.mp valid
      rw [dictionary_text_length] at enough ⊢
      rw [Spelling.text, List.append_assoc] at stands
      have token : encoded[offset]? = some 100 := stands.getElem?_eq
      have inside :
          offset + 1 + (entriesText entries).length + 1 ≤ encoded.length :=
        stands.right.right.inside
      cases steps with
      | zero => omega
      | succ steps =>
          have decoded : decodeEntries encoded (decodeValue encoded steps) steps
              [] (offset + 1) = .returned (entriesValue [] entries,
                offset + 1 + (entriesText entries).length) :=
            decodeEntries_text entries valid
              (fun entry member =>
                string_decodesBy small (entryValid entry member).1 steps)
              (fun entry member =>
                ih entry member (entryValid entry member).2 steps)
              steps [] stands.right (by omega) (by omega)
          have notLast : ¬ encoded.length ≤
              offset + 1 + (entriesText entries).length := by omega
          simp [decodeValue, token, decoded, value, notLast]
          omega

end Bencode

end Blocxxi
