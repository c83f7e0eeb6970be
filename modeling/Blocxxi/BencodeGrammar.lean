import Blocxxi.BencodeRoundTrip

/-!
# What the bencode decoder accepts

Every text that is decoded is the text of a spelling of the result, as long as
no length field of it leaves the range of the machine.  The text is the
encoding of the result exactly when its numbers are minimal and the keys of its
dictionaries ascend; the decoder asks for neither.
-/

namespace Blocxxi

namespace Bencode

open Cxx ByteText ListParts Spelling

theorem mem_emplace {key : ByteString} {value : Value}
    {entries : DictionaryType} {entry : ByteString × Value}
    (member : entry ∈ emplace key value entries) :
    entry = (key, value) ∨ entry ∈ entries := by
  induction entries with
  | nil => exact Or.inl (List.mem_singleton.mp member)
  | cons first rest ih =>
      rw [emplace] at member
      split at member
      · exact Or.inr member
      split at member
      · exact List.mem_cons.mp member
      · rcases List.mem_cons.mp member with rfl | later
        · exact Or.inr List.mem_cons_self
        · rcases ih later with new | old
          · exact Or.inl new
          · exact Or.inr (List.mem_cons_of_mem first old)

theorem emplace_keysAscend {entries : DictionaryType}
    (ascend : KeysAscend entries) (key : ByteString) (value : Value) :
    KeysAscend (emplace key value entries) := by
  induction entries with
  | nil => exact List.pairwise_singleton _ _
  | cons first rest ih =>
      obtain ⟨firstLeast, restAscend⟩ := List.pairwise_cons.mp ascend
      rw [emplace]
      split
      · exact ascend
      rename_i differs
      split
      · rename_i before
        refine List.pairwise_cons.mpr ⟨?_, ascend⟩
        intro entry member
        rcases List.mem_cons.mp member with rfl | inRest
        · exact before
        · exact List.lt_trans before (firstLeast entry inRest)
      · rename_i notBefore
        refine List.pairwise_cons.mpr ⟨?_, ih restAscend⟩
        intro entry member
        rcases mem_emplace member with rfl | inRest
        · exact Std.lt_of_le_of_ne notBefore (Ne.symm differs)
        · exact firstLeast entry inRest

theorem emplace_ordered {entries : DictionaryType} {key : ByteString}
    {value : Value} (ordered : (Value.dictionary entries).Ordered)
    (valueOrdered : value.Ordered) :
    (Value.dictionary (emplace key value entries)).Ordered := by
  refine ⟨emplace_keysAscend ordered.1 key value, ?_⟩
  rw [Value.entriesOrdered_iff]
  intro entry member
  rcases mem_emplace member with rfl | old
  · exact valueOrdered
  · exact Value.entriesOrdered_iff.mp ordered.2 entry old

variable {encoded : ByteString} {decode : Nat → Outcome (Value × Nat)}

/-- A decoding function whose results are ordered. -/
def DecodesOrdered (decode : Nat → Outcome (Value × Nat)) : Prop :=
  ∀ offset value behind, decode offset = .returned (value, behind) →
    value.Ordered

theorem decodeItems_ordered (ordered : DecodesOrdered decode) (steps : Nat)
    {before items : List Value} {offset behind : Nat}
    (beforeOrdered : (Value.list before).Ordered)
    (decoded : decodeItems encoded decode steps before offset =
      .returned (items, behind)) : (Value.list items).Ordered := by
  induction steps generalizing before offset with
  | zero => cases decoded
  | succ steps ih =>
      rcases decodeItems_cases decoded with
        ⟨item, next, isItem, rest⟩ | ⟨-, rfl, -⟩
      · refine ih ?_ rest
        rw [Value.Ordered, Value.itemsOrdered_iff] at beforeOrdered ⊢
        intro other member
        rcases List.mem_append.mp member with earlier | last
        · exact beforeOrdered other earlier
        · rw [List.mem_singleton.mp last]
          exact ordered offset item next isItem
      · exact beforeOrdered

theorem decodeEntries_ordered (ordered : DecodesOrdered decode) (steps : Nat)
    {before entries : DictionaryType} {offset behind : Nat}
    (beforeOrdered : (Value.dictionary before).Ordered)
    (decoded : decodeEntries encoded decode steps before offset =
      .returned (entries, behind)) : (Value.dictionary entries).Ordered := by
  induction steps generalizing before offset with
  | zero => cases decoded
  | succ steps ih =>
      rcases decodeEntries_cases decoded with
        ⟨name, afterKey, item, next, -, isItem, rest⟩ | ⟨-, rfl, -⟩
      · exact ih (emplace_ordered beforeOrdered
          (ordered afterKey item next isItem)) rest
      · exact beforeOrdered

/-- Whatever is decoded, its dictionaries are maps. -/
theorem decodeValue_ordered (encoded : ByteString) (steps : Nat) :
    DecodesOrdered (decodeValue encoded steps) := by
  induction steps with
  | zero =>
      intro offset value behind decoded
      cases decoded
  | succ steps ih =>
      intro offset value behind decoded
      rcases decodeValue_cases decoded with ⟨-, isInteger⟩ |
        ⟨-, items, last, isList, -, rfl, -⟩ |
        ⟨-, entries, last, isDictionary, -, rfl, -⟩ | ⟨token, -, -, isString⟩
      · obtain ⟨last, number, -, -, rfl, -⟩ := decodeInteger_cases isInteger
        trivial
      · have empty : (Value.list []).Ordered := trivial
        exact decodeItems_ordered ih steps empty isList
      · have empty : (Value.dictionary []).Ordered := ⟨List.Pairwise.nil, trivial⟩
        exact decodeEntries_ordered ih steps empty isDictionary
      · obtain ⟨colon, length, -, -, -, rfl, -⟩ := decodeString_cases isString
        trivial

theorem decode_ordered {steps : Nat} {value : Value}
    (decoded : Bencode.decode encoded steps = .returned value) :
    value.Ordered :=
  decodeValue_ordered encoded steps 0 value _ (decode_cases decoded)

/-- The offsets that the loop over the contents of a list or dictionary comes to. -/
inductive LoopOffset (encoded : ByteString) (offset : Nat) : Nat → Prop
  | first (opens : encoded[offset]? = some 108 ∨ encoded[offset]? = some 100) :
      LoopOffset encoded offset (offset + 1)
  | next {position steps behind : Nat} {value : Value}
      (loop : LoopOffset encoded offset position)
      (decoded : decodeValue encoded steps position = .returned (value, behind)) :
      LoopOffset encoded offset behind

/-- The offsets that decoding the whole input comes to, with those behind the last values
of lists and dictionaries, where no string starts. -/
inductive ReadOffset (encoded : ByteString) : Nat → Prop
  | whole : ReadOffset encoded 0
  | content {offset position : Nat} (reads : ReadOffset encoded offset)
      (loop : LoopOffset encoded offset position) : ReadOffset encoded position

/-- No length field that is read takes the offset behind its string out of the range of
the machine. -/
def LengthsInRange (encoded : ByteString) : Prop :=
  ∀ position, ReadOffset encoded position →
    ∀ token, encoded[position]? = some token → isDigit token = true →
      ∀ colon length, findFrom 58 encoded position = some colon →
        fromCharsUnsigned (slice encoded position colon) = some length →
          colon + 1 + length < 2 ^ 64

theorem LoopOffset.opens {offset position : Nat} (loop : LoopOffset encoded offset position) :
    encoded[offset]? = some 108 ∨ encoded[offset]? = some 100 := by
  induction loop with
  | first opens => exact opens
  | next loop decoded ih => exact ih

/-- A text that starts with a string is read at its start only. -/
theorem readOffset_eq_zero {token : UInt8} (atStart : encoded[0]? = some token)
    (digit : isDigit token = true) {position : Nat} (reads : ReadOffset encoded position) :
    position = 0 := by
  induction reads with
  | whole => rfl
  | content reads loop ih =>
      subst ih
      rcases atStart ▸ loop.opens with isList | isDictionary
      · cases isList
        cases digit
      · cases isDictionary
        cases digit

-- The digits inside of a string are no length field.
example : LengthsInRange (ascii "21:18446744073709551600:") := by
  rintro position reads token - - colon length found parsed
  cases readOffset_eq_zero rfl rfl reads
  cases found
  cases parsed
  decide

/-- Whatever the decoding function decodes at certain offsets is the text of a spelling. -/
def ReadsSpellings (encoded : ByteString) (reads : Nat → Prop)
    (decode : Nat → Outcome (Value × Nat)) : Prop :=
  ∀ offset value behind, reads offset → decode offset = .returned (value, behind) →
    ∃ spelling : Spelling, spelling.Valid ∧ value = spelling.value ∧
      PartAt encoded offset spelling.text ∧
      behind = offset + spelling.text.length

theorem findFrom_eq_some {text : ByteString} {byte : UInt8} {start index : Nat}
    (found : findFrom byte text start = some index) :
    PartAt text start (slice text start index ++ [byte]) ∧
      start + (slice text start index).length = index := by
  obtain ⟨ordered, inside⟩ := findFrom_bounds found
  have front : PartAt text start (slice text start index) :=
    partAt_between ordered (Nat.le_of_lt inside)
  have length : (slice text start index).length = index - start := by
    rw [slice, List.length_take, List.length_drop]
    omega
  have isByte : text[index]? = some byte := by
    unfold findFrom at found
    obtain ⟨relative, isFound, rfl⟩ := Option.map_eq_some_iff.mp found
    obtain ⟨within, isByte, -⟩ := List.findIdx?_eq_some_iff_getElem.mp isFound
    rw [List.getElem_drop, beq_iff_eq] at isByte
    rw [← isByte, List.getElem?_eq_getElem]
  refine ⟨partAt_append.mpr ⟨front, ?_⟩, by omega⟩
  rw [length, Nat.add_sub_cancel' ordered]
  exact partAt_singleton isByte

theorem decodeInteger_reads {offset behind : Nat} {value : Value}
    (decoded : decodeInteger encoded offset = .returned (value, behind)) :
    ∃ digits number, fromCharsSigned digits = some number ∧
      value = .integer number ∧
      PartAt encoded offset (digits ++ ascii "e") ∧
      behind = offset + digits.length + 1 := by
  obtain ⟨last, number, found, parsed, rfl, rfl⟩ := decodeInteger_cases decoded
  obtain ⟨stands, length⟩ := findFrom_eq_some found
  exact ⟨_, number, parsed, rfl, stands, by omega⟩

theorem decodeString_reads {offset behind : Nat} {value : Value}
    (inRange : ∀ colon length, findFrom 58 encoded offset = some colon →
      fromCharsUnsigned (slice encoded offset colon) = some length →
        colon + 1 + length < 2 ^ 64)
    (decoded : decodeString encoded offset = .returned (value, behind)) :
    ∃ string, StringValid string ∧ value = .string string.2 ∧
      PartAt encoded offset (stringText string) ∧
      behind = offset + (stringText string).length := by
  obtain ⟨colon, length, found, parsed, inside, rfl, rfl⟩ :=
    decodeString_cases decoded
  have sum : sizeAdd (colon + 1) length = colon + 1 + length :=
    sizeAdd_of_lt (inRange colon length found parsed)
  rw [sum] at inside ⊢
  obtain ⟨stands, ends⟩ := findFrom_eq_some found
  have bytes : PartAt encoded (colon + 1)
      ((encoded.drop (colon + 1)).take length) := by
    have between := partAt_between (Nat.le_add_right (colon + 1) length) inside
    rwa [Nat.add_sub_cancel_left] at between
  have bytesLength : ((encoded.drop (colon + 1)).take length).length = length := by
    rw [List.length_take, List.length_drop]
    omega
  refine ⟨(slice encoded offset colon, (encoded.drop (colon + 1)).take length),
    ?_, rfl, ?_, ?_⟩
  · rw [StringValid, bytesLength]
    exact parsed
  · refine partAt_append.mpr ⟨stands, ?_⟩
    rw [List.length_append, ← Nat.add_assoc, ends]
    exact bytes
  · rw [stringText, List.length_append, List.length_append, bytesLength]
    change colon + 1 + length = offset + ((slice encoded offset colon).length + 1 + length)
    omega

theorem stops_at_end {offset : Nat} (inside : offset < encoded.length)
    (stops : ¬ (offset < encoded.length ∧ encoded[offset]? ≠ some 101)) :
    PartAt encoded offset (ascii "e") := by
  have isEnd : encoded[offset]? = some 101 := by
    by_contra other
    exact stops ⟨inside, other⟩
  exact partAt_singleton isEnd

theorem decodeItems_reads {reads : Nat → Prop}
    (spelled : ReadsSpellings encoded reads decode)
    (next : ∀ offset value behind, reads offset →
      decode offset = .returned (value, behind) → reads behind)
    (steps : Nat) {before items : List Value} {offset behind : Nat} (isRead : reads offset)
    (decoded : decodeItems encoded decode steps before offset =
      .returned (items, behind)) (inside : behind < encoded.length) :
    ∃ spellings, ItemsValid spellings ∧ items = before ++ itemsValue spellings ∧
      PartAt encoded offset (itemsText spellings ++ ascii "e") ∧
      behind = offset + (itemsText spellings).length := by
  induction steps generalizing before offset with
  | zero => cases decoded
  | succ steps ih =>
      rcases decodeItems_cases decoded with
        ⟨item, afterItem, isItem, rest⟩ | ⟨stops, rfl, rfl⟩
      · have readNext := next offset item afterItem isRead isItem
        obtain ⟨spelling, valid, rfl, stands, rfl⟩ :=
          spelled offset item afterItem isRead isItem
        obtain ⟨spellings, restValid, rfl, restStands, rfl⟩ := ih readNext rest
        refine ⟨spelling :: spellings, ⟨valid, restValid⟩, ?_, ?_, ?_⟩
        · rw [itemsValue, List.append_assoc, List.singleton_append]
        · rw [itemsText, List.append_assoc]
          exact partAt_append.mpr ⟨stands, restStands⟩
        · rw [itemsText, List.length_append, Nat.add_assoc]
      · exact ⟨[], trivial, (List.append_nil _).symm,
          stops_at_end inside stops, rfl⟩

theorem eq_string_of_value {spelling : Spelling} {bytes : ByteString}
    (isString : .string bytes = spelling.value) :
    ∃ length, spelling = .string length bytes := by
  cases spelling with
  | string length other =>
      rw [value] at isString
      cases isString
      exact ⟨length, rfl⟩
  | integer digits => cases isString
  | list items => cases isString
  | dictionary entries => cases isString

theorem decodeEntries_reads {reads : Nat → Prop}
    (spelled : ReadsSpellings encoded reads decode)
    (next : ∀ offset value behind, reads offset →
      decode offset = .returned (value, behind) → reads behind)
    (steps : Nat) {before entries : DictionaryType} {offset behind : Nat}
    (isRead : reads offset)
    (decoded : decodeEntries encoded decode steps before offset =
      .returned (entries, behind)) (inside : behind < encoded.length) :
    ∃ spellings, EntriesValid spellings ∧
      entries = entriesValue before spellings ∧
      PartAt encoded offset (entriesText spellings ++ ascii "e") ∧
      behind = offset + (entriesText spellings).length := by
  induction steps generalizing before offset with
  | zero => cases decoded
  | succ steps ih =>
      rcases decodeEntries_cases decoded with
        ⟨name, afterKey, item, afterItem, isKey, isItem, rest⟩ | ⟨stops, rfl, rfl⟩
      · have readItem := next offset _ afterKey isRead isKey
        have readNext := next afterKey item afterItem readItem isItem
        obtain ⟨keySpelling, keyValid, isName, keyStands, rfl⟩ :=
          spelled offset _ afterKey isRead isKey
        obtain ⟨length, rfl⟩ := eq_string_of_value isName
        obtain ⟨spelling, valid, rfl, stands, rfl⟩ :=
          spelled _ item afterItem readItem isItem
        obtain ⟨spellings, restValid, rfl, restStands, rfl⟩ := ih readNext rest
        refine ⟨((length, name), spelling) :: spellings,
          ⟨keyValid, valid, restValid⟩, rfl, ?_, ?_⟩
        · rw [entriesText, List.append_assoc, List.append_assoc]
          exact partAt_append.mpr
            ⟨keyStands, partAt_append.mpr ⟨stands, restStands⟩⟩
        · rw [entriesText, List.length_append, List.length_append, text]
          omega
      · exact ⟨[], trivial, rfl, stops_at_end inside stops, rfl⟩

/-- What is decoded at an offset that is read is the text of a spelling, if no length
field leaves the range of the machine. -/
theorem decodeValue_reads (inRange : LengthsInRange encoded) (steps : Nat) :
    ReadsSpellings encoded (ReadOffset encoded) (decodeValue encoded steps) := by
  induction steps with
  | zero =>
      intro offset value behind isRead decoded
      cases decoded
  | succ steps ih =>
      intro offset value behind isRead decoded
      have loopReads : ReadsSpellings encoded (LoopOffset encoded offset)
          (decodeValue encoded steps) :=
        fun position value behind loop => ih position value behind (isRead.content loop)
      rcases decodeValue_cases decoded with ⟨isInteger, decoded⟩ |
        ⟨isList, items, last, isItems, inside, rfl, rfl⟩ |
        ⟨isDictionary, entries, last, isEntries, inside, rfl, rfl⟩ |
        ⟨token, atOffset, digit, isString⟩
      · obtain ⟨digits, number, parsed, rfl, stands, rfl⟩ :=
          decodeInteger_reads decoded
        refine ⟨.integer digits, ?_, ?_, ?_, ?_⟩
        · rw [Valid, parsed]
          rfl
        · rw [Spelling.value, parsed]
          rfl
        · rw [text, List.append_assoc]
          exact partAt_append.mpr ⟨partAt_singleton isInteger, stands⟩
        · simp only [text, List.length_append, ascii]
          change _ = offset + (1 + digits.length + 1)
          omega
      · obtain ⟨spellings, valid, rfl, stands, rfl⟩ :=
          decodeItems_reads loopReads (fun _ _ _ loop => loop.next) steps
            (.first (.inl isList)) isItems inside
        refine ⟨.list spellings, valid, rfl, ?_, ?_⟩
        · rw [text, List.append_assoc]
          exact partAt_append.mpr ⟨partAt_singleton isList, stands⟩
        · rw [list_text_length]
          omega
      · obtain ⟨spellings, valid, rfl, stands, rfl⟩ :=
          decodeEntries_reads loopReads (fun _ _ _ loop => loop.next) steps
            (.first (.inr isDictionary)) isEntries inside
        refine ⟨.dictionary spellings, valid, rfl, ?_, ?_⟩
        · rw [text, List.append_assoc]
          exact partAt_append.mpr ⟨partAt_singleton isDictionary, stands⟩
        · rw [dictionary_text_length]
          omega
      · obtain ⟨⟨length, bytes⟩, valid, rfl, stands, rfl⟩ :=
          decodeString_reads (inRange offset isRead token atOffset digit) isString
        exact ⟨.string length bytes, valid, rfl, stands, rfl⟩

theorem decode_reads (inRange : LengthsInRange encoded) {steps : Nat}
    {value : Value} (decoded : Bencode.decode encoded steps = .returned value) :
    ∃ spelling : Spelling, spelling.Valid ∧ spelling.text = encoded ∧
      spelling.value = value := by
  obtain ⟨spelling, valid, rfl, stands, atEnd⟩ :=
    decodeValue_reads inRange steps 0 value _ .whole (decode_cases decoded)
  have length : spelling.text.length = encoded.length := by
    rw [atEnd, Nat.zero_add]
  refine ⟨spelling, valid, ?_, rfl⟩
  rw [← stands.take_drop, List.drop_zero, length, List.take_length]

namespace Spelling

mutual

/-- Numbers without a superfluous zero or sign, and dictionaries whose keys
ascend as they are written. -/
def Canonical : Spelling → Prop
  | .integer digits => MinimalSigned digits
  | .string length _ => Minimal length
  | .list items => ItemsCanonical items
  | .dictionary entries =>
      KeysAscend (writtenEntries entries) ∧ EntriesCanonical entries

def ItemsCanonical : List Spelling → Prop
  | [] => True
  | item :: items => item.Canonical ∧ ItemsCanonical items

def EntriesCanonical : List ((ByteString × ByteString) × Spelling) → Prop
  | [] => True
  | (key, item) :: entries =>
      Minimal key.1 ∧ item.Canonical ∧ EntriesCanonical entries

end

end Spelling

open Value

theorem itemsCanonical_spelling {items : List Value}
    (canonical : ∀ item ∈ items, item.spelling.Canonical) :
    ItemsCanonical (itemsSpelling items) := by
  induction items with
  | nil => trivial
  | cons item items ih =>
      obtain ⟨first, rest⟩ := List.forall_mem_cons.mp canonical
      exact ⟨first, ih rest⟩

theorem entriesCanonical_spelling {entries : DictionaryType}
    (canonical : ∀ entry ∈ entries, entry.2.spelling.Canonical) :
    EntriesCanonical (entriesSpelling entries) := by
  induction entries with
  | nil => trivial
  | cons entry entries ih =>
      obtain ⟨first, rest⟩ := List.forall_mem_cons.mp canonical
      exact ⟨decimal_minimal _, first, ih rest⟩

/-- The encoder writes canonical spellings. -/
theorem spelling_canonical (value : Value) (ordered : value.Ordered) :
    value.spelling.Canonical := by
  induction value using Value.inductionOn with
  | integer stored => exact decimalInt_minimal _
  | string stored => exact decimal_minimal _
  | list items ih =>
      have items := itemsOrdered_iff.mp ordered
      exact itemsCanonical_spelling fun item member =>
        ih item member (items item member)
  | dictionary entries ih =>
      have items := entriesOrdered_iff.mp ordered.2
      refine ⟨?_, entriesCanonical_spelling fun entry member =>
        ih entry member (items entry member)⟩
      rw [writtenEntries_spelling fun entry member =>
        spelling_value entry.2 (items entry member)]
      exact ordered.1

theorem decimal_of_stringValid {string : ByteString × ByteString}
    (valid : StringValid string) (minimal : Minimal string.1) :
    decimal string.2.length = string.1 :=
  decimal_fromCharsUnsigned valid minimal

theorem itemsSpelling_value {items : List Spelling} (valid : ItemsValid items)
    (canonical : ItemsCanonical items)
    (only : ∀ item ∈ items, item.Valid → item.Canonical →
      item.value.spelling = item) :
    itemsSpelling (itemsValue items) = items := by
  induction items with
  | nil => rfl
  | cons item items ih =>
      obtain ⟨first, rest⟩ := List.forall_mem_cons.mp only
      rw [itemsValue, itemsSpelling, first valid.1 canonical.1,
        ih valid.2 canonical.2 rest]

theorem entriesSpelling_written
    {entries : List ((ByteString × ByteString) × Spelling)}
    (valid : EntriesValid entries) (canonical : EntriesCanonical entries)
    (only : ∀ entry ∈ entries, entry.2.Valid → entry.2.Canonical →
      entry.2.value.spelling = entry.2) :
    entriesSpelling (writtenEntries entries) = entries := by
  induction entries with
  | nil => rfl
  | cons entry entries ih =>
      obtain ⟨first, rest⟩ := List.forall_mem_cons.mp only
      have tail := ih valid.2.2 canonical.2.2 rest
      rw [writtenEntries] at tail ⊢
      rw [List.map_cons, entriesSpelling, first valid.2.1 canonical.2.1, tail,
        decimal_of_stringValid valid.1 canonical.1]

/-- A canonical spelling is the only one of its value. -/
theorem spelling_value_of_canonical (spelling : Spelling) (valid : spelling.Valid)
    (canonical : spelling.Canonical) : spelling.value.spelling = spelling := by
  induction spelling using Spelling.inductionOn with
  | integer digits =>
      obtain ⟨number, parsed⟩ := Option.isSome_iff_exists.mp valid
      rw [value, Value.spelling, parsed, Option.getD_some,
        decimalInt_fromCharsSigned parsed canonical]
  | string length bytes =>
      rw [value, Value.spelling, decimal_of_stringValid valid canonical]
  | list items ih =>
      rw [value, Value.spelling, itemsSpelling_value valid canonical ih]
  | dictionary entries ih =>
      rw [value, entriesValue_ascending entries [] canonical.1, List.nil_append,
        Value.spelling, entriesSpelling_written valid canonical.2 ih]

theorem appendEncodedString_length_le {string : ByteString × ByteString}
    (valid : StringValid string) :
    (appendEncodedString string.2).length ≤ (stringText string).length := by
  obtain ⟨nonempty, digits, isLength, -⟩ := fromCharsUnsigned_eq_some valid
  have shorter := decimal_length_le nonempty digits
  rw [← isLength] at shorter
  simp only [appendEncodedString, stringText, List.length_append]
  omega

theorem emplace_length_le (key : ByteString) (value : Value)
    (entries : DictionaryType) :
    (encodeEntries (emplace key value entries)).length ≤
      (encodeEntries entries).length +
        ((appendEncodedString key).length + (encode value).length) := by
  induction entries with
  | nil => simp [emplace, encodeEntries]
  | cons first rest induction =>
      rw [emplace]
      split
      · exact Nat.le_add_right _ _
      split
      · simp only [encodeEntries, List.length_append]
        omega
      · simp only [encodeEntries, List.length_append]
        omega

theorem itemsValue_length_le {items : List Spelling}
    (shorter : ∀ item ∈ items,
      (encode item.value).length ≤ item.text.length) :
    (encodeItems (itemsValue items)).length ≤ (itemsText items).length := by
  induction items with
  | nil => exact Nat.le_refl _
  | cons item items induction =>
      obtain ⟨first, rest⟩ := List.forall_mem_cons.mp shorter
      have tail := induction rest
      simp only [itemsValue, encodeItems, itemsText, List.length_append]
      omega

theorem entriesValue_length_le
    {entries : List ((ByteString × ByteString) × Spelling)}
    (valid : EntriesValid entries)
    (shorter : ∀ entry ∈ entries,
      (encode entry.2.value).length ≤ entry.2.text.length)
    (before : DictionaryType) :
    (encodeEntries (entriesValue before entries)).length ≤
      (encodeEntries before).length + (entriesText entries).length := by
  induction entries generalizing before with
  | nil => exact Nat.le_refl _
  | cons entry entries induction =>
      obtain ⟨key, item⟩ := entry
      obtain ⟨first, rest⟩ := List.forall_mem_cons.mp shorter
      have tail := induction valid.2.2 rest (emplace key.2 item.value before)
      have inserted := emplace_length_le key.2 item.value before
      have keyShorter := appendEncodedString_length_le valid.1
      simp only [entriesValue, entriesText, List.length_append]
      dsimp only at first
      omega

/-- No text of a value is shorter than its encoding. -/
theorem encode_value_length_le (spelling : Spelling) (valid : spelling.Valid) :
    (encode spelling.value).length ≤ spelling.text.length := by
  induction spelling using Spelling.inductionOn with
  | integer digits =>
      obtain ⟨number, parsed⟩ := Option.isSome_iff_exists.mp valid
      have shorter := decimalInt_length_le parsed
      rw [value, parsed, Option.getD_some, encode, text]
      simp only [List.length_append]
      omega
  | string length bytes => exact appendEncodedString_length_le valid
  | list items induction =>
      have each := itemsValid_iff.mp valid
      have shorter := itemsValue_length_le fun item member =>
        induction item member (each item member)
      rw [value, encode, text]
      simp only [List.length_append]
      omega
  | dictionary entries induction =>
      have each := entriesValid_iff.mp valid
      have shorter := entriesValue_length_le valid
        (fun entry member => induction entry member (each entry member).2) []
      rw [value, encode, text]
      simp only [List.length_append, encodeEntries, List.length_nil] at shorter ⊢
      omega

/-- The text of a valid spelling is accepted, with the spelling's value. -/
theorem decode_text {spelling : Spelling} (valid : spelling.Valid)
    (small : spelling.text.length < 2 ^ 64) {steps : Nat}
    (enough : spelling.text.length < steps) :
    Bencode.decode spelling.text steps = .returned spelling.value := by
  rw [Bencode.decode,
    decodeValue_text small spelling valid steps 0 (partAt_all _) enough]
  simp

/-- Two spellings with one text have one value. -/
theorem value_eq_of_text_eq {first second : Spelling} (firstValid : first.Valid)
    (secondValid : second.Valid) (small : first.text.length < 2 ^ 64)
    (same : first.text = second.text) : first.value = second.value := by
  have firstDecoded := decode_text firstValid small (Nat.lt_succ_self _)
  rw [same] at small firstDecoded
  rw [decode_text secondValid small (Nat.lt_succ_self _)] at firstDecoded
  exact (Outcome.returned.inj firstDecoded).symm

/-- A text that is decoded is a spelling of the result.  It is the encoding of
the result exactly when it is a canonical one. -/
theorem decode_grammar (encoded : Span UInt8)
    (inRange : LengthsInRange encoded.items) {steps : Nat} {value : Value}
    (decoded : Bencode.decode encoded.items steps = .returned value) :
    (∃ spelling : Spelling, spelling.Valid ∧ spelling.text = encoded.items ∧
      spelling.value = value) ∧
    (encode value = encoded.items ↔
      ∃ spelling : Spelling, spelling.Valid ∧ spelling.Canonical ∧
        spelling.text = encoded.items) := by
  have small : encoded.items.length < 2 ^ 64 :=
    Nat.lt_trans encoded.length_lt (by decide)
  obtain ⟨spelling, valid, isText, isValue⟩ := decode_reads inRange decoded
  refine ⟨⟨spelling, valid, isText, isValue⟩, ?_, ?_⟩
  · intro encodes
    refine ⟨value.spelling, spelling_valid value (by rwa [encodes]),
      spelling_canonical value (decode_ordered decoded), ?_⟩
    rw [spelling_text, encodes]
  · rintro ⟨other, otherValid, canonical, otherText⟩
    have sameValue : other.value = spelling.value :=
      value_eq_of_text_eq otherValid valid (by rwa [otherText])
        (otherText.trans isText.symm)
    rw [← isValue, ← sameValue, ← spelling_text,
      spelling_value_of_canonical other otherValid canonical, otherText]

/-- An integer with two zeros in front. -/
def leadingZeros : Span UInt8 where
  items := ascii "i007e"
  length_lt := by decide

theorem decode_leadingZeros :
    Bencode.decode leadingZeros.items 2 = .returned (.integer 7) := by
  rfl

theorem decode_grammar_leadingZeros :
    (∃ spelling : Spelling, spelling.Valid ∧
      spelling.text = leadingZeros.items ∧ spelling.value = .integer 7) ∧
    (encode (.integer 7) = leadingZeros.items ↔
      ∃ spelling : Spelling, spelling.Valid ∧ spelling.Canonical ∧
        spelling.text = leadingZeros.items) := by
  refine decode_grammar leadingZeros ?_ decode_leadingZeros
  rintro position - token - - colon length found
  have noColon : 58 ∉ leadingZeros.items := by decide
  obtain ⟨stands, -⟩ := findFrom_eq_some found
  obtain ⟨before, after, split, -⟩ := stands
  rw [split] at noColon
  exact (noColon (List.mem_append_right before (List.mem_append_left after
    (List.mem_append_right _ List.mem_cons_self)))).elim

/-- The decoder takes zeros in front of a number. -/
theorem decode_not_canonical :
    ¬ ∀ (encoded : Span UInt8) (steps : Nat) (value : Value),
      Bencode.decode encoded.items steps = .returned value →
        encode value = encoded.items := by
  intro canonical
  have same := canonical leadingZeros 2 (.integer 7) decode_leadingZeros
  exact absurd same (by decide +kernel)

end Bencode

end Blocxxi
