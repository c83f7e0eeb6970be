import Blocxxi.BencodeSpelling

/-!
# Decoding what was encoded

A dictionary is a map: its entries ascend by their keys.  The text that the
encoder writes for such a value is a spelling of it, the one with minimal
numbers and ascending keys, and is therefore decoded to the value again.
-/

namespace Blocxxi

namespace Bencode

open Cxx ByteText ListParts

/-- The keys of the entries ascend. -/
def KeysAscend (entries : DictionaryType) : Prop :=
  entries.Pairwise fun first second => first.1 < second.1

namespace Value

/-- The induction over a value, with a hypothesis for every value inside. -/
@[elab_as_elim]
theorem inductionOn {motive : Value → Prop} (value : Value)
    (integer : ∀ stored, motive (.integer stored))
    (string : ∀ stored, motive (.string stored))
    (list : ∀ items, (∀ item ∈ items, motive item) → motive (.list items))
    (dictionary : ∀ entries, (∀ entry ∈ entries, motive entry.2) →
      motive (.dictionary entries)) : motive value := by
  refine @Value.rec motive (fun items => ∀ item ∈ items, motive item)
    (fun entries => ∀ entry ∈ entries, motive entry.2)
    (fun entry => motive entry.2)
    integer string list dictionary ?_ ?_ ?_ ?_ ?_ value
  · simp
  · intro item items first rest
    exact List.forall_mem_cons.mpr ⟨first, rest⟩
  · simp
  · intro entry entries first rest
    exact List.forall_mem_cons.mpr ⟨first, rest⟩
  · exact fun key item ih => ih

mutual

/-- Every dictionary in the value is what a map can hold. -/
def Ordered : Value → Prop
  | .integer _ => True
  | .string _ => True
  | .list items => ItemsOrdered items
  | .dictionary entries => KeysAscend entries ∧ EntriesOrdered entries

def ItemsOrdered : List Value → Prop
  | [] => True
  | item :: items => item.Ordered ∧ ItemsOrdered items

def EntriesOrdered : List (ByteString × Value) → Prop
  | [] => True
  | (_, item) :: entries => item.Ordered ∧ EntriesOrdered entries

end

theorem itemsOrdered_iff {items : List Value} :
    ItemsOrdered items ↔ ∀ item ∈ items, item.Ordered := by
  induction items with
  | nil => simp [ItemsOrdered]
  | cons item items ih => rw [ItemsOrdered, ih, List.forall_mem_cons]

theorem entriesOrdered_iff {entries : List (ByteString × Value)} :
    EntriesOrdered entries ↔ ∀ entry ∈ entries, entry.2.Ordered := by
  induction entries with
  | nil => simp [EntriesOrdered]
  | cons entry entries ih => rw [EntriesOrdered, ih, List.forall_mem_cons]

end Value

/-- An entry with a key behind all others becomes the last. -/
theorem emplace_last {key : ByteString} {before : DictionaryType}
    (behind : ∀ entry ∈ before, entry.1 < key) (value : Value) :
    emplace key value before = before ++ [(key, value)] := by
  induction before with
  | nil => rfl
  | cons entry before ih =>
      obtain ⟨first, rest⟩ := List.forall_mem_cons.mp behind
      have differs : key ≠ entry.1 := by
        rintro rfl
        exact List.lt_irrefl _ first
      rw [emplace, if_neg differs, if_neg (List.lt_asymm first), ih rest,
        List.cons_append]

namespace Value

mutual

def spelling : Value → Spelling
  | .integer stored => .integer (decimalInt stored.toInt)
  | .string stored => .string (decimal stored.length) stored
  | .list items => .list (itemsSpelling items)
  | .dictionary entries => .dictionary (entriesSpelling entries)

def itemsSpelling : List Value → List Spelling
  | [] => []
  | item :: items => item.spelling :: itemsSpelling items

def entriesSpelling : List (ByteString × Value) →
    List ((ByteString × ByteString) × Spelling)
  | [] => []
  | (key, item) :: entries =>
      ((decimal key.length, key), item.spelling) :: entriesSpelling entries

end

end Value

open Value Spelling

theorem itemsText_spelling {items : List Value}
    (texts : ∀ item ∈ items, item.spelling.text = encode item) :
    itemsText (itemsSpelling items) = encodeItems items := by
  induction items with
  | nil => rfl
  | cons item items ih =>
      obtain ⟨first, rest⟩ := List.forall_mem_cons.mp texts
      rw [itemsSpelling, itemsText, encodeItems, first, ih rest]

theorem entriesText_spelling {entries : List (ByteString × Value)}
    (texts : ∀ entry ∈ entries, entry.2.spelling.text = encode entry.2) :
    entriesText (entriesSpelling entries) = encodeEntries entries := by
  induction entries with
  | nil => rfl
  | cons entry entries ih =>
      obtain ⟨first, rest⟩ := List.forall_mem_cons.mp texts
      rw [entriesSpelling, entriesText, encodeEntries, first, ih rest]
      rfl

/-- The encoder writes the text of the value's spelling. -/
theorem spelling_text (value : Value) : value.spelling.text = encode value := by
  induction value using Value.inductionOn with
  | integer stored => rfl
  | string stored => rfl
  | list items ih =>
      rw [spelling, text, encode, itemsText_spelling ih]
  | dictionary entries ih =>
      rw [spelling, text, encode, entriesText_spelling ih]

theorem stringValid_decimal {string : ByteString}
    (small : string.length < 2 ^ 64) :
    StringValid (decimal string.length, string) :=
  fromCharsUnsigned_decimal small

theorem encode_length_le_of_mem {item : Value} {items : List Value}
    (member : item ∈ items) :
    (encode item).length ≤ (encodeItems items).length := by
  induction items with
  | nil => cases member
  | cons first items ih =>
      rw [encodeItems, List.length_append]
      rcases List.mem_cons.mp member with rfl | inRest
      · omega
      · have later := ih inRest
        omega

theorem encode_length_le_of_mem_entries {entry : ByteString × Value}
    {entries : DictionaryType} (member : entry ∈ entries) :
    entry.1.length + (encode entry.2).length ≤ (encodeEntries entries).length := by
  induction entries with
  | nil => cases member
  | cons first entries ih =>
      rw [encodeEntries, List.length_append, List.length_append,
        appendEncodedString, List.length_append]
      rcases List.mem_cons.mp member with rfl | inRest
      · omega
      · have later := ih inRest
        omega

/-- The spelling of a value with a text in the range of the machine is valid. -/
theorem spelling_valid (value : Value) (small : (encode value).length < 2 ^ 64) :
    value.spelling.Valid := by
  induction value using Value.inductionOn with
  | integer stored =>
      rw [spelling, Valid, fromCharsSigned_decimalInt]
      rfl
  | string stored =>
      apply stringValid_decimal
      simp only [encode, appendEncodedString, List.length_append] at small
      omega
  | list items ih =>
      simp only [encode, List.length_append] at small
      rw [spelling, Valid]
      have each : ∀ item ∈ items, item.spelling.Valid := by
        intro item member
        have shorter := encode_length_le_of_mem member
        exact ih item member (by omega)
      clear ih small
      induction items with
      | nil => trivial
      | cons item items ih =>
          obtain ⟨first, rest⟩ := List.forall_mem_cons.mp each
          exact ⟨first, ih rest⟩
  | dictionary entries ih =>
      simp only [encode, List.length_append] at small
      rw [spelling, Valid]
      have each : ∀ entry ∈ entries, entry.1.length < 2 ^ 64 ∧
          entry.2.spelling.Valid := by
        intro entry member
        have shorter := encode_length_le_of_mem_entries member
        exact ⟨by omega, ih entry member (by omega)⟩
      clear ih small
      induction entries with
      | nil => trivial
      | cons entry entries ih =>
          obtain ⟨first, rest⟩ := List.forall_mem_cons.mp each
          exact ⟨stringValid_decimal first.1, first.2, ih rest⟩

theorem itemsValue_spelling {items : List Value}
    (values : ∀ item ∈ items, item.spelling.value = item) :
    itemsValue (itemsSpelling items) = items := by
  induction items with
  | nil => rfl
  | cons item items ih =>
      obtain ⟨first, rest⟩ := List.forall_mem_cons.mp values
      rw [itemsSpelling, itemsValue, first, ih rest]

/-- The entries of a spelled dictionary as they are written. -/
def writtenEntries (entries : List ((ByteString × ByteString) × Spelling)) :
    DictionaryType :=
  entries.map fun entry => (entry.1.2, entry.2.value)

/-- Inserting entries that ascend behind the others appends them. -/
theorem entriesValue_ascending
    (entries : List ((ByteString × ByteString) × Spelling))
    (before : DictionaryType)
    (ascend : KeysAscend (before ++ writtenEntries entries)) :
    entriesValue before entries = before ++ writtenEntries entries := by
  induction entries generalizing before with
  | nil => exact (List.append_nil before).symm
  | cons entry entries ih =>
      obtain ⟨key, item⟩ := entry
      have behind : ∀ earlier ∈ before, earlier.1 < key.2 := by
        intro earlier member
        exact (List.pairwise_append.mp ascend).2.2 earlier member
          (key.2, item.value) List.mem_cons_self
      have split : before ++ writtenEntries ((key, item) :: entries) =
          (before ++ [(key.2, item.value)]) ++ writtenEntries entries := by
        simp [writtenEntries]
      rw [split] at ascend ⊢
      rw [entriesValue, emplace_last behind]
      exact ih _ ascend

theorem writtenEntries_spelling {entries : DictionaryType}
    (values : ∀ entry ∈ entries, entry.2.spelling.value = entry.2) :
    writtenEntries (entriesSpelling entries) = entries := by
  induction entries with
  | nil => rfl
  | cons entry entries ih =>
      obtain ⟨first, rest⟩ := List.forall_mem_cons.mp values
      have tail := ih rest
      rw [writtenEntries] at tail ⊢
      rw [entriesSpelling, List.map_cons, first, tail]

/-- The spelling of a value means the value, if its dictionaries are maps. -/
theorem spelling_value (value : Value) (ordered : value.Ordered) :
    value.spelling.value = value := by
  induction value using Value.inductionOn with
  | integer stored =>
      rw [spelling, Spelling.value, fromCharsSigned_decimalInt]
      rfl
  | string stored => rfl
  | list items ih =>
      have items := itemsOrdered_iff.mp ordered
      rw [spelling, Spelling.value,
        itemsValue_spelling fun item member => ih item member (items item member)]
  | dictionary entries ih =>
      have items := entriesOrdered_iff.mp ordered.2
      have written : writtenEntries (entriesSpelling entries) = entries :=
        writtenEntries_spelling fun entry member =>
          ih entry member (items entry member)
      have ascend : KeysAscend ([] ++ writtenEntries (entriesSpelling entries)) := by
        rw [written]
        exact ordered.1
      rw [spelling, Spelling.value, entriesValue_ascending _ [] ascend, written]
      rfl

theorem decodeValue_encode (value : Value) (ordered : value.Ordered)
    {encoded : ByteString} (small : encoded.length < 2 ^ 64) {offset : Nat}
    (stands : PartAt encoded offset (encode value)) {steps : Nat}
    (enough : (encode value).length < steps) :
    decodeValue encoded steps offset =
      .returned (value, offset + (encode value).length) := by
  have valid : value.spelling.Valid := by
    have inside := stands.inside
    exact spelling_valid value (by omega)
  rw [← spelling_text] at stands enough ⊢
  rw [decodeValue_text small value.spelling valid steps offset stands enough,
    spelling_value value ordered]

theorem decode_encode (value : Value) (ordered : value.Ordered)
    (small : (encode value).length < 2 ^ 64) {steps : Nat}
    (enough : (encode value).length < steps) :
    decode (encode value) steps = .returned value := by
  rw [decode, decodeValue_encode value ordered small (partAt_all _) enough]
  simp

/-- What was encoded is decoded again, alone and in the middle of any input. -/
theorem encode_roundTrips (value : Value) (ordered : value.Ordered)
    (small : (encode value).length < 2 ^ 63) :
    (∀ steps, (encode value).length < steps →
      decode (encode value) steps = .returned value) ∧
    ∀ before after : ByteString,
      (before ++ encode value ++ after).length < 2 ^ 64 →
        ∀ steps, (encode value).length < steps →
          decodeValue (before ++ encode value ++ after) steps before.length =
            .returned (value, before.length + (encode value).length) := by
  constructor
  · exact fun steps enough => decode_encode value ordered (by omega) enough
  · intro before after fits steps enough
    exact decodeValue_encode value ordered fits
      (partAt_middle before (encode value) after) enough

/-- A dictionary with an integer and a list in it. -/
def nestedValue : Value :=
  .dictionary
    [(ascii "a", .integer (-9223372036854775808)),
      (ascii "b", .list [.string (ascii "i1e"), .dictionary []])]

theorem encode_roundTrips_nested :
    decode (encode nestedValue) 64 = .returned nestedValue ∧
      decodeValue (ascii "le" ++ encode nestedValue ++ ascii "e") 64 2 =
        .returned (nestedValue, 41) := by
  have ordered : nestedValue.Ordered := by
    simp [nestedValue, Value.Ordered, Value.EntriesOrdered, Value.ItemsOrdered,
      KeysAscend]
    decide
  have length : (encode nestedValue).length = 39 := by decide +kernel
  obtain ⟨alone, inside⟩ :=
    encode_roundTrips nestedValue ordered (by rw [length]; decide)
  refine ⟨alone 64 (by rw [length]; decide), ?_⟩
  have found := inside (ascii "le") (ascii "e")
    (by simp [length, ascii]) 64 (by rw [length]; decide)
  rw [length] at found
  exact found

end Bencode

end Blocxxi
