import Blocxxi.BencodeGrammar
import Blocxxi.EventDht

/-!
# Event records on the wire

A record is sent as a dictionary of its fields with the envelope inside, and
read back by looking the fields up by their names.
-/

namespace Blocxxi

namespace Bencode

open Cxx ByteText

/-- The map made from an initializer list: the first entry of a key counts. -/
def dictionaryOf (entries : List (String × Value)) : DictionaryType :=
  entries.foldl (fun built entry => emplace (ascii entry.1) entry.2 built) []

theorem lookup_emplace {entries : DictionaryType} (ascend : KeysAscend entries)
    (key other : ByteString) (value : Value) :
    (emplace key value entries).lookup other =
      (entries.lookup other).or (if other = key then some value else none) := by
  induction entries with
  | nil =>
      rw [emplace, List.lookup_cons]
      by_cases same : other = key
      · simp [same]
      · simp [same, beq_eq_false_iff_ne.mpr same]
  | cons first rest induction =>
      obtain ⟨firstKey, firstValue⟩ := first
      obtain ⟨firstLeast, restAscend⟩ := List.pairwise_cons.mp ascend
      have tail := induction restAscend
      rw [emplace]
      split
      · rename_i isFirst
        by_cases same : other = key
        · simp [same, isFirst]
        · simp [same]
      split
      · rename_i before
        by_cases same : other = key
        · -- The key is in front of all entries, so it is not among them.
          have absent : ((firstKey, firstValue) :: rest).lookup key = none := by
            rw [List.lookup_eq_none_iff]
            intro entry member
            rw [bne_iff_ne]
            rintro rfl
            rcases List.mem_cons.mp member with rfl | later
            · exact List.lt_irrefl _ before
            · exact List.lt_asymm before (firstLeast entry later)
          subst same
          simp [List.lookup_cons_self, absent]
        · rw [List.lookup_cons, beq_eq_false_iff_ne.mpr same]
          simp [same]
      · rw [List.lookup_cons, List.lookup_cons, tail]
        split <;> rfl

theorem lookup_foldl_emplace (entries : List (String × Value))
    {built : DictionaryType} (ascend : KeysAscend built) (key : ByteString) :
    (entries.foldl (fun built entry => emplace (ascii entry.1) entry.2 built)
      built).lookup key =
      (built.lookup key).or
        ((entries.map fun entry => (ascii entry.1, entry.2)).lookup key) := by
  induction entries generalizing built with
  | nil => simp
  | cons entry entries induction =>
      rw [List.foldl_cons, induction (emplace_keysAscend ascend _ _),
        lookup_emplace ascend, List.map_cons, List.lookup_cons, Option.or_assoc]
      congr 1
      by_cases same : key = ascii entry.1
      · simp [same]
      · simp [same, beq_eq_false_iff_ne.mpr same]

/-- In a map made from entries with different keys, every entry is found. -/
theorem lookup_dictionaryOf {entries : List (String × Value)} {key : String}
    {value : Value}
    (distinct : (entries.map fun entry => ascii entry.1).Nodup)
    (member : (key, value) ∈ entries) :
    (dictionaryOf entries).lookup (ascii key) = some value := by
  rw [dictionaryOf, lookup_foldl_emplace entries List.Pairwise.nil,
    List.lookup_nil, Option.none_or]
  induction entries with
  | nil => cases member
  | cons entry entries induction =>
      rw [List.map_cons, List.nodup_cons] at distinct
      rw [List.map_cons, List.lookup_cons]
      rcases List.mem_cons.mp member with rfl | later
      · rw [beq_self_eq_true]
      · have differs : ascii key ≠ ascii entry.1 := by
          intro same
          apply distinct.1
          rw [← same]
          exact List.mem_map_of_mem later
        rw [beq_eq_false_iff_ne.mpr differs]
        exact induction distinct.2 later

theorem dictionaryOf_ordered {entries : List (String × Value)}
    (ordered : ∀ entry ∈ entries, entry.2.Ordered) :
    (Value.dictionary (dictionaryOf entries)).Ordered := by
  have built : ∀ before, (Value.dictionary before).Ordered →
      (Value.dictionary (entries.foldl
        (fun built entry => emplace (ascii entry.1) entry.2 built)
        before)).Ordered := by
    induction entries with
    | nil => exact fun before beforeOrdered => beforeOrdered
    | cons entry entries induction =>
        obtain ⟨first, rest⟩ := List.forall_mem_cons.mp ordered
        intro before beforeOrdered
        exact induction rest _ (emplace_ordered beforeOrdered first)
  exact built [] ⟨List.Pairwise.nil, trivial⟩

end Bencode

namespace P2P

open Blocxxi.Core Cxx ByteText Bencode Kademlia

def identifiersToValue (values : List ByteString) : Value :=
  .list (values.map .string)

def attributeEntries (entry : EventAttribute) : List (String × Value) :=
  [("key", .string entry.key), ("value", .string entry.value)]

def attributeToValue (entry : EventAttribute) : Value :=
  .dictionary (dictionaryOf (attributeEntries entry))

def attributesToValue (attributes : List EventAttribute) : Value :=
  .list (attributes.map attributeToValue)

def envelopeEntries (envelope : EventEnvelope) : List (String × Value) :=
  [("schema", .string envelope.schema),
    ("event_type", .string envelope.eventType),
    ("taxonomy", .string envelope.taxonomy),
    ("source", .string envelope.source),
    ("producer", .string envelope.producer),
    ("window_start", .integer envelope.window.startUtc),
    ("window_end", .integer envelope.window.endUtc),
    ("observed_at", .integer envelope.observedAtUtc),
    ("published_at", .integer envelope.publishedAtUtc),
    ("identifiers", identifiersToValue envelope.identifiers),
    ("attributes", attributesToValue envelope.attributes),
    ("summary", .string envelope.summary),
    ("payload", .string envelope.payload)]

def envelopeToValue (envelope : EventEnvelope) : Value :=
  .dictionary (dictionaryOf (envelopeEntries envelope))

def recordEntries (record : SignedEventRecord) : List (String × Value) :=
  [("envelope", envelopeToValue record.envelope),
    ("signer_name", .string record.signerName),
    ("signer_public_key_hex", .string record.signerPublicKeyHex),
    ("signature_hex", .string record.signatureHex)]

def recordToValue (record : SignedEventRecord) : Value :=
  .dictionary (dictionaryOf (recordEntries record))

theorem identifiersToValue_ordered (values : List ByteString) :
    (identifiersToValue values).Ordered := by
  apply Value.itemsOrdered_iff.mpr
  intro item member
  obtain ⟨text, -, rfl⟩ := List.mem_map.mp member
  trivial

theorem attributesToValue_ordered (attributes : List EventAttribute) :
    (attributesToValue attributes).Ordered := by
  apply Value.itemsOrdered_iff.mpr
  intro item member
  obtain ⟨entry, -, rfl⟩ := List.mem_map.mp member
  apply dictionaryOf_ordered
  simp [attributeEntries, Value.Ordered]

theorem envelopeToValue_ordered (envelope : EventEnvelope) :
    (envelopeToValue envelope).Ordered := by
  apply dictionaryOf_ordered
  simp only [envelopeEntries, List.forall_mem_cons, Value.Ordered, true_and]
  exact ⟨identifiersToValue_ordered _, attributesToValue_ordered _, by simp⟩

theorem recordToValue_ordered (record : SignedEventRecord) :
    (recordToValue record).Ordered := by
  apply dictionaryOf_ordered
  simp only [recordEntries, List.forall_mem_cons, Value.Ordered, true_and]
  exact ⟨envelopeToValue_ordered _, by simp⟩

section Fields

variable {entries : List (String × Value)} {key : String}

theorem findString_dictionaryOf {text : ByteString}
    (distinct : (entries.map fun entry => ascii entry.1).Nodup)
    (member : (key, .string text) ∈ entries) :
    findString (dictionaryOf entries) key = .returned (some text) := by
  rw [findString, lookup_dictionaryOf distinct member]
  rfl

theorem findInteger_dictionaryOf {integer : Int64}
    (distinct : (entries.map fun entry => ascii entry.1).Nodup)
    (member : (key, .integer integer) ∈ entries) :
    findInteger (dictionaryOf entries) key = .returned (some integer) := by
  rw [findInteger, lookup_dictionaryOf distinct member]
  rfl

theorem findList_dictionaryOf {items : List Value}
    (distinct : (entries.map fun entry => ascii entry.1).Nodup)
    (member : (key, .list items) ∈ entries) :
    findList (dictionaryOf entries) key = .returned items := by
  rw [findList, lookup_dictionaryOf distinct member]
  rfl

end Fields

theorem stringsOf_map (values : List ByteString) :
    stringsOf (values.map .string) = .returned values := by
  induction values with
  | nil => rfl
  | cons text values induction =>
      rw [List.map_cons, stringsOf, Value.asString, Outcome.returned_bind,
        induction, Outcome.returned_bind]

theorem attributeEntries_distinct (entry : EventAttribute) :
    ((attributeEntries entry).map fun entry => ascii entry.1).Nodup := by
  change (["key", "value"].map ascii).Nodup
  decide

theorem parseAttributes_map (attributes : List EventAttribute) :
    parseAttributes (attributes.map attributeToValue) =
      .returned (some attributes) := by
  induction attributes with
  | nil => rfl
  | cons entry attributes induction =>
      have string (key : String) (text : ByteString)
          (member : (key, .string text) ∈ attributeEntries entry) :=
        findString_dictionaryOf (attributeEntries_distinct entry) member
      rw [List.map_cons, parseAttributes, attributeToValue, Value.asDictionary,
        Outcome.returned_bind,
        string "key" entry.key (by simp [attributeEntries]),
        Outcome.returned_bind,
        string "value" entry.value (by simp [attributeEntries]),
        Outcome.returned_bind]
      dsimp only
      rw [induction, Outcome.returned_bind]
      rfl

theorem envelopeEntries_distinct (envelope : EventEnvelope) :
    ((envelopeEntries envelope).map fun entry => ascii entry.1).Nodup := by
  change (["schema", "event_type", "taxonomy", "source", "producer",
    "window_start", "window_end", "observed_at", "published_at", "identifiers",
    "attributes", "summary", "payload"].map ascii).Nodup
  decide

theorem parseEnvelope_toValue (envelope : EventEnvelope) :
    parseEnvelope (envelopeToValue envelope) = .returned (some envelope) := by
  have string (key : String) (text : ByteString)
      (member : (key, .string text) ∈ envelopeEntries envelope) :=
    findString_dictionaryOf (envelopeEntries_distinct envelope) member
  have integer (key : String) (integer : Int64)
      (member : (key, .integer integer) ∈ envelopeEntries envelope) :=
    findInteger_dictionaryOf (envelopeEntries_distinct envelope) member
  have list (key : String) (items : List Value)
      (member : (key, .list items) ∈ envelopeEntries envelope) :=
    findList_dictionaryOf (envelopeEntries_distinct envelope) member
  have identifiers := list "identifiers" (envelope.identifiers.map .string)
    (by simp [envelopeEntries, identifiersToValue])
  have attributes := list "attributes" (envelope.attributes.map attributeToValue)
    (by simp [envelopeEntries, attributesToValue])
  rw [parseEnvelope, envelopeToValue, Value.asDictionary, Outcome.returned_bind,
    string "schema" envelope.schema (by simp [envelopeEntries]),
    Outcome.returned_bind,
    string "event_type" envelope.eventType (by simp [envelopeEntries]),
    Outcome.returned_bind,
    string "taxonomy" envelope.taxonomy (by simp [envelopeEntries]),
    Outcome.returned_bind,
    string "source" envelope.source (by simp [envelopeEntries]),
    Outcome.returned_bind,
    string "producer" envelope.producer (by simp [envelopeEntries]),
    Outcome.returned_bind,
    integer "window_start" envelope.window.startUtc (by simp [envelopeEntries]),
    Outcome.returned_bind,
    integer "window_end" envelope.window.endUtc (by simp [envelopeEntries]),
    Outcome.returned_bind,
    integer "observed_at" envelope.observedAtUtc (by simp [envelopeEntries]),
    Outcome.returned_bind,
    integer "published_at" envelope.publishedAtUtc (by simp [envelopeEntries]),
    Outcome.returned_bind,
    string "summary" envelope.summary (by simp [envelopeEntries]),
    Outcome.returned_bind,
    string "payload" envelope.payload (by simp [envelopeEntries]),
    Outcome.returned_bind]
  dsimp only
  rw [identifiers, Outcome.returned_bind, stringsOf_map, Outcome.returned_bind,
    attributes, Outcome.returned_bind, parseAttributes_map,
    Outcome.returned_bind]
  rfl

theorem recordEntries_distinct (record : SignedEventRecord) :
    ((recordEntries record).map fun entry => ascii entry.1).Nodup := by
  change (["envelope", "signer_name", "signer_public_key_hex",
    "signature_hex"].map ascii).Nodup
  decide

theorem parseSignedEventRecord_toValue (record : SignedEventRecord) :
    parseSignedEventRecord (recordToValue record) = .returned (some record) := by
  have string (key : String) (text : ByteString)
      (member : (key, .string text) ∈ recordEntries record) :=
    findString_dictionaryOf (recordEntries_distinct record) member
  have envelope : (dictionaryOf (recordEntries record)).lookup
      (ascii "envelope") = some (envelopeToValue record.envelope) :=
    lookup_dictionaryOf (recordEntries_distinct record)
      (by simp [recordEntries])
  rw [parseSignedEventRecord, recordToValue, Value.asDictionary,
    Outcome.returned_bind,
    string "signer_name" record.signerName (by simp [recordEntries]),
    Outcome.returned_bind,
    string "signer_public_key_hex" record.signerPublicKeyHex
      (by simp [recordEntries]),
    Outcome.returned_bind,
    string "signature_hex" record.signatureHex (by simp [recordEntries]),
    Outcome.returned_bind, envelope]
  dsimp only
  rw [parseEnvelope_toValue, Outcome.returned_bind]
  rfl

/-- A record that was sent is the record that is read, and counts the same. -/
theorem record_roundTrips (record : SignedEventRecord) (encoded : Span UInt8)
    (isEncoding : encode (recordToValue record) = encoded.items) {steps : Nat}
    (enough : encoded.size < steps) :
    ∃ received : SignedEventRecord,
      (decode encoded.items steps >>= parseSignedEventRecord) =
        .returned (some received) ∧
      received = record ∧
      received.deterministicKey = record.deterministicKey ∧
      ∀ scheme, verifyEventRecord scheme received =
        verifyEventRecord scheme record := by
  have small : (encode (recordToValue record)).length < 2 ^ 64 := by
    rw [isEncoding]
    exact Nat.lt_trans encoded.length_lt (by decide)
  have decoded : decode encoded.items steps = .returned (recordToValue record) := by
    rw [← isEncoding]
    apply decode_encode _ (recordToValue_ordered record) small
    rwa [isEncoding]
  refine ⟨record, ?_, rfl, rfl, fun _ => rfl⟩
  rw [decoded, Outcome.returned_bind, parseSignedEventRecord_toValue]

/-- A record whose fields look like bencode tokens. -/
def tokenRecord : SignedEventRecord where
  envelope :=
    { eventType := ascii "i1e"
      window := { startUtc := -1, endUtc := 9223372036854775807 }
      identifiers := [ascii "tx:2", [], ascii "tx:1"]
      attributes := [{ key := ascii "k", value := [0, 255] }]
      payload := [101, 0, 100] }
  signerName := ascii "e"

theorem encode_tokenRecord_length :
    (encode (recordToValue tokenRecord)).length = 333 := by
  decide +kernel

theorem record_roundTrips_token :
    ∃ received : SignedEventRecord,
      (decode (encode (recordToValue tokenRecord)) 334 >>=
        parseSignedEventRecord) = .returned (some received) ∧
      received = tokenRecord ∧
      received.deterministicKey = tokenRecord.deterministicKey ∧
      ∀ scheme, verifyEventRecord scheme received =
        verifyEventRecord scheme tokenRecord := by
  have small : (encode (recordToValue tokenRecord)).length < 2 ^ 63 := by
    rw [encode_tokenRecord_length]
    decide
  refine record_roundTrips tokenRecord ⟨_, small⟩ rfl ?_
  rw [Span.size, encode_tokenRecord_length]
  decide

end P2P

end Blocxxi
