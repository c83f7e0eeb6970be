import Blocxxi.EventRecord

/-!
# What the canonical text determines

The canonical text writes every field as it is: nothing is escaped.  An
envelope whose fields do not imitate the line that follows them, and whose
lists can be cut at their separators, is determined by its canonical text up to
the order of its lists.
-/

namespace Blocxxi

namespace Core

open Cxx ByteText DelimitedText

/-- Two envelopes with the same fields, up to the order of the identifiers and
the attributes. -/
structure SameEvent (first second : EventEnvelope) : Prop where
  schema : first.schema = second.schema
  eventType : first.eventType = second.eventType
  taxonomy : first.taxonomy = second.taxonomy
  source : first.source = second.source
  producer : first.producer = second.producer
  window : first.window = second.window
  observedAtUtc : first.observedAtUtc = second.observedAtUtc
  publishedAtUtc : first.publishedAtUtc = second.publishedAtUtc
  identifiers : first.identifiers.Perm second.identifiers
  attributes : first.attributes.Perm second.attributes
  summary : first.summary = second.summary
  payload : first.payload = second.payload

/-- The beginning of the line of a field, behind the line in front of it. -/
def lineLabel (name : String) (oneLine : 10 ∉ ascii name) : Label UInt8 where
  mark := 10
  rest := ascii name
  unmarked := oneLine

/-- No field imitates the line that follows it, and the lists can be cut at
their separators. -/
structure Delimited (envelope : EventEnvelope) : Prop where
  schema : (lineLabel "event_type=" (by decide)).Absent envelope.schema
  eventType : (lineLabel "taxonomy=" (by decide)).Absent envelope.eventType
  taxonomy : (lineLabel "source=" (by decide)).Absent envelope.taxonomy
  source : (lineLabel "producer=" (by decide)).Absent envelope.source
  producer : (lineLabel "window_start=" (by decide)).Absent envelope.producer
  identifiersLine : (lineLabel "attributes=" (by decide)).Absent
    (identifiersText envelope.identifiers)
  attributesLine : (lineLabel "summary=" (by decide)).Absent
    (attributesText envelope.attributes)
  identifiers : ∀ identifier ∈ envelope.identifiers, 44 ∉ identifier
  notBlank : envelope.identifiers ≠ [[]]
  keys : ∀ entry ∈ envelope.attributes, 61 ∉ entry.key ∧ 124 ∉ entry.key
  values : ∀ entry ∈ envelope.attributes, 124 ∉ entry.value

instance (envelope : EventEnvelope) : Decidable (Delimited envelope) :=
  decidable_of_iff
    ((lineLabel "event_type=" (by decide)).Absent envelope.schema ∧
      (lineLabel "taxonomy=" (by decide)).Absent envelope.eventType ∧
      (lineLabel "source=" (by decide)).Absent envelope.taxonomy ∧
      (lineLabel "producer=" (by decide)).Absent envelope.source ∧
      (lineLabel "window_start=" (by decide)).Absent envelope.producer ∧
      (lineLabel "attributes=" (by decide)).Absent
        (identifiersText envelope.identifiers) ∧
      (lineLabel "summary=" (by decide)).Absent
        (attributesText envelope.attributes) ∧
      (∀ identifier ∈ envelope.identifiers, 44 ∉ identifier) ∧
      envelope.identifiers ≠ [[]] ∧
      (∀ entry ∈ envelope.attributes, 61 ∉ entry.key ∧ 124 ∉ entry.key) ∧
      ∀ entry ∈ envelope.attributes, 124 ∉ entry.value)
    ⟨fun ⟨schema, eventType, taxonomy, source, producer, identifiersLine,
        attributesLine, identifiers, notBlank, keys, values⟩ =>
      ⟨schema, eventType, taxonomy, source, producer, identifiersLine,
        attributesLine, identifiers, notBlank, keys, values⟩,
    fun delimited =>
      ⟨delimited.schema, delimited.eventType, delimited.taxonomy,
        delimited.source, delimited.producer, delimited.identifiersLine,
        delimited.attributesLine, delimited.identifiers, delimited.notBlank,
        delimited.keys, delimited.values⟩⟩

/-- A value that does not imitate the next line is determined by the lines. -/
theorem canonicalLine_inj {name next : String} {oneLine : 10 ∉ ascii next}
    {first second firstNext secondNext firstRest secondRest : ByteString}
    (firstAbsent : (lineLabel next oneLine).Absent first)
    (secondAbsent : (lineLabel next oneLine).Absent second)
    (equal : canonicalLine name first ++
        (canonicalLine next firstNext ++ firstRest) =
      canonicalLine name second ++
        (canonicalLine next secondNext ++ secondRest)) :
    first = second ∧ canonicalLine next firstNext ++ firstRest =
      canonicalLine next secondNext ++ secondRest := by
  have labelled (value nextValue rest : ByteString) :
      canonicalLine name value ++ (canonicalLine next nextValue ++ rest) =
        ascii name ++ (value ++ ((lineLabel next oneLine).text ++
          (nextValue ++ 10 :: rest))) := by
    simp [canonicalLine, Label.text, lineLabel]
  have unlabelled (nextValue rest : ByteString) :
      canonicalLine next nextValue ++ rest =
        ascii next ++ (nextValue ++ 10 :: rest) := by
    simp [canonicalLine]
  rw [labelled, labelled] at equal
  obtain ⟨sameValue, sameRest⟩ := Label.append_inj firstAbsent secondAbsent
    (List.append_cancel_left equal)
  rw [unlabelled, unlabelled, sameRest]
  exact ⟨sameValue, rfl⟩

theorem integerText_oneLine (integer : Int64) : 10 ∉ integerText integer :=
  notMem_decimalInt (by decide) (by decide)

/-- Integers never imitate a line. -/
theorem integerLine_inj {name next : String} (oneLine : 10 ∉ ascii next)
    {first second : Int64} {firstNext secondNext firstRest secondRest : ByteString}
    (equal : canonicalLine name (integerText first) ++
        (canonicalLine next firstNext ++ firstRest) =
      canonicalLine name (integerText second) ++
        (canonicalLine next secondNext ++ secondRest)) :
    first = second ∧ canonicalLine next firstNext ++ firstRest =
      canonicalLine next secondNext ++ secondRest := by
  have absent (integer : Int64) :
      (lineLabel next oneLine).Absent (integerText integer) :=
    Label.absent_of_notMem (integerText_oneLine integer)
  obtain ⟨sameText, sameRest⟩ :=
    canonicalLine_inj (absent first) (absent second) equal
  exact ⟨integerText_injective sameText, sameRest⟩

/-- The last two lines determine the summary and the payload, whatever the
summary contains. -/
theorem lastLines_inj {firstSummary secondSummary firstPayload secondPayload :
    ByteString}
    (equal : canonicalLine "summary=" firstSummary ++
        canonicalLine "payload_hex=" (encodeHex firstPayload) =
      canonicalLine "summary=" secondSummary ++
        canonicalLine "payload_hex=" (encodeHex secondPayload)) :
    firstSummary = secondSummary ∧ firstPayload = secondPayload := by
  have lastLine (summary payload : ByteString) :
      canonicalLine "summary=" summary ++
          canonicalLine "payload_hex=" (encodeHex payload) =
        ascii "summary=" ++ ((summary ++ 10 ::
          (ascii "payload_hex=" ++ encodeHex payload)) ++ [10]) := by
    simp [canonicalLine]
  have oneLine (payload : ByteString) :
      10 ∉ ascii "payload_hex=" ++ encodeHex payload := by
    rw [List.mem_append, not_or]
    exact ⟨by decide, Hex.notMem_encode (by decide)⟩
  rw [lastLine, lastLine] at equal
  have inner := List.append_cancel_right (List.append_cancel_left equal)
  obtain ⟨sameSummary, sameLast⟩ :=
    append_last_inj (oneLine firstPayload) (oneLine secondPayload) inner
  exact ⟨sameSummary,
    Hex.encode_injective true (List.append_cancel_left sameLast)⟩

theorem identifiers_perm_of_text_eq {first second : List ByteString}
    (firstPlain : ∀ identifier ∈ first, 44 ∉ identifier)
    (secondPlain : ∀ identifier ∈ second, 44 ∉ identifier)
    (firstNotBlank : first ≠ [[]]) (secondNotBlank : second ≠ [[]])
    (sameText : identifiersText first = identifiersText second) :
    first.Perm second := by
  have plain {identifiers : List ByteString}
      (unsorted : ∀ identifier ∈ identifiers, 44 ∉ identifier) :
      ∀ identifier ∈ sortedIdentifiers identifiers, 44 ∉ identifier :=
    fun identifier member =>
      unsorted identifier ((sortedIdentifiers_perm identifiers).mem_iff.mp member)
  have notBlank {identifiers : List ByteString} (unsorted : identifiers ≠ [[]]) :
      sortedIdentifiers identifiers ≠ [[]] := by
    intro blank
    have single := sortedIdentifiers_perm identifiers
    rw [blank] at single
    exact unsorted (List.perm_singleton.mp single.symm)
  have sameSorted := joined_inj (plain firstPlain) (plain secondPlain)
    (notBlank firstNotBlank) (notBlank secondNotBlank) sameText
  exact (sortedIdentifiers_perm first).symm.trans
    (sameSorted ▸ sortedIdentifiers_perm second)

theorem attributeText_inj {first second : EventAttribute}
    (firstPlain : 61 ∉ first.key) (secondPlain : 61 ∉ second.key)
    (sameText : attributeText first = attributeText second) :
    first = second := by
  obtain ⟨sameKey, sameValue⟩ :=
    append_first_inj firstPlain secondPlain sameText
  cases first
  cases second
  cases sameKey
  cases sameValue
  rfl

theorem attributes_perm_of_text_eq {first second : List EventAttribute}
    (firstKeys : ∀ entry ∈ first, 61 ∉ entry.key ∧ 124 ∉ entry.key)
    (secondKeys : ∀ entry ∈ second, 61 ∉ entry.key ∧ 124 ∉ entry.key)
    (firstValues : ∀ entry ∈ first, 124 ∉ entry.value)
    (secondValues : ∀ entry ∈ second, 124 ∉ entry.value)
    (sameText : attributesText first = attributesText second) :
    first.Perm second := by
  have sorted {attributes : List EventAttribute} {entry : EventAttribute}
      (member : entry ∈ sortedAttributes attributes) : entry ∈ attributes :=
    (sortedAttributes_perm attributes).mem_iff.mp member
  have plain {attributes : List EventAttribute}
      (keys : ∀ entry ∈ attributes, 61 ∉ entry.key ∧ 124 ∉ entry.key)
      (values : ∀ entry ∈ attributes, 124 ∉ entry.value) :
      ∀ text ∈ (sortedAttributes attributes).map attributeText, 124 ∉ text := by
    intro text member
    obtain ⟨entry, entryMem, rfl⟩ := List.mem_map.mp member
    have key := (keys entry (sorted entryMem)).2
    have value := values entry (sorted entryMem)
    simp [attributeText, key, value]
  have notBlank (attributes : List EventAttribute) :
      (sortedAttributes attributes).map attributeText ≠ [[]] := by
    intro blank
    have member : [] ∈ (sortedAttributes attributes).map attributeText := by
      rw [blank]
      exact List.mem_singleton_self _
    obtain ⟨entry, -, empty⟩ := List.mem_map.mp member
    simp [attributeText] at empty
  have sameTexts := joined_inj (plain firstKeys firstValues)
    (plain secondKeys secondValues) (notBlank first) (notBlank second) sameText
  have sameSorted : sortedAttributes first = sortedAttributes second := by
    apply eq_of_map_eq _ sameTexts
    intro entry entryMem other otherMem sameEntry
    exact attributeText_inj (firstKeys entry (sorted entryMem)).1
      (secondKeys other (sorted otherMem)).1 sameEntry
  exact (sortedAttributes_perm first).symm.trans
    (sameSorted ▸ sortedAttributes_perm second)

/-- Delimited envelopes with the same canonical text are the same event. -/
theorem sameEvent_of_canonicalText_eq {first second : EventEnvelope}
    (firstDelimited : Delimited first) (secondDelimited : Delimited second)
    (sameText : first.canonicalText = second.canonicalText) :
    SameEvent first second := by
  simp only [EventEnvelope.canonicalText, canonicalSeed, canonicalLines,
    List.flatten_cons, List.flatten_nil, List.append_nil] at sameText
  obtain ⟨schema, rest⟩ := canonicalLine_inj
    firstDelimited.schema secondDelimited.schema sameText
  obtain ⟨eventType, rest⟩ := canonicalLine_inj
    firstDelimited.eventType secondDelimited.eventType rest
  obtain ⟨taxonomy, rest⟩ := canonicalLine_inj
    firstDelimited.taxonomy secondDelimited.taxonomy rest
  obtain ⟨source, rest⟩ := canonicalLine_inj
    firstDelimited.source secondDelimited.source rest
  obtain ⟨producer, rest⟩ := canonicalLine_inj
    firstDelimited.producer secondDelimited.producer rest
  obtain ⟨startUtc, rest⟩ := integerLine_inj (by decide) rest
  obtain ⟨endUtc, rest⟩ := integerLine_inj (by decide) rest
  obtain ⟨observedAtUtc, rest⟩ := integerLine_inj (by decide) rest
  obtain ⟨publishedAtUtc, rest⟩ := integerLine_inj (by decide) rest
  obtain ⟨identifiers, rest⟩ := canonicalLine_inj
    firstDelimited.identifiersLine secondDelimited.identifiersLine rest
  obtain ⟨attributes, rest⟩ := canonicalLine_inj
    firstDelimited.attributesLine secondDelimited.attributesLine rest
  obtain ⟨summary, payload⟩ := lastLines_inj rest
  refine ⟨schema, eventType, taxonomy, source, producer, ?_, observedAtUtc,
    publishedAtUtc, ?_, ?_, summary, payload⟩
  · exact EventWindow.ext startUtc endUtc
  · exact identifiers_perm_of_text_eq firstDelimited.identifiers
      secondDelimited.identifiers firstDelimited.notBlank
      secondDelimited.notBlank identifiers
  · exact attributes_perm_of_text_eq firstDelimited.keys secondDelimited.keys
      firstDelimited.values secondDelimited.values attributes

/-- An event with its lists in some order. -/
def feeSpike (identifiers : List ByteString) (attributes : List EventAttribute) :
    EventEnvelope where
  eventType := ascii "bitcoin.fee.spike"
  taxonomy := ascii "fee-market"
  source := ascii "bitcoin.rpc"
  producer := ascii "blocxxi.test"
  window := { startUtc := 10, endUtc := 20 }
  identifiers := identifiers
  attributes := attributes
  summary := ascii "spike"
  payload := ascii "payload"

theorem sameEvent_feeSpike :
    SameEvent
      (feeSpike [ascii "tx:2", ascii "tx:1"]
        [⟨ascii "b", ascii "2"⟩, ⟨ascii "a", ascii "1"⟩])
      (feeSpike [ascii "tx:1", ascii "tx:2"]
        [⟨ascii "a", ascii "1"⟩, ⟨ascii "b", ascii "2"⟩]) :=
  sameEvent_of_canonicalText_eq (by decide +kernel) (by decide +kernel)
    (by decide +kernel)

/-- Two identifiers and one identifier with a comma in it look the same. -/
theorem canonicalText_not_injective :
    ¬ ∀ first second : EventEnvelope,
      first.canonicalText = second.canonicalText → SameEvent first second := by
  intro determines
  have same := determines { identifiers := [ascii "a", ascii "b"] }
    { identifiers := [ascii "a,b"] } (by decide +kernel)
  exact absurd same.identifiers.length_eq (by decide)

end Core

end Blocxxi
