import Blocxxi.EventRecord
import Blocxxi.KeySort

/-!
# Signing events

The canonical text lists identifiers and attributes in sorted order, so the order
in which an envelope holds them is not part of what is signed.  A record is signed
after the missing times are filled in, and carries the filled-in envelope, the key
and the signature as text; a verifier reads them back.
-/

namespace Blocxxi

namespace Core

open Cxx ByteText KeySort

theorem sortedIdentifiers_eq_of_perm {first second : List ByteString}
    (arranged : first.Perm second) : sortedIdentifiers first = sortedIdentifiers second :=
  insertionSort_eq_of_perm arranged

/-- One attribute comes before another, or is the same. -/
def attributeBefore (first second : EventAttribute) : Prop :=
  ¬ attributeLess second first

instance : DecidableRel attributeBefore := fun first second =>
  inferInstanceAs (Decidable (¬ attributeLess second first))

theorem attributeBefore_iff {first second : EventAttribute} :
    attributeBefore first second ↔
      first.key = second.key ∧ first.value ≤ second.value ∨
        first.key ≠ second.key ∧ first.key ≤ second.key := by
  unfold attributeBefore attributeLess
  by_cases same : second.key = first.key
  · simp [same, List.not_lt]
  · simp [same, Ne.symm same, List.not_lt]

instance : Std.Total attributeBefore where
  total := by
    intro first second
    rw [attributeBefore_iff, attributeBefore_iff]
    by_cases same : first.key = second.key
    · rcases Std.Total.total (r := (· ≤ ·)) first.value second.value with ahead | behind
      · exact .inl (.inl ⟨same, ahead⟩)
      · exact .inr (.inl ⟨same.symm, behind⟩)
    · rcases Std.Total.total (r := (· ≤ ·)) first.key second.key with ahead | behind
      · exact .inl (.inr ⟨same, ahead⟩)
      · exact .inr (.inr ⟨Ne.symm same, behind⟩)

instance : IsTrans EventAttribute attributeBefore where
  trans := by
    intro first second third ahead behind
    rw [attributeBefore_iff] at ahead behind ⊢
    rcases ahead with ⟨sameKey, values⟩ | ⟨apart, keys⟩
    · rw [sameKey]
      rcases behind with ⟨sameAgain, further⟩ | later
      · exact .inl ⟨sameAgain, List.le_trans values further⟩
      · exact .inr later
    · rcases behind with ⟨sameAgain, -⟩ | ⟨-, further⟩
      · rw [← sameAgain]
        exact .inr ⟨apart, keys⟩
      · refine .inr ⟨?_, List.le_trans keys further⟩
        intro sameEnds
        rw [← sameEnds] at further
        exact apart (List.le_antisymm keys further)

instance : Std.Antisymm attributeBefore where
  antisymm := by
    intro first second ahead behind
    rw [attributeBefore_iff] at ahead behind
    obtain ⟨key, value⟩ := first
    obtain ⟨otherKey, otherValue⟩ := second
    rcases ahead with ⟨rfl, values⟩ | ⟨apart, keys⟩
    · rcases behind with ⟨-, again⟩ | ⟨different, -⟩
      · exact congrArg (EventAttribute.mk key) (List.le_antisymm values again)
      · exact absurd rfl different
    · rcases behind with ⟨same, -⟩ | ⟨-, again⟩
      · exact absurd same.symm apart
      · exact absurd (List.le_antisymm keys again) apart

/-- Attributes are ordered by key and value, so equal ones only stand for each
other. -/
theorem sortedAttributes_eq_of_perm {first second : List EventAttribute}
    (arranged : first.Perm second) :
    sortedAttributes first = sortedAttributes second := by
  change first.insertionSort attributeBefore = second.insertionSort attributeBefore
  exact insertionSort_eq_of_perm arranged

/-- The same envelope with its identifiers and attributes in another order. -/
structure Rearranged (first second : EventEnvelope) : Prop where
  identifiers : first.identifiers.Perm second.identifiers
  attributes : first.attributes.Perm second.attributes
  others : { first with identifiers := [], attributes := [] } =
    { second with identifiers := [], attributes := [] }

namespace Rearranged

variable {first second : EventEnvelope}

theorem canonicalText_eq (rearranged : Rearranged first second) :
    first.canonicalText = second.canonicalText := by
  have identifiers := sortedIdentifiers_eq_of_perm rearranged.identifiers
  have attributes := sortedAttributes_eq_of_perm rearranged.attributes
  have others := rearranged.others
  rw [EventEnvelope.mk.injEq] at others
  obtain ⟨schema, eventType, taxonomy, source, producer, window, observed, published, -,
    -, summary, payload⟩ := others
  simp only [EventEnvelope.canonicalText, canonicalSeed, canonicalLines,
    identifiersText, attributesText, identifiers, attributes, schema, eventType,
    taxonomy, source, producer, window, observed, published, summary, payload]

theorem contentId_eq (rearranged : Rearranged first second) :
    first.contentId = second.contentId :=
  congrArg makeId rearranged.canonicalText_eq

theorem deterministicKey_eq (rearranged : Rearranged first second) :
    deriveDeterministicEventKey first = deriveDeterministicEventKey second := by
  have identifiers := sortedIdentifiers_eq_of_perm rearranged.identifiers
  have others := rearranged.others
  rw [EventEnvelope.mk.injEq] at others
  obtain ⟨schema, eventType, taxonomy, -, -, window, -⟩ := others
  simp only [deriveDeterministicEventKey, identifiers, rearranged.contentId_eq, schema,
    eventType, taxonomy, window]

end Rearranged

theorem publicKeyFromHex_toHex (publicKey : PublicKey) :
    publicKeyFromHex publicKey.toHex = some publicKey := by
  rw [publicKeyFromHex, Hash.toHex_length, if_neg (by decide), Hash.fromHex_toHex]

theorem decodeSignature_encode (signature : ByteString) :
    decodeSignature (Hex.encode signature false true) = .ok signature := by
  have length := Hex.encode_length signature false true
  by_cases empty : signature = []
  · subst empty
    rfl
  · have nonempty : Hex.encode signature false true ≠ [] := by
      rw [← List.length_pos_iff, length]
      have positive := List.length_pos_iff.mpr empty
      omega
    have half : (Hex.encode signature false true).length / 2 = signature.length := by
      omega
    rw [decodeSignature, if_neg nonempty, if_neg (by omega), half,
      Hex.decode_encode true empty (by simp)]
    simp

section Signing

variable (scheme : SignatureScheme)

/-- What is relied on of the library: a signature verifies with the matching public
key over the same bytes. -/
def SignsVerifiably (privateKey : PrivateKey) : Prop :=
  ∀ (message : ByteString) (random : Nat),
    scheme.verify (scheme.publicKey privateKey) message
      (scheme.sign privateKey message random) = true

theorem verifyEventRecord_signEventRecord {privateKey : PrivateKey}
    (signs : SignsVerifiably scheme privateKey) (envelope : EventEnvelope)
    (signerName : ByteString) (now : Int64) (random : Nat) :
    verifyEventRecord scheme
      (signEventRecord scheme envelope privateKey signerName now random) = true := by
  rw [verifyEventRecord, signEventRecord]
  dsimp only
  rw [publicKeyFromHex_toHex]
  dsimp only
  rw [verifyMessageHex, decodeSignature_encode]
  exact signs _ random

theorem verifyEventRecord_rearranged {record : SignedEventRecord}
    {envelope : EventEnvelope} (rearranged : Rearranged record.envelope envelope) :
    verifyEventRecord scheme { record with envelope := envelope } =
      verifyEventRecord scheme record := by
  rw [verifyEventRecord, verifyEventRecord, rearranged.canonicalText_eq]

/-- A signed record verifies; and rearranging the identifiers and the attributes of
any record changes neither its canonical text, nor its identifiers, nor whether it
verifies. -/
theorem signing_stable :
    (∀ privateKey : PrivateKey, SignsVerifiably scheme privateKey →
      ∀ (envelope : EventEnvelope) (signerName : ByteString) (now : Int64)
        (random : Nat),
        verifyEventRecord scheme
          (signEventRecord scheme envelope privateKey signerName now random) = true) ∧
    ∀ (record : SignedEventRecord) (envelope : EventEnvelope),
      Rearranged record.envelope envelope →
        let other := { record with envelope := envelope }
        other.envelope.canonicalText = record.envelope.canonicalText ∧
          other.envelope.contentId = record.envelope.contentId ∧
          other.deterministicKey = record.deterministicKey ∧
          verifyEventRecord scheme other = verifyEventRecord scheme record := by
  refine ⟨fun privateKey signs => verifyEventRecord_signEventRecord scheme signs, ?_⟩
  intro record envelope rearranged
  exact ⟨rearranged.canonicalText_eq.symm, rearranged.contentId_eq.symm,
    rearranged.deterministicKey_eq.symm,
    verifyEventRecord_rearranged scheme rearranged⟩

end Signing

/-- A scheme whose signatures are identifiers of key and message; a public key holds
the private one twice. -/
def digestScheme : SignatureScheme where
  publicKey privateKey :=
    ⟨privateKey.bytes ++ privateKey.bytes, by
      rw [List.length_append, privateKey.size_eq]⟩
  sign privateKey message _ := (makeId (privateKey.bytes ++ message)).bytes
  verify publicKey message signature :=
    signature = (makeId (publicKey.bytes.take 32 ++ message)).bytes

theorem digestScheme_signs (privateKey : PrivateKey) :
    SignsVerifiably digestScheme privateKey := by
  intro message random
  have half : (privateKey.bytes ++ privateKey.bytes).take 32 = privateKey.bytes :=
    List.take_left' privateKey.size_eq
  simp only [digestScheme, half, decide_true]

theorem signing_stable_digest :
    verifyEventRecord digestScheme (signEventRecord digestScheme
        { identifiers := [ascii "tx:2", ascii "tx:1"] } Hash.zero (ascii "a") 7 0) =
      true ∧
    EventEnvelope.canonicalText { identifiers := [ascii "tx:1", ascii "tx:2"] } =
      EventEnvelope.canonicalText { identifiers := [ascii "tx:2", ascii "tx:1"] } :=
  ⟨(signing_stable digestScheme).1 Hash.zero (digestScheme_signs _) _ _ _ _,
    ((signing_stable digestScheme).2
      { envelope := { identifiers := [ascii "tx:2", ascii "tx:1"] } }
      { identifiers := [ascii "tx:1", ascii "tx:2"] }
      ⟨List.Perm.swap _ _ _, List.Perm.refl _, rfl⟩).1⟩

end Core

end Blocxxi
