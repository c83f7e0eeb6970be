import Blocxxi.EventPublications
import Mathlib.Data.List.Pairwise

/-!
# Spellings of a signature

A signature and a key are stored as texts of hexadecimal digits, and are verified
as bytes.  The letter case of a text does not matter to the verification, but
texts are what the store compares, so an event that is published in another
letter case takes a second slot.
-/

namespace Blocxxi

namespace P2P

open Blocxxi.Core Cxx ByteText MergeByKey StepMachine

/-- The signatures decode to the same bytes and the keys to the same key. -/
def DecodesAlike (first second : SignedEventRecord) : Prop :=
  (∃ signature, decodeSignature first.signatureHex = .ok signature ∧
    decodeSignature second.signatureHex = .ok signature) ∧
  ∃ publicKey, publicKeyFromHex first.signerPublicKeyHex = some publicKey ∧
    publicKeyFromHex second.signerPublicKeyHex = some publicKey

/-- The texts differ in letter case at most. -/
def SpelledAlike (first second : SignedEventRecord) : Prop :=
  first.signatureHex.map Hex.lowerCaseDigit =
      second.signatureHex.map Hex.lowerCaseDigit ∧
    first.signerPublicKeyHex.map Hex.lowerCaseDigit =
      second.signerPublicKeyHex.map Hex.lowerCaseDigit

theorem encode_decodeSignature {value signature : ByteString}
    (decoded : decodeSignature value = .ok signature) :
    Hex.encode signature false true = value.map Hex.lowerCaseDigit := by
  unfold decodeSignature at decoded
  split at decoded
  · rename_i empty
    cases decoded
    rw [empty]
    rfl
  split at decoded
  · cases decoded
  · rename_i nonempty even
    apply Hex.encode_decodePairs
    apply Hex.decodePairs_of_decode nonempty _ decoded
    rw [List.length_replicate]
    omega

theorem toHex_publicKeyFromHex {value : ByteString} {publicKey : PublicKey}
    (decoded : publicKeyFromHex value = some publicKey) :
    publicKey.toHex = value.map Hex.lowerCaseDigit := by
  unfold publicKeyFromHex at decoded
  split at decoded
  · cases decoded
  rename_i size
  rw [ne_eq, not_not] at size
  split at decoded
  · rename_i key isKey
    cases decoded
    have isBytes := Hash.fromHex_eq_ok_iff.mp isKey
    apply Hex.encode_decodePairs
    apply Hex.decodePairs_of_decode _ _ isBytes
    · rw [← List.length_pos_iff, size]
      decide
    · rw [Hash.zero.size_eq, size]
  · cases decoded

variable {scheme : SignatureScheme}

/-- What is verified can be decoded. -/
theorem decodes_of_verified {record : SignedEventRecord}
    (verified : verifyEventRecord scheme record = true) :
    ∃ publicKey signature,
      publicKeyFromHex record.signerPublicKeyHex = some publicKey ∧
        decodeSignature record.signatureHex = .ok signature := by
  unfold verifyEventRecord at verified
  split at verified
  · cases verified
  · rename_i publicKey isKey
    unfold verifyMessageHex at verified
    split at verified
    · rename_i signature isSignature
      exact ⟨publicKey, signature, isKey, isSignature⟩
    · cases verified

/-- Verified records decode to the same bytes exactly when they differ in letter
case at most. -/
theorem decodesAlike_iff {first second : SignedEventRecord}
    (firstVerified : verifyEventRecord scheme first = true)
    (secondVerified : verifyEventRecord scheme second = true) :
    DecodesAlike first second ↔ SpelledAlike first second := by
  constructor
  · rintro ⟨⟨signature, firstSignature, secondSignature⟩, publicKey, firstKey,
      secondKey⟩
    constructor
    · rw [← encode_decodeSignature firstSignature,
        encode_decodeSignature secondSignature]
    · rw [← toHex_publicKeyFromHex firstKey, toHex_publicKeyFromHex secondKey]
  · rintro ⟨sameSignature, sameKey⟩
    obtain ⟨firstKey, firstSignature, isFirstKey, isFirst⟩ :=
      decodes_of_verified firstVerified
    obtain ⟨secondKey, secondSignature, isSecondKey, isSecond⟩ :=
      decodes_of_verified secondVerified
    have signatures : firstSignature = secondSignature := by
      apply Hex.encode_injective true
      dsimp only
      rw [encode_decodeSignature isFirst, sameSignature,
        encode_decodeSignature isSecond]
    have keys : firstKey = secondKey := by
      apply Hash.toHex_injective
      rw [toHex_publicKeyFromHex isFirstKey, sameKey,
        toHex_publicKeyFromHex isSecondKey]
    subst signatures
    subst keys
    exact ⟨⟨firstSignature, isFirst, isSecond⟩, firstKey, isFirstKey, isSecondKey⟩

/-- The record that a call publishes, if it is accepted. -/
def StoreCall.acceptedRecord (scheme : SignatureScheme) :
    StoreCall → Option SignedEventRecord
  | .publish record _ =>
      if verifyEventRecord scheme record then some record else none
  | .republishRecent _ _ => none

def acceptedRecords (scheme : SignatureScheme) (calls : List StoreCall) :
    List SignedEventRecord :=
  calls.filterMap (StoreCall.acceptedRecord scheme)

theorem acceptedRecords_append_singleton (calls : List StoreCall)
    (call : StoreCall) :
    acceptedRecords scheme (calls ++ [call]) =
      acceptedRecords scheme calls ++ (call.acceptedRecord scheme).toList := by
  rw [acceptedRecords, List.filterMap_append, List.filterMap_cons]
  cases call.acceptedRecord scheme with
  | none => rfl
  | some record => rfl

theorem verified_of_mem {calls : List StoreCall} {record : SignedEventRecord}
    (member : record ∈ acceptedRecords scheme calls) :
    verifyEventRecord scheme record = true := by
  obtain ⟨call, -, isRecord⟩ := List.mem_filterMap.mp member
  cases call with
  | publish published now =>
      rw [StoreCall.acceptedRecord] at isRecord
      split at isRecord
      · rename_i verified
        cases isRecord
        exact verified
      · cases isRecord
  | republishRecent window now => cases isRecord

theorem map_identity_republishRecent (window now : Int64) (dht : MemoryEventDht) :
    (dht.republishRecent window now).2.events.map identity =
      dht.events.map identity := by
  have touched (published : PublishedEvent) :
      identity (if MemoryEventDht.isFresh window now published then
          MemoryEventDht.republished published now
        else published) = identity published := by
    split <;> rfl
  simp only [MemoryEventDht.events, MemoryEventDht.republishRecent, List.map_flatMap,
    List.flatMap_map, List.map_map, Function.comp_def, touched]

/-- The stored identities are those of the accepted records. -/
theorem mem_identities_storeAfter {calls : List StoreCall} {who : Identity} :
    who ∈ (storeAfter scheme calls).events.map identity ↔
      ∃ record ∈ acceptedRecords scheme calls, recordIdentity record = who := by
  induction calls using List.reverseRecOn with
  | nil =>
      constructor
      · intro member
        cases member
      · rintro ⟨record, member, -⟩
        cases member
  | append_singleton calls call ih =>
      rw [storeAfter_append_singleton, acceptedRecords_append_singleton]
      cases call with
      | publish record now =>
          rw [StoreCall.apply]
          cases verified : verifyEventRecord scheme record with
          | false =>
              rw [publish_rejected verified, ih]
              simp [StoreCall.acceptedRecord, verified]
          | true =>
              have one : (StoreCall.acceptedRecord scheme
                  (.publish record now)).toList = [record] := by
                simp [StoreCall.acceptedRecord, verified]
              rw [mem_identities_publish (sound_storeAfter calls) verified, ih, one]
              constructor
              · rintro (rfl | ⟨earlier, member, isWho⟩)
                · exact ⟨record, List.mem_append_right _ List.mem_cons_self, rfl⟩
                · exact ⟨earlier, List.mem_append_left _ member, isWho⟩
              · rintro ⟨other, member, rfl⟩
                rcases List.mem_append.mp member with earlier | last
                · exact Or.inr ⟨other, earlier, rfl⟩
                · rw [List.mem_singleton.mp last]
                  exact Or.inl rfl
      | republishRecent window now =>
          rw [StoreCall.apply, map_identity_republishRecent, ih]
          simp [StoreCall.acceptedRecord]

/-- No bucket holds two events whose signatures and keys are the same bytes. -/
def OneSlot (dht : MemoryEventDht) : Prop :=
  ∀ entry ∈ dht.entries, entry.2.Pairwise fun first second =>
    ¬ DecodesAlike first.record second.record

/-- Accepted records of one key differ in more than the letter case of their
signatures and keys. -/
def SpelledOnce (scheme : SignatureScheme) (calls : List StoreCall) : Prop :=
  ∀ first ∈ acceptedRecords scheme calls, ∀ second ∈ acceptedRecords scheme calls,
    first.deterministicKey = second.deterministicKey → SpelledAlike first second →
      first.signatureHex = second.signatureHex ∧
        first.signerPublicKeyHex = second.signerPublicKeyHex

theorem SpelledOnce.init {before after : List StoreCall}
    (once : SpelledOnce scheme (before ++ after)) : SpelledOnce scheme before := by
  have later {record : SignedEventRecord}
      (member : record ∈ acceptedRecords scheme before) :
      record ∈ acceptedRecords scheme (before ++ after) := by
    rw [acceptedRecords, List.filterMap_append]
    exact List.mem_append_left _ member
  exact fun first firstMem second secondMem =>
    once first (later firstMem) second (later secondMem)

/-- A stored event has the texts of an accepted record with its key. -/
theorem accepted_of_mem {calls : List StoreCall} {published : PublishedEvent}
    (member : published ∈ (storeAfter scheme calls).events) :
    ∃ record ∈ acceptedRecords scheme calls,
      record.deterministicKey = published.dhtKey ∧
        record.signatureHex = published.record.signatureHex ∧
        record.signerPublicKeyHex = published.record.signerPublicKeyHex := by
  obtain ⟨record, recordMem, isIdentity⟩ :=
    mem_identities_storeAfter.mp (List.mem_map_of_mem member)
  rw [recordIdentity, identity, Identity.mk.injEq] at isIdentity
  exact ⟨record, recordMem, isIdentity⟩

/-- An accepted record is stored, as an event with its key and its texts. -/
theorem stored_of_accepted {calls : List StoreCall} {record : SignedEventRecord}
    (member : record ∈ acceptedRecords scheme calls) :
    ∃ published ∈ (storeAfter scheme calls).bucket record.deterministicKey,
      published.record.signatureHex = record.signatureHex ∧
        published.record.signerPublicKeyHex = record.signerPublicKeyHex := by
  obtain ⟨published, inEvents, isIdentity⟩ := List.mem_map.mp
    (mem_identities_storeAfter.mpr ⟨record, member, rfl⟩)
  rw [recordIdentity, identity, Identity.mk.injEq] at isIdentity
  obtain ⟨isKey, isSignature, isSigner⟩ := isIdentity
  exact ⟨published, (mem_bucket_iff (sound_storeAfter calls)).mpr ⟨inEvents, isKey⟩,
    isSignature, isSigner⟩

theorem oneSlot_of_spelledOnce {calls : List StoreCall}
    (once : SpelledOnce scheme calls) : OneSlot (storeAfter scheme calls) := by
  intro entry entryMem
  have sound := (@sound_storeAfter scheme calls).buckets entry entryMem
  refine (List.pairwise_map.mp sound.distinct).imp_of_mem ?_
  intro first second firstMem secondMem differs alike
  obtain ⟨one, oneMem, oneKey, oneSignature, oneSigner⟩ :=
    accepted_of_mem (mem_events.mpr ⟨entry, entryMem, firstMem⟩)
  obtain ⟨other, otherMem, otherKey, otherSignature, otherSigner⟩ :=
    accepted_of_mem (mem_events.mpr ⟨entry, entryMem, secondMem⟩)
  have sameKey : first.dhtKey = second.dhtKey :=
    (sound.keyed first firstMem).trans (sound.keyed second secondMem).symm
  have spelled : SpelledAlike one other := by
    rw [SpelledAlike, oneSignature, otherSignature, oneSigner, otherSigner]
    exact (decodesAlike_iff (sound.verified first firstMem)
      (sound.verified second secondMem)).mp alike
  obtain ⟨sameSignature, sameSigner⟩ := once one oneMem other otherMem
    (by rw [oneKey, otherKey, sameKey]) spelled
  apply differs
  rw [identity, identity, sameKey, ← oneSignature, ← otherSignature, ← oneSigner,
    ← otherSigner, sameSignature, sameSigner]

theorem spelledOnce_of_oneSlot {calls : List StoreCall}
    (oneSlot : OneSlot (storeAfter scheme calls)) : SpelledOnce scheme calls := by
  intro first firstMem second secondMem sameKey spelled
  by_contra differs
  obtain ⟨one, oneMem, oneSignature, oneSigner⟩ := stored_of_accepted firstMem
  obtain ⟨other, otherMem, otherSignature, otherSigner⟩ :=
    stored_of_accepted secondMem
  rw [← sameKey] at otherMem
  have unlike : one ≠ other := by
    rintro rfl
    exact differs ⟨oneSignature.symm.trans otherSignature,
      oneSigner.symm.trans otherSigner⟩
  have alike : DecodesAlike one.record other.record := by
    rw [DecodesAlike, oneSignature, otherSignature, oneSigner, otherSigner]
    exact (decodesAlike_iff (verified_of_mem firstMem)
      (verified_of_mem secondMem)).mpr spelled
  have sound := @sound_storeAfter scheme calls
  obtain ⟨inEvents, isKey⟩ := (mem_bucket_iff sound).mp oneMem
  obtain ⟨entry, entryMem, inBucket⟩ := mem_events.mp inEvents
  have sameEntry : entry.2 = (storeAfter scheme calls).bucket
      first.deterministicKey := by
    rw [MemoryEventDht.bucket, ← isKey,
      (sound.buckets entry entryMem).keyed one inBucket,
      lookup_of_mem sound.distinctKeys entryMem, Option.getD_some]
  have apart := oneSlot entry entryMem
  rw [sameEntry] at apart
  have symmetric : Std.Symm fun first second : PublishedEvent =>
      ¬ DecodesAlike first.record second.record := by
    constructor
    rintro first second apart ⟨⟨signature, isFirst, isSecond⟩, key, firstKey,
      secondKey⟩
    exact apart ⟨⟨signature, isSecond, isFirst⟩, key, secondKey, firstKey⟩
  exact apart.forall oneMem otherMem unlike alike

/-- A signed event has one slot at all times exactly when no two accepted records
of one key differ in letter case only. -/
theorem oneSlot_iff (scheme : SignatureScheme) (calls : List StoreCall) :
    (∀ before after, calls = before ++ after →
      OneSlot (storeAfter scheme before)) ↔ SpelledOnce scheme calls := by
  constructor
  · intro oneSlot
    exact spelledOnce_of_oneSlot (oneSlot calls [] (List.append_nil calls).symm)
  · rintro once before after rfl
    exact oneSlot_of_spelledOnce once.init

/-- A record with the signature of one byte. -/
def spelledRecord (signatureHex : String) : SignedEventRecord :=
  { acceptedRecord with signatureHex := ascii signatureHex }

/-- The second letter case takes a second slot. -/
theorem spellings_notOneSlot :
    ¬ ∀ (scheme : SignatureScheme) (calls : List StoreCall),
      (∀ call ∈ calls, ∃ record now, call = .publish record now) →
        OneSlot (storeAfter scheme calls) := by
  intro always
  have oneSlot := always lenientScheme
    [.publish (spelledRecord "ab") 10, .publish (spelledRecord "AB") 20] (by simp)
  have accepted : acceptedRecords lenientScheme
      [.publish (spelledRecord "ab") 10, .publish (spelledRecord "AB") 20] =
        [spelledRecord "ab", spelledRecord "AB"] := by
    have lower : verifyEventRecord lenientScheme (spelledRecord "ab") = true := by
      decide +kernel
    have upper : verifyEventRecord lenientScheme (spelledRecord "AB") = true := by
      decide +kernel
    simp [acceptedRecords, StoreCall.acceptedRecord, lower, upper]
  have once := spelledOnce_of_oneSlot oneSlot
  rw [SpelledOnce, accepted] at once
  have same := once (spelledRecord "ab") List.mem_cons_self (spelledRecord "AB")
    (List.mem_cons_of_mem _ List.mem_cons_self) rfl ⟨by decide, rfl⟩
  exact absurd same.1 (by decide)

end P2P

end Blocxxi
