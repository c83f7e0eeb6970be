import Blocxxi.BencodeGrammar
import Blocxxi.Krpc
import Mathlib.Algebra.Order.BigOperators.Group.List

/-!
# Decoding an encoded message

A message is written into the dictionary of its fields, and read back from the
entries of that dictionary.  Other entries of a received dictionary are dropped,
so a message that was received and is encoded again is no longer than the
datagram it came in.
-/

namespace Blocxxi

namespace Kademlia

open Cxx Bencode

/-- The dictionaries in the payload are maps. -/
def Payload.Ordered : Payload → Prop
  | .query sent => (Value.dictionary sent.arguments).Ordered
  | .response sent => (Value.dictionary sent.values).Ordered
  | .error _ => True

/-- The dictionary that is encoded for a message. -/
def messageRoot (message : KrpcMessage) : DictionaryType :=
  let root := emplace (ascii "t") (.string message.transactionId) []
  let root :=
    match message.version with
    | some version => emplace (ascii "v") (.string version) root
    | none => root
  payloadEntries message.payload root

theorem encodeKrpc_eq (message : KrpcMessage) :
    encodeKrpc message = encode (.dictionary (messageRoot message)) :=
  rfl

theorem messageRoot_ordered {message : KrpcMessage}
    (ordered : message.payload.Ordered) :
    (Value.dictionary (messageRoot message)).Ordered := by
  have transaction : (Value.dictionary
      (emplace (ascii "t") (.string message.transactionId) [])).Ordered :=
    emplace_ordered ⟨List.Pairwise.nil, trivial⟩ trivial
  have root : (Value.dictionary
      (match message.version with
      | some version => emplace (ascii "v") (.string version)
          (emplace (ascii "t") (.string message.transactionId) [])
      | none => emplace (ascii "t") (.string message.transactionId) [])).Ordered := by
    cases message.version with
    | none => exact transaction
    | some version => exact emplace_ordered transaction trivial
  unfold messageRoot
  cases payload : message.payload with
  | query query =>
      rw [payload] at ordered
      exact emplace_ordered (emplace_ordered (emplace_ordered root trivial) trivial)
        ordered
  | response response =>
      rw [payload] at ordered
      exact emplace_ordered (emplace_ordered root trivial) ordered
  | error error =>
      exact emplace_ordered (emplace_ordered root trivial) ⟨trivial, trivial, trivial⟩

/-- The fields of a message are found again in its dictionary. -/
theorem messageOf_messageRoot (message : KrpcMessage) :
    messageOf (.dictionary (messageRoot message)) = .returned message := by
  obtain ⟨transactionId, version, payload⟩ := message
  cases version with
  | none =>
      cases payload with
      | query query => rfl
      | response response => rfl
      | error error => rfl
  | some version =>
      cases payload with
      | query query => rfl
      | response response => rfl
      | error error => rfl

theorem decodeKrpc_encodeKrpc {message : KrpcMessage}
    (ordered : message.payload.Ordered)
    (small : (encodeKrpc message).length < 2 ^ 63) {steps : Nat}
    (enough : (encodeKrpc message).length < steps) :
    decodeKrpc (encodeKrpc message) steps = .returned message := by
  rw [encodeKrpc_eq] at small enough ⊢
  rw [decodeKrpc, decode_encode _ (messageRoot_ordered ordered) (by omega) enough,
    Outcome.returned_bind, messageOf_messageRoot]

theorem lookup_mem {key : ByteString} {value : Value} {entries : DictionaryType}
    (found : entries.lookup key = some value) : (key, value) ∈ entries := by
  obtain ⟨before, after, rfl, -⟩ := List.lookup_eq_some_iff.mp found
  exact List.mem_append_right before List.mem_cons_self

theorem asString_returned {value : Value} {bytes : ByteString}
    (returned : value.asString = .returned bytes) : value = .string bytes := by
  cases value <;> cases returned
  rfl

theorem asDictionary_returned {value : Value} {entries : DictionaryType}
    (returned : value.asDictionary = .returned entries) :
    value = .dictionary entries := by
  cases value <;> cases returned
  rfl

theorem requireString_returned {root : DictionaryType} {key bytes : ByteString}
    (returned : requireString root key = .returned bytes) :
    (key, .string bytes) ∈ root := by
  unfold requireString at returned
  split at returned
  · cases returned
  · rename_i found isField
    rw [← asString_returned returned]
    exact lookup_mem isField

theorem requireDictionaryField_returned {root entries : DictionaryType}
    {key : ByteString}
    (returned : requireDictionaryField root key = .returned entries) :
    (key, .dictionary entries) ∈ root := by
  unfold requireDictionaryField at returned
  split at returned
  · cases returned
  · rename_i found isField
    rw [← asDictionary_returned returned]
    exact lookup_mem isField

theorem optionalString_returned {root : DictionaryType} {key : ByteString}
    {version : Option ByteString}
    (returned : optionalString root key = .returned version) :
    ∀ bytes, version = some bytes → (key, .string bytes) ∈ root := by
  unfold optionalString at returned
  split at returned
  · cases returned
    exact fun bytes absent => by cases absent
  · rename_i found isField
    obtain ⟨bytes, isString, result⟩ := Outcome.bind_returned returned
    cases result
    rintro _ ⟨⟩
    rw [← asString_returned isString]
    exact lookup_mem isField

theorem decodeError_returned {root : DictionaryType} {error : KrpcError}
    (returned : decodeError root = .returned error) :
    (ascii "e", .list [.integer error.code, .string error.message]) ∈ root := by
  unfold decodeError at returned
  split at returned
  · cases returned
  rename_i found isField
  obtain ⟨items, isList, result⟩ := Outcome.bind_returned returned
  have foundEq : found = .list items := by
    cases found <;> cases isList
    rfl
  unfold errorOf at result
  split at result
  · rename_i code message
    obtain ⟨number, isInteger, result⟩ := Outcome.bind_returned result
    obtain ⟨text, isString, result⟩ := Outcome.bind_returned result
    cases result
    have codeEq : code = .integer number := by
      cases code <;> cases isInteger
      rfl
    rw [← codeEq, ← asString_returned isString, ← foundEq]
    exact lookup_mem isField
  · cases result

/-- The entries of a payload are its own and those of the dictionary in front
of it. -/
theorem decodePayload_returned {type : ByteString} {root : DictionaryType}
    {payload : Payload} (isType : (ascii "y", .string type) ∈ root)
    (returned : decodePayload type root = .returned payload)
    {before : DictionaryType} {entry : ByteString × Value}
    (member : entry ∈ payloadEntries payload before) :
    entry ∈ before ∨ entry ∈ root := by
  unfold decodePayload at returned
  split at returned
  · rename_i isQuery
    obtain ⟨method, isMethod, result⟩ := Outcome.bind_returned returned
    obtain ⟨arguments, isArguments, result⟩ := Outcome.bind_returned result
    cases result
    subst isQuery
    rcases mem_emplace member with rfl | member
    · exact Or.inr (requireDictionaryField_returned isArguments)
    rcases mem_emplace member with rfl | member
    · exact Or.inr (requireString_returned isMethod)
    rcases mem_emplace member with rfl | member
    · exact Or.inr isType
    · exact Or.inl member
  split at returned
  · rename_i isResponse
    obtain ⟨values, isValues, result⟩ := Outcome.bind_returned returned
    cases result
    subst isResponse
    rcases mem_emplace member with rfl | member
    · exact Or.inr (requireDictionaryField_returned isValues)
    rcases mem_emplace member with rfl | member
    · exact Or.inr isType
    · exact Or.inl member
  split at returned
  · rename_i isErrorType
    obtain ⟨error, isError, result⟩ := Outcome.bind_returned returned
    cases result
    subst isErrorType
    rcases mem_emplace member with rfl | member
    · exact Or.inr (decodeError_returned isError)
    rcases mem_emplace member with rfl | member
    · exact Or.inr isType
    · exact Or.inl member
  · cases returned

/-- Every entry that is written for a received message was received with it. -/
theorem messageRoot_subset {root : DictionaryType} {message : KrpcMessage}
    (returned : messageOf (.dictionary root) = .returned message) :
    messageRoot message ⊆ root := by
  intro entry member
  obtain ⟨entries, isRoot, result⟩ := Outcome.bind_returned returned
  cases isRoot
  obtain ⟨type, isType, result⟩ := Outcome.bind_returned result
  obtain ⟨transactionId, isTransaction, result⟩ := Outcome.bind_returned result
  obtain ⟨version, isVersion, result⟩ := Outcome.bind_returned result
  obtain ⟨payload, isPayload, result⟩ := Outcome.bind_returned result
  cases result
  have transaction : ∀ entry ∈ emplace (ascii "t") (.string transactionId) [],
      entry ∈ root := by
    intro entry member
    rcases mem_emplace member with rfl | none
    · exact requireString_returned isTransaction
    · cases none
  rcases decodePayload_returned (requireString_returned isType) isPayload member
    with before | inRoot
  · cases version with
    | none => exact transaction entry before
    | some bytes =>
        rcases mem_emplace before with rfl | member
        · exact optionalString_returned isVersion bytes rfl
        · exact transaction entry member
  · exact inRoot

theorem decodePayload_ordered {type : ByteString} {root : DictionaryType}
    {payload : Payload} (ordered : ∀ entry ∈ root, entry.2.Ordered)
    (returned : decodePayload type root = .returned payload) :
    payload.Ordered := by
  unfold decodePayload at returned
  split at returned
  · obtain ⟨method, -, result⟩ := Outcome.bind_returned returned
    obtain ⟨arguments, isArguments, result⟩ := Outcome.bind_returned result
    cases result
    exact ordered _ (requireDictionaryField_returned isArguments)
  split at returned
  · obtain ⟨values, isValues, result⟩ := Outcome.bind_returned returned
    cases result
    exact ordered _ (requireDictionaryField_returned isValues)
  split at returned
  · obtain ⟨error, -, result⟩ := Outcome.bind_returned returned
    cases result
    trivial
  · cases returned

theorem messageOf_ordered {root : DictionaryType} {message : KrpcMessage}
    (ordered : (Value.dictionary root).Ordered)
    (returned : messageOf (.dictionary root) = .returned message) :
    message.payload.Ordered := by
  obtain ⟨entries, isRoot, result⟩ := Outcome.bind_returned returned
  cases isRoot
  obtain ⟨type, -, result⟩ := Outcome.bind_returned result
  obtain ⟨transactionId, -, result⟩ := Outcome.bind_returned result
  obtain ⟨version, -, result⟩ := Outcome.bind_returned result
  obtain ⟨payload, isPayload, result⟩ := Outcome.bind_returned result
  cases result
  exact decodePayload_ordered (Value.entriesOrdered_iff.mp ordered.2) isPayload

theorem encodeEntries_length (entries : DictionaryType) :
    (encodeEntries entries).length =
      (entries.map fun entry =>
        (appendEncodedString entry.1).length + (encode entry.2).length).sum := by
  induction entries with
  | nil => rfl
  | cons entry entries induction =>
      rw [encodeEntries, List.length_append, List.length_append, induction,
        List.map_cons, List.sum_cons]

/-- A map with fewer entries has no longer encoding. -/
theorem encodeEntries_length_le {fewer entries : DictionaryType}
    (ascend : KeysAscend fewer) (subset : fewer ⊆ entries) :
    (encodeEntries fewer).length ≤ (encodeEntries entries).length := by
  have distinct : fewer.Nodup := by
    apply List.Pairwise.imp _ ascend
    rintro first second before rfl
    exact List.lt_irrefl _ before
  obtain ⟨permuted, perm, sublist⟩ := List.subperm_of_subset distinct subset
  rw [encodeEntries_length, encodeEntries_length, ← (perm.map _).sum_eq]
  apply (sublist.map _).sum_le_sum
  exact fun length _ => Nat.zero_le length

/-- A received message is no longer when it is encoded again. -/
theorem encodeKrpc_length_le {encoded : ByteString}
    (inRange : LengthsInRange encoded) {steps : Nat} {message : KrpcMessage}
    (decoded : decodeKrpc encoded steps = .returned message) :
    (encodeKrpc message).length ≤ encoded.length := by
  obtain ⟨value, isValue, result⟩ := Outcome.bind_returned decoded
  obtain ⟨spelling, valid, rfl, rfl⟩ := decode_reads inRange isValue
  obtain ⟨root, isRoot, -⟩ := Outcome.bind_returned result
  have rootEq := asDictionary_returned isRoot
  have shorter := encode_value_length_le spelling valid
  have ordered := decode_ordered isValue
  rw [rootEq] at shorter ordered result
  have fewer := encodeEntries_length_le
    (messageRoot_ordered (messageOf_ordered ordered result)).1
    (messageRoot_subset result)
  rw [encodeKrpc_eq, encode]
  rw [encode] at shorter
  simp only [List.length_append] at shorter ⊢
  omega

/-- Messages survive encoding and decoding: those that were built, and those
that were received. -/
theorem krpc_roundTrips :
    (∀ message : KrpcMessage, message.payload.Ordered →
      (encodeKrpc message).length < 2 ^ 63 →
        ∀ steps, (encodeKrpc message).length < steps →
          decodeKrpc (encodeKrpc message) steps = .returned message) ∧
    ∀ (encoded : Span UInt8) (steps : Nat) (message : KrpcMessage),
      decodeKrpc encoded.items steps = .returned message →
      (LengthsInRange encoded.items ∨ (encodeKrpc message).length < 2 ^ 63) →
        ∀ again, (encodeKrpc message).length < again →
          decodeKrpc (encodeKrpc message) again = .returned message := by
  constructor
  · exact fun message ordered small steps enough =>
      decodeKrpc_encodeKrpc ordered small enough
  · intro encoded steps message decoded fits again enough
    have small : (encodeKrpc message).length < 2 ^ 63 := by
      rcases fits with inRange | small
      · exact Nat.lt_of_le_of_lt (encodeKrpc_length_le inRange decoded)
          encoded.length_lt
      · exact small
    obtain ⟨value, isValue, result⟩ := Outcome.bind_returned decoded
    have ordered := decode_ordered isValue
    obtain ⟨root, isRoot, -⟩ := Outcome.bind_returned result
    rw [asDictionary_returned isRoot] at ordered result
    exact decodeKrpc_encodeKrpc (messageOf_ordered ordered result) small enough

/-- An error, as it may arrive: with a field that is not part of it. -/
def receivedError : Span UInt8 where
  items := ascii "d1:eli203e3:bade1:t2:xy1:x0:1:y1:ee"
  length_lt := by decide

def protocolError : KrpcMessage where
  transactionId := ascii "xy"
  payload := .error { code := 203, message := ascii "bad" }

theorem krpc_roundTrips_error :
    decodeKrpc (encodeKrpc protocolError) 31 = .returned protocolError ∧
      decodeKrpc receivedError.items 40 = .returned protocolError ∧
      decodeKrpc (encodeKrpc protocolError) 64 = .returned protocolError := by
  have length : (encodeKrpc protocolError).length = 30 := by decide +kernel
  have received : decodeKrpc receivedError.items 40 = .returned protocolError := by
    rfl
  have again := krpc_roundTrips.2 receivedError 40 protocolError received
    (Or.inr (by rw [length]; decide)) 64 (by rw [length]; decide)
  have built := krpc_roundTrips.1 protocolError trivial
    (by rw [length]; decide) 31 (by rw [length]; decide)
  exact ⟨built, received, again⟩

end Kademlia

end Blocxxi
