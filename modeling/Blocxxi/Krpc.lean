import Blocxxi.BencodeProgress

/-!
# KRPC messages

A message is a bencoded dictionary with a transaction identifier, a type and
the fields of that type.  Any datagram a node receives is decoded as such a
message, so the decoder faces bytes of a sender's choosing.
-/

namespace Blocxxi

namespace Kademlia

open Cxx Bencode

structure KrpcError where
  code : Int64 := 0
  message : ByteString := []

structure KrpcQuery where
  method : ByteString := []
  arguments : DictionaryType := []

structure KrpcResponse where
  values : DictionaryType := []

inductive Payload
  | query (query : KrpcQuery)
  | response (response : KrpcResponse)
  | error (error : KrpcError)

structure KrpcMessage where
  transactionId : ByteString := []
  version : Option ByteString := none
  payload : Payload := .query {}

def requireString (dictionary : DictionaryType) (key : ByteString) :
    Outcome ByteString :=
  match dictionary.lookup key with
  | none => .thrown "missing KRPC string field"
  | some found => found.asString

def requireDictionaryField (dictionary : DictionaryType) (key : ByteString) :
    Outcome DictionaryType :=
  match dictionary.lookup key with
  | none => .thrown "missing KRPC dictionary field"
  | some found => found.asDictionary

/-- The entries that the payload of a message adds to the dictionary. -/
def payloadEntries : Payload → DictionaryType → DictionaryType
  | .query query, root =>
      emplace (ascii "a") (.dictionary query.arguments)
        (emplace (ascii "q") (.string query.method)
          (emplace (ascii "y") (.string (ascii "q")) root))
  | .response response, root =>
      emplace (ascii "r") (.dictionary response.values)
        (emplace (ascii "y") (.string (ascii "r")) root)
  | .error error, root =>
      emplace (ascii "e") (.list [.integer error.code, .string error.message])
        (emplace (ascii "y") (.string (ascii "e")) root)

def encodeKrpc (message : KrpcMessage) : ByteString :=
  let root := emplace (ascii "t") (.string message.transactionId) []
  let root :=
    match message.version with
    | some version => emplace (ascii "v") (.string version) root
    | none => root
  encode (.dictionary (payloadEntries message.payload root))

/-- A string field that may be absent. -/
def optionalString (dictionary : DictionaryType) (key : ByteString) :
    Outcome (Option ByteString) :=
  match dictionary.lookup key with
  | none => .returned none
  | some found => do
      let version ← found.asString
      .returned (some version)

/-- The code and the message of an error. -/
def errorOf : List Value → Outcome KrpcError
  | [code, message] => do
      let code ← code.asInteger
      let message ← message.asString
      .returned { code := code, message := message }
  | _ => .thrown "KRPC error must contain code and message"

def decodeError (root : DictionaryType) : Outcome KrpcError :=
  match root.lookup (ascii "e") with
  | none => .thrown "missing KRPC error field"
  | some found => do
      let error ← found.asList
      errorOf error

def decodePayload (type : ByteString) (root : DictionaryType) :
    Outcome Payload :=
  if type = ascii "q" then do
    let method ← requireString root (ascii "q")
    let arguments ← requireDictionaryField root (ascii "a")
    .returned (.query { method := method, arguments := arguments })
  else if type = ascii "r" then do
    let values ← requireDictionaryField root (ascii "r")
    .returned (.response { values := values })
  else if type = ascii "e" then do
    let error ← decodeError root
    .returned (.error error)
  else .thrown "unknown KRPC message type"

/-- What is left of decoding a message once its bencoding is decoded. -/
def messageOf (value : Value) : Outcome KrpcMessage := do
  let root ← value.asDictionary
  let type ← requireString root (ascii "y")
  let transactionId ← requireString root (ascii "t")
  let version ← optionalString root (ascii "v")
  let payload ← decodePayload type root
  .returned
    { transactionId := transactionId, version := version, payload := payload }

/-- Decode a datagram, in at most the given number of steps. -/
def decodeKrpc (encoded : ByteString) (steps : Nat) : Outcome KrpcMessage := do
  let root ← decode encoded steps
  messageOf root

theorem asString_ends (value : Value) : value.asString ≠ .running := by
  cases value <;> simp [Value.asString]

theorem asDictionary_ends (value : Value) : value.asDictionary ≠ .running := by
  cases value <;> simp [Value.asDictionary]

theorem requireString_ends (dictionary : DictionaryType) (key : ByteString) :
    requireString dictionary key ≠ .running := by
  unfold requireString
  split
  · simp
  · exact asString_ends _

theorem requireDictionaryField_ends (dictionary : DictionaryType)
    (key : ByteString) : requireDictionaryField dictionary key ≠ .running := by
  unfold requireDictionaryField
  split
  · simp
  · exact asDictionary_ends _

theorem optionalString_ends (dictionary : DictionaryType) (key : ByteString) :
    optionalString dictionary key ≠ .running := by
  unfold optionalString
  split
  · simp
  · apply Outcome.bind_ends (asString_ends _)
    simp

theorem errorOf_ends (error : List Value) : errorOf error ≠ .running := by
  unfold errorOf
  split
  · rename_i code message
    apply Outcome.bind_ends
    · cases code <;> simp [Value.asInteger]
    · intro _ _
      apply Outcome.bind_ends (asString_ends message)
      simp
  · simp

theorem decodeError_ends (root : DictionaryType) :
    decodeError root ≠ .running := by
  unfold decodeError
  split
  · simp
  · rename_i found _
    apply Outcome.bind_ends
    · cases found <;> simp [Value.asList]
    · exact fun error _ => errorOf_ends error

theorem decodePayload_ends (type : ByteString) (root : DictionaryType) :
    decodePayload type root ≠ .running := by
  unfold decodePayload
  split
  · apply Outcome.bind_ends (requireString_ends _ _)
    intro method _
    apply Outcome.bind_ends (requireDictionaryField_ends _ _)
    simp
  split
  · apply Outcome.bind_ends (requireDictionaryField_ends _ _)
    simp
  split
  · apply Outcome.bind_ends (decodeError_ends _)
    simp
  · simp

theorem messageOf_ends (value : Value) : messageOf value ≠ .running := by
  unfold messageOf
  apply Outcome.bind_ends (asDictionary_ends value)
  intro root _
  apply Outcome.bind_ends (requireString_ends _ _)
  intro type _
  apply Outcome.bind_ends (requireString_ends _ _)
  intro transactionId _
  apply Outcome.bind_ends (optionalString_ends _ _)
  intro version _
  apply Outcome.bind_ends (decodePayload_ends _ _)
  simp

theorem decodeKrpc_ends {encoded : ByteString} {steps : Nat}
    (ends : decode encoded steps ≠ .running) :
    decodeKrpc encoded steps ≠ .running :=
  Outcome.bind_ends ends fun root _ => messageOf_ends root

/-- Every value decoded inside the input moves the offset forward and keeps it
inside, and both decoders end. -/
structure DecodesInBounds (encoded : Span UInt8) : Prop where
  advances : ∀ steps offset value behind, offset < encoded.size →
    decodeValue encoded.items steps offset = .returned (value, behind) →
      offset < behind ∧ behind ≤ encoded.size
  decode_ends : ∃ bound, ∀ steps, bound ≤ steps →
    decode encoded.items steps ≠ .running
  decodeKrpc_ends : ∃ bound, ∀ steps, bound ≤ steps →
    decodeKrpc encoded.items steps ≠ .running

/-- Decoding makes progress and ends exactly when no length field in the input
sends the offset back to its own token or further. -/
theorem decodesInBounds_iff (encoded : Span UInt8) :
    DecodesInBounds encoded ↔ LengthsStayForward encoded.items := by
  constructor
  · intro inBounds position behind field
    by_contra notForward
    have backwards : behind ≤ position := Nat.le_of_not_lt notForward
    obtain ⟨value, decoded⟩ := decodeValue_backwards field backwards
    have inside : position < encoded.size := stringEnd_inside field
    have forward := (inBounds.advances 1 position value behind inside decoded).1
    omega
  · intro forward
    refine ⟨?_, ⟨encoded.size + 1, ?_⟩, ⟨encoded.size + 1, ?_⟩⟩
    · intro steps offset value behind _ decoded
      exact decodeValue_advances forward steps offset value behind decoded
    · exact fun steps enough => decode_ends forward enough
    · exact fun steps enough => decodeKrpc_ends (decode_ends forward enough)

/-- A list whose only item is a string of length `2^64 - 21`. -/
def backwardLength : Span UInt8 where
  items := ascii "l18446744073709551595:"
  length_lt := by decide

/-- The item of that list is decoded over and over at the same offset. -/
theorem decodeItems_backwardLength (decode : Nat → Outcome (Value × Nat))
    (returns : decode 1 = .returned (.string [], 1) ∨ decode 1 = .running)
    (steps : Nat) (items : List Value) :
    decodeItems backwardLength.items decode steps items 1 = .running := by
  induction steps generalizing items with
  | zero => rfl
  | succ steps ih =>
      have goesOn : 1 < backwardLength.items.length ∧
          backwardLength.items[1]? ≠ some 101 := by decide
      unfold decodeItems
      rw [if_pos goesOn]
      rcases returns with again | stuck
      · rw [again]
        exact ih (items ++ [.string []])
      · rw [stuck]
        rfl

theorem decode_backwardLength (steps : Nat) :
    decode backwardLength.items steps = .running := by
  cases steps with
  | zero => rfl
  | succ steps =>
      have item : decodeValue backwardLength.items steps 1 =
            .returned (.string [], 1) ∨
          decodeValue backwardLength.items steps 1 = .running := by
        cases steps with
        | zero => exact Or.inr rfl
        | succ steps =>
            left
            have string : decodeString backwardLength.items 1 =
                .returned (.string [], 1) := by
              rfl
            simp +decide [decodeValue, string]
      simp +decide [decode, decodeValue,
        decodeItems_backwardLength _ item]

/-- On that input the decoder never ends. -/
theorem not_decodesInBounds :
    ¬ ∀ encoded : Span UInt8, DecodesInBounds encoded := by
  intro always
  obtain ⟨bound, ends⟩ := (always backwardLength).decode_ends
  exact ends bound (Nat.le_refl _) (decode_backwardLength bound)

end Kademlia

end Blocxxi
