import Blocxxi.CorePrimitives
import Blocxxi.DelimitedText
import Mathlib.Data.List.Sort

/-!
# Signed event records

An event travels as an envelope of free-form fields.  Its canonical text names
every field and is what a publisher signs, what the content identifier is made
from and what ends up in the key under which the event is published.  The
elliptic curve signature is a parameter.
-/

namespace Blocxxi

namespace Core

open Cxx ByteText

structure EventAttribute where
  key : ByteString := []
  value : ByteString := []
  deriving DecidableEq

@[ext]
structure EventWindow where
  startUtc : Int64 := 0
  endUtc : Int64 := 0
  deriving DecidableEq

structure EventEnvelope where
  schema : ByteString := ascii "blocxxi.event.v1"
  eventType : ByteString := []
  taxonomy : ByteString := []
  source : ByteString := []
  producer : ByteString := []
  window : EventWindow := {}
  observedAtUtc : Int64 := 0
  publishedAtUtc : Int64 := 0
  identifiers : List ByteString := []
  attributes : List EventAttribute := []
  summary : ByteString := []
  payload : ByteString := []
  deriving DecidableEq

structure SignedEventRecord where
  envelope : EventEnvelope := {}
  signerName : ByteString := []
  signerPublicKeyHex : ByteString := []
  signatureHex : ByteString := []
  deriving DecidableEq

def encodeHex (payload : ByteString) : ByteString :=
  Hex.encode payload false true

def sortedIdentifiers (values : List ByteString) : List ByteString :=
  values.insertionSort (· ≤ ·)

/-- The order of attributes: by key, then by value. -/
def attributeLess (first second : EventAttribute) : Prop :=
  if first.key = second.key then first.value < second.value
  else first.key < second.key

instance : DecidableRel attributeLess := fun first second =>
  inferInstanceAs (Decidable (if first.key = second.key then
    first.value < second.value else first.key < second.key))

def sortedAttributes (values : List EventAttribute) : List EventAttribute :=
  values.insertionSort fun first second => ¬ attributeLess second first

def integerText (integer : Int64) : ByteString :=
  decimalInt integer.toInt

/-- One line: the name of a field, its value and a newline. -/
def canonicalLine (name : String) (value : ByteString) : ByteString :=
  ascii name ++ (value ++ [10])

def attributeText (entry : EventAttribute) : ByteString :=
  entry.key ++ 61 :: entry.value

def identifiersText (identifiers : List ByteString) : ByteString :=
  DelimitedText.joined 44 (sortedIdentifiers identifiers)

def attributesText (attributes : List EventAttribute) : ByteString :=
  DelimitedText.joined 124 ((sortedAttributes attributes).map attributeText)

def canonicalLines (envelope : EventEnvelope) : List ByteString :=
  [canonicalLine "schema=" envelope.schema,
    canonicalLine "event_type=" envelope.eventType,
    canonicalLine "taxonomy=" envelope.taxonomy,
    canonicalLine "source=" envelope.source,
    canonicalLine "producer=" envelope.producer,
    canonicalLine "window_start=" (integerText envelope.window.startUtc),
    canonicalLine "window_end=" (integerText envelope.window.endUtc),
    canonicalLine "observed_at=" (integerText envelope.observedAtUtc),
    canonicalLine "published_at=" (integerText envelope.publishedAtUtc),
    canonicalLine "identifiers=" (identifiersText envelope.identifiers),
    canonicalLine "attributes=" (attributesText envelope.attributes),
    canonicalLine "summary=" envelope.summary,
    canonicalLine "payload_hex=" (encodeHex envelope.payload)]

def canonicalSeed (envelope : EventEnvelope) : ByteString :=
  (canonicalLines envelope).flatten

namespace EventEnvelope

def canonicalText (envelope : EventEnvelope) : ByteString :=
  canonicalSeed envelope

def contentId (envelope : EventEnvelope) : Hash256 :=
  makeId envelope.canonicalText

end EventEnvelope

def deriveDeterministicEventKey (envelope : EventEnvelope) : ByteString :=
  let seed := envelope.schema ++ 124 :: envelope.eventType ++
    124 :: envelope.taxonomy ++ 124 :: integerText envelope.window.startUtc ++
    124 :: integerText envelope.window.endUtc ++
    (sortedIdentifiers envelope.identifiers).flatMap (124 :: ·) ++
    124 :: envelope.contentId.toHex
  (makeId seed).toHex

namespace SignedEventRecord

def deterministicKey (record : SignedEventRecord) : ByteString :=
  deriveDeterministicEventKey record.envelope

end SignedEventRecord

abbrev PublicKey := Hash 512
abbrev PrivateKey := Hash 256

/-- The digital signature scheme: signing draws random bits, so it depends on a
seed. -/
structure SignatureScheme where
  publicKey : PrivateKey → PublicKey
  sign : PrivateKey → ByteString → Nat → ByteString
  verify : PublicKey → ByteString → ByteString → Bool

/-- A text of the wrong size or with a character that is no digit is no key. -/
def publicKeyFromHex (publicKeyHex : ByteString) : Option PublicKey :=
  if publicKeyHex.length ≠ 128 then none
  else
    match Hash.fromHex publicKeyHex false with
    | .ok publicKey => some publicKey
    | .error _ => none

/-- The bytes of a signature; anything else throws. -/
def decodeSignature (value : ByteString) : Except Fault ByteString :=
  if value = [] then .ok []
  else if value.length % 2 ≠ 0 then
    .error (.exception "signature hex must have an even number of digits")
  else Hex.decode value (List.replicate (value.length / 2) 0) false

section Signatures

variable (scheme : SignatureScheme)

/-- An exception on the way means that the signature does not verify. -/
def verifyMessageHex (publicKey : PublicKey) (message signatureHex : ByteString) :
    Bool :=
  match decodeSignature signatureHex with
  | .ok signature => scheme.verify publicKey message signature
  | .error _ => false

/-- Fill in the clock readings that are missing, then sign. -/
def signEventRecord (envelope : EventEnvelope) (privateKey : PrivateKey)
    (signerName : ByteString) (now : Int64) (random : Nat) :
    SignedEventRecord :=
  let observedAt :=
    if envelope.observedAtUtc = 0 then now else envelope.observedAtUtc
  let publishedAt :=
    if envelope.publishedAtUtc = 0 then observedAt else envelope.publishedAtUtc
  let envelope := { envelope with
    observedAtUtc := observedAt
    publishedAtUtc := publishedAt }
  { envelope := envelope
    signerName := signerName
    signerPublicKeyHex := (scheme.publicKey privateKey).toHex
    signatureHex := Hex.encode
      (scheme.sign privateKey envelope.canonicalText random) false true }

def verifyEventRecord (record : SignedEventRecord) : Bool :=
  match publicKeyFromHex record.signerPublicKeyHex with
  | none => false
  | some publicKey =>
      verifyMessageHex scheme publicKey record.envelope.canonicalText
        record.signatureHex

end Signatures

theorem sortedIdentifiers_perm (values : List ByteString) :
    (sortedIdentifiers values).Perm values :=
  List.perm_insertionSort _ values

theorem sortedAttributes_perm (values : List EventAttribute) :
    (sortedAttributes values).Perm values :=
  List.perm_insertionSort _ values

/-- The text of an integer determines it. -/
theorem integerText_injective : Function.Injective integerText := by
  intro first second sameText
  have parsed := stoll_decimalInt first
  rw [integerText, integerText] at sameText
  rw [sameText, stoll_decimalInt] at parsed
  exact (Except.ok.inj parsed).symm

end Core

end Blocxxi
