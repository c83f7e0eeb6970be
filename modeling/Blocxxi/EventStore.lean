import Blocxxi.EventRecord
import Blocxxi.MergeByKey
import Blocxxi.StepMachineRuns
import Mathlib.Data.List.Perm.Basic

/-!
# The event store in memory

Published events are kept in buckets by their deterministic key.  Publishing
verifies the record and collapses a repeated publication; a query filters the
events, sorts them by the time of their publication and cuts the list.  The
order in which the hash map lists its buckets and the order in which the sort
leaves events of the same time are not fixed by the code; they are parameters.
-/

namespace Blocxxi

namespace P2P

open Blocxxi.Core Cxx ByteText MergeByKey

structure EventQuery where
  deterministicKey : Option ByteString := none
  eventType : Option ByteString := none
  taxonomy : Option ByteString := none
  windowStartUtc : Option Int64 := none
  windowEndUtc : Option Int64 := none
  identifiers : List ByteString := []
  limit : Nat := 64
  deriving DecidableEq

structure PublishedEvent where
  dhtKey : ByteString := []
  infoHash : Hash160 := Hash.zero
  record : SignedEventRecord := {}
  publishedAtUtc : Int64 := 0
  publishCount : UInt32 := 0
  deriving DecidableEq

structure PublishResult where
  dhtKey : ByteString := []
  infoHash : Hash160 := Hash.zero
  inserted : Bool := false
  duplicate : Bool := false
  deriving DecidableEq

/-- The first twenty bytes of the identifier of the key. -/
def deriveInfoHash (deterministicKey : ByteString) : Hash160 where
  bytes := (makeId deterministicKey).bytes.take 20
  size_eq := by rw [List.length_take, (makeId deterministicKey).size_eq]; rfl

def matchesIdentifiers (record : SignedEventRecord)
    (identifiers : List ByteString) : Bool :=
  identifiers.all fun expected => record.envelope.identifiers.contains expected

def matchesQuery (published : PublishedEvent) (query : EventQuery) : Bool :=
  let envelope := published.record.envelope
  if query.deterministicKey.any (published.dhtKey ≠ ·) then false
  else if query.eventType.any (envelope.eventType ≠ ·) then false
  else if query.taxonomy.any (envelope.taxonomy ≠ ·) then false
  else if query.windowStartUtc.any (envelope.window.endUtc < ·) then false
  else if query.windowEndUtc.any (· < envelope.window.startUtc) then false
  else matchesIdentifiers published.record query.identifiers

/-- What makes two published records the same. -/
structure Identity where
  dhtKey : ByteString
  signatureHex : ByteString
  signerPublicKeyHex : ByteString
  deriving DecidableEq

def identity (published : PublishedEvent) : Identity where
  dhtKey := published.dhtKey
  signatureHex := published.record.signatureHex
  signerPublicKeyHex := published.record.signerPublicKeyHex

def samePublishedRecord (first second : PublishedEvent) : Bool :=
  identity first = identity second

/-- Merge an event into a list; the flag tells whether it was new. -/
def mergePublishedRecord (records : List PublishedEvent)
    (published : PublishedEvent) : Bool × List PublishedEvent :=
  (!records.any fun existing => samePublishedRecord existing published,
    merge identity published records)

structure MemoryEventDht where
  entries : List (ByteString × List PublishedEvent) := []
  lastPublish : Option PublishResult := none

/-- What the code leaves to the library: the order in which the hash map lists
its buckets, and the order in which the sort leaves the events. -/
structure Arrangement where
  iterate : List (ByteString × List PublishedEvent) →
    List (ByteString × List PublishedEvent)
  sort : List PublishedEvent → List PublishedEvent
  iterate_perm : ∀ entries, (iterate entries).Perm entries
  sort_perm : ∀ events, (sort events).Perm events
  sort_newest : ∀ events, (sort events).Pairwise fun first second =>
    second.publishedAtUtc ≤ first.publishedAtUtc

namespace MemoryEventDht

def bucket (dht : MemoryEventDht) (key : ByteString) : List PublishedEvent :=
  (dht.entries.lookup key).getD []

/-- Replace the bucket of a key, or add one. -/
def setBucket (key : ByteString) (events : List PublishedEvent)
    (entries : List (ByteString × List PublishedEvent)) :
    List (ByteString × List PublishedEvent) :=
  merge Prod.fst (key, events) entries

/-- Whether an event carries the record's signature by the record's signer. -/
def repeats (record : SignedEventRecord) (existing : PublishedEvent) : Bool :=
  existing.record.signatureHex = record.signatureHex ∧
    existing.record.signerPublicKeyHex = record.signerPublicKeyHex

/-- One more publication, at the given time. -/
def republished (published : PublishedEvent) (now : Int64) : PublishedEvent :=
  { published with
    publishCount := published.publishCount + 1
    publishedAtUtc := now }

/-- The first event that the record repeats is published once more. -/
def collapse (record : SignedEventRecord) (now : Int64) :
    List PublishedEvent → List PublishedEvent
  | [] => []
  | first :: rest =>
      if repeats record first then republished first now :: rest
      else first :: collapse record now rest

section Publishing

variable (scheme : SignatureScheme)

def publish (record : SignedEventRecord) (now : Int64) (dht : MemoryEventDht) :
    Status × MemoryEventDht :=
  if ¬ verifyEventRecord scheme record then
    (.failure .rejected "signed event record failed verification", dht)
  else
    let key := record.deterministicKey
    let infoHash := deriveInfoHash key
    let bucket := dht.bucket key
    if bucket.any (repeats record) then
      (.success "duplicate publish collapsed",
        { entries := setBucket key (collapse record now bucket) dht.entries
          lastPublish := some
            { dhtKey := key, infoHash := infoHash, inserted := false,
              duplicate := true } })
    else
      (.success "",
        { entries := setBucket key (bucket ++
            [{ dhtKey := key, infoHash := infoHash, record := record,
               publishedAtUtc := now, publishCount := 1 }]) dht.entries
          lastPublish := some
            { dhtKey := key, infoHash := infoHash, inserted := true,
              duplicate := false } })

end Publishing

def query (arrangement : Arrangement) (query : EventQuery)
    (dht : MemoryEventDht) : List PublishedEvent :=
  let matching := (arrangement.iterate dht.entries).flatMap fun entry =>
    entry.2.filter fun published => matchesQuery published query
  (arrangement.sort matching).take query.limit

/-- Whether an event was published within the window of the policy. -/
def isFresh (freshnessWindowSeconds now : Int64) (published : PublishedEvent) :
    Bool :=
  now - published.publishedAtUtc ≤ freshnessWindowSeconds

/-- Publish the recent events once more, and count them. -/
def republishRecent (freshnessWindowSeconds now : Int64) (dht : MemoryEventDht) :
    Nat × MemoryEventDht :=
  let isFresh := isFresh freshnessWindowSeconds now
  ((dht.entries.flatMap (·.2)).countP isFresh,
    { dht with
      entries := dht.entries.map fun entry =>
        (entry.1, entry.2.map fun published =>
          if isFresh published then republished published now else published) })

end MemoryEventDht

/-- The calls that change the store. -/
inductive StoreCall
  | publish (record : SignedEventRecord) (now : Int64)
  | republishRecent (freshnessWindowSeconds now : Int64)

def StoreCall.apply (scheme : SignatureScheme) :
    StoreCall → MemoryEventDht → MemoryEventDht
  | .publish record now, dht => (dht.publish scheme record now).2
  | .republishRecent window now, dht => (dht.republishRecent window now).2

/-- The store after some calls, starting with none. -/
def storeAfter (scheme : SignatureScheme) (calls : List StoreCall) :
    MemoryEventDht :=
  StepMachine.run (StoreCall.apply scheme) calls {}

end P2P

end Blocxxi
