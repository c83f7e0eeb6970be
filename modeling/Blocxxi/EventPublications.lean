import Blocxxi.EventDhtQuery

/-!
# Counting publications

A stored event counts how often it was published and published again.  Here the
count is compared with the calls: the publications of the event that were
accepted, and the passes over the recent events that it was recent for.
-/

namespace Blocxxi

namespace P2P

open Blocxxi.Core Cxx ByteText MergeByKey StepMachine

/-- The clock reading of a call. -/
def StoreCall.now : StoreCall → Int64
  | .publish _ now => now
  | .republishRecent _ now => now

/-- The readings do not decrease, and differ by no more than a difference can
express. -/
structure Clocked (calls : List StoreCall) : Prop where
  ordered : (calls.map StoreCall.now).Pairwise (· ≤ ·)
  spans : ∀ first ∈ calls, ∀ last ∈ calls,
    last.now.toInt - first.now.toInt < 2 ^ 63

/-- The identity under which a record is stored. -/
def recordIdentity (record : SignedEventRecord) : Identity where
  dhtKey := record.deterministicKey
  signatureHex := record.signatureHex
  signerPublicKeyHex := record.signerPublicKeyHex

/-- The signature and the signer of an event. -/
def signatureOf (published : PublishedEvent) : ByteString × ByteString :=
  (published.record.signatureHex, published.record.signerPublicKeyHex)

def MemoryEventDht.events (dht : MemoryEventDht) : List PublishedEvent :=
  dht.entries.flatMap (·.2)

/-- Whether the age of an event is within a window. -/
def isRecent (window now : Int64) (published : PublishedEvent) : Bool :=
  now.toInt - published.publishedAtUtc.toInt ≤ window.toInt

section Counts

variable (scheme : SignatureScheme) (who : Identity)

/-- Whether the call publishes a record of the identity, and is accepted. -/
def publishes : StoreCall → Bool
  | .publish record _ =>
      verifyEventRecord scheme record ∧ recordIdentity record = who
  | .republishRecent _ _ => false

/-- Whether the call publishes the event of the identity once more. -/
def refreshes (dht : MemoryEventDht) : StoreCall → Bool
  | .publish _ _ => false
  | .republishRecent window now =>
      dht.events.any fun published =>
        identity published = who ∧ isRecent window now published

/-- How often the calls publish the identity, starting with a store. -/
def publicationsFrom : List StoreCall → MemoryEventDht → Nat
  | [], _ => 0
  | call :: rest, dht =>
      (if publishes scheme who call then 1 else 0) +
        (if refreshes who dht call then 1 else 0) +
          publicationsFrom rest (call.apply scheme dht)

/-- The successful publications of an identity, and its refreshments. -/
def publications (calls : List StoreCall) : Nat :=
  publicationsFrom scheme who calls {}

theorem publicationsFrom_append (first second : List StoreCall)
    (dht : MemoryEventDht) :
    publicationsFrom scheme who (first ++ second) dht =
      publicationsFrom scheme who first dht +
        publicationsFrom scheme who second
          (run (StoreCall.apply scheme) first dht) := by
  induction first generalizing dht with
  | nil => rw [List.nil_append, publicationsFrom, Nat.zero_add, run]
  | cons call first ih =>
      rw [List.cons_append, publicationsFrom, publicationsFrom, ih, run]
      omega

theorem publications_append_singleton (calls : List StoreCall)
    (call : StoreCall) :
    publications scheme who (calls ++ [call]) =
      publications scheme who calls +
        ((if publishes scheme who call then 1 else 0) +
          if refreshes who (storeAfter scheme calls) call then 1 else 0) := by
  rw [publications, publicationsFrom_append]
  rfl

end Counts

variable {scheme : SignatureScheme}

theorem storeAfter_append_singleton (calls : List StoreCall) (call : StoreCall) :
    storeAfter scheme (calls ++ [call]) =
      call.apply scheme (storeAfter scheme calls) := by
  rw [storeAfter, run_append]
  rfl

/-- In a bucket whose signatures are distinct, every event that the record repeats
is published once more. -/
theorem collapse_eq_map {record : SignedEventRecord} {now : Int64}
    {events : List PublishedEvent} (distinct : (events.map signatureOf).Nodup) :
    MemoryEventDht.collapse record now events = events.map fun published =>
      if MemoryEventDht.repeats record published then
        MemoryEventDht.republished published now
      else published := by
  induction events with
  | nil => rfl
  | cons first rest ih =>
      rw [List.map_cons, List.nodup_cons] at distinct
      rw [MemoryEventDht.collapse, List.map_cons]
      split
      · rename_i repeated
        have others : ∀ published ∈ rest,
            ¬ MemoryEventDht.repeats record published := by
          intro published member alsoRepeated
          apply distinct.1
          simp only [MemoryEventDht.repeats, decide_eq_true_eq]
            at repeated alsoRepeated
          have same : signatureOf first = signatureOf published := by
            rw [signatureOf, signatureOf, repeated.1, repeated.2, alsoRepeated.1,
              alsoRepeated.2]
          rw [same]
          exact List.mem_map_of_mem member
        congr 1
        symm
        calc
          (rest.map fun published =>
              if MemoryEventDht.repeats record published then
                MemoryEventDht.republished published now
              else published) = rest.map id :=
            List.map_congr_left fun published member =>
              if_neg (others published member)
          _ = rest := List.map_id rest
      · rw [ih distinct.2]

theorem lookup_of_mem {entries : List (ByteString × List PublishedEvent)}
    (distinctKeys : (entries.map Prod.fst).Nodup)
    {entry : ByteString × List PublishedEvent} (member : entry ∈ entries) :
    entries.lookup entry.1 = some entry.2 := by
  induction entries with
  | nil => cases member
  | cons first rest ih =>
      rw [List.map_cons, List.nodup_cons] at distinctKeys
      rw [List.lookup_cons]
      rcases List.mem_cons.mp member with rfl | inRest
      · rw [beq_self_eq_true]
      · have differs : (entry.1 == first.1) = false := by
          rw [beq_eq_false_iff_ne]
          intro same
          rw [← same] at distinctKeys
          exact distinctKeys.1 (List.mem_map_of_mem inRest)
        rw [differs]
        exact ih distinctKeys.2 inRest

section Stores

variable {dht : MemoryEventDht}

theorem mem_events {published : PublishedEvent} :
    published ∈ dht.events ↔ ∃ entry ∈ dht.entries, published ∈ entry.2 :=
  List.mem_flatMap

theorem mem_bucket_iff (sound : Sound scheme dht.entries) {key : ByteString}
    {published : PublishedEvent} :
    published ∈ dht.bucket key ↔
      published ∈ dht.events ∧ published.dhtKey = key := by
  constructor
  · intro member
    refine ⟨?_, (sound.bucket key).keyed published member⟩
    unfold MemoryEventDht.bucket at member
    cases found : dht.entries.lookup key with
    | none =>
        rw [found] at member
        cases member
    | some events =>
        rw [found] at member
        exact mem_events.mpr ⟨_, mem_of_lookup found, member⟩
  · rintro ⟨member, rfl⟩
    obtain ⟨entry, entryMem, inBucket⟩ := mem_events.mp member
    have isKey := (sound.buckets entry entryMem).keyed published inBucket
    have found := lookup_of_mem sound.distinctKeys entryMem
    rw [MemoryEventDht.bucket, isKey, found]
    exact inBucket

/-- An event is known by its identity. -/
theorem eq_of_identity_eq (sound : Sound scheme dht.entries)
    {first second : PublishedEvent} (firstMem : first ∈ dht.events)
    (secondMem : second ∈ dht.events) (same : identity first = identity second) :
    first = second := by
  have distinct := sound.distinct fun _ => true
  simp only [List.filter_true] at distinct
  exact List.inj_on_of_nodup_map distinct firstMem secondMem same

theorem repeats_iff {record : SignedEventRecord} {published : PublishedEvent}
    (sameKey : published.dhtKey = record.deterministicKey) :
    MemoryEventDht.repeats record published = true ↔
      identity published = recordIdentity record := by
  simp [MemoryEventDht.repeats, identity, recordIdentity, sameKey]

theorem SoundBucket.signatures {key : ByteString} {events : List PublishedEvent}
    (sound : SoundBucket scheme key events) : (events.map signatureOf).Nodup := by
  have ofIdentity : signatureOf =
      (fun who : Identity => (who.signatureHex, who.signerPublicKeyHex)) ∘
        identity :=
    rfl
  rw [ofIdentity, ← List.map_map]
  apply sound.distinct.map_on
  intro first firstMem second secondMem same
  obtain ⟨one, oneMem, rfl⟩ := List.mem_map.mp firstMem
  obtain ⟨other, otherMem, rfl⟩ := List.mem_map.mp secondMem
  have sameKey := (sound.keyed one oneMem).trans (sound.keyed other otherMem).symm
  simp only [identity, Prod.mk.injEq] at same ⊢
  rw [sameKey, same.1, same.2]

/-- The entries after an accepted publication: the bucket of the record is the
only one that changes. -/
theorem mem_entries_publish (sound : Sound scheme dht.entries)
    {record : SignedEventRecord}
    (accepted : verifyEventRecord scheme record = true) (now : Int64)
    {entry : ByteString × List PublishedEvent} :
    entry ∈ (dht.publish scheme record now).2.entries ↔
      entry = (record.deterministicKey,
        if (dht.bucket record.deterministicKey).any
            (MemoryEventDht.repeats record) then
          (dht.bucket record.deterministicKey).map fun published =>
            if MemoryEventDht.repeats record published then
              MemoryEventDht.republished published now
            else published
        else
          dht.bucket record.deterministicKey ++
            [{ dhtKey := record.deterministicKey
               infoHash := deriveInfoHash record.deterministicKey
               record := record
               publishedAtUtc := now
               publishCount := 1 }]) ∨
      entry ∈ dht.entries ∧ entry.1 ≠ record.deterministicKey := by
  rw [← collapse_eq_map (sound.bucket record.deterministicKey).signatures]
  unfold MemoryEventDht.publish
  rw [if_neg (not_not_intro accepted)]
  dsimp only
  split
  · exact mem_merge sound.distinctKeys
  · exact mem_merge sound.distinctKeys

/-- The identities after an accepted publication. -/
theorem mem_identities_publish (sound : Sound scheme dht.entries)
    {record : SignedEventRecord}
    (accepted : verifyEventRecord scheme record = true) (now : Int64)
    {who : Identity} :
    who ∈ (dht.publish scheme record now).2.events.map identity ↔
      who = recordIdentity record ∨ who ∈ dht.events.map identity := by
  have touched (published : PublishedEvent) :
      identity (if MemoryEventDht.repeats record published then
          MemoryEventDht.republished published now
        else published) = identity published := by
    split <;> rfl
  constructor
  · intro member
    obtain ⟨published, inEvents, rfl⟩ := List.mem_map.mp member
    obtain ⟨entry, entryMem, inBucket⟩ := mem_events.mp inEvents
    rcases (mem_entries_publish sound accepted now).mp entryMem with rfl | ⟨old, -⟩
    · dsimp only at inBucket
      split at inBucket
      · obtain ⟨earlier, earlierMem, rfl⟩ := List.mem_map.mp inBucket
        rw [touched]
        exact Or.inr (List.mem_map_of_mem ((mem_bucket_iff sound).mp earlierMem).1)
      · rcases List.mem_append.mp inBucket with earlierMem | isNew
        · exact Or.inr
            (List.mem_map_of_mem ((mem_bucket_iff sound).mp earlierMem).1)
        · rw [List.mem_singleton.mp isNew]
          exact Or.inl rfl
    · exact Or.inr (List.mem_map_of_mem (mem_events.mpr ⟨entry, old, inBucket⟩))
  · have bucketMem := (mem_entries_publish sound accepted now).mpr (Or.inl rfl)
    rintro (rfl | member)
    · split at bucketMem
      · rename_i repeated
        obtain ⟨earlier, earlierMem, isRepeated⟩ := List.any_eq_true.mp repeated
        have isKey := ((mem_bucket_iff sound).mp earlierMem).2
        rw [← (repeats_iff isKey).mp isRepeated, ← touched earlier]
        exact List.mem_map_of_mem (mem_events.mpr
          ⟨_, bucketMem, List.mem_map_of_mem earlierMem⟩)
      · exact List.mem_map.mpr ⟨_, mem_events.mpr ⟨_, bucketMem,
          List.mem_append_right _ List.mem_cons_self⟩, rfl⟩
    · obtain ⟨published, inEvents, rfl⟩ := List.mem_map.mp member
      by_cases isKey : published.dhtKey = record.deterministicKey
      · have earlierMem := (mem_bucket_iff sound).mpr ⟨inEvents, isKey⟩
        split at bucketMem
        · rw [← touched published]
          exact List.mem_map_of_mem (mem_events.mpr
            ⟨_, bucketMem, List.mem_map_of_mem earlierMem⟩)
        · exact List.mem_map_of_mem (mem_events.mpr
            ⟨_, bucketMem, List.mem_append_left _ earlierMem⟩)
      · obtain ⟨entry, entryMem, inBucket⟩ := mem_events.mp inEvents
        have sameKey := (sound.buckets entry entryMem).keyed published inBucket
        rw [sameKey] at isKey
        exact List.mem_map_of_mem (mem_events.mpr ⟨entry,
          (mem_entries_publish sound accepted now).mpr (Or.inr ⟨entryMem, isKey⟩),
          inBucket⟩)

end Stores

/-- The difference of two readings is what it should be. -/
theorem isFresh_eq_isRecent {window now : Int64} {published : PublishedEvent}
    (earlier : published.publishedAtUtc ≤ now)
    (spans : now.toInt - published.publishedAtUtc.toInt < 2 ^ 63) :
    MemoryEventDht.isFresh window now published = isRecent window now published := by
  have ordered := Int64.le_iff_toInt_le.mp earlier
  have difference : (now - published.publishedAtUtc).toInt =
      now.toInt - published.publishedAtUtc.toInt := by
    rw [Int64.toInt_sub]
    apply Int.bmod_eq_of_le
    · omega
    · omega
  unfold MemoryEventDht.isFresh isRecent
  rw [decide_eq_decide, Int64.le_iff_toInt_le, difference]

/-- A stored event is what its record says, and counts its publications. -/
structure Accounted (scheme : SignatureScheme) (calls : List StoreCall)
    (key : ByteString) (published : PublishedEvent) : Prop where
  dhtKey : published.dhtKey = key
  ownKey : published.record.deterministicKey = key
  infoHash : published.infoHash = deriveInfoHash key
  verified : verifyEventRecord scheme published.record = true
  count : published.publishCount =
    UInt32.ofNat (publications scheme (identity published) calls)

/-- The store after some calls: its events are accounted for and carry readings
of the calls, and what is not stored was never published. -/
structure Booked (scheme : SignatureScheme) (calls : List StoreCall) : Prop where
  accounted : ∀ entry ∈ (storeAfter scheme calls).entries,
    ∀ published ∈ entry.2, Accounted scheme calls entry.1 published
  readings : ∀ published ∈ (storeAfter scheme calls).events,
    ∃ call ∈ calls, published.publishedAtUtc = call.now
  unknown : ∀ who, who ∉ (storeAfter scheme calls).events.map identity →
    publications scheme who calls = 0

theorem Booked.accounted_of_mem {calls : List StoreCall}
    (booked : Booked scheme calls) {published : PublishedEvent}
    (member : published ∈ (storeAfter scheme calls).events) {key : ByteString}
    (isKey : published.dhtKey = key) : Accounted scheme calls key published := by
  obtain ⟨entry, entryMem, inBucket⟩ := mem_events.mp member
  have accounted := booked.accounted entry entryMem published inBucket
  rw [← isKey, accounted.dhtKey]
  exact accounted

section Steps

variable {calls : List StoreCall} {call : StoreCall} {key : ByteString}
  {published : PublishedEvent}

theorem Accounted.same (accounted : Accounted scheme calls key published)
    (same : publications scheme (identity published) (calls ++ [call]) =
      publications scheme (identity published) calls) :
    Accounted scheme (calls ++ [call]) key published where
  dhtKey := accounted.dhtKey
  ownKey := accounted.ownKey
  infoHash := accounted.infoHash
  verified := accounted.verified
  count := by rw [same, accounted.count]

theorem Accounted.republished (accounted : Accounted scheme calls key published)
    (oneMore : publications scheme (identity published) (calls ++ [call]) =
      publications scheme (identity published) calls + 1) (now : Int64) :
    Accounted scheme (calls ++ [call]) key
      (MemoryEventDht.republished published now) where
  dhtKey := accounted.dhtKey
  ownKey := accounted.ownKey
  infoHash := accounted.infoHash
  verified := accounted.verified
  count := by
    have sameIdentity : identity (MemoryEventDht.republished published now) =
        identity published :=
      rfl
    rw [sameIdentity, oneMore, UInt32.ofNat_add, ← accounted.count]
    rfl

/-- An event that is published once more under a condition is accounted for, when
its identity is counted under the condition. -/
theorem Accounted.touched (accounted : Accounted scheme calls key published)
    {condition : Bool} (now : Int64)
    (counted : publications scheme (identity published) (calls ++ [call]) =
      publications scheme (identity published) calls +
        if condition then 1 else 0) :
    Accounted scheme (calls ++ [call]) key
      (if condition then MemoryEventDht.republished published now
      else published) := by
  cases condition with
  | false => exact accounted.same counted
  | true => exact accounted.republished counted now

/-- How a publication is counted. -/
theorem publications_publish (who : Identity) (calls : List StoreCall)
    (record : SignedEventRecord) (now : Int64) :
    publications scheme who (calls ++ [.publish record now]) =
      publications scheme who calls +
        if verifyEventRecord scheme record ∧ recordIdentity record = who then 1
        else 0 := by
  rw [publications_append_singleton]
  simp [publishes, refreshes]

/-- A rejected publication changes nothing. -/
theorem publish_rejected {dht : MemoryEventDht} {record : SignedEventRecord}
    (rejected : verifyEventRecord scheme record = false) (now : Int64) :
    dht.publish scheme record now =
      (.failure .rejected "signed event record failed verification", dht) := by
  rw [MemoryEventDht.publish, if_pos (by simp [rejected])]

theorem booked_rejected {record : SignedEventRecord} {now : Int64}
    (booked : Booked scheme calls)
    (rejected : verifyEventRecord scheme record = false) :
    Booked scheme (calls ++ [.publish record now]) := by
  have store : storeAfter scheme (calls ++ [.publish record now]) =
      storeAfter scheme calls := by
    rw [storeAfter_append_singleton, StoreCall.apply, publish_rejected rejected]
  have same (who : Identity) :
      publications scheme who (calls ++ [.publish record now]) =
        publications scheme who calls := by
    rw [publications_publish, if_neg (by simp [rejected]), Nat.add_zero]
  constructor
  · rw [store]
    intro entry entryMem published member
    exact (booked.accounted entry entryMem published member).same (same _)
  · rw [store]
    intro published member
    obtain ⟨earlier, earlierMem, isReading⟩ := booked.readings published member
    exact ⟨earlier, List.mem_append_left _ earlierMem, isReading⟩
  · rw [store]
    intro who absent
    rw [same]
    exact booked.unknown who absent

section Accepted

variable {record : SignedEventRecord} {now : Int64}

theorem publications_accepted (accepted : verifyEventRecord scheme record = true)
    (who : Identity) :
    publications scheme who (calls ++ [.publish record now]) =
      publications scheme who calls +
        if recordIdentity record = who then 1 else 0 := by
  rw [publications_publish]
  simp [accepted]

/-- An event that a publication does not repeat is counted as before. -/
theorem Accounted.unlike (accounted : Accounted scheme calls key published)
    (accepted : verifyEventRecord scheme record = true)
    (differs : recordIdentity record ≠ identity published) :
    Accounted scheme (calls ++ [.publish record now]) key published := by
  apply accounted.same
  rw [publications_accepted accepted, if_neg differs, Nat.add_zero]

/-- A record that repeats no event of its bucket was never published. -/
theorem publications_fresh (booked : Booked scheme calls)
    (fresh : ¬ ((storeAfter scheme calls).bucket record.deterministicKey).any
      (MemoryEventDht.repeats record)) :
    publications scheme (recordIdentity record) calls = 0 := by
  apply booked.unknown
  intro isStored
  obtain ⟨earlier, inEvents, same⟩ := List.mem_map.mp isStored
  have isKey : earlier.dhtKey = record.deterministicKey :=
    congrArg Identity.dhtKey same
  apply fresh
  rw [List.any_eq_true]
  exact ⟨earlier, (mem_bucket_iff (sound_storeAfter calls)).mpr ⟨inEvents, isKey⟩,
    (repeats_iff isKey).mpr same⟩

theorem accounted_accepted (booked : Booked scheme calls)
    (accepted : verifyEventRecord scheme record = true) :
    ∀ entry ∈ (storeAfter scheme (calls ++ [.publish record now])).entries,
      ∀ published ∈ entry.2,
        Accounted scheme (calls ++ [.publish record now]) entry.1 published := by
  have sound := @sound_storeAfter scheme calls
  rw [storeAfter_append_singleton, StoreCall.apply]
  intro entry entryMem published member
  rcases (mem_entries_publish sound accepted now).mp entryMem with
    rfl | ⟨old, otherKey⟩
  · dsimp only at member ⊢
    split at member
    · obtain ⟨earlier, earlierMem, rfl⟩ := List.mem_map.mp member
      obtain ⟨inEvents, isKey⟩ := (mem_bucket_iff sound).mp earlierMem
      apply (booked.accounted_of_mem inEvents isKey).touched
      rw [publications_accepted accepted]
      simp only [repeats_iff isKey, eq_comm]
    · rename_i fresh
      rcases List.mem_append.mp member with earlierMem | isNew
      · obtain ⟨inEvents, isKey⟩ := (mem_bucket_iff sound).mp earlierMem
        apply (booked.accounted_of_mem inEvents isKey).unlike accepted
        intro same
        apply fresh
        rw [List.any_eq_true]
        exact ⟨published, earlierMem, (repeats_iff isKey).mpr same.symm⟩
      · rw [List.mem_singleton.mp isNew]
        refine ⟨rfl, rfl, rfl, accepted, ?_⟩
        have isIdentity : identity
            { dhtKey := record.deterministicKey
              infoHash := deriveInfoHash record.deterministicKey
              record := record
              publishedAtUtc := now
              publishCount := 1 } = recordIdentity record :=
          rfl
        rw [isIdentity, publications_accepted accepted, if_pos rfl,
          publications_fresh booked fresh]
        rfl
  · have accounted := booked.accounted entry old published member
    apply accounted.unlike accepted
    intro same
    apply otherKey
    rw [← accounted.dhtKey]
    exact (congrArg Identity.dhtKey same).symm

theorem readings_accepted (booked : Booked scheme calls)
    (accepted : verifyEventRecord scheme record = true) :
    ∀ published ∈ (storeAfter scheme (calls ++ [.publish record now])).events,
      ∃ call ∈ calls ++ [.publish record now],
        published.publishedAtUtc = call.now := by
  have sound := @sound_storeAfter scheme calls
  have later {earlier : PublishedEvent}
      (inEvents : earlier ∈ (storeAfter scheme calls).events) :
      ∃ call ∈ calls ++ [.publish record now],
        earlier.publishedAtUtc = call.now := by
    obtain ⟨call, callMem, isReading⟩ := booked.readings earlier inEvents
    exact ⟨call, List.mem_append_left _ callMem, isReading⟩
  have isNow : ∃ call ∈ calls ++ [.publish record now], now = call.now :=
    ⟨_, List.mem_append_right _ List.mem_cons_self, rfl⟩
  rw [storeAfter_append_singleton, StoreCall.apply]
  intro published member
  obtain ⟨entry, entryMem, inBucket⟩ := mem_events.mp member
  rcases (mem_entries_publish sound accepted now).mp entryMem with rfl | ⟨old, -⟩
  · dsimp only at inBucket
    split at inBucket
    · obtain ⟨earlier, earlierMem, rfl⟩ := List.mem_map.mp inBucket
      split
      · exact isNow
      · exact later ((mem_bucket_iff sound).mp earlierMem).1
    · rcases List.mem_append.mp inBucket with earlierMem | isNew
      · exact later ((mem_bucket_iff sound).mp earlierMem).1
      · rw [List.mem_singleton.mp isNew]
        exact isNow
  · exact later (mem_events.mpr ⟨entry, old, inBucket⟩)

theorem booked_accepted (booked : Booked scheme calls)
    (accepted : verifyEventRecord scheme record = true) :
    Booked scheme (calls ++ [.publish record now]) where
  accounted := accounted_accepted booked accepted
  readings := readings_accepted booked accepted
  unknown := by
    intro who absent
    rw [storeAfter_append_singleton, StoreCall.apply,
      mem_identities_publish (sound_storeAfter calls) accepted, not_or] at absent
    rw [publications_accepted accepted, if_neg (Ne.symm absent.1),
      booked.unknown who absent.2]

end Accepted

section Republished

variable {window now : Int64}

/-- The events that are fresh for the code are the recent ones. -/
theorem isFresh_of_mem (booked : Booked scheme calls)
    (clocked : Clocked (calls ++ [.republishRecent window now]))
    {published : PublishedEvent}
    (member : published ∈ (storeAfter scheme calls).events) :
    MemoryEventDht.isFresh window now published = isRecent window now published := by
  obtain ⟨call, callMem, isReading⟩ := booked.readings published member
  have inAll := List.mem_append_left [.republishRecent window now] callMem
  have ordered := clocked.ordered
  rw [List.map_append, List.pairwise_append] at ordered
  apply isFresh_eq_isRecent
  · rw [isReading]
    exact ordered.2.2 call.now (List.mem_map_of_mem callMem) now
      List.mem_cons_self
  · rw [isReading]
    exact clocked.spans call inAll (.republishRecent window now)
      (List.mem_append_right _ List.mem_cons_self)

/-- What a pass over the recent events makes of the entries. -/
def refreshed (window now : Int64)
    (entries : List (ByteString × List PublishedEvent)) :
    List (ByteString × List PublishedEvent) :=
  entries.map fun entry =>
    (entry.1, entry.2.map fun published =>
      if isRecent window now published then
        MemoryEventDht.republished published now
      else published)

theorem entries_republishRecent (booked : Booked scheme calls)
    (clocked : Clocked (calls ++ [.republishRecent window now])) :
    ((storeAfter scheme calls).republishRecent window now).2.entries =
      refreshed window now (storeAfter scheme calls).entries := by
  apply List.map_congr_left
  intro entry entryMem
  congr 1
  apply List.map_congr_left
  intro published member
  rw [isFresh_of_mem booked clocked (mem_events.mpr ⟨entry, entryMem, member⟩)]

/-- An event is counted once more by a pass exactly when it is recent. -/
theorem publications_republishRecent (scheme : SignatureScheme)
    {published : PublishedEvent}
    (member : published ∈ (storeAfter scheme calls).events) :
    publications scheme (identity published)
        (calls ++ [.republishRecent window now]) =
      publications scheme (identity published) calls +
        if isRecent window now published then 1 else 0 := by
  have refreshment : refreshes (identity published) (storeAfter scheme calls)
      (.republishRecent window now) = isRecent window now published := by
    rw [refreshes, Bool.eq_iff_iff, List.any_eq_true]
    constructor
    · rintro ⟨other, otherMem, isOther⟩
      obtain ⟨same, recent⟩ := of_decide_eq_true isOther
      rwa [← eq_of_identity_eq (sound_storeAfter calls) otherMem member same]
    · intro recent
      exact ⟨published, member, decide_eq_true ⟨rfl, recent⟩⟩
  rw [publications_append_singleton, refreshment]
  simp [publishes]

theorem booked_republished (booked : Booked scheme calls)
    (clocked : Clocked (calls ++ [.republishRecent window now])) :
    Booked scheme (calls ++ [.republishRecent window now]) := by
  have store : (storeAfter scheme
      (calls ++ [.republishRecent window now])).entries =
        refreshed window now (storeAfter scheme calls).entries := by
    rw [storeAfter_append_singleton, StoreCall.apply,
      entries_republishRecent booked clocked]
  have origin {published : PublishedEvent}
      (member : published ∈ (storeAfter scheme
        (calls ++ [.republishRecent window now])).events) :
      ∃ earlier ∈ (storeAfter scheme calls).events,
        published = if isRecent window now earlier then
          MemoryEventDht.republished earlier now else earlier := by
    obtain ⟨entry, entryMem, inBucket⟩ := mem_events.mp member
    rw [store] at entryMem
    obtain ⟨before, beforeMem, rfl⟩ := List.mem_map.mp entryMem
    obtain ⟨earlier, earlierMem, rfl⟩ := List.mem_map.mp inBucket
    exact ⟨earlier, mem_events.mpr ⟨before, beforeMem, earlierMem⟩, rfl⟩
  constructor
  · rw [store]
    intro entry entryMem published member
    obtain ⟨before, beforeMem, rfl⟩ := List.mem_map.mp entryMem
    obtain ⟨earlier, earlierMem, rfl⟩ := List.mem_map.mp member
    apply (booked.accounted before beforeMem earlier earlierMem).touched
    exact publications_republishRecent scheme
      (mem_events.mpr ⟨before, beforeMem, earlierMem⟩)
  · intro published member
    obtain ⟨earlier, earlierMem, rfl⟩ := origin member
    split
    · exact ⟨_, List.mem_append_right _ List.mem_cons_self, rfl⟩
    · obtain ⟨call, callMem, isReading⟩ := booked.readings earlier earlierMem
      exact ⟨call, List.mem_append_left _ callMem, isReading⟩
  · intro who absent
    have unknown : who ∉ (storeAfter scheme calls).events.map identity := by
      intro known
      apply absent
      obtain ⟨earlier, earlierMem, rfl⟩ := List.mem_map.mp known
      obtain ⟨entry, entryMem, inBucket⟩ := mem_events.mp earlierMem
      refine List.mem_map.mpr ⟨if isRecent window now earlier then
        MemoryEventDht.republished earlier now else earlier, ?_, by split <;> rfl⟩
      rw [mem_events, store]
      exact ⟨_, List.mem_map_of_mem entryMem, List.mem_map_of_mem inBucket⟩
    have refreshment : refreshes who (storeAfter scheme calls)
        (.republishRecent window now) = false := by
      rw [refreshes, List.any_eq_false]
      intro published member isWho
      apply unknown
      rw [← (of_decide_eq_true isWho).1]
      exact List.mem_map_of_mem member
    rw [publications_append_singleton, refreshment, booked.unknown who unknown]
    rfl

end Republished

theorem Clocked.init (clocked : Clocked (calls ++ [call])) : Clocked calls where
  ordered := by
    have ordered := clocked.ordered
    rw [List.map_append, List.pairwise_append] at ordered
    exact ordered.1
  spans := fun first firstMem last lastMem =>
    clocked.spans first (List.mem_append_left _ firstMem) last
      (List.mem_append_left _ lastMem)

theorem booked_of_clocked (calls : List StoreCall) (clocked : Clocked calls) :
    Booked scheme calls := by
  induction calls using List.reverseRecOn with
  | nil =>
      constructor
      · intro entry member
        cases member
      · intro published member
        cases member
      · intro who _
        rfl
  | append_singleton calls call ih =>
      have booked := ih clocked.init
      cases call with
      | publish record now =>
          cases verified : verifyEventRecord scheme record with
          | false => exact booked_rejected booked verified
          | true => exact booked_accepted booked verified
      | republishRecent window now => exact booked_republished booked clocked

end Steps

/-- Every event is accounted for, and no bucket has a signature of a signer
twice. -/
structure StoreKept (scheme : SignatureScheme) (calls : List StoreCall) : Prop where
  accounted : ∀ entry ∈ (storeAfter scheme calls).entries,
    ∀ published ∈ entry.2, Accounted scheme calls entry.1 published
  signatures : ∀ entry ∈ (storeAfter scheme calls).entries,
    (entry.2.map signatureOf).Nodup

/-- A rejected record changes nothing.  An accepted one is reported as inserted or
as a duplicate, as inserted exactly when an event is new. -/
structure PublishReports (scheme : SignatureScheme) (dht : MemoryEventDht)
    (record : SignedEventRecord) (now : Int64) : Prop where
  rejected : verifyEventRecord scheme record = false →
    (dht.publish scheme record now).1.isOk = false ∧
      (dht.publish scheme record now).2 = dht
  accepted : verifyEventRecord scheme record = true →
    (dht.publish scheme record now).1.isOk = true ∧
      ∃ result, (dht.publish scheme record now).2.lastPublish = some result ∧
        result.dhtKey = record.deterministicKey ∧
        result.infoHash = deriveInfoHash record.deterministicKey ∧
        result.inserted = !result.duplicate ∧
        (result.inserted = true ↔
          ∃ published ∈ (dht.publish scheme record now).2.events,
            identity published ∉ dht.events.map identity)

/-- A pass over the recent events counts them, and changes no other. -/
structure RepublishReports (dht : MemoryEventDht) (window now : Int64) :
    Prop where
  count : (dht.republishRecent window now).1 =
    dht.events.countP (isRecent window now)
  entries : (dht.republishRecent window now).2.entries =
    refreshed window now dht.entries
  lastPublish : (dht.republishRecent window now).2.lastPublish = dht.lastPublish

theorem storeKept_of_clocked {calls : List StoreCall} (clocked : Clocked calls) :
    StoreKept scheme calls where
  accounted := (booked_of_clocked calls clocked).accounted
  signatures := fun entry member =>
    ((sound_storeAfter calls).buckets entry member).signatures

theorem publishReports {dht : MemoryEventDht} (sound : Sound scheme dht.entries)
    (record : SignedEventRecord) (now : Int64) :
    PublishReports scheme dht record now where
  rejected := by
    intro rejected
    rw [publish_rejected rejected]
    exact ⟨rfl, rfl⟩
  accepted := by
    intro accepted
    have identities := @mem_identities_publish scheme dht sound record accepted now
    have isNew : (∃ published ∈ (dht.publish scheme record now).2.events,
        identity published ∉ dht.events.map identity) ↔
          recordIdentity record ∉ dht.events.map identity := by
      constructor
      · rintro ⟨published, member, fresh⟩
        rcases identities.mp (List.mem_map_of_mem member) with isRecord | old
        · rwa [← isRecord]
        · exact (fresh old).elim
      · intro fresh
        obtain ⟨published, member, isRecord⟩ :=
          List.mem_map.mp (identities.mpr (Or.inl rfl))
        exact ⟨published, member, by rwa [isRecord]⟩
    have repeated : (dht.bucket record.deterministicKey).any
        (MemoryEventDht.repeats record) = true ↔
          recordIdentity record ∈ dht.events.map identity := by
      rw [List.any_eq_true]
      constructor
      · rintro ⟨published, member, repeated⟩
        obtain ⟨inEvents, isKey⟩ := (mem_bucket_iff sound).mp member
        rw [← (repeats_iff isKey).mp repeated]
        exact List.mem_map_of_mem inEvents
      · intro member
        obtain ⟨published, inEvents, same⟩ := List.mem_map.mp member
        have isKey : published.dhtKey = record.deterministicKey :=
          congrArg Identity.dhtKey same
        exact ⟨published, (mem_bucket_iff sound).mpr ⟨inEvents, isKey⟩,
          (repeats_iff isKey).mpr same⟩
    rw [isNew]
    unfold MemoryEventDht.publish
    rw [if_neg (not_not_intro accepted)]
    dsimp only
    split
    · rename_i duplicate
      refine ⟨rfl, _, rfl, rfl, rfl, rfl, ?_⟩
      simpa using repeated.mp duplicate
    · rename_i fresh
      refine ⟨rfl, _, rfl, rfl, rfl, rfl, ?_⟩
      simpa [repeated] using fresh

theorem republishReports {calls : List StoreCall} {window now : Int64}
    (clocked : Clocked (calls ++ [.republishRecent window now])) :
    RepublishReports (storeAfter scheme calls) window now where
  count := by
    have booked := @booked_of_clocked scheme calls clocked.init
    apply List.countP_congr
    intro published member
    rw [isFresh_of_mem booked clocked member]
  entries := entries_republishRecent
    (booked_of_clocked calls clocked.init) clocked
  lastPublish := rfl

/-- After any calls whose clock readings do not decrease, every stored event is
accounted for, and the next call reports what it does. -/
theorem store_accounts (scheme : SignatureScheme) {calls : List StoreCall}
    (clocked : Clocked calls) :
    StoreKept scheme calls ∧
      (∀ record now, PublishReports scheme (storeAfter scheme calls) record now) ∧
      ∀ window now, Clocked (calls ++ [.republishRecent window now]) →
        RepublishReports (storeAfter scheme calls) window now :=
  ⟨storeKept_of_clocked clocked,
    fun record now => publishReports (sound_storeAfter calls) record now,
    fun _ _ clockedLater => republishReports clockedLater⟩

/-- A record whose key is well formed, so that the lenient scheme accepts it. -/
def acceptedRecord : SignedEventRecord where
  signerPublicKeyHex := List.replicate 128 48
  signatureHex := ascii "00"

/-- Publishing a record twice and passing over the recent events. -/
def threeCalls : List StoreCall :=
  [.publish acceptedRecord 10, .publish acceptedRecord 20, .republishRecent 3600 30]

theorem store_accounts_threeCalls :
    StoreKept lenientScheme threeCalls ∧
      RepublishReports (storeAfter lenientScheme threeCalls) 3600 40 := by
  have clocked : Clocked (threeCalls ++ [.republishRecent 3600 40]) := by
    constructor
    · decide
    · simp only [threeCalls, List.forall_mem_cons, List.cons_append]
      decide
  have kept := store_accounts lenientScheme clocked.init
  exact ⟨kept.1, kept.2.2 3600 40 clocked⟩

end P2P

end Blocxxi
