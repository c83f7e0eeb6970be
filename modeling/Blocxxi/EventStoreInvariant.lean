import Blocxxi.EventStore

/-!
# What the event store keeps

After any calls, every stored event is verified, lies in the bucket of its own
key and is the only one with its identity.  A query therefore returns verified
events that match it, with distinct identities.
-/

namespace Blocxxi

namespace P2P

open Blocxxi.Core Cxx ByteText MergeByKey

/-- A bucket holds verified events with its key and distinct identities. -/
structure SoundBucket (scheme : SignatureScheme) (key : ByteString)
    (events : List PublishedEvent) : Prop where
  verified : ∀ published ∈ events,
    verifyEventRecord scheme published.record = true
  keyed : ∀ published ∈ events, published.dhtKey = key
  distinct : (events.map identity).Nodup

/-- Every bucket is sound, and no key has two buckets. -/
structure Sound (scheme : SignatureScheme)
    (entries : List (ByteString × List PublishedEvent)) : Prop where
  buckets : ∀ entry ∈ entries, SoundBucket scheme entry.1 entry.2
  distinctKeys : (entries.map Prod.fst).Nodup

variable {scheme : SignatureScheme}

theorem sound_nil : Sound scheme [] where
  buckets := fun _ member => by cases member
  distinctKeys := List.nodup_nil

theorem soundBucket_nil (key : ByteString) : SoundBucket scheme key [] where
  verified := fun _ member => by cases member
  keyed := fun _ member => by cases member
  distinct := List.nodup_nil

theorem mem_of_lookup {entries : List (ByteString × List PublishedEvent)}
    {key : ByteString} {events : List PublishedEvent}
    (found : entries.lookup key = some events) : (key, events) ∈ entries := by
  induction entries with
  | nil => cases found
  | cons entry rest ih =>
      rw [List.lookup_cons] at found
      split at found
      · rename_i sameKey
        rw [beq_iff_eq] at sameKey
        cases found
        rw [sameKey]
        exact List.mem_cons_self
      · exact List.mem_cons_of_mem _ (ih found)

theorem Sound.bucket {dht : MemoryEventDht} (sound : Sound scheme dht.entries)
    (key : ByteString) : SoundBucket scheme key (dht.bucket key) := by
  unfold MemoryEventDht.bucket
  cases found : dht.entries.lookup key with
  | none => exact soundBucket_nil key
  | some events => exact sound.buckets _ (mem_of_lookup found)

theorem Sound.setBucket {entries : List (ByteString × List PublishedEvent)}
    (sound : Sound scheme entries) {key : ByteString}
    {events : List PublishedEvent} (soundEvents : SoundBucket scheme key events) :
    Sound scheme (MemoryEventDht.setBucket key events entries) where
  buckets := by
    intro entry member
    rcases (mem_merge sound.distinctKeys).mp member with rfl | ⟨earlier, -⟩
    · exact soundEvents
    · exact sound.buckets entry earlier
  distinctKeys := nodup_merge sound.distinctKeys _

/-- Publishing events once more keeps a bucket sound. -/
theorem SoundBucket.map {key : ByteString} {events : List PublishedEvent}
    (sound : SoundBucket scheme key events)
    {update : PublishedEvent → PublishedEvent}
    (sameKey : ∀ published, (update published).dhtKey = published.dhtKey)
    (sameRecord : ∀ published, (update published).record = published.record) :
    SoundBucket scheme key (events.map update) where
  verified := by
    intro published member
    obtain ⟨earlier, earlierMem, rfl⟩ := List.mem_map.mp member
    rw [sameRecord]
    exact sound.verified earlier earlierMem
  keyed := by
    intro published member
    obtain ⟨earlier, earlierMem, rfl⟩ := List.mem_map.mp member
    rw [sameKey]
    exact sound.keyed earlier earlierMem
  distinct := by
    have sameIdentity : identity ∘ update = identity := by
      funext published
      simp [identity, sameKey, sameRecord]
    rw [List.map_map, sameIdentity]
    exact sound.distinct

theorem mem_collapse {record : SignedEventRecord} {now : Int64}
    {events : List PublishedEvent} {published : PublishedEvent}
    (member : published ∈ MemoryEventDht.collapse record now events) :
    ∃ earlier ∈ events, published.dhtKey = earlier.dhtKey ∧
      published.record = earlier.record := by
  induction events with
  | nil => cases member
  | cons first rest ih =>
      unfold MemoryEventDht.collapse at member
      split at member
      · rcases List.mem_cons.mp member with rfl | inRest
        · exact ⟨first, List.mem_cons_self, rfl, rfl⟩
        · exact ⟨published, List.mem_cons_of_mem _ inRest, rfl, rfl⟩
      · rcases List.mem_cons.mp member with rfl | inRest
        · exact ⟨published, List.mem_cons_self, rfl, rfl⟩
        · obtain ⟨earlier, earlierMem, same⟩ := ih inRest
          exact ⟨earlier, List.mem_cons_of_mem _ earlierMem, same⟩

theorem map_identity_collapse (record : SignedEventRecord) (now : Int64)
    (events : List PublishedEvent) :
    (MemoryEventDht.collapse record now events).map identity =
      events.map identity := by
  induction events with
  | nil => rfl
  | cons first rest ih =>
      unfold MemoryEventDht.collapse
      split
      · rfl
      · rw [List.map_cons, List.map_cons, ih]

theorem SoundBucket.collapse {key : ByteString} {events : List PublishedEvent}
    (sound : SoundBucket scheme key events) (record : SignedEventRecord)
    (now : Int64) :
    SoundBucket scheme key (MemoryEventDht.collapse record now events) where
  verified := by
    intro published member
    obtain ⟨earlier, earlierMem, -, sameRecord⟩ := mem_collapse member
    rw [sameRecord]
    exact sound.verified earlier earlierMem
  keyed := by
    intro published member
    obtain ⟨earlier, earlierMem, sameKey, -⟩ := mem_collapse member
    rw [sameKey]
    exact sound.keyed earlier earlierMem
  distinct := by
    rw [map_identity_collapse]
    exact sound.distinct

/-- A verified event that repeats none may be appended to its bucket. -/
theorem SoundBucket.append {key : ByteString} {events : List PublishedEvent}
    (sound : SoundBucket scheme key events) {published : PublishedEvent}
    (verified : verifyEventRecord scheme published.record = true)
    (keyed : published.dhtKey = key)
    (fresh : events.any (MemoryEventDht.repeats published.record) = false) :
    SoundBucket scheme key (events ++ [published]) where
  verified := by
    intro other member
    rcases List.mem_append.mp member with earlier | isNew
    · exact sound.verified other earlier
    · rwa [List.mem_singleton.mp isNew]
  keyed := by
    intro other member
    rcases List.mem_append.mp member with earlier | isNew
    · exact sound.keyed other earlier
    · rwa [List.mem_singleton.mp isNew]
  distinct := by
    rw [List.map_append, List.nodup_append]
    refine ⟨sound.distinct, List.nodup_singleton _, ?_⟩
    intro earlierIdentity earlierMem newIdentity isNew same
    obtain ⟨earlier, earlierIn, rfl⟩ := List.mem_map.mp earlierMem
    rw [List.map_singleton, List.mem_singleton] at isNew
    rw [isNew] at same
    have notRepeated := List.any_eq_false.mp fresh earlier earlierIn
    apply notRepeated
    simp only [identity, Identity.mk.injEq] at same
    simp [MemoryEventDht.repeats, same.2]

theorem sound_publish {dht : MemoryEventDht} (sound : Sound scheme dht.entries)
    (record : SignedEventRecord) (now : Int64) :
    Sound scheme (dht.publish scheme record now).2.entries := by
  unfold MemoryEventDht.publish
  have bucketSound := sound.bucket record.deterministicKey
  split
  · exact sound
  · rename_i accepted
    rw [not_not] at accepted
    dsimp only
    split
    · exact sound.setBucket (bucketSound.collapse record now)
    · rename_i fresh
      apply sound.setBucket
      exact bucketSound.append accepted rfl (by simpa using fresh)

theorem sound_republishRecent {dht : MemoryEventDht}
    (sound : Sound scheme dht.entries) (window now : Int64) :
    Sound scheme (dht.republishRecent window now).2.entries where
  buckets := by
    intro entry member
    obtain ⟨earlier, earlierMem, rfl⟩ := List.mem_map.mp member
    apply (sound.buckets earlier earlierMem).map
    · intro published
      split <;> rfl
    · intro published
      split <;> rfl
  distinctKeys := by
    have sameKeys : (dht.republishRecent window now).2.entries.map Prod.fst =
        dht.entries.map Prod.fst := by
      simp [MemoryEventDht.republishRecent]
    rw [sameKeys]
    exact sound.distinctKeys

/-- The store is sound after any calls. -/
theorem sound_storeAfter (calls : List StoreCall) :
    Sound scheme (storeAfter scheme calls).entries := by
  have kept : ∀ (call : StoreCall) (dht : MemoryEventDht),
      Sound scheme dht.entries → Sound scheme (call.apply scheme dht).entries := by
    intro call dht sound
    cases call with
    | publish record now => exact sound_publish sound record now
    | republishRecent window now => exact sound_republishRecent sound window now
  exact StepMachine.invariant_run kept calls {} sound_nil

theorem Sound.perm {entries others : List (ByteString × List PublishedEvent)}
    (sound : Sound scheme entries) (arranged : others.Perm entries) :
    Sound scheme others where
  buckets := fun entry member => sound.buckets entry (arranged.mem_iff.mp member)
  distinctKeys := (arranged.map Prod.fst).nodup_iff.mpr sound.distinctKeys

/-- Events of a sound store have distinct identities, whichever are selected. -/
theorem Sound.distinct {entries : List (ByteString × List PublishedEvent)}
    (sound : Sound scheme entries) (selected : PublishedEvent → Bool) :
    ((entries.flatMap fun entry => entry.2.filter selected).map
      identity).Nodup := by
  rw [List.map_flatMap, List.nodup_flatMap]
  constructor
  · intro entry member
    exact (List.filter_sublist.map identity).nodup
      (sound.buckets entry member).distinct
  · have keysApart := List.pairwise_map.mp sound.distinctKeys
    refine keysApart.imp_of_mem fun firstMem secondMem differs => ?_
    intro common inFirst inSecond
    obtain ⟨first, firstIn, rfl⟩ := List.mem_map.mp inFirst
    obtain ⟨second, secondIn, same⟩ := List.mem_map.mp inSecond
    apply differs
    rw [← (sound.buckets _ firstMem).keyed first (List.mem_filter.mp firstIn).1,
      ← (sound.buckets _ secondMem).keyed second (List.mem_filter.mp secondIn).1]
    exact (congrArg Identity.dhtKey same).symm

variable (arrangement : Arrangement) (query : EventQuery) {dht : MemoryEventDht}

/-- A query returns stored events that match it. -/
theorem mem_query {published : PublishedEvent}
    (member : published ∈ dht.query arrangement query) :
    matchesQuery published query = true ∧
      ∃ entry ∈ dht.entries, published ∈ entry.2 := by
  have sorted := List.mem_of_mem_take member
  obtain ⟨entry, entryMem, filtered⟩ :=
    List.mem_flatMap.mp ((arrangement.sort_perm _).mem_iff.mp sorted)
  obtain ⟨inBucket, isMatch⟩ := List.mem_filter.mp filtered
  exact ⟨isMatch, entry, (arrangement.iterate_perm _).mem_iff.mp entryMem,
    inBucket⟩

theorem verified_query (sound : Sound scheme dht.entries)
    {published : PublishedEvent}
    (member : published ∈ dht.query arrangement query) :
    verifyEventRecord scheme published.record = true := by
  obtain ⟨-, entry, entryMem, inBucket⟩ := mem_query arrangement query member
  exact (sound.buckets entry entryMem).verified published inBucket

theorem distinct_query (sound : Sound scheme dht.entries) :
    ((dht.query arrangement query).map identity).Nodup := by
  have matching := (sound.perm (arrangement.iterate_perm dht.entries)).distinct
    fun published => matchesQuery published query
  have sorted := ((arrangement.sort_perm _).map identity).nodup_iff.mpr matching
  exact ((List.take_sublist _ _).map identity).nodup sorted

end P2P

end Blocxxi
