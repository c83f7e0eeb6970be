import Blocxxi.EventDht
import Blocxxi.EventStoreInvariant
import Blocxxi.KeySort

/-!
# What a query over the network returns

The records of the local store are verified and match the query.  The records
that peers answer are neither verified nor matched against the query before
they are merged, so the result is as good as the answered records that
survive the merge and the limit.
-/

namespace Blocxxi

namespace P2P

open Blocxxi.Core Cxx ByteText Bencode Kademlia MergeByKey

/-- A verified event that matches the query. -/
def Genuine (scheme : SignatureScheme) (query : EventQuery)
    (published : PublishedEvent) : Prop :=
  verifyEventRecord scheme published.record = true ∧
    matchesQuery published query = true

instance (scheme : SignatureScheme) (query : EventQuery)
    (published : PublishedEvent) : Decidable (Genuine scheme query published) :=
  inferInstanceAs (Decidable (_ ∧ _))

/-- The records that the peers of one router answer, and the session after
them. -/
def peerRecords (deterministicKey : ByteString) :
    List IpEndpoint → Session → List PublishedEvent × Session
  | [], session => ([], session)
  | peer :: peers, session =>
      let ((status, records), session) :=
        queryPeerRecords deterministicKey peer session
      let (rest, session) := peerRecords deterministicKey peers session
      ((if status.isOk then records else []) ++ rest, session)

/-- The records that the peers of all routers answer, in their order. -/
def routerRecords (deterministicKey : ByteString) :
    List IpEndpoint → Session → List PublishedEvent × Session
  | [], session => ([], session)
  | router :: routers, session =>
      let ((status, peers), session) :=
        queryRouter deterministicKey router session
      let (records, session) :=
        if status.isOk then peerRecords deterministicKey peers session
        else ([], session)
      let (rest, session) := routerRecords deterministicKey routers session
      (records ++ rest, session)

/-- The records that are answered to a query. -/
def answeredRecords (query : EventQuery) (routers : List IpEndpoint)
    (session : Session) : List PublishedEvent :=
  match query.deterministicKey with
  | none => []
  | some deterministicKey =>
      (routerRecords deterministicKey routers session).1

theorem mergePublishedRecords_eq (records offered : List PublishedEvent) :
    mergePublishedRecords records offered =
      mergeAll identity records offered :=
  rfl

theorem visitPeer_records (deterministicKey : ByteString) (peers : List IpEndpoint)
    (state : QueryState) :
    (peers.foldl (visitPeer deterministicKey) state).result.records =
        mergeAll identity state.result.records
          (peerRecords deterministicKey peers state.session).1 ∧
      (peers.foldl (visitPeer deterministicKey) state).session =
        (peerRecords deterministicKey peers state.session).2 := by
  induction peers generalizing state with
  | nil => exact ⟨rfl, rfl⟩
  | cons peer peers ih =>
      obtain ⟨records, session⟩ := ih (visitPeer deterministicKey state peer)
      rw [List.foldl_cons, records, session]
      rw [peerRecords, visitPeer]
      rcases queryPeerRecords deterministicKey peer state.session with
        ⟨⟨status, answered⟩, after⟩
      dsimp only
      refine ⟨?_, rfl⟩
      by_cases accepted : status.isOk
      · rw [if_pos accepted, if_pos accepted, mergePublishedRecords_eq,
          mergeAll_append]
      · rw [if_neg accepted, if_neg accepted, List.nil_append]

theorem visitRouter_records (deterministicKey : ByteString)
    (routers : List IpEndpoint) (state : QueryState) :
    (routers.foldl (visitRouter deterministicKey) state).result.records =
      mergeAll identity state.result.records
        (routerRecords deterministicKey routers state.session).1 := by
  induction routers generalizing state with
  | nil => rfl
  | cons router routers ih =>
      rw [List.foldl_cons, ih, routerRecords, visitRouter]
      rcases queryRouter deterministicKey router state.session with
        ⟨⟨status, peers⟩, after⟩
      dsimp only
      by_cases accepted : status.isOk
      · obtain ⟨records, session⟩ := visitPeer_records deterministicKey peers
          { state with session := after }
        rw [if_neg (not_not.mpr accepted), if_pos accepted, records, session,
          mergeAll_append]
      · rw [if_pos accepted, if_neg accepted, List.nil_append]

section Query

variable (arrangement : Arrangement) (query : EventQuery)
  (dht : MainlineEventDht) (session : Session)

theorem take_local_query (store : MemoryEventDht) :
    (store.query arrangement query).take query.limit =
      store.query arrangement query := by
  simp [MemoryEventDht.query, List.take_take]

/-- The result: local records with the answered ones merged in, cut at the
limit. -/
theorem query_records :
    (dht.query arrangement query session).2.1.records =
      (mergeAll identity (dht.localStore.query arrangement query)
        (answeredRecords query dht.routers session)).take query.limit := by
  unfold MainlineEventDht.query answeredRecords
  cases query.deterministicKey with
  | none => exact (take_local_query arrangement query dht.localStore).symm
  | some deterministicKey =>
      dsimp only
      split
      · rename_i noRouters
        rw [noRouters]
        exact (take_local_query arrangement query dht.localStore).symm
      · dsimp only
        rw [visitRouter_records]

/-- All records that are offered to the merge. -/
def offeredRecords : List PublishedEvent :=
  dht.localStore.query arrangement query ++
    answeredRecords query dht.routers session

/-- No later record has the identity of this one, and its identity is among the
first that are offered, as many as the limit allows. -/
def Kept (published : PublishedEvent) : Prop :=
  LastOfKey identity (offeredRecords arrangement query dht session) published ∧
    identity published ∈ ((offeredRecords arrangement query dht session).map
      identity).eraseDups.take query.limit

theorem mem_query_records
    (distinct : ((dht.localStore.query arrangement query).map identity).Nodup)
    (published : PublishedEvent) :
    published ∈ (dht.query arrangement query session).2.1.records ↔
      Kept arrangement query dht session published := by
  have merged : mergeAll identity (dht.localStore.query arrangement query)
        (answeredRecords query dht.routers session) =
      mergeAll identity [] (offeredRecords arrangement query dht session) := by
    rw [offeredRecords, mergeAll_append, mergeAll_self distinct]
  rw [query_records, merged, mem_take_mergeAll]
  rfl

end Query

/-- The reply is a response whose list of records has this one. -/
def Carries (reply : Reply) (published : PublishedEvent) : Prop :=
  ∃ message response items item record, reply = .answered message ∧
    message.payload = .response response ∧
    response.values.lookup (ascii "records") = some (.list items) ∧ item ∈ items ∧
    parseSignedEventRecord item = .returned (some record) ∧
    published = receivedEvent record

theorem mem_receivedEvents {items : List Value} {events : List PublishedEvent}
    {published : PublishedEvent} (received : receivedEvents items = .returned (some events))
    (member : published ∈ events) :
    ∃ item ∈ items, ∃ record, parseSignedEventRecord item = .returned (some record) ∧
      published = receivedEvent record := by
  induction items generalizing events with
  | nil =>
      cases received
      cases member
  | cons item items ih =>
      obtain ⟨parsed, isParsed, received⟩ := Outcome.bind_returned received
      cases parsed with
      | none => cases received
      | some record =>
          obtain ⟨rest, isRest, received⟩ := Outcome.bind_returned received
          cases rest with
          | none => cases received
          | some rest =>
              cases received
              rcases List.mem_cons.mp member with rfl | later
              · exact ⟨item, List.mem_cons_self, record, isParsed, rfl⟩
              · obtain ⟨other, inside, found⟩ := ih isRest later
                exact ⟨other, List.mem_cons_of_mem _ inside, found⟩

/-- What is read from a reply is carried by it. -/
theorem carries_of_settle {timeout wrongPayload : String} {reply : Reply}
    {published : PublishedEvent}
    (member : published ∈ (settle timeout wrongPayload [] readRecords reply).2) :
    Carries reply published := by
  cases reply with
  | timedOut => cases member
  | failed message => cases member
  | answered message =>
      unfold settle at member
      dsimp only at member
      split at member
      · next response isResponse =>
          split at member
          · next settled isRead =>
              unfold readRecords at isRead
              split at isRead
              · cases isRead
                cases member
              · next found isFound =>
                  obtain ⟨items, isList, isRead⟩ := Outcome.bind_returned isRead
                  obtain ⟨events, received, isRead⟩ := Outcome.bind_returned isRead
                  cases isRead
                  cases events with
                  | none => cases member
                  | some events =>
                      obtain ⟨item, inside, record, parsed, rfl⟩ :=
                        mem_receivedEvents received member
                      cases found with
                      | list stored =>
                          cases isList
                          exact ⟨message, response, items, item, record, rfl, isResponse,
                            isFound, inside, parsed, rfl⟩
                      | integer stored => cases isList
                      | string stored => cases isList
                      | dictionary stored => cases isList
          · cases member
      · cases member

/-- The reply to a request is one of those to come, unless it carries nothing. -/
theorem headD_mem_of_carries {replies : List Reply} {published : PublishedEvent}
    (carries : Carries (replies.headD .timedOut) published) :
    replies.headD .timedOut ∈ replies := by
  cases replies with
  | nil =>
      obtain ⟨message, -, -, -, -, answered, -⟩ := carries
      cases answered
  | cons reply rest => exact List.mem_cons_self

theorem mem_peerRecords {deterministicKey : ByteString} {peers : List IpEndpoint}
    {session : Session} {published : PublishedEvent}
    (member : published ∈ (peerRecords deterministicKey peers session).1) :
    ∃ reply ∈ session.replies, Carries reply published := by
  induction peers generalizing session with
  | nil => cases member
  | cons peer peers ih =>
      rcases List.mem_append.mp member with first | later
      · have carries := carries_of_settle (List.mem_ite_nil_right.mp first).2
        exact ⟨_, headD_mem_of_carries carries, carries⟩
      · obtain ⟨reply, inside, carries⟩ := ih later
        exact ⟨reply, List.mem_of_mem_tail inside, carries⟩

theorem peerRecords_replies (deterministicKey : ByteString) (peers : List IpEndpoint)
    (session : Session) :
    (peerRecords deterministicKey peers session).2.replies ⊆ session.replies := by
  induction peers generalizing session with
  | nil => exact List.Subset.refl _
  | cons peer peers ih => exact List.Subset.trans (ih _) fun _ => List.mem_of_mem_tail

theorem mem_routerRecords {deterministicKey : ByteString} {routers : List IpEndpoint}
    {session : Session} {published : PublishedEvent}
    (member : published ∈ (routerRecords deterministicKey routers session).1) :
    ∃ reply ∈ session.replies, Carries reply published := by
  induction routers generalizing session with
  | nil => cases member
  | cons router routers ih =>
      rw [routerRecords] at member
      dsimp only at member
      rcases List.mem_append.mp member with first | later
      · split at first
        · obtain ⟨reply, inside, carries⟩ := mem_peerRecords first
          exact ⟨reply, List.mem_of_mem_tail inside, carries⟩
        · cases first
      · obtain ⟨reply, inside, carries⟩ := ih later
        refine ⟨reply, List.mem_of_mem_tail ?_, carries⟩
        split at inside
        · exact peerRecords_replies _ _ _ inside
        · exact inside

/-- A returned record is in the answer of the local store, or some reply carries it. -/
theorem mem_query_replies (arrangement : Arrangement) {query : EventQuery}
    {dht : MainlineEventDht} {session : Session} {published : PublishedEvent}
    (distinct : ((dht.localStore.query arrangement query).map identity).Nodup)
    (member : published ∈ (dht.query arrangement query session).2.1.records) :
    published ∈ dht.localStore.query arrangement query ∨
      ∃ reply ∈ session.replies, Carries reply published := by
  have kept := (mem_query_records arrangement query dht session distinct published).mp member
  refine (List.mem_append.mp (mem_of_lastOfKey kept.1)).imp_right fun answered => ?_
  unfold answeredRecords at answered
  split at answered
  · cases answered
  · exact mem_routerRecords answered

/-- If all records that the replies carry are genuine, a query returns only genuine
records. -/
theorem query_genuine_of_replies (scheme : SignatureScheme) (arrangement : Arrangement)
    {query : EventQuery} (routers : List IpEndpoint) (calls : List StoreCall)
    {session : Session}
    (genuine : ∀ reply ∈ session.replies, ∀ published, Carries reply published →
      Genuine scheme query published) :
    let dht : MainlineEventDht := ⟨routers, storeAfter scheme calls⟩
    ∀ published ∈ (dht.query arrangement query session).2.1.records,
      Genuine scheme query published := by
  intro dht published member
  have sound : Sound scheme dht.localStore.entries := sound_storeAfter calls
  rcases mem_query_replies arrangement (distinct_query arrangement query sound) member with
    isLocal | ⟨reply, inside, carries⟩
  · exact ⟨verified_query arrangement query sound isLocal,
      (mem_query arrangement query isLocal).1⟩
  · exact genuine reply inside published carries

/-- A query returns only genuine records exactly when every answered record
that it keeps is genuine. -/
theorem query_genuine_iff (scheme : SignatureScheme) (arrangement : Arrangement)
    (query : EventQuery) (routers : List IpEndpoint) (calls : List StoreCall)
    (session : Session) :
    let dht : MainlineEventDht := ⟨routers, storeAfter scheme calls⟩
    (∀ published ∈ (dht.query arrangement query session).2.1.records,
      Genuine scheme query published) ↔
        ∀ published ∈ answeredRecords query routers session,
          Kept arrangement query dht session published →
            Genuine scheme query published := by
  intro dht
  have sound : Sound scheme dht.localStore.entries := sound_storeAfter calls
  have keeps := mem_query_records arrangement query dht session
    (distinct_query arrangement query sound)
  constructor
  · intro genuine published _ kept
    exact genuine published ((keeps published).mpr kept)
  · intro genuine published member
    have kept := (keeps published).mp member
    rcases List.mem_append.mp (mem_of_lastOfKey kept.1) with isLocal | answered
    · exact ⟨verified_query arrangement query sound isLocal,
        (mem_query arrangement query isLocal).1⟩
    · exact genuine published answered kept

/-- The buckets in the order of their creation, events of the same time in any
one order. -/
def plainArrangement : Arrangement where
  iterate := id
  sort events := (KeySort.sortByKey PublishedEvent.publishedAtUtc events).reverse
  iterate_perm := fun _ => List.Perm.refl _
  sort_perm := fun events =>
    (List.reverse_perm _).trans (List.perm_insertionSort _ events)
  sort_newest := by
    intro events
    rw [List.pairwise_reverse]
    have total : Std.Total fun first second : Int64 => first ≤ second :=
      ⟨Int64.le_total⟩
    have transitive : IsTrans Int64 fun first second => first ≤ second :=
      ⟨fun _ _ _ => Int64.le_trans⟩
    exact KeySort.ascending_sortByKey PublishedEvent.publishedAtUtc events

/-- A scheme in which every signature of a well-formed key verifies. -/
def lenientScheme : SignatureScheme where
  publicKey := fun _ => Hash.zero
  sign := fun _ _ _ => []
  verify := fun _ _ _ => true

def response (values : DictionaryType) : Reply :=
  .answered { payload := .response { values := values } }

/-- A record without a key and without a signature. -/
def forgedRecord : Value :=
  let text (value : String) : Value := .string (ascii value)
  .dictionary
    [(ascii "envelope", .dictionary
      [(ascii "schema", text "blocxxi.event.v1"),
        (ascii "event_type", text "forged"), (ascii "taxonomy", text ""),
        (ascii "source", text ""), (ascii "producer", text ""),
        (ascii "window_start", .integer 0), (ascii "window_end", .integer 0),
        (ascii "observed_at", .integer 0), (ascii "published_at", .integer 0),
        (ascii "summary", text ""), (ascii "payload", text "")]),
      (ascii "signer_name", text ""),
      (ascii "signer_public_key_hex", text ""),
      (ascii "signature_hex", text "")]

/-- One router that knows one peer, which answers the forged record. -/
def forgingSession : Session where
  replies :=
    [response [(ascii "values", .list [.string [127, 0, 0, 1, 4, 210]])],
      response [(ascii "records", .list [forgedRecord])]]

/-- The forged record is returned, for a key that is not its own. -/
theorem query_not_genuine :
    let query : EventQuery := { deterministicKey := some (ascii "key") }
    let dht : MainlineEventDht := { routers := [{}] }
    ¬ ∀ published ∈ (dht.query plainArrangement query forgingSession).2.1.records,
      Genuine lenientScheme query published := by
  decide +kernel

end P2P

end Blocxxi
