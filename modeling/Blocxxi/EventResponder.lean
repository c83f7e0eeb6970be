import Blocxxi.AnswerSizes
import Blocxxi.EventDhtDeadlines
import Blocxxi.EventStoreInvariant

/-!
# Handing out records

A node of the event network answers for the records of its own store.  The sender of
the query reads back exactly the records that were found, unless they do not fit into
one datagram, in which case nothing is sent and the query times out.
-/

namespace Blocxxi

namespace P2P

open Blocxxi.Core Cxx ByteText Bencode Kademlia

/-- The query that a responder makes of its store. -/
def keyQuery (key : ByteString) : EventQuery where
  deterministicKey := some key
  limit := 64

/-- The responder that the constructor of `MainlineEventDht` hands to the session. -/
def respondWithRecords (arrangement : Arrangement) (store : MemoryEventDht)
    (method : ByteString) (query : KrpcQuery) (_sender : IpEndpoint) :
    Outcome (Option DictionaryType) :=
  if method ≠ ascii "bx_get_event" then .returned none
  else
    match query.arguments.lookup (ascii "key") with
    | none => .returned none
    | some found => do
        let key ← found.asString
        let events := store.query arrangement (keyQuery key)
        .returned (some [(ascii "records",
          .list (events.map fun published => recordToValue published.record))])

/-- The callbacks of such a node. -/
def eventApplication (arrangement : Arrangement) (store : MemoryEventDht) :
    Application where
  onCustomQuery := some (respondWithRecords arrangement store)

/-- What the sender of a query comes to know from the datagram that answers it. -/
def replyOf (answer : Option ByteString) : Reply :=
  match answer with
  | none => .timedOut
  | some bytes =>
      match decodeKrpc bytes (bytes.length + 1) with
      | .returned message => .answered message
      | _ => .timedOut

/-- A datagram with a query, as it arrives at a node with these callbacks. -/
def queryDatagram (sender : IpEndpoint) (application : Application)
    (transactionId : ByteString) (query : KrpcQuery) : Datagram where
  sender := sender
  bytes := encodeKrpc (queryMessage transactionId query)
  steps := (encodeKrpc (queryMessage transactionId query)).length + 1
  application := application

/-- The query is small enough to be sent. -/
def Sendable (transactionId : ByteString) (query : KrpcQuery) : Prop :=
  (encodeKrpc (queryMessage transactionId query)).length ≤ safePayloadSize

/-- The node that a session asks for; its port is in no query but an announcement. -/
def Session.self (session : Session) : Self where
  id := session.selfId

/-- The values of the answer. -/
def recordsValues (self : Node) (events : List PublishedEvent) : DictionaryType :=
  [(ascii "id", .string self.id.bytes),
    (ascii "records", .list (events.map fun published => recordToValue published.record))]

theorem replyOf_asyncSend {message : KrpcMessage} (ordered : message.payload.Ordered) :
    replyOf (asyncSend (encodeKrpc message)) =
      if safePayloadSize < (encodeKrpc message).length then .timedOut
      else .answered message := by
  rw [asyncSend]
  split
  · rfl
  · rename_i fits
    have small : (encodeKrpc message).length < 2 ^ 63 := by
      rw [safePayloadSize] at fits
      omega
    rw [replyOf, decodeKrpc_encodeKrpc ordered small (Nat.lt_succ_self _)]

/-- A query that is sent arrives as it is. -/
theorem queryDatagram_query? {transactionId : ByteString} {query : KrpcQuery}
    (sendable : Sendable transactionId query)
    (ordered : (Value.dictionary query.arguments).Ordered) {application : Application}
    {sender : IpEndpoint}
    (passes : application.onQuery query.method sender = .returned ()) :
    (queryDatagram sender application transactionId query).query? =
      some (transactionId, query) := by
  have small : (encodeKrpc (queryMessage transactionId query)).length < 2 ^ 63 := by
    rw [Sendable, safePayloadSize] at sendable
    omega
  have payloadOrdered : (queryMessage transactionId query).payload.Ordered := ordered
  have decoded : decodeKrpc (encodeKrpc (queryMessage transactionId query))
      ((encodeKrpc (queryMessage transactionId query)).length + 1) =
        .returned (queryMessage transactionId query) :=
    decodeKrpc_encodeKrpc payloadOrdered small (Nat.lt_succ_self _)
  rw [Datagram.query?, queryDatagram, decoded]
  simp only [queryMessage, passes]

theorem pairs_ordered {first second : String} (ascending : ascii first < ascii second)
    {firstValue secondValue : Value} (firstOrdered : firstValue.Ordered)
    (secondOrdered : secondValue.Ordered) :
    (Value.dictionary [(ascii first, firstValue), (ascii second, secondValue)]).Ordered := by
  refine ⟨?_, firstOrdered, secondOrdered, trivial⟩
  exact List.pairwise_pair.mpr ascending

theorem dictionaryOf_pair {first second : String} (ascending : ascii first < ascii second)
    (firstValue secondValue : Value) :
    dictionaryOf [(first, firstValue), (second, secondValue)] =
      [(ascii first, firstValue), (ascii second, secondValue)] := by
  have differs : ascii second ≠ ascii first := by
    intro same
    rw [same] at ascending
    exact List.lt_irrefl _ ascending
  rw [dictionaryOf, List.foldl_cons, List.foldl_cons, List.foldl_nil, emplace, emplace,
    if_neg differs, if_neg (List.lt_asymm ascending), emplace]

theorem getEventQuery_arguments (selfNode : Self) (key : ByteString) :
    (getEventQuery selfNode key).arguments =
      [(ascii "id", .string selfNode.id.bytes), (ascii "key", .string key)] :=
  dictionaryOf_pair (by decide) _ _

theorem getPeersQuery_arguments (selfNode : Self) (infoHash : Hash160) :
    (getPeersQuery selfNode infoHash).arguments =
      [(ascii "id", .string selfNode.id.bytes),
        (ascii "info_hash", .string infoHash.bytes)] :=
  dictionaryOf_pair (by decide) _ _

theorem requireArgument_getPeersQuery (selfNode : Self) (infoHash : Hash160) :
    requireArgument (getPeersQuery selfNode infoHash) "info_hash" =
      .returned infoHash.bytes := by
  rw [requireArgument, getPeersQuery_arguments]
  rfl

theorem getPeersQuery_ordered (selfNode : Self) (infoHash : Hash160) :
    (Value.dictionary (getPeersQuery selfNode infoHash).arguments).Ordered := by
  rw [getPeersQuery_arguments]
  exact pairs_ordered (by decide) trivial trivial

theorem getEventQuery_ordered (selfNode : Self) (key : ByteString) :
    (Value.dictionary (getEventQuery selfNode key).arguments).Ordered := by
  rw [getEventQuery_arguments]
  exact pairs_ordered (by decide) trivial trivial

theorem recordsValues_ordered (self : Node) (events : List PublishedEvent) :
    (Value.dictionary (recordsValues self events)).Ordered := by
  refine pairs_ordered (by decide) trivial ?_
  apply Value.itemsOrdered_iff.mpr
  intro item member
  obtain ⟨published, -, rfl⟩ := List.mem_map.mp member
  exact recordToValue_ordered published.record

section Answer

variable (v6Text : ByteString → ByteString) (self : Node) (arrangement : Arrangement)
  (store : MemoryEventDht)

/-- A query for records changes no table, and is answered with what the store has. -/
theorem answerDatagram_getEventQuery {transactionId : ByteString} {selfNode : Self}
    {key : ByteString} (sendable : Sendable transactionId (getEventQuery selfNode key))
    (asker : IpEndpoint) (tables : PeerTables) :
    answerDatagram v6Text self (queryDatagram asker (eventApplication arrangement store)
        transactionId (getEventQuery selfNode key)) tables =
      (asyncSend (encodeKrpc (makeValuesResponse transactionId
        (recordsValues self (store.query arrangement (keyQuery key))))), tables) := by
  have isQuery := @queryDatagram_query? transactionId (getEventQuery selfNode key) sendable
    (getEventQuery_ordered selfNode key) (eventApplication arrangement store) asker rfl
  have isFound : (getEventQuery selfNode key).arguments.lookup (ascii "key") =
      some (.string key) := by
    rw [getEventQuery_arguments]
    rfl
  have isKnown : ascii "bx_get_event" ≠ ascii "find_node" ∧
      ascii "bx_get_event" ≠ ascii "get_peers" ∧
      ascii "bx_get_event" ≠ ascii "sample_infohashes" ∧
      ascii "bx_get_event" ≠ ascii "announce_peer" ∧
      ascii "bx_get_event" ≠ ascii "ping" := by
    decide
  obtain ⟨notFindNode, notGetPeers, notSample, notAnnounce, notPing⟩ := isKnown
  have method : (getEventQuery selfNode key).method = ascii "bx_get_event" := rfl
  rw [answerDatagram, isQuery]
  simp only [makeResponse, method, notFindNode, notGetPeers, notSample, notAnnounce,
    notPing, if_false, queryDatagram, eventApplication, customValues, respondWithRecords,
    isFound, ne_eq, not_true_eq_false, Value.asString, Outcome.returned_bind,
    Option.map_some]
  rfl

/-- The records of an answer are read back as they are. -/
theorem receivedEvents_map (events : List PublishedEvent) :
    receivedEvents (events.map fun published => recordToValue published.record) =
      .returned (some (events.map fun published => receivedEvent published.record)) := by
  induction events with
  | nil => rfl
  | cons published events ih =>
      rw [List.map_cons, receivedEvents, parseSignedEventRecord_toValue,
        Outcome.returned_bind]
      dsimp only
      rw [ih]
      rfl

theorem readRecords_recordsValues (events : List PublishedEvent) :
    readRecords (recordsValues self events) =
      .returned (.success "",
        events.map fun published => receivedEvent published.record) := by
  have found : (recordsValues self events).lookup (ascii "records") =
      some (.list (events.map fun published => recordToValue published.record)) := rfl
  simp only [readRecords, found, Value.asList, Outcome.returned_bind, receivedEvents_map]

/-- What the asker comes to know: the records that the store has for the key, or
nothing when they are too many for a datagram. -/
theorem settle_getEventQuery {transactionId : ByteString} {selfNode : Self}
    {key : ByteString} (sendable : Sendable transactionId (getEventQuery selfNode key))
    (asker : IpEndpoint) (tables : PeerTables) :
    let events := store.query arrangement (keyQuery key)
    settle "peer record query timed out" "peer query did not return a response payload"
        [] readRecords (replyOf (answerDatagram v6Text self (queryDatagram asker
          (eventApplication arrangement store) transactionId (getEventQuery selfNode key))
          tables).1) =
      if safePayloadSize < (encodeKrpc (makeValuesResponse transactionId
          (recordsValues self events))).length then
        (.failure .ioError "peer record query timed out", [])
      else (.success "", events.map fun published => receivedEvent published.record) := by
  intro events
  have ordered : (makeValuesResponse transactionId
      (recordsValues self events)).payload.Ordered := recordsValues_ordered self events
  rw [answerDatagram_getEventQuery v6Text self arrangement store sendable asker tables,
    replyOf_asyncSend ordered]
  split
  · rfl
  · simp only [settle, makeValuesResponse, readRecords_recordsValues]

end Answer

end P2P

end Blocxxi
