import Blocxxi.AnnouncedPorts
import Blocxxi.EventPublishing

/-!
# What nodes reply

What comes of a query that is sent to a node: the datagram with the query arrives, and
what the node answers comes back.  A reply is no failure only if the query was let pass
and the answer was small enough.
-/

namespace Blocxxi

namespace P2P

open Blocxxi.Core Cxx ByteText Bencode Kademlia StepMachine MergeByKey

/-- The message of the error for a datagram that is too large. -/
def tooLarge : String := "value too large"

section Replies

variable (v6Text : ByteString → ByteString) (responder : Node)

/-- What comes of a query that is sent to a node. -/
def replyFrom (application : Application) (tables : PeerTables) (asker : IpEndpoint)
    (transactionId : ByteString) (query : KrpcQuery) : Reply :=
  match asyncSend (encodeKrpc (queryMessage transactionId query)) with
  | none => .failed tooLarge
  | some _ => replyOf (answerDatagram v6Text responder
      (queryDatagram asker application transactionId query) tables).1

variable {v6Text responder}

/-- A reply that is no failure answers a query that was let pass. -/
theorem replyFrom_answered {application : Application} {tables : PeerTables}
    {asker : IpEndpoint} {transactionId : ByteString} {query : KrpcQuery}
    {message : KrpcMessage} (ordered : (Value.dictionary query.arguments).Ordered)
    (answered : replyFrom v6Text responder application tables asker transactionId query =
      .answered message) :
    (queryDatagram asker application transactionId query).query? =
        some (transactionId, query) ∧
      replyOf (sendResponse (makeResponse v6Text responder application query asker
        transactionId tables).1) = .answered message := by
  have sendable : Sendable transactionId query := by
    by_contra tooLong
    rw [replyFrom, asyncSend, if_pos (Nat.lt_of_not_le tooLong)] at answered
    cases answered
  rw [replyFrom, asyncSend, if_neg (Nat.not_lt.mpr sendable)] at answered
  dsimp only at answered
  have passes : application.onQuery query.method asker = .returned () := by
    have small : (encodeKrpc (queryMessage transactionId query)).length < 2 ^ 63 := by
      rw [Sendable, safePayloadSize] at sendable
      omega
    have payloadOrdered : (queryMessage transactionId query).payload.Ordered := ordered
    have decoded : decodeKrpc (encodeKrpc (queryMessage transactionId query))
        ((encodeKrpc (queryMessage transactionId query)).length + 1) =
          .returned (queryMessage transactionId query) :=
      decodeKrpc_encodeKrpc payloadOrdered small (Nat.lt_succ_self _)
    rw [answerDatagram, Datagram.query?, queryDatagram, decoded] at answered
    dsimp only [queryMessage] at answered
    cases verdict : application.onQuery query.method asker with
    | returned nothing => rfl
    | thrown message => rw [verdict] at answered; cases answered
    | running => rw [verdict] at answered; cases answered
  have isQuery := queryDatagram_query? sendable ordered passes
  refine ⟨isQuery, ?_⟩
  rw [answerDatagram, isQuery] at answered
  exact answered

/-- What is settled without a failure was answered. -/
theorem answered_of_isOk {Result : Type} {timeout wrongPayload : String} {none : Result}
    {read : DictionaryType → Outcome (Status × Result)} {reply : Reply}
    (succeeds : (settle timeout wrongPayload none read reply).1.isOk = true) :
    ∃ message, reply = .answered message := by
  cases reply with
  | timedOut => cases succeeds
  | failed message => cases succeeds
  | answered message => exact ⟨message, rfl⟩

end Replies

section Router

variable {v6Text : ByteString → ByteString} {router : Node} {application : Application}
  {tables : PeerTables} {asker : IpEndpoint} {transactionId : ByteString}
  {selfNode : Self} {infoHash : Hash160}

theorem selfValues_ordered (node : Node) :
    (Value.dictionary (selfValues node)).Ordered :=
  ⟨List.pairwise_singleton _ _, trivial, trivial⟩

/-- The peers of a list that can be encoded have IPv4 addresses. -/
theorem compactPeers_returned {peers : List IpEndpoint} {compact : List Value}
    (returned : compactPeers peers = .returned compact) :
    ∀ peer ∈ peers, isV4 peer = true := by
  induction peers generalizing compact with
  | nil => exact fun peer member => nomatch member
  | cons peer peers ih =>
      obtain ⟨bytes, encoded, later⟩ := Outcome.bind_returned returned
      obtain ⟨rest, isRest, -⟩ := Outcome.bind_returned later
      have first : isV4 peer = true := by
        by_contra notV4
        rw [encodeCompactPeer, if_neg notV4] at encoded
        cases encoded
      exact List.forall_mem_cons.mpr ⟨first, ih isRest⟩

theorem decodePeers_map {peers : List IpEndpoint}
    (v4 : ∀ peer ∈ peers, isV4 peer = true) :
    decodePeers (peers.map fun peer => .string (compactBytes peer)) = .returned peers := by
  induction peers with
  | nil => rfl
  | cons peer peers ih =>
      obtain ⟨first, rest⟩ := List.forall_mem_cons.mp v4
      rw [List.map_cons, decodePeers, Value.asString, Outcome.returned_bind,
        decodeCompactPeer_compactBytes first, Outcome.returned_bind, ih rest]
      rfl

/-- The values of an answer: the token, and the recorded peers if there are any. -/
theorem getPeersValues_returned {token hash : ByteString}
    {announced : OrderedMap ByteString (List IpEndpoint)} {values : DictionaryType}
    (returned : getPeersValues router token hash announced = .returned values) :
    (Value.dictionary values).Ordered ∧
      values.lookup (ascii "token") = some (.string token) ∧
      ∃ items, findList values "values" = .returned items ∧
        decodePeers items = .returned ((announced.lookup hash).getD []) := by
  have withToken : (Value.dictionary (emplace (ascii "token") (.string token)
      (selfValues router))).Ordered := emplace_ordered (selfValues_ordered router) trivial
  have withNodes {values : DictionaryType}
      (returned : (do let nodes ← encodeCompactNode router
                      .returned (emplace (ascii "nodes") (.string nodes)
                        (emplace (ascii "token") (.string token) (selfValues router)))) =
        .returned values) :
      (Value.dictionary values).Ordered ∧
        values.lookup (ascii "token") = some (.string token) ∧
        findList values "values" = .returned [] := by
    obtain ⟨nodes, -, isValues⟩ := Outcome.bind_returned returned
    cases isValues
    exact ⟨emplace_ordered withToken trivial, rfl, rfl⟩
  unfold getPeersValues at returned
  dsimp only at returned
  split at returned
  · rename_i peer peers found
    obtain ⟨compact, areCompact, isValues⟩ := Outcome.bind_returned returned
    cases isValues
    have v4 := compactPeers_returned areCompact
    rw [compactPeers_v4 v4] at areCompact
    cases areCompact
    refine ⟨emplace_ordered withToken ?_, rfl, _, rfl, ?_⟩
    · apply Value.itemsOrdered_iff.mpr
      intro item member
      obtain ⟨peer, -, rfl⟩ := List.mem_map.mp member
      trivial
    · rw [found]
      exact decodePeers_map v4
  · rename_i nothing
    have isNil : (announced.lookup hash).getD [] = [] := by
      cases found : announced.lookup hash with
      | none => rfl
      | some peers =>
          cases peers with
          | nil => rfl
          | cons peer peers => exact absurd found (nothing peer peers)
    obtain ⟨ordered, isToken, noValues⟩ := withNodes returned
    rw [isNil]
    exact ⟨ordered, isToken, [], noValues, rfl⟩

/-- A query for peers that is answered has made its sender known, and the answer has
the sender's token and the peers that are recorded. -/
theorem getPeers_answered {message : KrpcMessage}
    (answered : replyFrom v6Text router application tables asker transactionId
      (getPeersQuery selfNode infoHash) = .answered message) :
    AsksForPeers (queryDatagram asker application transactionId
        (getPeersQuery selfNode infoHash)) ∧
      ∃ values items, message.payload = .response { values := values } ∧
        findString values "token" = .returned (some (endpointText v6Text asker)) ∧
        findList values "values" = .returned items ∧
        decodePeers items = .returned (recordedPeers tables infoHash.bytes) := by
  obtain ⟨isQuery, isReply⟩ :=
    replyFrom_answered (getPeersQuery_ordered selfNode infoHash) answered
  have isHash : requireArgument (getPeersQuery selfNode infoHash) "info_hash" =
      .returned infoHash.bytes :=
    requireArgument_getPeersQuery selfNode infoHash
  refine ⟨⟨_, _, _, isQuery, rfl, isHash⟩, ?_⟩
  rw [makeResponse_getPeers application asker transactionId tables rfl isHash] at isReply
  cases made : getPeersValues router (endpointText v6Text asker) infoHash.bytes
      tables.announcedPeers with
  | thrown message => rw [made] at isReply; cases isReply
  | running => rw [made] at isReply; cases isReply
  | returned values =>
      obtain ⟨ordered, isToken, items, areItems, decoded⟩ := getPeersValues_returned made
      rw [made] at isReply
      have payloadOrdered : (makeValuesResponse transactionId values).payload.Ordered :=
        ordered
      change replyOf (asyncSend (encodeKrpc (makeValuesResponse transactionId values))) = _
        at isReply
      rw [replyOf_asyncSend payloadOrdered] at isReply
      split at isReply
      · cases isReply
      · cases isReply
        refine ⟨values, items, rfl, ?_, areItems, decoded⟩
        rw [findString, isToken]
        rfl

/-- The token that is read from the reply is the text of the asking endpoint. -/
theorem settleToken_answered {message : KrpcMessage}
    (answered : replyFrom v6Text router application tables asker transactionId
      (getPeersQuery selfNode infoHash) = .answered message) :
    (settleToken (.answered message)).2.1 = endpointText v6Text asker := by
  obtain ⟨-, values, items, isPayload, isToken, areItems, decoded⟩ :=
    getPeers_answered answered
  simp only [settleToken, settle, isPayload, readToken, isToken, areItems, decoded,
    Outcome.returned_bind, Option.getD_some]

/-- What `QueryRouter` makes of a reply when no token is asked for. -/
def settlePeers (reply : Reply) : Status × List IpEndpoint :=
  settle "DHT query timed out" "DHT query did not return a response payload" [] readPeers
    reply

/-- The peers that are read from the reply are those that are recorded. -/
theorem settlePeers_answered {message : KrpcMessage}
    (answered : replyFrom v6Text router application tables asker transactionId
      (getPeersQuery selfNode infoHash) = .answered message) :
    settlePeers (.answered message) =
      (.success "", recordedPeers tables infoHash.bytes) := by
  obtain ⟨-, values, items, isPayload, -, areItems, decoded⟩ := getPeers_answered answered
  simp only [settlePeers, settle, isPayload, readPeers, areItems, decoded,
    Outcome.returned_bind]

end Router

section Announcing

variable {v6Text : ByteString → ByteString} {router : Node} {tables : PeerTables}
  {sender : IpEndpoint}

/-- The sender was given its token. -/
def IssuedTo (v6Text : ByteString → ByteString) (sender : IpEndpoint)
    (tables : PeerTables) : Prop :=
  tables.issuedTokens.lookup (endpointText v6Text sender) = some (endpointText v6Text sender)

/-- Who is answered to a query for peers was given a token. -/
theorem issuedTo_answered {application : Application} {transactionId : ByteString}
    {selfNode : Self} {infoHash : Hash160} {message : KrpcMessage}
    (answered : replyFrom v6Text router application tables sender transactionId
      (getPeersQuery selfNode infoHash) = .answered message) :
    IssuedTo v6Text sender (answerDatagram v6Text router
      (queryDatagram sender application transactionId (getPeersQuery selfNode infoHash))
        tables).2 := by
  have asks := (getPeers_answered answered).1
  rw [answerDatagram_asks router asks, IssuedTo]
  exact AList.lookup_insert _

/-- No datagram takes the token away: who has the same text has the same token. -/
theorem issuedTo_answerDatagram (datagram : Datagram) (issued : IssuedTo v6Text sender tables) :
    IssuedTo v6Text sender (answerDatagram v6Text router datagram tables).2 := by
  rcases answerDatagram_cases router datagram tables
    with ⟨-, result⟩ | ⟨hash, token, endpoint, -, result⟩ | result
  · rw [result, IssuedTo]
    by_cases same : endpointText v6Text sender = endpointText v6Text datagram.sender
    · rw [same, AList.lookup_insert]
      rfl
    · rw [AList.lookup_insert_ne same]
      exact issued
  · rw [result]
    exact issued
  · rw [result]
    exact issued

theorem issuedTo_tablesThrough (later : List Datagram)
    (issued : IssuedTo v6Text sender tables) :
    IssuedTo v6Text sender (tablesThrough v6Text router later tables) :=
  invariant_run (fun datagram _ => issuedTo_answerDatagram datagram) later tables issued

/-- The endpoint that an announcement with these options is for. -/
def announcedAs (options : AnnounceOptions) (sender : IpEndpoint) : IpEndpoint :=
  if options.impliedPort then sender else { sender with port := options.port }

theorem lookup_impliedPort (selfNode : Self) (infoHash : Hash160) (token : ByteString)
    (port : UInt16) (impliedPort : Bool) :
    (announcePeerQuery selfNode infoHash token port impliedPort).arguments.lookup
        (ascii "implied_port") = if impliedPort then some (.integer 1) else none := by
  have absent : (dictionaryOf (announceEntries selfNode infoHash token port)).lookup
      (ascii "implied_port") = none := by
    rw [dictionaryOf, lookup_foldl_emplace _ List.Pairwise.nil, List.lookup_nil,
      Option.none_or, List.lookup_eq_none_iff]
    have differs : ∀ name ∈ ["id", "info_hash", "token", "port"],
        ascii "implied_port" ≠ ascii name := by
      decide
    intro entry member
    obtain ⟨⟨name, value⟩, isEntry, rfl⟩ := List.mem_map.mp member
    have isName := List.mem_map_of_mem (f := Prod.fst) isEntry
    exact bne_iff_ne.mpr (differs name isName)
  cases impliedPort with
  | false => exact absent
  | true =>
      have ordered : (Value.dictionary
          (dictionaryOf (announceEntries selfNode infoHash token port))).Ordered := by
        apply dictionaryOf_ordered
        simp [announceEntries, Value.Ordered]
      change (emplace (ascii "implied_port") (.integer 1)
        (dictionaryOf (announceEntries selfNode infoHash token port))).lookup _ = _
      rw [lookup_emplace ordered.1, absent, if_pos rfl]
      rfl

theorem announcedEndpoint_announcePeerQuery (options : AnnounceOptions)
    (selfNode : Self) (infoHash : Hash160) (token : ByteString) :
    announcedEndpoint sender (announcePeerQuery selfNode infoHash token options.port
      options.impliedPort) = .returned (announcedAs options sender) := by
  have implied := lookup_impliedPort selfNode infoHash token options.port options.impliedPort
  cases isImplied : options.impliedPort with
  | true =>
      rw [isImplied] at implied
      rw [announcedAs, isImplied, if_pos rfl]
      apply announcedEndpoint_implied
      exact ⟨1, by rw [findInteger, implied]; rfl, by decide⟩
  | false =>
      rw [isImplied] at implied
      have names : NamesPort (announcePeerQuery selfNode infoHash token options.port false)
          options.port.toUInt64.toInt64 := by
        have found := @lookup_announcePeerQuery selfNode infoHash token options.port false
          "port" (.integer options.port.toUInt64.toInt64) (by simp [announceEntries])
        rw [NamesPort, findInteger, found]
        rfl
      have needs : NeedsPort (announcePeerQuery selfNode infoHash token options.port false) :=
        ⟨none, by rw [findInteger, implied]; rfl, rfl⟩
      have narrowed : UInt16.ofNat options.port.toUInt64.toInt64.toUInt64.toNat =
          options.port := by
        rw [UInt64.toUInt64_toInt64, UInt16.toNat_toUInt64, UInt16.ofNat_toNat]
      rw [announcedEndpoint_named sender needs names, announcedAs, isImplied,
        narrowedEndpoint, narrowed]
      rfl

/-- An announcement that is answered records its endpoint. -/
theorem recorded_announcing {options : AnnounceOptions} {selfNode : Self} {infoHash : Hash160}
    {application : Application} {transactionId : ByteString} {message : KrpcMessage}
    (issued : IssuedTo v6Text sender tables)
    (answered : replyFrom v6Text router application tables sender transactionId
      (announcePeerQuery selfNode infoHash (endpointText v6Text sender) options.port
        options.impliedPort) = .answered message) :
    announcedAs options sender ∈ recordedPeers (answerDatagram v6Text router
      (queryDatagram sender application transactionId (announcePeerQuery selfNode infoHash
        (endpointText v6Text sender) options.port options.impliedPort)) tables).2
        infoHash.bytes := by
  have ordered : (Value.dictionary (announcePeerQuery selfNode infoHash
      (endpointText v6Text sender) options.port options.impliedPort).arguments).Ordered := by
    have entries : (Value.dictionary (dictionaryOf (announceEntries selfNode infoHash
        (endpointText v6Text sender) options.port))).Ordered := by
      apply dictionaryOf_ordered
      simp [announceEntries, Value.Ordered]
    rw [announcePeerQuery]
    dsimp only
    split
    · exact emplace_ordered entries trivial
    · exact entries
  obtain ⟨isQuery, -⟩ := replyFrom_answered ordered answered
  have announces : Announces v6Text tables (queryDatagram sender application transactionId
      (announcePeerQuery selfNode infoHash (endpointText v6Text sender) options.port
        options.impliedPort)) infoHash.bytes (endpointText v6Text sender)
      (announcedAs options sender) :=
    ⟨transactionId, _, isQuery, rfl,
      requireArgument_announcePeerQuery _ (by simp [announceEntries]), issued,
      requireArgument_announcePeerQuery _ (by simp [announceEntries]),
      announcedEndpoint_announcePeerQuery options selfNode infoHash _⟩
  rw [answerDatagram_announces router announces, recordedPeers, OrderedMap.lookup_alter,
    if_pos rfl]
  exact mem_recordPeer.mpr (.inl rfl)

end Announcing

section Records

variable {v6Text : ByteString → ByteString} {self : Node} {arrangement : Arrangement}
  {store : MemoryEventDht} {tables : PeerTables} {asker : IpEndpoint}
  {transactionId : ByteString} {selfNode : Self} {key : ByteString}

/-- What `QueryPeerRecords` makes of a reply. -/
def settleRecords (reply : Reply) : Status × List PublishedEvent :=
  settle "peer record query timed out" "peer query did not return a response payload"
    [] readRecords reply

/-- The events that are read from the reply are those that the store has for the key. -/
theorem settleRecords_answered {message : KrpcMessage}
    (answered : replyFrom v6Text self (eventApplication arrangement store) tables asker
      transactionId (getEventQuery selfNode key) = .answered message) :
    settleRecords (.answered message) = (.success "",
      (store.query arrangement (keyQuery key)).map fun published =>
        receivedEvent published.record) := by
  have sendable : Sendable transactionId (getEventQuery selfNode key) := by
    by_contra tooLong
    rw [replyFrom, asyncSend, if_pos (Nat.lt_of_not_le tooLong)] at answered
    cases answered
  rw [replyFrom, asyncSend, if_neg (Nat.not_lt.mpr sendable)] at answered
  dsimp only at answered
  have settled := @settle_getEventQuery v6Text self arrangement store transactionId selfNode key
    sendable asker tables
  rw [answered] at settled
  dsimp only at settled
  rw [settleRecords, settled]
  apply if_neg
  intro large
  rw [answerDatagram_getEventQuery v6Text self arrangement store sendable asker tables]
    at answered
  have ordered : (makeValuesResponse transactionId (recordsValues self
      (store.query arrangement (keyQuery key)))).payload.Ordered :=
    recordsValues_ordered self _
  dsimp only at answered
  rw [replyOf_asyncSend ordered, if_pos large] at answered
  cases answered

end Records

end P2P

end Blocxxi
