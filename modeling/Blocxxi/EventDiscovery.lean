import Blocxxi.EventDhtQuery
import Blocxxi.EventNetwork

/-!
# Finding what was published

A query over the network asks every router for peers and every peer that a router names
for records.  It finds what was published before, if the router that acknowledged and the
publisher can be heard; and what it finds was published by some node.
-/

namespace Blocxxi

namespace P2P

open Blocxxi.Core Cxx ByteText Bencode Kademlia StepMachine MergeByKey

section Stores

variable {scheme : SignatureScheme} {calls : List StoreCall} {key : ByteString}
  (arrangement : Arrangement)

/-- Every event is kept under the key of its own record. -/
theorem ownKey_storeAfter :
    ∀ published ∈ (storeAfter scheme calls).events,
      published.dhtKey = published.record.deterministicKey := by
  induction calls using List.reverseRecOn with
  | nil => exact fun published member => nomatch member
  | append_singleton calls call ih =>
      rw [storeAfter_append_singleton]
      intro published member
      obtain ⟨entry, entryMem, inBucket⟩ := mem_events.mp member
      have sound : Sound scheme (storeAfter scheme calls).entries := sound_storeAfter calls
      cases call with
      | republishRecent window now =>
          obtain ⟨earlier, earlierMem, rfl⟩ := List.mem_map.mp entryMem
          obtain ⟨event, eventMem, rfl⟩ := List.mem_map.mp inBucket
          have kept := ih event (mem_events.mpr ⟨earlier, earlierMem, eventMem⟩)
          split <;> exact kept
      | publish record now =>
          rw [StoreCall.apply] at entryMem
          cases verified : verifyEventRecord scheme record with
          | false =>
              rw [publish_rejected verified] at entryMem
              exact ih published (mem_events.mpr ⟨entry, entryMem, inBucket⟩)
          | true =>
              have earlier : ∀ event ∈ (storeAfter scheme calls).bucket
                  record.deterministicKey, event.dhtKey = event.record.deterministicKey :=
                fun event eventMem => ih event ((mem_bucket_iff sound).mp eventMem).1
              rcases (mem_entries_publish sound verified now).mp entryMem with
                rfl | ⟨other, -⟩
              · dsimp only at inBucket
                split at inBucket
                · obtain ⟨event, eventMem, rfl⟩ := List.mem_map.mp inBucket
                  split <;> exact earlier event eventMem
                · rcases List.mem_append.mp inBucket with old | new
                  · exact earlier published old
                  · rw [List.mem_singleton.mp new]
              · exact ih published (mem_events.mpr ⟨entry, other, inBucket⟩)

theorem matchesQuery_keyQuery (published : PublishedEvent) (key : ByteString) :
    matchesQuery published (keyQuery key) = true ↔ published.dhtKey = key := by
  simp [matchesQuery, keyQuery, matchesIdentifiers]

/-- A key with no more events than are handed out at once has all of them handed out. -/
theorem mem_keyQuery {dht : MemoryEventDht} (sound : Sound scheme dht.entries)
    (few : (dht.bucket key).length ≤ 64) {published : PublishedEvent}
    (member : published ∈ dht.bucket key) :
    published ∈ dht.query arrangement (keyQuery key) := by
  obtain ⟨inEvents, isKey⟩ := (mem_bucket_iff sound).mp member
  have isMatch := (matchesQuery_keyQuery published key).mpr isKey
  obtain ⟨entry, entryMem, inBucket⟩ := mem_events.mp inEvents
  let matching := (arrangement.iterate dht.entries).flatMap fun entry =>
    entry.2.filter fun published => matchesQuery published (keyQuery key)
  have distinct : matching.Nodup :=
    ((sound.perm (arrangement.iterate_perm dht.entries)).distinct _).of_map _
  have inBuckets : matching ⊆ dht.bucket key := by
    intro event eventMem
    obtain ⟨entry, entryMem, filtered⟩ := List.mem_flatMap.mp eventMem
    obtain ⟨inEntry, matched⟩ := List.mem_filter.mp filtered
    exact (mem_bucket_iff sound).mpr
      ⟨mem_events.mpr ⟨entry, (arrangement.iterate_perm _).mem_iff.mp entryMem, inEntry⟩,
        (matchesQuery_keyQuery event key).mp matched⟩
  have short : (arrangement.sort matching).length ≤ 64 := by
    rw [(arrangement.sort_perm matching).length_eq]
    exact (distinct.subperm inBuckets).length_le.trans few
  change published ∈ (arrangement.sort matching).take 64
  rw [List.take_of_length_le short, (arrangement.sort_perm matching).mem_iff]
  exact List.mem_flatMap.mpr ⟨entry, (arrangement.iterate_perm _).mem_iff.mpr entryMem,
    List.mem_filter.mpr ⟨inBucket, isMatch⟩⟩

/-- What is read from an answer keeps the identities of the events that it is made from. -/
theorem identity_receivedEvent {published : PublishedEvent}
    (member : published ∈ (storeAfter scheme calls).events) :
    identity (receivedEvent published.record) = identity published := by
  rw [identity, identity, ownKey_storeAfter published member]
  rfl

end Stores

section Asking

/-- The peers that a router's reply names. -/
def peersOf (reply : Reply) : List IpEndpoint :=
  if (settlePeers reply).1.isOk then (settlePeers reply).2 else []

/-- The records in a peer's reply. -/
def recordsOf (reply : Reply) : List PublishedEvent :=
  if (settleRecords reply).1.isOk then (settleRecords reply).2 else []

/-- Every router is asked for peers and every peer it names for records; and all records
come from such answers. -/
structure Asks (selfNode : Self) (key : ByteString) (routers : List IpEndpoint)
    (exchanges : List Exchange) (records : List PublishedEvent) : Prop where
  named : ∀ router ∈ routers, ∃ asked ∈ exchanges, asked.destination = router ∧
    asked.query = getPeersQuery selfNode (deriveInfoHash key) ∧
    ∀ peer ∈ peersOf asked.reply, ∃ exchange ∈ exchanges, exchange.destination = peer ∧
      exchange.query = getEventQuery selfNode key ∧ recordsOf exchange.reply ⊆ records
  answered : ∀ published ∈ records, ∃ exchange ∈ exchanges,
    exchange.query = getEventQuery selfNode key ∧ published ∈ recordsOf exchange.reply

variable (key : ByteString)

theorem queryPeerRecords_eq (peer : IpEndpoint) (session : Session) :
    let asked := session.ask peer (getEventQuery session.self key)
    queryPeerRecords key peer session = (settleRecords asked.1, asked.2) := by
  have isQuery : getEventQuery session.self key =
      ⟨ascii "bx_get_event", [(ascii "id", .string session.selfId.bytes),
        (ascii "key", .string key)]⟩ :=
    congrArg (KrpcQuery.mk _) (getEventQuery_arguments session.self key)
  rw [isQuery]
  rfl

theorem queryRouter_eq (router : IpEndpoint) (session : Session) :
    let asked := session.ask router (getPeersQuery session.self (deriveInfoHash key))
    queryRouter key router session = (settlePeers asked.1, asked.2) := by
  have isQuery : getPeersQuery session.self (deriveInfoHash key) =
      ⟨ascii "get_peers", [(ascii "id", .string session.selfId.bytes),
        (ascii "info_hash", .string (deriveInfoHash key).bytes)]⟩ :=
    congrArg (KrpcQuery.mk _) (getPeersQuery_arguments session.self _)
  rw [isQuery]
  rfl

theorem peerRecords_cons (peer : IpEndpoint) (peers : List IpEndpoint) (session : Session) :
    let asked := session.ask peer (getEventQuery session.self key)
    peerRecords key (peer :: peers) session =
      (recordsOf asked.1 ++ (peerRecords key peers asked.2).1,
        (peerRecords key peers asked.2).2) := by
  rw [peerRecords, queryPeerRecords_eq]
  rfl

/-- The loop over the peers of a router: one exchange with each. -/
theorem peerRecords_asks (peers : List IpEndpoint) (session : Session) :
    ∃ exchanges, Exchanges session exchanges (peerRecords key peers session).2 ∧
      (peerRecords key peers session).1 =
        exchanges.flatMap (fun exchange => recordsOf exchange.reply) ∧
      exchanges.map Exchange.destination = peers ∧
      ∀ exchange ∈ exchanges, exchange.query = getEventQuery session.self key := by
  induction peers generalizing session with
  | nil => exact ⟨[], .done session, rfl, rfl, fun exchange member => nomatch member⟩
  | cons peer peers ih =>
      obtain ⟨exchanges, went, records, destinations, queries⟩ :=
        ih (session.ask peer (getEventQuery session.self key)).2
      rw [peerRecords_cons]
      refine ⟨_, .asked peer (getEventQuery session.self key) went, ?_, ?_, ?_⟩
      · rw [List.flatMap_cons, ← records]
      · rw [List.map_cons, destinations]
      · exact List.forall_mem_cons.mpr ⟨rfl, queries⟩

theorem Asks.cons {selfNode : Self} {router : IpEndpoint} {routers : List IpEndpoint}
    {asked : Exchange} {peerExchanges rest : List Exchange}
    {records : List PublishedEvent} (isRouter : asked.destination = router)
    (isQuery : asked.query = getPeersQuery selfNode (deriveInfoHash key))
    (destinations : peerExchanges.map Exchange.destination = peersOf asked.reply)
    (queries : ∀ exchange ∈ peerExchanges, exchange.query = getEventQuery selfNode key)
    (later : Asks selfNode key routers rest records) :
    Asks selfNode key (router :: routers) (asked :: (peerExchanges ++ rest))
      (peerExchanges.flatMap (fun exchange => recordsOf exchange.reply) ++ records) where
  named := by
    refine List.forall_mem_cons.mpr ⟨?_, ?_⟩
    · refine ⟨asked, List.mem_cons_self, isRouter, isQuery, ?_⟩
      intro peer member
      rw [← destinations] at member
      obtain ⟨exchange, exchangeMem, rfl⟩ := List.mem_map.mp member
      refine ⟨exchange, List.mem_cons_of_mem _ (List.mem_append_left _ exchangeMem), rfl,
        queries exchange exchangeMem, fun published isAnswered => ?_⟩
      exact List.mem_append_left _ (List.mem_flatMap.mpr ⟨exchange, exchangeMem, isAnswered⟩)
    · intro other member
      have widen {exchange : Exchange} (member : exchange ∈ rest) :
          exchange ∈ asked :: (peerExchanges ++ rest) :=
        List.mem_cons_of_mem _ (List.mem_append_right _ member)
      obtain ⟨found, foundMem, isOther, isAsked, named⟩ := later.named other member
      refine ⟨found, widen foundMem, isOther, isAsked, fun peer isNamed => ?_⟩
      obtain ⟨exchange, exchangeMem, isPeer, isRecords, kept⟩ := named peer isNamed
      exact ⟨exchange, widen exchangeMem, isPeer, isRecords,
        fun published isAnswered => List.mem_append_right _ (kept isAnswered)⟩
  answered := by
    intro published member
    rcases List.mem_append.mp member with first | last
    · obtain ⟨exchange, exchangeMem, isAnswered⟩ := List.mem_flatMap.mp first
      exact ⟨exchange, List.mem_cons_of_mem _ (List.mem_append_left _ exchangeMem),
        queries exchange exchangeMem, isAnswered⟩
    · obtain ⟨exchange, exchangeMem, isRecords, isAnswered⟩ := later.answered published last
      exact ⟨exchange, List.mem_cons_of_mem _ (List.mem_append_right _ exchangeMem),
        isRecords, isAnswered⟩

theorem routerRecords_cons (router : IpEndpoint) (routers : List IpEndpoint)
    (session : Session) :
    let asked := session.ask router (getPeersQuery session.self (deriveInfoHash key))
    let visited := peerRecords key (peersOf asked.1) asked.2
    routerRecords key (router :: routers) session =
      (visited.1 ++ (routerRecords key routers visited.2).1,
        (routerRecords key routers visited.2).2) := by
  intro asked visited
  have isVisited : visited = if (settlePeers asked.1).1.isOk then
        peerRecords key (settlePeers asked.1).2 asked.2
      else ([], asked.2) := by
    change peerRecords key (peersOf asked.1) asked.2 = _
    unfold peersOf
    split <;> rfl
  rw [isVisited, routerRecords, queryRouter_eq]

/-- The loop over the routers: an exchange with each, followed by those with the peers
that it names. -/
theorem routerRecords_asks (routers : List IpEndpoint) (session : Session) :
    ∃ exchanges, Exchanges session exchanges (routerRecords key routers session).2 ∧
      Asks session.self key routers exchanges (routerRecords key routers session).1 := by
  induction routers generalizing session with
  | nil =>
      exact ⟨[], .done session,
        ⟨fun router member => (nomatch member), fun published member => (nomatch member)⟩⟩
  | cons router routers ih =>
      let query := getPeersQuery session.self (deriveInfoHash key)
      obtain ⟨peerExchanges, went, records, destinations, queries⟩ :=
        peerRecords_asks key (peersOf (session.ask router query).1)
          (session.ask router query).2
      obtain ⟨rest, later, asks⟩ := ih (peerRecords key
        (peersOf (session.ask router query).1) (session.ask router query).2).2
      rw [went.self] at asks
      rw [routerRecords_cons, records]
      exact ⟨_, .asked router query (went.append later),
        Asks.cons key rfl rfl destinations queries asks⟩

theorem visitRouter_session (routers : List IpEndpoint) (state : QueryState) :
    (routers.foldl (visitRouter key) state).session =
      (routerRecords key routers state.session).2 := by
  induction routers generalizing state with
  | nil => rfl
  | cons router routers ih =>
      rw [List.foldl_cons, ih, routerRecords, visitRouter]
      rcases queryRouter key router state.session with ⟨⟨status, peers⟩, after⟩
      dsimp only
      by_cases accepted : status.isOk
      · rw [if_neg (not_not.mpr accepted), if_pos accepted,
          (visitPeer_records key peers { state with session := after }).2]
      · rw [if_pos accepted, if_neg accepted]

theorem query_session (arrangement : Arrangement) {query : EventQuery}
    (isKey : query.deterministicKey = some key) (dht : MainlineEventDht)
    (session : Session) :
    (dht.query arrangement query session).2.2 =
      (routerRecords key dht.routers session).2 := by
  rw [MainlineEventDht.query, isKey]
  dsimp only
  split
  · rename_i noRouters
    rw [noRouters]
    rfl
  · exact visitRouter_session key dht.routers _

/-- A query for a key makes these exchanges, and answers with these records. -/
theorem query_asks (arrangement : Arrangement) {query : EventQuery}
    (isKey : query.deterministicKey = some key) (dht : MainlineEventDht)
    (session : Session) :
    Asks session.self key dht.routers
      (exchangesBetween session (dht.query arrangement query session).2.2)
      (answeredRecords query dht.routers session) := by
  obtain ⟨exchanges, went, asks⟩ := routerRecords_asks key dht.routers session
  have isAnswered : answeredRecords query dht.routers session =
      (routerRecords key dht.routers session).1 := by
    rw [answeredRecords, isKey]
  rw [query_session key arrangement isKey, went.between, isAnswered]
  exact asks

end Asking

section Finding

variable {v6Text : ByteString → ByteString} {nodes : IpEndpoint → Node}
  {serving serves : IpEndpoint → Application → Prop} {publisher asker : IpEndpoint}
  {start middle finish : Histories} {scheme : SignatureScheme} {options : AnnounceOptions}
  {routers known : List IpEndpoint} {calls own : List StoreCall}
  {record : SignedEventRecord} {now : Int64} {session asking : Session}
  {arrangement : Arrangement} {query : EventQuery} {key : ByteString}

/-- The identities of the result: those of the local and the answered records, unless
there are more than the limit. -/
theorem identity_mem_query {published : PublishedEvent} (dht : MainlineEventDht)
    (sound : Sound scheme dht.localStore.entries)
    (answered : published ∈ answeredRecords query dht.routers session) :
    let records := (dht.query arrangement query session).2.1.records
    identity published ∈ records.map identity ∨ records.length = query.limit := by
  intro records
  have merged : mergeAll identity (dht.localStore.query arrangement query)
        (answeredRecords query dht.routers session) =
      mergeAll identity [] (offeredRecords arrangement query dht session) := by
    rw [offeredRecords, mergeAll_append,
      mergeAll_self (distinct_query arrangement query sound)]
  have isRecords : records =
      (mergeAll identity [] (offeredRecords arrangement query dht session)).take
        query.limit :=
    (query_records arrangement query dht session).trans (congrArg _ merged)
  have offered : identity published ∈
      (mergeAll identity [] (offeredRecords arrangement query dht session)).map
        identity := by
    rw [map_mergeAll, List.mem_eraseDups]
    exact List.mem_map_of_mem (List.mem_append_right _ answered)
  rw [isRecords]
  rcases Nat.le_total query.limit
    (mergeAll identity [] (offeredRecords arrangement query dht session)).length with
      full | fits
  · exact .inr (by rw [List.length_take, Nat.min_eq_left full])
  · exact .inl (by rwa [List.take_of_length_le fits])

/-- A query for peers that is answered names all peers that are on record. -/
theorem mem_peersOf {exchange : Exchange} {selfNode : Self} {infoHash : Hash160}
    {peer router : IpEndpoint}
    (carried : Delivered v6Text nodes serves asker middle finish exchange)
    (isRouter : exchange.destination = router)
    (isQuery : exchange.query = getPeersQuery selfNode infoHash)
    (recorded : peer ∈ recordedPeers (tablesAfter v6Text (nodes router) (middle router))
      infoHash.bytes) :
    peer ∈ peersOf exchange.reply := by
  subst isRouter
  obtain ⟨history, application, transactionId, message, earlier, -, -, isReply, answered⟩ :=
    carried
  rw [isQuery] at answered
  rw [peersOf, isReply, settlePeers_answered answered]
  exact recorded_later earlier recorded

/-- A query for records that is answered by a store has the events of the store. -/
theorem recordsOf_delivered {exchange : Exchange} {selfNode : Self} {peer : IpEndpoint}
    (carried : Delivered v6Text nodes serves asker middle finish exchange)
    (isPeer : exchange.destination = peer)
    (isQuery : exchange.query = getEventQuery selfNode key)
    {Holds : MemoryEventDht → Prop}
    (serving : ∀ application, serves peer application →
      ∃ arrangement store, application = eventApplication arrangement store ∧ Holds store) :
    ∃ arrangement store, serves peer (eventApplication arrangement store) ∧ Holds store ∧
      recordsOf exchange.reply = (store.query arrangement (keyQuery key)).map
        fun published => receivedEvent published.record := by
  subst isPeer
  obtain ⟨history, application, transactionId, message, -, -, isServed, isReply, answered⟩ :=
    carried
  obtain ⟨arrangement, store, rfl, holds⟩ := serving application isServed
  rw [isQuery] at answered
  refine ⟨arrangement, store, isServed, holds, ?_⟩
  rw [recordsOf, isReply, settleRecords_answered answered]
  rfl

theorem exchanges_query_one {router peer : IpEndpoint} {reply answer : Reply}
    {more : List Reply} (isKey : query.deterministicKey = some key)
    (replies : session.replies = reply :: answer :: more) (names : peersOf reply = [peer])
    (store : MemoryEventDht) :
    exchangesBetween session ((⟨[router], store⟩ : MainlineEventDht).query arrangement query
        session).2.2 =
      [⟨router, getPeersQuery session.self (deriveInfoHash key), reply⟩,
        ⟨peer, getEventQuery session.self key, answer⟩] := by
  obtain ⟨first, isFirst⟩ : ∃ first, session.ask router
      (getPeersQuery session.self (deriveInfoHash key)) = (reply, first) :=
    ⟨_, Prod.ext (congrArg (·.headD .timedOut) replies) rfl⟩
  have later : first = (session.ask router
      (getPeersQuery session.self (deriveInfoHash key))).2 :=
    (congrArg Prod.snd isFirst).symm
  have isLast : first.ask peer (getEventQuery session.self key) =
      (answer, (first.ask peer (getEventQuery session.self key)).2) := by
    rw [later]
    exact Prod.ext (congrArg (·.tail.headD .timedOut) replies) rfl
  have sameId : first.self = session.self := by
    rw [later]
    rfl
  have isSession : ((⟨[router], store⟩ : MainlineEventDht).query arrangement query
      session).2.2 = (first.ask peer (getEventQuery session.self key)).2 := by
    rw [query_session key arrangement isKey, routerRecords_cons, isFirst, ← sameId]
    dsimp only
    rw [names, peerRecords_cons]
    rfl
  rw [isSession]
  exact (Exchanges.two isFirst isLast).between

def routerEndpoint : IpEndpoint := { address := [10, 0, 0, 1], port := 6881 }

def publisherEndpoint : IpEndpoint := { address := [10, 0, 0, 2], port := 6882 }

def askerEndpoint : IpEndpoint := { address := [10, 0, 0, 3], port := 6883 }

def plainNode (endpoint : IpEndpoint) : Node := ⟨Hash.zero, endpoint⟩

def noText (_ : ByteString) : ByteString := []

/-- Only the publisher has published something. -/
def storedAt (endpoint : IpEndpoint) : MemoryEventDht :=
  storeAfter lenientScheme
    (if endpoint = publisherEndpoint then [.publish acceptedRecord 7] else [])

def applicationAt (endpoint : IpEndpoint) : Application :=
  eventApplication plainArrangement (storedAt endpoint)

def replyAt (endpoint : IpEndpoint) (history : List Datagram) (asker : IpEndpoint)
    (query : KrpcQuery) : Reply :=
  replyFrom noText (plainNode endpoint) (applicationAt endpoint)
    (tablesAfter noText (plainNode endpoint) history) asker (ascii "aa") query

def datagramAt (endpoint asker : IpEndpoint) (query : KrpcQuery) : Datagram :=
  queryDatagram asker (applicationAt endpoint) (ascii "aa") query

def acceptedKey : ByteString := acceptedRecord.deterministicKey

def askForPeers : KrpcQuery := getPeersQuery {} (deriveInfoHash acceptedKey)

def tokenReply : Reply := replyAt routerEndpoint [] publisherEndpoint askForPeers

def announcement : KrpcQuery :=
  announcePeerQuery {} (deriveInfoHash acceptedKey) (settleToken tokenReply).2.1 0 true

/-- What has arrived at the router before the query. -/
def routerHistory : List Datagram :=
  [datagramAt routerEndpoint publisherEndpoint askForPeers,
    datagramAt routerEndpoint publisherEndpoint announcement]

def publisherSession : Session where
  replies :=
    [tokenReply, replyAt routerEndpoint (routerHistory.take 1) publisherEndpoint announcement]

def askerSession : Session where
  replies :=
    [replyAt routerEndpoint routerHistory askerEndpoint askForPeers,
      replyAt publisherEndpoint [] askerEndpoint (getEventQuery {} acceptedKey)]

/-- The datagrams of the publisher have arrived, and nothing else. -/
def afterPublication : Histories :=
  Histories.arrive (Histories.arrive (fun _ => []) routerEndpoint
      (datagramAt routerEndpoint publisherEndpoint askForPeers))
    routerEndpoint (datagramAt routerEndpoint publisherEndpoint announcement)

def afterQuery : Histories :=
  Histories.arrive (Histories.arrive afterPublication routerEndpoint
      (datagramAt routerEndpoint askerEndpoint askForPeers))
    publisherEndpoint
      (datagramAt publisherEndpoint askerEndpoint (getEventQuery {} acceptedKey))

theorem carried_replyAt {before after : Histories} {endpoint asker : IpEndpoint}
    {history : List Datagram} {query : KrpcQuery} {rest : List Exchange}
    (isHistory : before endpoint = history)
    (answers : (replyAt endpoint history asker query).isAnswered = true)
    (carried : Carried noText plainNode
      (fun endpoint application => application = applicationAt endpoint) asker
      (before.arrive endpoint (datagramAt endpoint asker query)) rest after) :
    Carried noText plainNode
      (fun endpoint application => application = applicationAt endpoint) asker before
      (⟨endpoint, query, replyAt endpoint history asker query⟩ :: rest) after :=
  .undisturbed isHistory rfl answers carried

theorem publication_carried :
    Carried noText plainNode (fun endpoint application => application = applicationAt endpoint)
      publisherEndpoint (fun _ => [])
      [⟨routerEndpoint, askForPeers, tokenReply⟩,
        ⟨routerEndpoint, announcement,
          replyAt routerEndpoint (routerHistory.take 1) publisherEndpoint announcement⟩]
      afterPublication := by
  have first : (replyAt routerEndpoint [] publisherEndpoint askForPeers).isAnswered = true := by
    decide +kernel
  have second : (replyAt routerEndpoint (routerHistory.take 1) publisherEndpoint
      announcement).isAnswered = true := by
    decide +kernel
  refine carried_replyAt rfl first (carried_replyAt ?_ second ?_)
  · exact Function.update_self _ _ _
  exact .done fun _ => List.prefix_refl _

theorem routerReply_answered :
    (replyAt routerEndpoint routerHistory askerEndpoint askForPeers).isAnswered = true := by
  decide +kernel

theorem publisherReply_answered :
    (replyAt publisherEndpoint [] askerEndpoint
      (getEventQuery {} acceptedKey)).isAnswered = true := by
  decide +kernel

theorem query_carried :
    Carried noText plainNode (fun endpoint application => application = applicationAt endpoint)
      askerEndpoint afterPublication
      [⟨routerEndpoint, askForPeers,
          replyAt routerEndpoint routerHistory askerEndpoint askForPeers⟩,
        ⟨publisherEndpoint, getEventQuery {} acceptedKey,
          replyAt publisherEndpoint [] askerEndpoint (getEventQuery {} acceptedKey)⟩]
      afterQuery := by
  have apart : publisherEndpoint ≠ routerEndpoint := by decide
  refine carried_replyAt ?_ routerReply_answered
    (carried_replyAt ?_ publisherReply_answered ?_)
  · rw [afterPublication, Histories.arrive, Function.update_self, Histories.arrive,
      Function.update_self]
    rfl
  · rw [Histories.arrive, Function.update_of_ne apart, afterPublication, Histories.arrive,
      Function.update_of_ne apart, Histories.arrive, Function.update_of_ne apart]
  exact .done fun _ => List.prefix_refl _

theorem exchanges_askerSession :
    exchangesBetween askerSession ((⟨[routerEndpoint], storeAfter lenientScheme []⟩ :
        MainlineEventDht).query plainArrangement { deterministicKey := some acceptedKey }
        askerSession).2.2 =
      [⟨routerEndpoint, askForPeers,
          replyAt routerEndpoint routerHistory askerEndpoint askForPeers⟩,
        ⟨publisherEndpoint, getEventQuery {} acceptedKey,
          replyAt publisherEndpoint [] askerEndpoint (getEventQuery {} acceptedKey)⟩] := by
  have names : peersOf (replyAt routerEndpoint routerHistory askerEndpoint askForPeers) =
      [publisherEndpoint] := by
    decide +kernel
  exact @exchanges_query_one askerSession plainArrangement
    { deterministicKey := some acceptedKey } acceptedKey _ _ _ _ [] rfl rfl names _

theorem published_publisherSession :
    let result := (⟨[routerEndpoint], storeAfter lenientScheme []⟩ :
      MainlineEventDht).publish {} lenientScheme acceptedRecord 7 publisherSession
    result.1.isOk = true ∧ exchangesBetween publisherSession result.2.2 =
      [⟨routerEndpoint, askForPeers, tokenReply⟩,
        ⟨routerEndpoint, announcement,
          replyAt routerEndpoint (routerHistory.take 1) publisherEndpoint announcement⟩] := by
  have tokenOk : (settleToken tokenReply).1.isOk = true := by decide +kernel
  have some : (settleToken tokenReply).2.1 ≠ [] := by decide +kernel
  have acknowledged : (settleAnnouncement (replyAt routerEndpoint (routerHistory.take 1)
      publisherEndpoint announcement)).isOk = true := by
    decide +kernel
  have verified : verifyEventRecord lenientScheme acceptedRecord = true := by decide +kernel
  exact @publish_acknowledged {} routerEndpoint lenientScheme [] (storeAfter lenientScheme [])
    acceptedRecord 7 publisherSession tokenReply _ [] verified rfl tokenOk some acknowledged

end Finding

end P2P

end Blocxxi
