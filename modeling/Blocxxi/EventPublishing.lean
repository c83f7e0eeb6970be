import Blocxxi.EventResponder
import Blocxxi.EventSpellings

/-!
# Publishing over the network

A record is first published in the local store.  Then one router after the other is
asked for the peers of its key, which gives a token, and is told with the token that
the publisher has records for the key; the first router that acknowledges this ends
the loop.  Replies are the input of the model, as they are for queries.
-/

namespace Blocxxi

namespace P2P

open Blocxxi.Core Cxx ByteText Bencode Kademlia

/-- The options of the event table, and the port of the publisher's own endpoint. -/
structure AnnounceOptions extends MainlineEventDhtOptions where
  selfPort : UInt16 := 0

def AnnounceOptions.port (options : AnnounceOptions) : UInt16 :=
  if options.announcePort = 0 then options.selfPort else options.announcePort

def announceEntries (selfNode : Self) (infoHash : Hash160) (token : ByteString)
    (port : UInt16) : List (String × Value) :=
  [("id", .string selfNode.id.bytes), ("info_hash", .string infoHash.bytes),
    ("token", .string token), ("port", .integer port.toUInt64.toInt64)]

/-- The callback on a router's response, when a token is asked for. -/
def readToken (values : DictionaryType) :
    Outcome (Status × ByteString × List IpEndpoint) := do
  let token ← findString values "token"
  let items ← findList values "values"
  let peers ← decodePeers items
  .returned (.success "", token.getD [], peers)

/-- The status of `QueryRouter` and its token, for a reply. -/
def settleToken (reply : Reply) : Status × ByteString × List IpEndpoint :=
  settle "DHT query timed out" "DHT query did not return a response payload" ([], [])
    readToken reply

/-- The status of `AnnounceToRouter`, for a reply. -/
def settleAnnouncement (reply : Reply) : Status :=
  (settle "DHT announce timed out" "DHT announce did not return a response payload" ()
    (fun _ => .returned (.success "", ())) reply).1

section Publishing

variable (options : AnnounceOptions) (deterministicKey : ByteString)

def announceToRouter (router : IpEndpoint) (token : ByteString) (session : Session) :
    Status × Session :=
  let (reply, session) := session.ask router
    (announcePeerQuery session.self (deriveInfoHash deterministicKey) token options.port
      options.impliedPort)
  (settleAnnouncement reply, session)

/-- One pass of the loop over the routers: what becomes of `last_error`, or success. -/
def tryRouter (router : IpEndpoint) (session : Session) : Status × Session :=
  let (reply, session) := session.ask router
    (getPeersQuery session.self (deriveInfoHash deterministicKey))
  let (status, token, _) := settleToken reply
  if ¬ status.isOk then (status, session)
  else if token = [] then
    (.failure .rejected "DHT router did not return announce token", session)
  else announceToRouter options deterministicKey router token session

def announceKey : List IpEndpoint → Status → Session → Status × Session
  | [], lastError, session => (lastError, session)
  | router :: routers, _, session =>
      let (status, session) := tryRouter options deterministicKey router session
      if status.isOk then (.success "", session)
      else announceKey routers status session

variable (scheme : SignatureScheme)

def MainlineEventDht.publish (record : SignedEventRecord) (now : Int64)
    (dht : MainlineEventDht) (session : Session) : Status × MainlineEventDht × Session :=
  if dht.routers = [] then
    (.failure .invalidArgument "at least one DHT router is required", dht, session)
  else
    let (localStatus, localStore) := dht.localStore.publish scheme record now
    if ¬ localStatus.isOk then (localStatus, { dht with localStore := localStore }, session)
    else
      let (status, session) := announceKey options record.deterministicKey dht.routers
        (.failure .ioError "failed to announce deterministic DHT key") session
      (status, { dht with localStore := localStore }, session)

end Publishing

/-- A query that was sent, and what came of it. -/
structure Exchange where
  destination : IpEndpoint
  query : KrpcQuery
  reply : Reply

/-- The session goes through the exchanges, and nothing else is sent. -/
inductive Exchanges : Session → List Exchange → Session → Prop
  | done (session : Session) : Exchanges session [] session
  | asked {session last : Session} {rest : List Exchange} (destination : IpEndpoint)
      (query : KrpcQuery) (later : Exchanges (session.ask destination query).2 rest last) :
      Exchanges session (⟨destination, query, (session.ask destination query).1⟩ :: rest) last

namespace Exchanges

variable {first middle last : Session} {front rest : List Exchange}

theorem append (before : Exchanges first front middle) (after : Exchanges middle rest last) :
    Exchanges first (front ++ rest) last := by
  induction before with
  | done => exact after
  | asked destination query _ ih => exact asked destination query (ih after)

theorem self (exchanges : Exchanges first front last) : last.self = first.self := by
  induction exchanges with
  | done => rfl
  | asked _ _ _ ih => exact ih

/-- What is sent in all. -/
theorem sent (exchanges : Exchanges first front last) :
    last.sent = first.sent ++ front.map fun exchange =>
      (exchange.destination, exchange.query) := by
  induction exchanges with
  | done => exact (List.append_nil _).symm
  | asked destination query _ ih =>
      rw [ih, Session.ask, List.append_assoc]
      rfl

end Exchanges

section Visits

variable (options : AnnounceOptions) (selfNode : Self) (deterministicKey : ByteString)

/-- What is sent to a router that is tried, and the status this ends with.  Only a token
that the router has just handed out is sent back to it. -/
inductive Visit (router : IpEndpoint) : List Exchange → Status → Prop
  | unanswered (reply : Reply) (failed : (settleToken reply).1.isOk = false) :
      Visit router [⟨router, getPeersQuery selfNode (deriveInfoHash deterministicKey), reply⟩]
        (settleToken reply).1
  | withoutToken (reply : Reply) (answered : (settleToken reply).1.isOk = true)
      (none : (settleToken reply).2.1 = []) :
      Visit router [⟨router, getPeersQuery selfNode (deriveInfoHash deterministicKey), reply⟩]
        (.failure .rejected "DHT router did not return announce token")
  | announced (reply acknowledgement : Reply) (answered : (settleToken reply).1.isOk = true)
      (some : (settleToken reply).2.1 ≠ []) :
      Visit router
        [⟨router, getPeersQuery selfNode (deriveInfoHash deterministicKey), reply⟩,
          ⟨router, announcePeerQuery selfNode (deriveInfoHash deterministicKey)
            (settleToken reply).2.1 options.port options.impliedPort, acknowledgement⟩]
        (settleAnnouncement acknowledgement)

/-- A router with what it is sent and the status this ends with. -/
structure TriedRouter where
  router : IpEndpoint
  exchanges : List Exchange
  status : Status

/-- The routers that are tried: all fail but the last one, or all fail. -/
inductive Tried : List TriedRouter → Status → Status → Prop
  | exhausted (lastError : Status) : Tried [] lastError lastError
  | acknowledged (tried : TriedRouter) (lastError : Status)
      (success : tried.status.isOk = true) : Tried [tried] lastError (.success "")
  | failed {rest : List TriedRouter} {result : Status} (tried : TriedRouter)
      (lastError : Status) (failure : tried.status.isOk = false)
      (later : Tried rest tried.status result) : Tried (tried :: rest) lastError result

variable {options deterministicKey}

theorem tryRouter_visit (router : IpEndpoint) (session : Session) :
    ∃ exchanges,
      Exchanges session exchanges (tryRouter options deterministicKey router session).2 ∧
        Visit options session.self deterministicKey router exchanges
          (tryRouter options deterministicKey router session).1 := by
  let query := getPeersQuery session.self (deriveInfoHash deterministicKey)
  rw [tryRouter]
  dsimp only
  by_cases failed : (settleToken (session.ask router query).1).1.isOk = true
  · rw [if_neg (not_not.mpr failed)]
    by_cases none : (settleToken (session.ask router query).1).2.1 = []
    · rw [if_pos none]
      exact ⟨_, .asked router query (.done _), .withoutToken _ failed none⟩
    · rw [if_neg none]
      exact ⟨_, .asked router query (.asked router _ (.done _)),
        .announced _ _ failed none⟩
  · rw [if_pos failed]
    exact ⟨_, .asked router query (.done _),
      .unanswered _ (Bool.eq_false_of_not_eq_true failed)⟩

/-- The loop tries the routers in their order until one acknowledges. -/
theorem announceKey_tried (routers : List IpEndpoint) (lastError : Status)
    (session : Session) :
    ∃ tried : List TriedRouter,
      Exchanges session (tried.flatMap TriedRouter.exchanges)
        (announceKey options deterministicKey routers lastError session).2 ∧
      (∀ visit ∈ tried, Visit options session.self deterministicKey visit.router
        visit.exchanges visit.status) ∧
      Tried tried lastError
        (announceKey options deterministicKey routers lastError session).1 ∧
      tried.map TriedRouter.router <+: routers ∧
      ((announceKey options deterministicKey routers lastError session).1.isOk = false →
        tried.map TriedRouter.router = routers) := by
  induction routers generalizing lastError session with
  | nil =>
      refine ⟨[], .done session, ?_, .exhausted lastError, List.nil_prefix, fun _ => rfl⟩
      exact fun visit member => nomatch member
  | cons router routers ih =>
      obtain ⟨exchanges, went, visit⟩ :=
        @tryRouter_visit options deterministicKey router session
      rw [announceKey]
      generalize tryRouter options deterministicKey router session = result at went visit ⊢
      obtain ⟨status, after⟩ := result
      dsimp only at went visit ⊢
      by_cases success : status.isOk = true
      · rw [if_pos success]
        refine ⟨[⟨router, exchanges, status⟩], ?_, ?_, .acknowledged _ _ success, ?_, ?_⟩
        · simpa using went
        · simpa using visit
        · exact List.prefix_append [router] routers
        · intro failed
          cases failed
      · obtain ⟨tried, later, visits, isTried, routersTried, all⟩ := ih status after
        rw [if_neg success]
        refine ⟨⟨router, exchanges, status⟩ :: tried, ?_, ?_, ?_, ?_, ?_⟩
        · exact went.append later
        · rw [went.self] at visits
          exact List.forall_mem_cons.mpr ⟨visit, visits⟩
        · exact .failed _ _ (Bool.eq_false_of_not_eq_true success) isTried
        · exact (List.prefix_cons_inj router).mpr routersTried
        · exact fun failed => congrArg (router :: ·) (all failed)

end Visits

/-- An announcement among the exchanges carries a token that is not empty, and that the
same router handed out in answer to the query in front of it. -/
def TokensReturned (exchanges : List Exchange) : Prop :=
  ∀ before exchange after, exchanges = before ++ exchange :: after →
    exchange.query.method = ascii "announce_peer" →
      ∃ earlier asked, before = earlier ++ [asked] ∧
        asked.destination = exchange.destination ∧
        asked.query.method = ascii "get_peers" ∧
        requireArgument asked.query "info_hash" =
          requireArgument exchange.query "info_hash" ∧
        (settleToken asked.reply).1.isOk = true ∧
        requireArgument exchange.query "token" = .returned (settleToken asked.reply).2.1 ∧
        (settleToken asked.reply).2.1 ≠ []

theorem TokensReturned.append {front rest : List Exchange} (first : TokensReturned front)
    (second : TokensReturned rest) : TokensReturned (front ++ rest) := by
  intro before exchange after isSplit announces
  rcases List.append_eq_append_iff.mp isSplit with
    ⟨middle, isBefore, isRest⟩ | ⟨middle, isFront, isAfter⟩
  · obtain ⟨earlier, asked, isMiddle, handedOut⟩ :=
      second middle exchange after isRest announces
    exact ⟨front ++ earlier, asked, by rw [isBefore, isMiddle, List.append_assoc], handedOut⟩
  · cases middle with
    | nil =>
        obtain ⟨earlier, asked, isNil, -⟩ := second [] exchange after isAfter.symm announces
        cases List.append_eq_nil_iff.mp isNil.symm |>.2
    | cons head middle =>
        obtain ⟨rfl, rfl⟩ := List.cons.inj isAfter
        exact first before exchange middle isFront announces

theorem announceEntries_distinct (selfNode : Self) (infoHash : Hash160) (token : ByteString)
    (port : UInt16) :
    ((announceEntries selfNode infoHash token port).map fun entry => ascii entry.1).Nodup := by
  change (["id", "info_hash", "token", "port"].map ascii).Nodup
  decide

/-- The arguments of an announcement are found in it. -/
theorem lookup_announcePeerQuery {selfNode : Self} {infoHash : Hash160} {token : ByteString}
    {port : UInt16} (impliedPort : Bool) {key : String} {value : Value}
    (member : (key, value) ∈ announceEntries selfNode infoHash token port) :
    (announcePeerQuery selfNode infoHash token port impliedPort).arguments.lookup (ascii key) =
      some value := by
  have found := lookup_dictionaryOf
    (announceEntries_distinct selfNode infoHash token port) member
  cases impliedPort with
  | false => exact found
  | true =>
      have ordered : (Value.dictionary
          (dictionaryOf (announceEntries selfNode infoHash token port))).Ordered := by
        apply dictionaryOf_ordered
        simp [announceEntries, Value.Ordered]
      change (emplace (ascii "implied_port") (.integer 1)
        (dictionaryOf (announceEntries selfNode infoHash token port))).lookup (ascii key) = _
      rw [lookup_emplace ordered.1, found]
      rfl

theorem requireArgument_announcePeerQuery {selfNode : Self} {infoHash : Hash160}
    {token : ByteString} {port : UInt16} (impliedPort : Bool) {key : String} {text : ByteString}
    (member : (key, .string text) ∈ announceEntries selfNode infoHash token port) :
    requireArgument (announcePeerQuery selfNode infoHash token port impliedPort) key =
      .returned text := by
  rw [requireArgument, lookup_announcePeerQuery impliedPort member]
  rfl

theorem Visit.tokensReturned {options : AnnounceOptions} {selfNode : Self}
    {deterministicKey : ByteString} {router : IpEndpoint} {exchanges : List Exchange}
    {status : Status}
    (visit : Visit options selfNode deterministicKey router exchanges status) :
    TokensReturned exchanges := by
  have methods : ascii "get_peers" ≠ ascii "announce_peer" := by decide
  intro before exchange after isSplit announces
  -- A query for peers comes first, and an announcement is at most second.
  rcases before with _ | ⟨first, _ | ⟨second, before⟩⟩
  · cases visit <;> cases isSplit <;> exact absurd announces methods
  · cases visit with
    | unanswered reply failed => simp at isSplit
    | withoutToken reply answered none => simp at isSplit
    | announced reply acknowledgement answered some =>
        cases isSplit
        refine ⟨[], _, rfl, rfl, rfl, ?_, answered, ?_, some⟩
        · exact (requireArgument_getPeersQuery _ _).trans
            (requireArgument_announcePeerQuery options.impliedPort
              (List.mem_cons_of_mem _ List.mem_cons_self)).symm
        · exact requireArgument_announcePeerQuery options.impliedPort
            (by simp [announceEntries])
  · cases visit <;> simp at isSplit

section Publish

variable (scheme : SignatureScheme) (options : AnnounceOptions)
  (routers : List IpEndpoint) (calls : List StoreCall) (record : SignedEventRecord)
  (now : Int64) (session : Session)

/-- A publication that went as far as the routers, with what was sent to them. -/
structure Announced (result : Status × MainlineEventDht × Session)
    (tried : List TriedRouter) : Prop where
  exchanges : Exchanges session (tried.flatMap TriedRouter.exchanges) result.2.2
  visits : ∀ visit ∈ tried, Visit options session.self record.deterministicKey
    visit.router visit.exchanges visit.status
  outcome : Tried tried
    (.failure .ioError "failed to announce deterministic DHT key") result.1
  inOrder : tried.map TriedRouter.router <+: routers
  all : result.1.isOk = false → tried.map TriedRouter.router = routers
  tokens : TokensReturned (tried.flatMap TriedRouter.exchanges)
  routersKept : result.2.1.routers = routers
  stored : recordIdentity record ∈ result.2.1.localStore.events.map identity

theorem tokensReturned_flatMap {tried : List TriedRouter} {selfNode : Self}
    {deterministicKey : ByteString}
    (visits : ∀ visit ∈ tried, Visit options selfNode deterministicKey visit.router
      visit.exchanges visit.status) :
    TokensReturned (tried.flatMap TriedRouter.exchanges) := by
  induction tried with
  | nil =>
      intro before exchange after isSplit
      simp at isSplit
  | cons visit tried ih =>
      obtain ⟨first, rest⟩ := List.forall_mem_cons.mp visits
      exact first.tokensReturned.append (ih rest)

theorem publish_storeAfter (verified : verifyEventRecord scheme record = true) :
    ((storeAfter scheme calls).publish scheme record now).1.isOk = true ∧
      recordIdentity record ∈
        ((storeAfter scheme calls).publish scheme record now).2.events.map identity := by
  have stored := (mem_identities_publish (sound_storeAfter calls) verified now).mpr
    (Or.inl (rfl : recordIdentity record = recordIdentity record))
  refine ⟨?_, stored⟩
  rw [MemoryEventDht.publish, if_neg (not_not.mpr verified)]
  dsimp only
  split <;> rfl

end Publish

end P2P

end Blocxxi
