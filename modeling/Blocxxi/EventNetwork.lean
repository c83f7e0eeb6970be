import Blocxxi.EventReplies
import Blocxxi.EventSpellings

/-!
# Exchanges over a network

Every node has a history: the datagrams that have arrived at it.  A query that is carried
to a node arrives at some time, with any other datagrams in front of it and behind it, and
its reply is what the node answers at that time; or else no answer comes back.

A publisher that has been acknowledged stays recorded at its router, whatever arrives there
later.
-/

namespace Blocxxi

namespace P2P

open Blocxxi.Core Cxx ByteText Bencode Kademlia StepMachine

/-- What a session has sent since an earlier one, with the replies. -/
def exchangesBetween (first last : Session) : List Exchange :=
  (last.sent.drop first.sent.length).mapIdx fun index sent =>
    ⟨sent.1, sent.2, first.replies.getD index .timedOut⟩

theorem Exchanges.between {first last : Session} {exchanges : List Exchange}
    (went : Exchanges first exchanges last) : exchangesBetween first last = exchanges := by
  induction went with
  | done session => simp [exchangesBetween]
  | @asked session last rest destination query later ih =>
      have isSent := later.sent
      rw [← ih]
      simp only [exchangesBetween, isSent, Session.ask, List.append_assoc,
        List.drop_left, List.singleton_append, List.mapIdx_cons, List.cons.injEq]
      constructor
      · cases session.replies <;> rfl
      · have rest : (session.sent ++ (destination, query) ::
            rest.map fun exchange => (exchange.destination, exchange.query)).drop
              (session.sent ++ [(destination, query)]).length =
            rest.map fun exchange => (exchange.destination, exchange.query) :=
          (congrArg (List.drop _) (List.append_cons _ _ _)).trans List.drop_left
        rw [rest]
        congr 1
        funext index sent
        cases session.replies <;> rfl

theorem Exchanges.two {first middle last : Session} {one other : IpEndpoint}
    {oneQuery otherQuery : KrpcQuery} {oneReply otherReply : Reply}
    (before : first.ask one oneQuery = (oneReply, middle))
    (after : middle.ask other otherQuery = (otherReply, last)) :
    Exchanges first [⟨one, oneQuery, oneReply⟩, ⟨other, otherQuery, otherReply⟩] last := by
  have rest : Exchanges middle [⟨other, otherQuery, (middle.ask other otherQuery).1⟩]
      (middle.ask other otherQuery).2 :=
    .asked other otherQuery (.done _)
  rw [after] at rest
  have isMiddle : (first.ask one oneQuery).2 = middle := congrArg Prod.snd before
  rw [← isMiddle] at rest
  have all := Exchanges.asked one oneQuery rest
  rwa [before] at all

/-- The datagrams that have arrived at each endpoint. -/
abbrev Histories := IpEndpoint → List Datagram

/-- Some more datagrams have arrived. -/
def Later (before after : Histories) : Prop :=
  ∀ endpoint, before endpoint <+: after endpoint

theorem Later.trans {first second third : Histories} (before : Later first second)
    (after : Later second third) : Later first third :=
  fun endpoint => (before endpoint).trans (after endpoint)

section Tables

variable {v6Text : ByteString → ByteString} {router : Node} {sender endpoint : IpEndpoint}
  {infoHash : ByteString} {before after : List Datagram}

theorem tablesAfter_append (first later : List Datagram) :
    tablesAfter v6Text router (first ++ later) =
      tablesThrough v6Text router later (tablesAfter v6Text router first) :=
  run_append (fun datagram tables => (answerDatagram v6Text router datagram tables).2)
    first later {}

theorem tablesAfter_append_singleton (history : List Datagram) (datagram : Datagram) :
    tablesAfter v6Text router (history ++ [datagram]) =
      (answerDatagram v6Text router datagram (tablesAfter v6Text router history)).2 := by
  rw [tablesAfter_append]
  rfl

/-- What is recorded stays recorded. -/
theorem recorded_later (later : before <+: after)
    (recorded : endpoint ∈ recordedPeers (tablesAfter v6Text router before) infoHash) :
    endpoint ∈ recordedPeers (tablesAfter v6Text router after) infoHash := by
  obtain ⟨more, rfl⟩ := later
  rw [tablesAfter_append]
  exact recorded_tablesThrough more recorded

theorem issuedTo_later (later : before <+: after)
    (issued : IssuedTo v6Text sender (tablesAfter v6Text router before)) :
    IssuedTo v6Text sender (tablesAfter v6Text router after) := by
  obtain ⟨more, rfl⟩ := later
  rw [tablesAfter_append]
  exact issuedTo_tablesThrough more issued

end Tables

section Carrying

variable (v6Text : ByteString → ByteString) (nodes : IpEndpoint → Node)
  (serves : IpEndpoint → Application → Prop) (sender : IpEndpoint)

/-- The query arrived at its destination, and what was answered there came back. -/
def Delivered (before after : Histories) (exchange : Exchange) : Prop :=
  ∃ history application transactionId message,
    before exchange.destination <+: history ∧
    history ++ [queryDatagram sender application transactionId exchange.query] <+:
      after exchange.destination ∧
    serves exchange.destination application ∧
    exchange.reply = .answered message ∧
    replyFrom v6Text (nodes exchange.destination) application
      (tablesAfter v6Text (nodes exchange.destination) history) sender transactionId
      exchange.query = .answered message

/-- The exchanges go over the network one after the other. -/
inductive Carried : Histories → List Exchange → Histories → Prop
  | done {before after : Histories} (later : Later before after) :
      Carried before [] after
  | lost {before middle after : Histories} {exchange : Exchange} {rest : List Exchange}
      (unanswered : ∀ message, exchange.reply ≠ .answered message)
      (later : Later before middle) (carried : Carried middle rest after) :
      Carried before (exchange :: rest) after
  | delivered {before middle after : Histories} {exchange : Exchange}
      {rest : List Exchange}
      (delivered : Delivered v6Text nodes serves sender before middle exchange)
      (later : Later before middle) (carried : Carried middle rest after) :
      Carried before (exchange :: rest) after

variable {v6Text nodes serves sender} {first second third : Histories}
  {before after : Histories} {exchange : Exchange} {exchanges rest : List Exchange}

theorem Delivered.within
    (delivered : Delivered v6Text nodes serves sender second third exchange)
    (earlier : Later first second) (later : Later third after) :
    Delivered v6Text nodes serves sender first after exchange := by
  obtain ⟨history, application, transactionId, message, atLeast, atMost, arrived⟩ := delivered
  exact ⟨history, application, transactionId, message, (earlier _).trans atLeast,
    atMost.trans (later _), arrived⟩

namespace Carried

theorem later (carried : Carried v6Text nodes serves sender before exchanges after) :
    Later before after := by
  induction carried with
  | done later => exact later
  | lost _ later _ ih => exact later.trans ih
  | delivered _ later _ ih => exact later.trans ih

theorem split (carried : Carried v6Text nodes serves sender before (exchanges ++ rest) after) :
    ∃ middle, Carried v6Text nodes serves sender before exchanges middle ∧
      Carried v6Text nodes serves sender middle rest after := by
  induction exchanges generalizing before with
  | nil => exact ⟨before, .done fun _ => List.prefix_refl _, carried⟩
  | cons exchange exchanges ih =>
      cases carried with
      | lost unanswered later carried =>
          obtain ⟨middle, front, back⟩ := ih carried
          exact ⟨middle, .lost unanswered later front, back⟩
      | delivered delivered later carried =>
          obtain ⟨middle, front, back⟩ := ih carried
          exact ⟨middle, .delivered delivered later front, back⟩

/-- Whatever is answered was delivered. -/
theorem delivered_of_mem
    (carried : Carried v6Text nodes serves sender before exchanges after)
    (member : exchange ∈ exchanges) {message : KrpcMessage}
    (answered : exchange.reply = .answered message) :
    Delivered v6Text nodes serves sender before after exchange := by
  induction carried with
  | done => cases member
  | lost unanswered later carried ih =>
      rcases List.mem_cons.mp member with rfl | member
      · exact absurd answered (unanswered message)
      · exact (ih member).within later fun _ => List.prefix_refl _
  | delivered delivered later carried ih =>
      rcases List.mem_cons.mp member with rfl | member
      · exact delivered.within (fun _ => List.prefix_refl _) carried.later
      · exact (ih member).within later fun _ => List.prefix_refl _

end Carried

/-- One more datagram has arrived. -/
def Histories.arrive (histories : Histories) (endpoint : IpEndpoint) (datagram : Datagram) :
    Histories :=
  Function.update histories endpoint (histories endpoint ++ [datagram])

theorem later_arrive (histories : Histories) (endpoint : IpEndpoint) (datagram : Datagram) :
    Later histories (histories.arrive endpoint datagram) := by
  intro other
  by_cases same : other = endpoint
  · subst same
    rw [Histories.arrive, Function.update_self]
    exact List.prefix_append _ _
  · rw [Histories.arrive, Function.update_of_ne same]

def Reply.isAnswered : Reply → Bool
  | .answered _ => true
  | _ => false

theorem answered_of_isAnswered {reply : Reply} (answered : reply.isAnswered = true) :
    ∃ message, reply = .answered message := by
  cases reply with
  | timedOut => cases answered
  | failed message => cases answered
  | answered message => exact ⟨message, rfl⟩

/-- An exchange with a node that nobody else sends anything to. -/
theorem Carried.undisturbed {application : Application} {transactionId : ByteString}
    {destination : IpEndpoint} {query : KrpcQuery} {history : List Datagram}
    (isHistory : before destination = history) (served : serves destination application)
    (answers : (replyFrom v6Text (nodes destination) application
      (tablesAfter v6Text (nodes destination) history) sender transactionId
      query).isAnswered = true)
    (carried : Carried v6Text nodes serves sender
      (before.arrive destination (queryDatagram sender application transactionId query))
      rest after) :
    Carried v6Text nodes serves sender before
      (⟨destination, query, replyFrom v6Text (nodes destination) application
        (tablesAfter v6Text (nodes destination) history) sender transactionId query⟩ ::
          rest) after := by
  obtain ⟨message, isReply⟩ := answered_of_isAnswered answers
  refine .delivered ⟨history, application, transactionId, message,
    isHistory ▸ List.prefix_refl _, ?_, served, isReply, isReply⟩ (later_arrive _ _ _) carried
  rw [Histories.arrive, Function.update_self, isHistory]

variable {options : AnnounceOptions} {selfNode : Self} {key : ByteString}
  {router : IpEndpoint} {status : Status}

/-- A router that has acknowledged keeps the announced endpoint. -/
theorem recorded_of_visit (visit : Visit options selfNode key router exchanges status)
    (success : status.isOk = true)
    (carried : Carried v6Text nodes serves sender before exchanges after) :
    announcedAs options sender ∈
      recordedPeers (tablesAfter v6Text (nodes router) (after router))
        (deriveInfoHash key).bytes := by
  cases visit with
  | unanswered reply failed => exact absurd success (by rw [failed]; decide)
  | withoutToken reply answered none => cases success
  | announced reply acknowledgement tokenOk some =>
      obtain ⟨middle, asking, announcing⟩ := @Carried.split _ _ _ _ _ _ [_] _ carried
      obtain ⟨message, rfl⟩ := answered_of_isOk tokenOk
      obtain ⟨acknowledged, rfl⟩ := answered_of_isOk success
      obtain ⟨history, application, transactionId, message, -, arrived, -, isReply, answer⟩ :=
        asking.delivered_of_mem List.mem_cons_self rfl
      cases isReply
      obtain ⟨second, announcer, announceId, message, atLeast, atMost, -, isReply,
        announced⟩ := announcing.delivered_of_mem List.mem_cons_self rfl
      cases isReply
      dsimp only at arrived answer atLeast atMost announced
      rw [settleToken_answered answer] at announced atMost
      have issued : IssuedTo v6Text sender (tablesAfter v6Text (nodes router)
          (history ++ [queryDatagram sender application transactionId
            (getPeersQuery selfNode (deriveInfoHash key))])) := by
        rw [tablesAfter_append_singleton]
        exact issuedTo_answered answer
      have stays := issuedTo_later (arrived.trans atLeast) issued
      have recorded := recorded_announcing stays announced
      rw [← tablesAfter_append_singleton] at recorded
      exact recorded_later atMost recorded

theorem Tried.success {tried : List TriedRouter} {lastError : Status}
    (isTried : Tried tried lastError status) (failed : lastError.isOk = false)
    (success : status.isOk = true) : ∃ visit ∈ tried, visit.status.isOk = true := by
  induction isTried with
  | exhausted lastError => exact absurd success (by rw [failed]; decide)
  | acknowledged visit lastError succeeds =>
      exact ⟨visit, List.mem_cons_self, succeeds⟩
  | failed visit lastError failure later ih =>
      obtain ⟨found, member, succeeds⟩ := ih failure success
      exact ⟨found, List.mem_cons_of_mem _ member, succeeds⟩

section Publish

variable {scheme : SignatureScheme} {routers : List IpEndpoint} {store : MemoryEventDht}
  {record : SignedEventRecord} {now : Int64} {session : Session}

/-- A publication that succeeds is verified, and the routers are tried. -/
theorem publish_succeeds
    (succeeded : ((⟨routers, store⟩ : MainlineEventDht).publish options scheme record now
      session).1.isOk = true) :
    verifyEventRecord scheme record = true ∧
      (announceKey options record.deterministicKey routers
        (.failure .ioError "failed to announce deterministic DHT key") session).1.isOk = true ∧
      ((⟨routers, store⟩ : MainlineEventDht).publish options scheme record now session).2.2 =
        (announceKey options record.deterministicKey routers
          (.failure .ioError "failed to announce deterministic DHT key") session).2 := by
  rw [MainlineEventDht.publish] at succeeded ⊢
  by_cases empty : routers = []
  · rw [if_pos empty] at succeeded
    cases succeeded
  rw [if_neg empty] at succeeded ⊢
  dsimp only at succeeded ⊢
  by_cases accepted : (store.publish scheme record now).1.isOk = true
  · rw [if_neg (not_not.mpr accepted)] at succeeded ⊢
    refine ⟨?_, succeeded, rfl⟩
    by_contra unverified
    rw [MemoryEventDht.publish, if_pos unverified] at accepted
    cases accepted
  · rw [if_pos accepted] at succeeded
    exact absurd succeeded accepted

theorem tryRouter_acknowledged {reply acknowledgement : Reply} {first last : Session}
    (asked : session.ask router (getPeersQuery session.self (deriveInfoHash key)) =
      (reply, first))
    (tokenOk : (settleToken reply).1.isOk = true) (some : (settleToken reply).2.1 ≠ [])
    (announced : first.ask router (announcePeerQuery first.self (deriveInfoHash key)
      (settleToken reply).2.1 options.port options.impliedPort) = (acknowledgement, last)) :
    tryRouter options key router session = (settleAnnouncement acknowledgement, last) := by
  rw [tryRouter, asked]
  dsimp only
  rw [if_neg (not_not.mpr tokenOk), if_neg some, announceToRouter, announced]

/-- A first router that acknowledges is the only one that is asked. -/
theorem publish_acknowledged {reply acknowledgement : Reply} {more : List Reply}
    (verified : verifyEventRecord scheme record = true)
    (replies : session.replies = reply :: acknowledgement :: more)
    (tokenOk : (settleToken reply).1.isOk = true) (some : (settleToken reply).2.1 ≠ [])
    (acknowledged : (settleAnnouncement acknowledgement).isOk = true) :
    let infoHash := deriveInfoHash record.deterministicKey
    let result := (⟨router :: routers, store⟩ : MainlineEventDht).publish options scheme
      record now session
    result.1.isOk = true ∧ exchangesBetween session result.2.2 =
      [⟨router, getPeersQuery session.self infoHash, reply⟩,
        ⟨router, announcePeerQuery session.self infoHash (settleToken reply).2.1
          options.port options.impliedPort, acknowledgement⟩] := by
  intro infoHash result
  have accepted : (store.publish scheme record now).1.isOk = true := by
    rw [MemoryEventDht.publish, if_neg (not_not.mpr verified)]
    dsimp only
    split <;> rfl
  obtain ⟨first, isFirst⟩ : ∃ first, session.ask router
      (getPeersQuery session.self infoHash) = (reply, first) :=
    ⟨_, Prod.ext (congrArg (·.headD .timedOut) replies) rfl⟩
  have later : first = (session.ask router (getPeersQuery session.self infoHash)).2 :=
    (congrArg Prod.snd isFirst).symm
  obtain ⟨last, isLast⟩ : ∃ last, first.ask router (announcePeerQuery first.self infoHash
      (settleToken reply).2.1 options.port options.impliedPort) = (acknowledgement, last) := by
    rw [later]
    exact ⟨_, Prod.ext (congrArg (·.tail.headD .timedOut) replies) rfl⟩
  have isTried := tryRouter_acknowledged isFirst tokenOk some isLast
  have isResult : result = (.success "",
      ⟨router :: routers, (store.publish scheme record now).2⟩, last) := by
    change MainlineEventDht.publish options scheme record now _ session = _
    rw [MainlineEventDht.publish, if_neg (List.cons_ne_nil router routers)]
    dsimp only
    rw [if_neg (not_not.mpr accepted), announceKey, isTried]
    dsimp only
    rw [if_pos acknowledged]
  have sameId : first.self = session.self := by
    rw [later]
    rfl
  rw [sameId] at isLast
  rw [isResult]
  exact ⟨rfl, (Exchanges.two isFirst isLast).between⟩

/-- After a publication that succeeds, some router has the publisher on record. -/
theorem recorded_of_publish
    (succeeded : ((⟨routers, store⟩ : MainlineEventDht).publish options scheme record now
      session).1.isOk = true)
    (carried : Carried v6Text nodes serves sender before
      (exchangesBetween session ((⟨routers, store⟩ : MainlineEventDht).publish options scheme
        record now session).2.2) after) :
    ∃ router ∈ routers, announcedAs options sender ∈
      recordedPeers (tablesAfter v6Text (nodes router) (after router))
        (deriveInfoHash record.deterministicKey).bytes := by
  obtain ⟨-, acknowledged, isSession⟩ := publish_succeeds succeeded
  rw [isSession] at carried
  obtain ⟨tried, went, visits, isTried, inOrder, -⟩ :=
    @announceKey_tried options record.deterministicKey routers
      (.failure .ioError "failed to announce deterministic DHT key") session
  rw [went.between] at carried
  obtain ⟨visit, member, success⟩ := isTried.success rfl acknowledged
  obtain ⟨front, back, rfl⟩ := List.append_of_mem member
  rw [List.flatMap_append, List.flatMap_cons] at carried
  obtain ⟨first, -, later⟩ := carried.split
  obtain ⟨second, visited, rest⟩ := later.split
  have recorded := recorded_of_visit (visits visit member) success visited
  exact ⟨visit.router, inOrder.subset (List.mem_map_of_mem member),
    recorded_later (rest.later visit.router) recorded⟩

end Publish

end Carrying

end P2P

end Blocxxi
