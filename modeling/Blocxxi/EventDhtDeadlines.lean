import Blocxxi.EventWire
import Blocxxi.MainlineNode
import Blocxxi.StepMachineRuns

/-!
# Two deadlines

A call of the event table sends one query and runs the event loop for the time
that the options give, whatever comes of the query.  The node has a deadline of
its own for the query.  If the call returns first, its callback stays in the
node's table, with references to variables that are gone.
-/

namespace Blocxxi

namespace P2P

open Blocxxi.Core Cxx ByteText Bencode Kademlia StepMachine

/-- The options of the event table; the time is in milliseconds. -/
structure MainlineEventDhtOptions where
  requestTimeout : Int := 1000
  announcePort : UInt16 := 0
  impliedPort : Bool := true

/-- The node's own identifier and port. -/
structure Self where
  id : Hash160 := Hash.zero
  port : UInt16 := 0

/-- Which of the three functions is called, and for what. -/
inductive Request
  | queryRouter (deterministicKey : ByteString)
  | queryPeerRecords (deterministicKey : ByteString)
  | announceToRouter (deterministicKey token : ByteString)

def getPeersQuery (selfNode : Self) (infoHash : Hash160) : KrpcQuery where
  method := ascii "get_peers"
  arguments := dictionaryOf
    [("id", .string selfNode.id.bytes), ("info_hash", .string infoHash.bytes)]

def getEventQuery (selfNode : Self) (deterministicKey : ByteString) : KrpcQuery where
  method := ascii "bx_get_event"
  arguments := dictionaryOf
    [("id", .string selfNode.id.bytes), ("key", .string deterministicKey)]

def announcePeerQuery (selfNode : Self) (infoHash : Hash160) (token : ByteString)
    (port : UInt16) (impliedPort : Bool) : KrpcQuery where
  method := ascii "announce_peer"
  arguments :=
    let arguments := dictionaryOf
      [("id", .string selfNode.id.bytes), ("info_hash", .string infoHash.bytes),
        ("token", .string token), ("port", .integer port.toUInt64.toInt64)]
    if impliedPort then emplace (ascii "implied_port") (.integer 1) arguments
    else arguments

/-- The query of a request. -/
def requestQuery (options : MainlineEventDhtOptions) (selfNode : Self) :
    Request → KrpcQuery
  | .queryRouter deterministicKey =>
      getPeersQuery selfNode (deriveInfoHash deterministicKey)
  | .queryPeerRecords deterministicKey => getEventQuery selfNode deterministicKey
  | .announceToRouter deterministicKey token =>
      announcePeerQuery selfNode (deriveInfoHash deterministicKey) token
        (if options.announcePort = 0 then selfNode.port else options.announcePort)
        options.impliedPort

/-- A call of one of the three functions: when it sends its query, when it starts
to wait, what it asks for, and the handlers that the event loop runs while it
waits, with the times of their runs. -/
structure Call where
  sentAt : Nat
  waitsFrom : Nat
  order : sentAt ≤ waitsFrom
  request : Request
  window : List (Nat × Handler)

namespace Call

variable (options : MainlineEventDhtOptions) (selfNode : Self)

/-- The time at which the call stops running the event loop. -/
def endsAt (call : Call) : Nat :=
  call.waitsFrom + options.requestTimeout.toNat

/-- The node when the query was sent. -/
def send (call : Call) (node : MainlineDhtNode) : MainlineDhtNode :=
  sendQuery call.sentAt (requestQuery options selfNode call.request) node

/-- The node when the call returns. -/
def perform (call : Call) (node : MainlineDhtNode) : MainlineDhtNode :=
  call.window.foldl (fun node entry => handle entry.2 node)
    (call.send options selfNode node)

end Call

/-- The handler of a timer that was not cancelled runs when the timer has
expired, not before. -/
def IsDue (time : Nat) (node : MainlineDhtNode) : Handler → Prop
  | .expired transactionId false =>
      ∀ timer ∈ node.pendingRequestTimers.lookup transactionId,
        timer.expiresAt ≤ time
  | _ => True

/-- What running the event loop from one time to another means: handlers run in
order before the end, those of timers when they are due, and no timer that has
expired before the end is left. -/
def RunsUntil (ends : Nat) : Nat → List (Nat × Handler) → MainlineDhtNode → Prop
  | _, [], node =>
      ∀ transactionId, ∀ timer ∈ node.pendingRequestTimers.lookup transactionId,
        ends ≤ timer.expiresAt
  | now, (time, handler) :: rest, node =>
      now ≤ time ∧ time < ends ∧ IsDue time node handler ∧
        RunsUntil ends time rest (handle handler node)

instance decidableIsDue (time : Nat) (node : MainlineDhtNode) :
    (handler : Handler) → Decidable (IsDue time node handler)
  | .expired transactionId false =>
      inferInstanceAs (Decidable (∀ timer ∈
        node.pendingRequestTimers.lookup transactionId, timer.expiresAt ≤ time))
  | .expired _ true => isTrue trivial
  | .sent _ _ => isTrue trivial
  | .received _ _ => isTrue trivial

instance decidableRunsUntil (ends : Nat) :
    ∀ now window node, Decidable (RunsUntil ends now window node)
  | _, [], node =>
      decidable_of_iff
        (∀ entry ∈ node.pendingRequestTimers.entries, ends ≤ entry.2.expiresAt)
        ⟨fun late _ _ found => late _ (AList.mem_lookup_iff.mp found),
          fun late entry member =>
            late entry.1 entry.2 (AList.mem_lookup_iff.mpr member)⟩
  | now, (time, handler) :: rest, node =>
      have := decidableRunsUntil ends time rest (handle handler node)
      inferInstanceAs (Decidable (now ≤ time ∧ time < ends ∧
        IsDue time node handler ∧ RunsUntil ends time rest (handle handler node)))

/-- The handlers of a call are those that the event loop runs in its time. -/
def Call.RunsItsTime (options : MainlineEventDhtOptions) (selfNode : Self)
    (call : Call) (node : MainlineDhtNode) : Prop :=
  RunsUntil (call.endsAt options) call.waitsFrom call.window
    (call.send options selfNode node)

instance decidableRunsItsTime (options : MainlineEventDhtOptions)
    (selfNode : Self) (call : Call) (node : MainlineDhtNode) :
    Decidable (call.RunsItsTime options selfNode node) :=
  decidableRunsUntil _ _ _ _

/-- When the call returns its callback is not registered any more, and no other
callback was invoked. -/
structure Call.ReturnsCleanly (options : MainlineEventDhtOptions) (selfNode : Self)
    (call : Call) (node : MainlineDhtNode) : Prop where
  unregistered : ∀ transactionId,
    (call.perform options selfNode node).pendingRequests.lookup transactionId ≠
      some node.queries
  own : ∀ entry ∈ (call.perform options selfNode node).invoked,
    entry ∈ node.invoked ∨ entry.1 = node.queries

/-- The handler brings an answer to a request, or the failure to send it. -/
def Answers (transactionId : ByteString) : Handler → Prop
  | .sent other failed => other = transactionId ∧ failed = true
  | .received message _ =>
      message.transactionId = transactionId ∧ ∀ query, message.payload ≠ .query query
  | .expired _ _ => False

/-- The query of a call is too large to be sent. -/
def Call.IsTooLarge (options : MainlineEventDhtOptions) (selfNode : Self)
    (call : Call) (node : MainlineDhtNode) : Prop :=
  safePayloadSize < (encodeKrpc (queryMessage
    (nextTransactionId node.nextRequestId)
      (requestQuery options selfNode call.request))).length

/-- The timer of the query expires while the call waits, or the query is too
large to be sent, or an answer arrives while the call waits. -/
def Call.OutlastsItsRequest (options : MainlineEventDhtOptions) (selfNode : Self)
    (call : Call) (node : MainlineDhtNode) : Prop :=
  call.sentAt + Kademlia.requestTimeout < call.endsAt options ∨
    call.IsTooLarge options selfNode node ∨
    ∃ entry ∈ call.window,
      Answers (nextTransactionId node.nextRequestId) entry.2

/-- Bootstrap identifiers are not those of queries. -/
def BootstrapsApart (node : MainlineDhtNode) : Prop :=
  ∀ transactionId ∈ node.pendingBootstraps, transactionId.head? = some 98

/-- No request waits. -/
structure Idle (node : MainlineDhtNode) : Prop where
  requests : ∀ transactionId, transactionId ∉ node.pendingRequests
  timers : ∀ transactionId, transactionId ∉ node.pendingRequestTimers
  bootstraps : BootstrapsApart node

/-- At most one request waits: the given one, with its callback and deadline. -/
structure Holds (transactionId : ByteString) (callback deadline : Nat)
    (before : List (Nat × Completion)) (node : MainlineDhtNode) : Prop where
  only : ∀ other waiting, node.pendingRequests.lookup other = some waiting →
    other = transactionId ∧ waiting = callback
  timers : ∀ other timer, node.pendingRequestTimers.lookup other = some timer →
    other = transactionId ∧ timer.expiresAt = deadline
  sameKeys : transactionId ∈ node.pendingRequests ↔
    transactionId ∈ node.pendingRequestTimers
  own : ∀ entry ∈ node.invoked, entry ∈ before ∨ entry.1 = callback
  bootstraps : BootstrapsApart node

section Handlers

variable {transactionId : ByteString} {callback deadline : Nat}
  {before : List (Nat × Completion)} {node : MainlineDhtNode}

/-- Only the request that is completed leaves the table. -/
theorem mem_completeRequest (transactionId completed : ByteString)
    (completion : Completion) (node : MainlineDhtNode) :
    transactionId ∈ (completeRequest completed completion node).pendingRequests ↔
      transactionId ∈ node.pendingRequests ∧ completed ≠ transactionId := by
  unfold completeRequest
  rcases takePendingRequest_cases completed node with
    ⟨absent, taken⟩ | ⟨waiting, -, taken⟩
  · rw [taken]
    refine ⟨fun member => ⟨member, ?_⟩, And.left⟩
    rintro rfl
    exact AList.lookup_eq_none.mp absent member
  · rw [taken]
    change transactionId ∈ node.pendingRequests.erase completed ↔ _
    rw [AList.mem_erase, and_comm, ne_comm]

theorem completeRequest_holds (completed : ByteString) (completion : Completion)
    (holds : Holds transactionId callback deadline before node) :
    Holds transactionId callback deadline before
      (completeRequest completed completion node) := by
  have erasedTimers : ∀ other timer,
      (node.pendingRequestTimers.erase completed).lookup other = some timer →
        other = transactionId ∧ timer.expiresAt = deadline := by
    intro other timer isFound
    exact holds.timers other timer (tableLookup_of_erase isFound).2
  unfold completeRequest
  rcases takePendingRequest_cases completed node with
    ⟨absent, taken⟩ | ⟨waiting, present, taken⟩
  · rw [taken]
    refine ⟨holds.only, erasedTimers, ?_, holds.own, holds.bootstraps⟩
    rw [AList.mem_erase, holds.sameKeys]
    refine ⟨fun present => ⟨?_, present⟩, And.right⟩
    rintro rfl
    exact AList.lookup_eq_none.mp absent (holds.sameKeys.mpr present)
  · rw [taken]
    refine ⟨?_, erasedTimers, ?_, ?_, holds.bootstraps⟩
    · intro other kept isFound
      exact holds.only other kept (tableLookup_of_erase isFound).2
    · rw [AList.mem_erase, AList.mem_erase, holds.sameKeys]
    · intro entry member
      rcases List.mem_append.mp member with earlier | last
      · exact holds.own entry earlier
      · rw [List.mem_singleton.mp last]
        exact Or.inr (holds.only completed waiting present).2

theorem receiveMessage_holds (message : KrpcMessage) (throws : Bool)
    (holds : Holds transactionId callback deadline before node) :
    Holds transactionId callback deadline before
      (receiveMessage message throws node) := by
  unfold receiveMessage
  split
  · exact holds
  split
  · split
    · exact holds
    · refine ⟨holds.only, holds.timers, holds.sameKeys, holds.own, ?_⟩
      intro other member
      exact holds.bootstraps other (AList.mem_erase.mp member).2
  · exact completeRequest_holds _ _ holds

theorem handle_holds (handler : Handler)
    (holds : Holds transactionId callback deadline before node) :
    Holds transactionId callback deadline before (handle handler node) := by
  cases handler with
  | sent completed failed =>
      change Holds _ _ _ _ (sendCompleted completed failed node)
      unfold sendCompleted
      split
      · exact completeRequest_holds completed .sendFailed holds
      · exact holds
  | received message throws => exact receiveMessage_holds message throws holds
  | expired completed aborted =>
      change Holds _ _ _ _ (timerExpired completed aborted node)
      unfold timerExpired
      split
      · exact holds
      · exact completeRequest_holds completed .timedOut holds

theorem mem_receiveMessage (isQuery : transactionId.head? = some 113)
    (bootstraps : BootstrapsApart node) (message : KrpcMessage) (throws : Bool) :
    transactionId ∈ (receiveMessage message throws node).pendingRequests ↔
      transactionId ∈ node.pendingRequests ∧
        ¬ Answers transactionId (.received message throws) := by
  by_cases asks : ∃ query, message.payload = .query query
  · obtain ⟨query, isPayload⟩ := asks
    have unanswered : ¬ Answers transactionId (.received message throws) :=
      fun answers => answers.2 query isPayload
    rw [receiveMessage, isPayload]
    exact ⟨fun member => ⟨member, unanswered⟩, And.left⟩
  · have answers : Answers transactionId (.received message throws) ↔
        message.transactionId = transactionId :=
      ⟨And.left, fun same => ⟨same, fun query isPayload => asks ⟨query, isPayload⟩⟩⟩
    rw [answers]
    unfold receiveMessage
    split
    · exact absurd ⟨_, ‹_›⟩ asks
    split
    · -- The message of a bootstrap node has another identifier.
      have differs : message.transactionId ≠ transactionId := by
        rintro rfl
        have isBootstrap := bootstraps _ ‹_›
        rw [isQuery] at isBootstrap
        cases isBootstrap
      split <;> exact ⟨fun member => ⟨member, differs⟩, And.left⟩
    · exact mem_completeRequest _ _ _ node

/-- A request stays in the table unless its answer or the expiry of its timer is
handled. -/
theorem mem_handle (isQuery : transactionId.head? = some 113)
    (bootstraps : BootstrapsApart node) (handler : Handler) :
    transactionId ∈ (handle handler node).pendingRequests ↔
      transactionId ∈ node.pendingRequests ∧ ¬ Answers transactionId handler ∧
        handler ≠ .expired transactionId false := by
  cases handler with
  | sent completed failed =>
      change transactionId ∈ (sendCompleted completed failed node).pendingRequests ↔ _
      have notExpiry : Handler.sent completed failed ≠
          .expired transactionId false := nofun
      unfold sendCompleted
      split
      · rename_i isFailure
        have answers : Answers transactionId (.sent completed failed) ↔
            completed = transactionId :=
          ⟨And.left, fun same => ⟨same, isFailure⟩⟩
        rw [mem_completeRequest, answers, and_iff_left notExpiry]
      · rename_i isSuccess
        have unanswered : ¬ Answers transactionId (.sent completed failed) :=
          fun answers => isSuccess answers.2
        exact ⟨fun member => ⟨member, unanswered, notExpiry⟩, And.left⟩
  | received message throws =>
      have notExpiry : Handler.received message throws ≠
          .expired transactionId false := nofun
      rw [and_iff_left notExpiry]
      exact mem_receiveMessage isQuery bootstraps message throws
  | expired completed aborted =>
      change transactionId ∈ (timerExpired completed aborted node).pendingRequests ↔ _
      have unanswered : ¬ Answers transactionId (.expired completed aborted) := id
      rw [and_iff_right unanswered]
      unfold timerExpired
      cases aborted with
      | true => simp
      | false => simp [mem_completeRequest]

end Handlers

section Windows

variable {transactionId : ByteString} {callback deadline ends : Nat}
  {before : List (Nat × Completion)} {node : MainlineDhtNode}

theorem window_holds (window : List (Nat × Handler))
    (holds : Holds transactionId callback deadline before node) :
    Holds transactionId callback deadline before
      (window.foldl (fun node entry => handle entry.2 node) node) := by
  induction window generalizing node with
  | nil => exact holds
  | cons entry window induction => exact induction (handle_holds entry.2 holds)

/-- A request waits at the end of a window if its deadline is not before the end
and no answer to it arrived. -/
theorem mem_window (isQuery : transactionId.head? = some 113)
    (window : List (Nat × Handler)) (now : Nat)
    (holds : Holds transactionId callback deadline before node)
    (runs : RunsUntil ends now window node) :
    transactionId ∈ (window.foldl (fun node entry => handle entry.2 node)
        node).pendingRequests ↔
      transactionId ∈ node.pendingRequests ∧ ends ≤ deadline ∧
        ∀ entry ∈ window, ¬ Answers transactionId entry.2 := by
  -- A request that waits has a timer, and the timer has the deadline.
  have timed : ∀ {node : MainlineDhtNode},
      Holds transactionId callback deadline before node →
        transactionId ∈ node.pendingRequests →
          ∃ timer ∈ node.pendingRequestTimers.lookup transactionId,
            timer.expiresAt = deadline := by
    intro node holds member
    obtain ⟨timer, found⟩ := tableLookup_of_mem (holds.sameKeys.mp member)
    exact ⟨timer, found, (holds.timers _ timer found).2⟩
  induction window generalizing node now with
  | nil =>
      refine ⟨fun member => ⟨member, ?_, nofun⟩, And.left⟩
      obtain ⟨timer, found, isDeadline⟩ := timed holds member
      rw [← isDeadline]
      exact runs transactionId timer found
  | cons entry window induction =>
      obtain ⟨time, handler⟩ := entry
      obtain ⟨-, inTime, isDue, rest⟩ := runs
      have stays := induction time (handle_holds handler holds) rest
      refine stays.trans ?_
      rw [mem_handle isQuery holds.bootstraps, List.forall_mem_cons]
      have notExpiry : transactionId ∈ node.pendingRequests → ends ≤ deadline →
          handler ≠ .expired transactionId false := by
        rintro member late rfl
        obtain ⟨timer, found, isDeadline⟩ := timed holds member
        have expired : timer.expiresAt ≤ time := isDue timer found
        omega
      tauto

end Windows

section Calls

variable (options : MainlineEventDhtOptions) (selfNode : Self) (call : Call)
  {node : MainlineDhtNode}

theorem registerQuery_holds (now : Nat) (idle : Idle node) :
    Holds (nextTransactionId node.nextRequestId) node.queries
      (now + Kademlia.requestTimeout) node.invoked (registerQuery now node) ∧
    nextTransactionId node.nextRequestId ∈
      (registerQuery now node).pendingRequests := by
  unfold registerQuery tableEmplace
  dsimp only
  rw [if_neg (idle.requests _), if_neg (idle.timers _)]
  refine ⟨⟨?_, ?_, ?_, fun entry member => Or.inl member, idle.bootstraps⟩, ?_⟩
  · intro other waiting isFound
    rcases tableLookup_of_insert isFound with isNew | ⟨-, found⟩
    · exact isNew
    · exact absurd (mem_of_tableLookup found) (idle.requests other)
  · intro other timer isFound
    rcases tableLookup_of_insert isFound with ⟨rfl, rfl⟩ | ⟨-, found⟩
    · exact ⟨rfl, rfl⟩
    · exact absurd (mem_of_tableLookup found) (idle.timers other)
  · rw [AList.mem_insert, AList.mem_insert]
    exact ⟨fun _ => Or.inl rfl, fun _ => Or.inl rfl⟩
  · exact (AList.mem_insert _).mpr (Or.inl rfl)

theorem send_holds (idle : Idle node) :
    Holds (nextTransactionId node.nextRequestId) node.queries
      (call.sentAt + Kademlia.requestTimeout) node.invoked
        (call.send options selfNode node) := by
  have registered := (registerQuery_holds call.sentAt idle).1
  unfold Call.send sendQuery
  dsimp only
  split
  · rw [sendCompleted, if_pos rfl]
    exact completeRequest_holds _ _ registered
  · exact registered

theorem mem_send (idle : Idle node) :
    nextTransactionId node.nextRequestId ∈
        (call.send options selfNode node).pendingRequests ↔
      ¬ call.IsTooLarge options selfNode node := by
  have registered := (registerQuery_holds call.sentAt idle).2
  unfold Call.send sendQuery Call.IsTooLarge
  dsimp only
  split
  · rename_i isTooLarge
    rw [sendCompleted, if_pos rfl, mem_completeRequest]
    exact ⟨fun member => absurd rfl member.2, fun fits => absurd isTooLarge fits⟩
  · rename_i fits
    exact ⟨fun _ => fits, fun _ => registered⟩

/-- A call leaves its callback exactly if its request outlasts it. -/
theorem mem_perform (idle : Idle node)
    (runs : call.RunsItsTime options selfNode node) :
    nextTransactionId node.nextRequestId ∈
        (call.perform options selfNode node).pendingRequests ↔
      ¬ call.OutlastsItsRequest options selfNode node := by
  have waits := mem_window rfl call.window call.waitsFrom
    (send_holds options selfNode call idle) runs
  unfold Call.perform Call.OutlastsItsRequest
  rw [waits, mem_send options selfNode call idle, not_or, not_or, Nat.not_lt]
  push Not
  tauto

theorem perform_holds (idle : Idle node) :
    Holds (nextTransactionId node.nextRequestId) node.queries
      (call.sentAt + Kademlia.requestTimeout) node.invoked
        (call.perform options selfNode node) :=
  window_holds call.window (send_holds options selfNode call idle)

theorem returnsCleanly_iff (idle : Idle node) :
    call.ReturnsCleanly options selfNode node ↔
      nextTransactionId node.nextRequestId ∉
        (call.perform options selfNode node).pendingRequests := by
  have holds := perform_holds options selfNode call idle
  constructor
  · intro clean member
    obtain ⟨callback, found⟩ := tableLookup_of_mem member
    rw [(holds.only _ callback found).2] at found
    exact clean.unregistered _ found
  · intro absent
    refine ⟨?_, holds.own⟩
    intro other found
    rw [(holds.only other _ found).1] at found
    exact absent (mem_of_tableLookup found)

/-- After a call that returned cleanly no request waits. -/
theorem perform_idle (idle : Idle node)
    (clean : call.ReturnsCleanly options selfNode node) :
    Idle (call.perform options selfNode node) := by
  have holds := perform_holds options selfNode call idle
  have absent := (returnsCleanly_iff options selfNode call idle).mp clean
  refine ⟨?_, ?_, holds.bootstraps⟩
  · intro other member
    obtain ⟨callback, found⟩ := tableLookup_of_mem member
    rw [(holds.only other callback found).1] at member
    exact absent member
  · intro other member
    obtain ⟨timer, found⟩ := tableLookup_of_mem member
    rw [(holds.timers other timer found).1] at member
    exact absent (holds.sameKeys.mpr member)

end Calls

theorem sendBootstrapQueries_idle (resolves : ByteString → Bool)
    (bootstraps : List ByteString) (index : Nat) {node : MainlineDhtNode}
    (idle : Idle node) :
    Idle (sendBootstrapQueries resolves index bootstraps node) := by
  induction bootstraps generalizing index node with
  | nil => exact idle
  | cons bootstrap bootstraps induction =>
      unfold sendBootstrapQueries
      split
      · exact idle
      · apply induction
        refine ⟨idle.requests, idle.timers, ?_⟩
        intro other member
        unfold tableEmplace at member
        split at member
        · exact idle.bootstraps other member
        · rcases (AList.mem_insert _).mp member with rfl | earlier
          · rfl
          · exact idle.bootstraps other earlier

/-- A session that was started from some bootstrap nodes. -/
def startedSession (resolves : ByteString → Bool)
    (bootstrapNodes : List ByteString) : MainlineDhtNode :=
  start resolves { bootstrapNodes := bootstrapNodes }

theorem startedSession_idle (resolves : ByteString → Bool)
    (bootstrapNodes : List ByteString) :
    Idle (startedSession resolves bootstrapNodes) := by
  apply sendBootstrapQueries_idle
  have notMem : ∀ {Value : Type} (transactionId : ByteString),
      transactionId ∉ (∅ : AList fun _ : ByteString => Value) :=
    fun transactionId => AList.notMem_empty transactionId
  exact ⟨notMem, notMem, fun other member => absurd member (notMem other)⟩

/-- In every sequence of calls, each of which runs the event loop for its time,
all calls return cleanly if and only if each of them outlasts its request. -/
theorem calls_returnCleanly_iff (options : MainlineEventDhtOptions) (selfNode : Self)
    (resolves : ByteString → Bool) (bootstrapNodes : List ByteString)
    (calls : List Call)
    (runs : RunsWithin (Call.perform options selfNode) (Call.RunsItsTime options selfNode)
      calls (startedSession resolves bootstrapNodes)) :
    RunsWithin (Call.perform options selfNode) (Call.ReturnsCleanly options selfNode)
        calls (startedSession resolves bootstrapNodes) ↔
      RunsWithin (Call.perform options selfNode) (Call.OutlastsItsRequest options selfNode)
        calls (startedSession resolves bootstrapNodes) := by
  have kept : ∀ call node, Idle node → Call.RunsItsTime options selfNode call node →
      Call.ReturnsCleanly options selfNode call node →
        Idle (Call.perform options selfNode call node) :=
    fun call node idle _ clean => perform_idle options selfNode call idle clean
  have same : ∀ call node, Idle node → Call.RunsItsTime options selfNode call node →
      (Call.ReturnsCleanly options selfNode call node ↔
        Call.OutlastsItsRequest options selfNode call node) := by
    intro call node idle runs
    rw [returnsCleanly_iff options selfNode call idle,
      mem_perform options selfNode call idle runs, not_not]
  exact runsWithin_iff_within kept same calls _
    (startedSession_idle resolves bootstrapNodes) runs

/-- The first router is silent until the timer of the query expires; the second
answers. -/
def patientCalls : List Call :=
  [⟨0, 0, Nat.le_refl 0, .queryRouter (ascii "key"),
      [(2000, .expired (ascii "q0") false)]⟩,
    ⟨3000, 3001, Nat.le_succ 3000, .announceToRouter (ascii "key") (ascii "token"),
      [(3002, .sent (ascii "q1") false),
        (3010, .received
          { transactionId := ascii "q1", payload := .response {} } false)]⟩]

theorem patientCalls_returnCleanly :
    RunsWithin (Call.perform { requestTimeout := 3000 } {})
      (Call.ReturnsCleanly { requestTimeout := 3000 } {})
      patientCalls (startedSession (fun _ => true) []) := by
  apply (calls_returnCleanly_iff { requestTimeout := 3000 } {} (fun _ => true) []
    patientCalls (by decide +kernel)).mpr
  refine ⟨Or.inl (by decide), Or.inr (Or.inr ⟨_, List.mem_cons_of_mem _
    (List.mem_singleton_self _), ?_, nofun⟩), trivial⟩
  decide +kernel

/-- The answer to the first call arrives while the second one waits. -/
def hastyCalls : List Call :=
  [⟨0, 0, Nat.le_refl 0, .queryPeerRecords (ascii "key"), []⟩,
    ⟨1000, 1000, Nat.le_refl 1000, .queryPeerRecords (ascii "other"),
      [(1500, .received
        { transactionId := ascii "q0", payload := .response {} } false)]⟩]

/-- With the default options the callback of the first call stays registered when
the call returns, and the second call invokes it. -/
theorem hastyCalls_not_returnCleanly :
    RunsWithin (Call.perform {} {}) (Call.RunsItsTime {} {}) hastyCalls
        (startedSession (fun _ => true) []) ∧
      ¬ RunsWithin (Call.perform {} {}) (Call.ReturnsCleanly {} {}) hastyCalls
        (startedSession (fun _ => true) []) ∧
      (run (Call.perform {} {}) hastyCalls
        (startedSession (fun _ => true) [])).invoked.map Prod.fst = [0] := by
  refine ⟨by decide +kernel, ?_, by decide +kernel⟩
  rintro ⟨clean, -⟩
  exact clean.unregistered (ascii "q0") (by decide +kernel)

end P2P

end Blocxxi
