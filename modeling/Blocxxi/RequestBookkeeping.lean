import Blocxxi.MainlineNode
import Blocxxi.StepMachineRuns

/-!
# Every request is accounted for

Whatever the order of the handlers, the two tables have the same keys, no
callback is invoked twice, and a callback that was neither invoked nor dropped
still waits with its timer.  Identifiers repeat after `2 ^ 64` queries.
-/

namespace Blocxxi

namespace Kademlia

open Cxx Bencode ByteText StepMachine

/-- The identifier under which the callback of a query waits. -/
def transactionIdOf (callback : Nat) : ByteString :=
  nextTransactionId (UInt64.ofNat callback)

theorem transactionIdOf_injective {first second : Nat} (firstFits : first < 2 ^ 64)
    (secondFits : second < 2 ^ 64)
    (same : transactionIdOf first = transactionIdOf second) : first = second := by
  unfold transactionIdOf nextTransactionId at same
  have numbers := decimal_injective (List.append_cancel_left same)
  rw [UInt64.toNat_ofNat', UInt64.toNat_ofNat'] at numbers
  omega

/-- The callbacks that were invoked, in order. -/
def MainlineDhtNode.called (node : MainlineDhtNode) : List Nat :=
  node.invoked.map Prod.fst

structure Bookkeeping (node : MainlineDhtNode) : Prop where
  next : node.nextRequestId = UInt64.ofNat node.queries
  sameKeys : ∀ transactionId, transactionId ∈ node.pendingRequests ↔
    transactionId ∈ node.pendingRequestTimers
  waiting : ∀ transactionId callback,
    node.pendingRequests.lookup transactionId = some callback →
      transactionId = transactionIdOf callback ∧ callback < node.queries ∧
        callback ∉ node.called
  once : node.called.Nodup
  known : ∀ callback ∈ node.called, callback < node.queries
  settled : ∀ callback < node.queries, callback ∈ node.called ∨
    callback ∈ node.dropped ∨
      node.pendingRequests.lookup (transactionIdOf callback) = some callback

theorem bookkeeping_empty : Bookkeeping {} where
  next := rfl
  sameKeys := fun _ => Iff.rfl
  waiting := fun _ _ found => by cases found
  once := List.nodup_nil
  known := fun _ member => by cases member
  settled := fun _ small => absurd small (Nat.not_lt_zero _)

variable {node : MainlineDhtNode}

/-- Completing a request keeps the books, whether or not one waits under the
identifier. -/
theorem completeRequest_bookkeeping (transactionId : ByteString)
    (completion : Completion) (books : Bookkeeping node) :
    Bookkeeping (completeRequest transactionId completion node) := by
  unfold completeRequest
  rcases takePendingRequest_cases transactionId node with
    ⟨absent, taken⟩ | ⟨callback, present, taken⟩
  · -- A handler that comes too late erases a timer that is not there.
    rw [taken]
    refine ⟨books.next, ?_, books.waiting, books.once, books.known, books.settled⟩
    intro other
    rw [AList.mem_erase, books.sameKeys]
    refine ⟨fun present => ⟨?_, present⟩, fun present => present.2⟩
    rintro rfl
    exact AList.lookup_eq_none.mp absent ((books.sameKeys other).mpr present)
  · rw [taken]
    obtain ⟨isId, small, notCalled⟩ := books.waiting transactionId callback present
    have called : ({ node with
        pendingRequests := node.pendingRequests.erase transactionId
        pendingRequestTimers := node.pendingRequestTimers.erase transactionId
        invoked := node.invoked ++ [(callback, completion)] } :
          MainlineDhtNode).called = node.called ++ [callback] := by
      simp [MainlineDhtNode.called]
    refine ⟨books.next, ?_, ?_, ?_, ?_, ?_⟩
    · intro other
      rw [AList.mem_erase, AList.mem_erase, books.sameKeys]
    · intro other waiting isFound
      obtain ⟨differs, found⟩ := tableLookup_of_erase isFound
      obtain ⟨otherId, otherSmall, otherNotCalled⟩ :=
        books.waiting other waiting found
      refine ⟨otherId, otherSmall, ?_⟩
      rw [called, List.mem_append, List.mem_singleton, not_or]
      refine ⟨otherNotCalled, ?_⟩
      rintro rfl
      exact differs (otherId.trans isId.symm)
    · rw [called, List.nodup_append_comm, List.singleton_append]
      exact List.nodup_cons.mpr ⟨notCalled, books.once⟩
    · intro other member
      rw [called, List.mem_append, List.mem_singleton] at member
      rcases member with earlier | rfl
      · exact books.known other earlier
      · exact small
    · intro other otherSmall
      rw [called, List.mem_append, List.mem_singleton]
      rcases books.settled other otherSmall with earlier | gone | waits
      · exact Or.inl (Or.inl earlier)
      · exact Or.inr (Or.inl gone)
      · by_cases same : other = callback
        · exact Or.inl (Or.inr same)
        · refine Or.inr (Or.inr ?_)
          rw [AList.lookup_erase_ne, waits]
          intro sameId
          rw [sameId, present] at waits
          exact same (Option.some.inj waits).symm

theorem sendCompleted_bookkeeping (transactionId : ByteString) (failed : Bool)
    (books : Bookkeeping node) :
    Bookkeeping (sendCompleted transactionId failed node) := by
  unfold sendCompleted
  split
  · exact completeRequest_bookkeeping transactionId .sendFailed books
  · exact books

theorem timerExpired_bookkeeping (transactionId : ByteString) (aborted : Bool)
    (books : Bookkeeping node) :
    Bookkeeping (timerExpired transactionId aborted node) := by
  unfold timerExpired
  split
  · exact books
  · exact completeRequest_bookkeeping transactionId .timedOut books

theorem receiveMessage_bookkeeping (message : KrpcMessage) (throws : Bool)
    (books : Bookkeeping node) :
    Bookkeeping (receiveMessage message throws node) := by
  unfold receiveMessage
  split
  · exact books
  split
  · split
    · exact books
    · exact ⟨books.next, books.sameKeys, books.waiting, books.once, books.known,
        books.settled⟩
  · exact completeRequest_bookkeeping _ _ books

theorem handle_bookkeeping (handler : Handler) (books : Bookkeeping node) :
    Bookkeeping (handle handler node) := by
  cases handler with
  | sent transactionId failed =>
      exact sendCompleted_bookkeeping transactionId failed books
  | received message throws => exact receiveMessage_bookkeeping message throws books
  | expired transactionId aborted =>
      exact timerExpired_bookkeeping transactionId aborted books

/-- The identifier of the next query is new. -/
theorem nextTransactionId_notMem (books : Bookkeeping node)
    (fits : node.queries < 2 ^ 64) :
    nextTransactionId node.nextRequestId ∉ node.pendingRequests := by
  intro present
  obtain ⟨callback, found⟩ := tableLookup_of_mem present
  obtain ⟨isId, small, -⟩ := books.waiting _ callback found
  rw [books.next] at isId
  have same := transactionIdOf_injective fits (by omega) isId
  omega

theorem registerQuery_bookkeeping (now : Nat) (books : Bookkeeping node)
    (fits : node.queries < 2 ^ 64) : Bookkeeping (registerQuery now node) := by
  have new := nextTransactionId_notMem books fits
  have newTimer : nextTransactionId node.nextRequestId ∉
      node.pendingRequestTimers := fun present => new ((books.sameKeys _).mpr present)
  have isId : nextTransactionId node.nextRequestId =
      transactionIdOf node.queries := by
    rw [books.next, transactionIdOf]
  unfold registerQuery tableEmplace
  dsimp only
  rw [if_neg new, if_neg newTimer]
  refine ⟨?_, ?_, ?_, books.once, ?_, ?_⟩
  · rw [books.next]
    exact (UInt64.ofNat_add node.queries 1).symm
  · intro other
    rw [AList.mem_insert, AList.mem_insert, books.sameKeys]
  · intro other callback isFound
    rcases tableLookup_of_insert isFound with ⟨rfl, rfl⟩ | ⟨-, found⟩
    · refine ⟨isId, Nat.lt_succ_self _, ?_⟩
      exact fun member => Nat.lt_irrefl _ (books.known _ member)
    · obtain ⟨otherId, small, notCalled⟩ := books.waiting other callback found
      exact ⟨otherId, Nat.lt_succ_of_lt small, notCalled⟩
  · exact fun callback member => Nat.lt_succ_of_lt (books.known callback member)
  · intro callback small
    rcases Nat.lt_succ_iff_lt_or_eq.mp small with earlier | rfl
    · rcases books.settled callback earlier with called | gone | waits
      · exact Or.inl called
      · exact Or.inr (Or.inl gone)
      · refine Or.inr (Or.inr ?_)
        rw [AList.lookup_insert_ne, waits]
        intro same
        rw [← same] at new
        exact new (mem_of_tableLookup waits)
    · rw [← isId]
      exact Or.inr (Or.inr (AList.lookup_insert _))

theorem sendQuery_bookkeeping (now : Nat) (query : KrpcQuery)
    (books : Bookkeeping node) (fits : node.queries < 2 ^ 64) :
    Bookkeeping (sendQuery now query node) := by
  have registered := registerQuery_bookkeeping now books fits
  unfold sendQuery
  dsimp only
  split
  · exact sendCompleted_bookkeeping _ true registered
  · exact registered

theorem sendBootstrapQueries_bookkeeping (resolves : ByteString → Bool)
    (bootstraps : List ByteString) (index : Nat) (books : Bookkeeping node) :
    Bookkeeping (sendBootstrapQueries resolves index bootstraps node) := by
  induction bootstraps generalizing index node with
  | nil => exact books
  | cons bootstrap bootstraps induction =>
      unfold sendBootstrapQueries
      split
      · exact books
      · apply induction
        exact ⟨books.next, books.sameKeys, books.waiting, books.once, books.known,
          books.settled⟩

theorem start_bookkeeping (resolves : ByteString → Bool)
    (books : Bookkeeping node) : Bookkeeping (start resolves node) := by
  unfold start
  split
  · exact books
  · apply sendBootstrapQueries_bookkeeping
    exact ⟨books.next, books.sameKeys, books.waiting, books.once, books.known,
      books.settled⟩

theorem stop_bookkeeping (books : Bookkeeping node) : Bookkeeping (stop node) where
  next := books.next
  sameKeys := fun _ => Iff.rfl
  waiting := fun _ _ found => by cases found
  once := books.once
  known := books.known
  settled := by
    intro callback small
    rcases books.settled callback small with called | gone | waits
    · exact Or.inl called
    · exact Or.inr (Or.inl (List.mem_append_left _ gone))
    · refine Or.inr (Or.inl (List.mem_append_right _ ?_))
      exact List.mem_map_of_mem (AList.mem_lookup_iff.mp waits)

def Event.isQuery : Event → Bool
  | .query _ _ => true
  | _ => false

theorem step_bookkeeping (event : Event) (books : Bookkeeping node)
    (fits : event.isQuery = true → node.queries < 2 ^ 64) :
    Bookkeeping (step event node) := by
  cases event with
  | addBootstrapNode endpoint =>
      exact ⟨books.next, books.sameKeys, books.waiting, books.once, books.known,
        books.settled⟩
  | start resolves => exact start_bookkeeping resolves books
  | query now query => exact sendQuery_bookkeeping now query books (fits rfl)
  | handler handler => exact handle_bookkeeping handler books
  | stop => exact stop_bookkeeping books

@[simp]
theorem completeRequest_queries (transactionId : ByteString)
    (completion : Completion) (node : MainlineDhtNode) :
    (completeRequest transactionId completion node).queries = node.queries := by
  unfold completeRequest
  rcases takePendingRequest_cases transactionId node with
    ⟨-, taken⟩ | ⟨callback, -, taken⟩ <;> rw [taken]

theorem handle_queries (handler : Handler) (node : MainlineDhtNode) :
    (handle handler node).queries = node.queries := by
  cases handler with
  | sent transactionId failed =>
      change (sendCompleted transactionId failed node).queries = _
      unfold sendCompleted
      split <;> simp
  | received message throws =>
      change (receiveMessage message throws node).queries = _
      unfold receiveMessage
      split
      · rfl
      split
      · split <;> rfl
      · simp
  | expired transactionId aborted =>
      change (timerExpired transactionId aborted node).queries = _
      unfold timerExpired
      split <;> simp

theorem sendQuery_queries (now : Nat) (query : KrpcQuery)
    (node : MainlineDhtNode) :
    (sendQuery now query node).queries = node.queries + 1 := by
  unfold sendQuery
  dsimp only
  split
  · rw [sendCompleted, if_pos rfl, completeRequest_queries]
    rfl
  · rfl

theorem sendBootstrapQueries_queries (resolves : ByteString → Bool)
    (bootstraps : List ByteString) (index : Nat) (node : MainlineDhtNode) :
    (sendBootstrapQueries resolves index bootstraps node).queries =
      node.queries := by
  induction bootstraps generalizing index node with
  | nil => rfl
  | cons bootstrap bootstraps induction =>
      unfold sendBootstrapQueries
      split
      · rfl
      · rw [induction]

theorem step_queries (event : Event) (node : MainlineDhtNode) :
    (step event node).queries =
      node.queries + if event.isQuery then 1 else 0 := by
  cases event with
  | addBootstrapNode endpoint => rfl
  | start resolves =>
      change (start resolves node).queries = node.queries
      unfold start
      split
      · rfl
      · rw [sendBootstrapQueries_queries]
  | query now query => exact sendQuery_queries now query node
  | handler handler => exact handle_queries handler node
  | stop => rfl

theorem run_bookkeeping (events : List Event) (books : Bookkeeping node)
    (fits : node.queries + events.countP Event.isQuery ≤ 2 ^ 64) :
    Bookkeeping (run step events node) := by
  induction events generalizing node with
  | nil => exact books
  | cons event events induction =>
      rw [List.countP_cons] at fits
      apply induction
      · apply step_bookkeeping event books
        intro isQuery
        rw [if_pos isQuery] at fits
        omega
      · rw [step_queries]
        omega

/-- After every run with at most `2 ^ 64` queries the tables have the same keys,
no callback was invoked twice, and every callback that was neither invoked nor
dropped by a stop waits with its timer. -/
theorem run_accounts_for_requests (events : List Event)
    (fits : events.countP Event.isQuery ≤ 2 ^ 64) :
    let reached := run step events {}
    (∀ transactionId, transactionId ∈ reached.pendingRequests ↔
      transactionId ∈ reached.pendingRequestTimers) ∧
    reached.called.Nodup ∧
    ∀ callback < reached.queries, callback ∉ reached.called →
      callback ∉ reached.dropped →
        ∃ transactionId,
          reached.pendingRequests.lookup transactionId = some callback ∧
            transactionId ∈ reached.pendingRequestTimers := by
  intro reached
  have books : Bookkeeping reached := by
    apply run_bookkeeping events bookkeeping_empty
    rwa [Nat.zero_add]
  refine ⟨books.sameKeys, books.once, ?_⟩
  intro callback small notCalled notDropped
  rcases books.settled callback small with called | gone | waits
  · exact (notCalled called).elim
  · exact (notDropped gone).elim
  · exact ⟨_, waits, (books.sameKeys _).mp (mem_of_tableLookup waits)⟩

/-- Two queries; the response to the first comes twice, and the timer of the
first expires although it was cancelled. -/
def crossedHandlers : List Event :=
  [.query 0 { method := ascii "ping" }, .query 5 { method := ascii "ping" },
    .handler (.received
      { transactionId := ascii "q0", payload := .response {} } false),
    .handler (.expired (ascii "q0") false),
    .handler (.received
      { transactionId := ascii "q0", payload := .response {} } false)]

theorem run_accounts_for_crossedHandlers :
    let reached := run step crossedHandlers {}
    (∀ transactionId, transactionId ∈ reached.pendingRequests ↔
      transactionId ∈ reached.pendingRequestTimers) ∧
    reached.called.Nodup ∧
    ∀ callback < reached.queries, callback ∉ reached.called →
      callback ∉ reached.dropped →
        ∃ transactionId,
          reached.pendingRequests.lookup transactionId = some callback ∧
            transactionId ∈ reached.pendingRequestTimers :=
  run_accounts_for_requests crossedHandlers
    (Nat.le_trans List.countP_le_length (by decide))

end Kademlia

end Blocxxi
