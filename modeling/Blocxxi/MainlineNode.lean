import Blocxxi.Krpc
import Mathlib.Data.List.AList

/-!
# The request tables of a DHT node

A query is known by its transaction identifier until it is answered, fails or
times out.  Two tables are kept under these identifiers: the callbacks that
wait, and their timers.  Handlers run one after the other, in any order: a
response, the completion of a send or the expiry of a timer may come late or
again, and a timer's handler that was queued runs although the timer is gone.
A callback is known by the number of the query it was passed with; the node
keeps a trace of the callbacks that were invoked, and of those that were
dropped when it stopped.
-/

namespace Blocxxi

namespace Kademlia

open Cxx Bencode ByteText

/-- What a callback is told. -/
inductive Completion
  | timedOut
  | sendFailed
  | answered (message : KrpcMessage)

/-- A timer with the time at which it expires, in milliseconds. -/
structure Timer where
  expiresAt : Nat

structure MainlineDhtNode where
  started : Bool := false
  nextRequestId : UInt64 := 0
  bootstrapNodes : List ByteString := []
  pendingBootstraps : AList fun _ : ByteString => ByteString := ∅
  pendingRequests : AList fun _ : ByteString => Nat := ∅
  pendingRequestTimers : AList fun _ : ByteString => Timer := ∅
  queries : Nat := 0
  invoked : List (Nat × Completion) := []
  dropped : List Nat := []

/-- `std::unordered_map::emplace`: a key that is present keeps its value. -/
def tableEmplace {Value : Type} (key : ByteString) (value : Value)
    (table : AList fun _ : ByteString => Value) :
    AList fun _ : ByteString => Value :=
  if key ∈ table then table else table.insert key value

section Tables

variable {Value : Type} {table : AList fun _ : ByteString => Value}
  {key other : ByteString} {value found : Value}

theorem tableLookup_of_mem (member : key ∈ table) :
    ∃ value, table.lookup key = some value :=
  Option.isSome_iff_exists.mp (AList.lookup_isSome.mpr member)

theorem mem_of_tableLookup (isFound : table.lookup key = some value) : key ∈ table :=
  AList.lookup_isSome.mp (Option.isSome_of_mem isFound)

/-- What is found after an erasure is an other entry. -/
theorem tableLookup_of_erase (isFound : (table.erase key).lookup other = some found) :
    other ≠ key ∧ table.lookup other = some found := by
  have differs : other ≠ key := by
    rintro rfl
    rw [AList.lookup_erase] at isFound
    cases isFound
  rw [AList.lookup_erase_ne differs] at isFound
  exact ⟨differs, isFound⟩

/-- What is found after an insertion is the new entry or an other one. -/
theorem tableLookup_of_insert
    (isFound : (table.insert key value).lookup other = some found) :
    (other = key ∧ found = value) ∨
      (other ≠ key ∧ table.lookup other = some found) := by
  by_cases same : other = key
  · subst same
    rw [AList.lookup_insert] at isFound
    exact Or.inl ⟨rfl, (Option.some.inj isFound).symm⟩
  · rw [AList.lookup_insert_ne same] at isFound
    exact Or.inr ⟨same, isFound⟩

end Tables

/-- `REQUEST_TIMEOUT`, in milliseconds. -/
def requestTimeout : Nat := 2000

/-- The largest datagram that is sent. -/
def safePayloadSize : Nat := 1452

/-- Take the callback of a transaction out of both tables.  A timer that leaves
its table is cancelled, whether or not its handler is queued already. -/
def takePendingRequest (transactionId : ByteString) (node : MainlineDhtNode) :
    Option Nat × MainlineDhtNode :=
  match node.pendingRequests.lookup transactionId with
  | none =>
      (none, { node with
        pendingRequestTimers := node.pendingRequestTimers.erase transactionId })
  | some callback =>
      (some callback, { node with
        pendingRequests := node.pendingRequests.erase transactionId
        pendingRequestTimers := node.pendingRequestTimers.erase transactionId })

/-- Take a callback and invoke it. -/
def completeRequest (transactionId : ByteString) (completion : Completion)
    (node : MainlineDhtNode) : MainlineDhtNode :=
  match takePendingRequest transactionId node with
  | (none, node) => node
  | (some callback, node) =>
      { node with invoked := node.invoked ++ [(callback, completion)] }

theorem takePendingRequest_cases (transactionId : ByteString)
    (node : MainlineDhtNode) :
    (node.pendingRequests.lookup transactionId = none ∧
      takePendingRequest transactionId node = (none, { node with
        pendingRequestTimers :=
          node.pendingRequestTimers.erase transactionId })) ∨
    ∃ callback, node.pendingRequests.lookup transactionId = some callback ∧
      takePendingRequest transactionId node = (some callback, { node with
        pendingRequests := node.pendingRequests.erase transactionId
        pendingRequestTimers :=
          node.pendingRequestTimers.erase transactionId }) := by
  unfold takePendingRequest
  cases node.pendingRequests.lookup transactionId with
  | none => exact Or.inl ⟨rfl, rfl⟩
  | some callback => exact Or.inr ⟨callback, rfl, rfl⟩

def nextTransactionId (number : UInt64) : ByteString :=
  ascii "q" ++ decimal number.toNat

/-- The message that carries a query. -/
def queryMessage (transactionId : ByteString) (query : KrpcQuery) :
    KrpcMessage where
  transactionId := transactionId
  version := some (ascii "BX01")
  payload := .query query

/-- The handler of a send: a failure completes the request. -/
def sendCompleted (transactionId : ByteString) (failed : Bool)
    (node : MainlineDhtNode) : MainlineDhtNode :=
  if failed then completeRequest transactionId .sendFailed node else node

/-- The tables with one more query in them. -/
def registerQuery (now : Nat) (node : MainlineDhtNode) : MainlineDhtNode :=
  let transactionId := nextTransactionId node.nextRequestId
  { node with
    nextRequestId := node.nextRequestId + 1
    pendingRequests :=
      tableEmplace transactionId node.queries node.pendingRequests
    pendingRequestTimers :=
      tableEmplace transactionId ⟨now + requestTimeout⟩
        node.pendingRequestTimers
    queries := node.queries + 1 }

/-- A message that is too large fails before the call returns; any other is on
its way, and its send completes later. -/
def sendQuery (now : Nat) (query : KrpcQuery) (node : MainlineDhtNode) :
    MainlineDhtNode :=
  let transactionId := nextTransactionId node.nextRequestId
  let node := registerQuery now node
  let encoded := encodeKrpc (queryMessage transactionId query)
  if safePayloadSize < encoded.length then
    sendCompleted transactionId true node
  else node

/-- The handler of a timer. -/
def timerExpired (transactionId : ByteString) (aborted : Bool)
    (node : MainlineDhtNode) : MainlineDhtNode :=
  if aborted then node else completeRequest transactionId .timedOut node

/-- The handler of a datagram.  A query is answered, which leaves these tables
alone; a response or an error is for a bootstrap node or for a request.  The
entry of a bootstrap node stays when the application's callback throws. -/
def receiveMessage (message : KrpcMessage) (throws : Bool)
    (node : MainlineDhtNode) : MainlineDhtNode :=
  match message.payload with
  | .query _ => node
  | _ =>
      if message.transactionId ∈ node.pendingBootstraps then
        if throws then node
        else
          { node with
            pendingBootstraps :=
              node.pendingBootstraps.erase message.transactionId }
      else completeRequest message.transactionId (.answered message) node

/-- The queries to the bootstrap nodes, whose identifiers repeat after ten.  A
text without a separator or without an endpoint throws, which ends the loop. -/
def sendBootstrapQueries (resolves : ByteString → Bool) :
    Nat → List ByteString → MainlineDhtNode → MainlineDhtNode
  | _, [], node => node
  | index, bootstrap :: rest, node =>
      if 58 ∉ bootstrap ∨ ¬ resolves bootstrap then node
      else
        sendBootstrapQueries resolves (index + 1) rest
          { node with
            pendingBootstraps :=
              tableEmplace [98, UInt8.ofNat (48 + index % 10)] bootstrap
                node.pendingBootstraps }

def start (resolves : ByteString → Bool) (node : MainlineDhtNode) :
    MainlineDhtNode :=
  if node.started then node
  else
    sendBootstrapQueries resolves 0 node.bootstrapNodes
      { node with started := true }

def stop (node : MainlineDhtNode) : MainlineDhtNode :=
  { node with
    started := false
    pendingRequests := ∅
    pendingRequestTimers := ∅
    dropped := node.dropped ++
      node.pendingRequests.entries.map fun entry => entry.2 }

/-- A handler that the event loop runs. -/
inductive Handler
  | sent (transactionId : ByteString) (failed : Bool)
  | received (message : KrpcMessage) (throws : Bool)
  | expired (transactionId : ByteString) (aborted : Bool)

def handle : Handler → MainlineDhtNode → MainlineDhtNode
  | .sent transactionId failed => sendCompleted transactionId failed
  | .received message throws => receiveMessage message throws
  | .expired transactionId aborted => timerExpired transactionId aborted

/-- What happens to a node: a call of one of its functions, or a handler. -/
inductive Event
  | addBootstrapNode (endpoint : ByteString)
  | start (resolves : ByteString → Bool)
  | query (now : Nat) (query : KrpcQuery)
  | handler (handler : Handler)
  | stop

def step : Event → MainlineDhtNode → MainlineDhtNode
  | .addBootstrapNode endpoint => fun node =>
      { node with bootstrapNodes := node.bootstrapNodes ++ [endpoint] }
  | .start resolves => Kademlia.start resolves
  | .query now query => sendQuery now query
  | .handler handler => handle handler
  | .stop => Kademlia.stop

end Kademlia

end Blocxxi
