import Blocxxi.HeaderSync
import Blocxxi.JsonScanner

/-!
# Polling a Bitcoin Core node

A poll makes seven calls, one after the other, and puts what it reads from the
answers into one batch.  The first call that fails, and the first answer that
cannot be read, ends it.  The transport is what the adapter is given; the world
behind it may change from call to call.
-/

namespace Blocxxi

namespace Bitcoin

open Blocxxi.Core Cxx ByteText

/-- `RpcTransport::Call`: the status of the call, and the text of the answer. -/
abbrev RpcTransport (World : Type) :=
  ByteString → ByteString → World → (Status × ByteString) × World

/-- A part of a poll: it ends the poll with a status, or gives a result. -/
def Polling (World Result : Type) := World → Except Status Result × World

section Calls

variable {World First Second Result : Type}

/-- Go on with the result, unless the poll has ended. -/
def Polling.andThen (polling : Polling World First)
    (next : First → Polling World Second) : Polling World Second := fun world =>
  match polling world with
  | (.error status, world) => (.error status, world)
  | (.ok result, world) => next result world

instance : Monad (Polling World) where
  pure result := fun world => (.ok result, world)
  bind := Polling.andThen

/-- The result that was read, or a failure with a message. -/
def orReject (found : Option Result) (message : String) : Polling World Result :=
  fun world =>
    match found with
    | none => (.error (.failure .rejected message), world)
    | some result => (.ok result, world)

def call (transport : RpcTransport World) (method params : ByteString) :
    Polling World ByteString := fun world =>
  let ((status, response), world) := transport method params world
  if !status.isOk then (.error status, world) else (.ok response, world)

/-- Call a method, and read the answer. -/
def ask (transport : RpcTransport World) (method params : ByteString)
    (read : ByteString → Option Result) (message : String) :
    Polling World Result := do
  let response ← call transport method params
  orReject (read response) message

end Calls

/-- What the adapter does with `double`s: the constant zero, reading a text with
a `stringstream`, and `ToSatoshis`. -/
structure DoubleArithmetic (Double : Type) where
  zero : Double
  read : ByteString → Option Double
  toSatoshis : Double → UInt64

structure BitcoinCoreRpcConfig where
  network : Network := .mainnet
  maxMempoolTransactions : Nat := 64

structure TransactionObservation (Double : Type) where
  txid : ByteString
  baseFeeBtc : Double
  vsize : UInt64
  weight : UInt64

structure BlockObservation where
  height : UInt64
  blockHashHex : ByteString
  transactionCount : UInt64
  totalFeeSatoshis : UInt64
  deriving DecidableEq

structure NetworkHealthObservation (Double : Type) where
  connectionCount : UInt64
  mempoolTransactionCount : UInt64
  mempoolBytes : UInt64
  relayFeeBtc : Double
  initialBlockDownload : Bool
  warning : ByteString

structure ObservationBatch (Double : Type) where
  sourceName : ByteString := []
  network : Network := .mainnet
  observedAtUtc : Int64 := 0
  mempoolTransactions : List (TransactionObservation Double) := []
  latestBlock : Option BlockObservation := none
  networkHealth : Option (NetworkHealthObservation Double) := none

section Polls

variable {World Double : Type} (doubles : DoubleArithmetic Double)

def parseDouble (raw : ByteString) : Option Double := doubles.read (trim raw)

/-- A number in an object; a missing or unreadable one counts as zero. -/
def integerMember (object key : ByteString) : UInt64 :=
  (parseInteger ((findObjectValue object key).getD (ascii "0"))).getD 0

def doubleMember (object key : ByteString) : Double :=
  (parseDouble doubles ((findObjectValue object key).getD (ascii "0"))).getD
    doubles.zero

/-- The fee in the entry of a mempool transaction. -/
def baseFee (entry : ByteString) : Double :=
  (((findObjectValue entry (ascii "fees")).bind fun fees =>
    findObjectValue fees (ascii "base")).bind (parseDouble doubles)).getD
      doubles.zero

def observeTransaction (txid : Option ByteString) (entry : ByteString) :
    TransactionObservation Double where
  txid := txid.getD []
  baseFeeBtc := baseFee doubles entry
  vsize := integerMember entry (ascii "vsize")
  weight := integerMember entry (ascii "weight")

/-- The loop over the entries, up to the limit. -/
def mempoolEntries (raw : ByteString) (limit : Nat) :
    Nat → Nat → List (TransactionObservation Double) →
      Option (List (TransactionObservation Double))
  | 0, _, observations => some observations
  | passes + 1, position, observations =>
      if raw.length ≤ position + 1 ∨ limit ≤ observations.length then
        some observations
      else
        let position := skipWhitespace raw position
        if AtEnd raw position then some observations
        else
          match readMember raw position with
          | none => none
          | some (txid, entry, next) =>
              mempoolEntries raw limit passes next
                (observations ++ [observeTransaction doubles txid entry])

def parseMempoolTransactions (raw : ByteString) (limit : Nat) :
    Option (List (TransactionObservation Double)) :=
  let raw := trim raw
  if ¬ isObject raw then none
  else mempoolEntries doubles raw limit raw.length 1 []

def observeNetwork (mempoolInfo networkInfo blockchainInfo : ByteString) :
    NetworkHealthObservation Double where
  connectionCount := integerMember networkInfo (ascii "connections")
  mempoolTransactionCount := integerMember mempoolInfo (ascii "size")
  mempoolBytes := integerMember mempoolInfo (ascii "bytes")
  relayFeeBtc := doubleMember doubles networkInfo (ascii "relayfee")
  initialBlockDownload :=
    (parseBool ((findObjectValue blockchainInfo
      (ascii "initialblockdownload")).getD (ascii "false"))).getD false
  warning :=
    (parseString ((findObjectValue networkInfo (ascii "warnings")).getD
      (ascii "\"\""))).getD []

def observeBlock (blockCount : UInt64) (bestHash blockStats : ByteString) :
    BlockObservation where
  height := blockCount
  blockHashHex := bestHash
  transactionCount := integerMember blockStats (ascii "txs")
  totalFeeSatoshis :=
    doubles.toSatoshis (doubleMember doubles blockStats (ascii "totalfee"))

def blockStatsParams (blockCount : UInt64) : ByteString :=
  ascii "[" ++ decimal blockCount.toNat ++ ascii ", [\"txs\", \"totalfee\"]]"

/-- The calls of a poll, and the batch that is filled with the answers. -/
def observe (config : BitcoinCoreRpcConfig) (transport : RpcTransport World)
    (batch : ObservationBatch Double) : Polling World (ObservationBatch Double) := do
  let blockCount ← ask transport (ascii "getblockcount") (ascii "[]")
    (parseResult · parseInteger) "failed to parse getblockcount result"
  let bestHash ← ask transport (ascii "getbestblockhash") (ascii "[]")
    (parseResult · parseString) "failed to parse getbestblockhash result"
  let mempoolInfo ← ask transport (ascii "getmempoolinfo") (ascii "[]")
    extractResultValue "failed to parse getmempoolinfo result"
  let networkInfo ← ask transport (ascii "getnetworkinfo") (ascii "[]")
    extractResultValue "failed to parse getnetworkinfo result"
  let blockchainInfo ← ask transport (ascii "getblockchaininfo") (ascii "[]")
    extractResultValue "failed to parse getblockchaininfo result"
  let mempoolEntries ← ask transport (ascii "getrawmempool") (ascii "[true]")
    extractResultValue "failed to parse getrawmempool result"
  let parsedEntries ← orReject
    (parseMempoolTransactions doubles mempoolEntries config.maxMempoolTransactions)
    "failed to parse verbose mempool entries"
  let blockStats ← ask transport (ascii "getblockstats")
    (blockStatsParams blockCount) extractResultValue
    "failed to parse getblockstats result"
  return { batch with
    latestBlock := some (observeBlock doubles blockCount bestHash blockStats)
    networkHealth :=
      some (observeNetwork doubles mempoolInfo networkInfo blockchainInfo)
    mempoolTransactions := parsedEntries }

/-- The batch before anything is observed. -/
def newBatch (config : BitcoinCoreRpcConfig) (now : Int64) :
    ObservationBatch Double where
  sourceName := ascii "bitcoin.core-rpc"
  network := config.network
  observedAtUtc := now

/-- `BitcoinCoreRpcAdapter::Poll`.  The constructor of the adapter sees to it
that there is a transport. -/
def poll (config : BitcoinCoreRpcConfig) (transport : RpcTransport World)
    (now : Int64) (world : World) : (Status × ObservationBatch Double) × World :=
  let batch := newBatch config now
  match observe doubles config transport batch world with
  | (.error status, world) => ((status, batch), world)
  | (.ok batch, world) => ((.success "", batch), world)

end Polls

section Success

variable {World First Second Result Double : Type}

/-- An answer is a success, and its text is read as a result. -/
def Answers (answer : Status × ByteString) (read : ByteString → Option Result)
    (result : Result) : Prop :=
  answer.1.isOk = true ∧ read answer.2 = some result

theorem bind_eq_ok {polling : Polling World First}
    {next : First → Polling World Second} {world after : World} {result : Second} :
    (polling >>= next) world = (.ok result, after) ↔
      ∃ first between, polling world = (.ok first, between) ∧
        next first between = (.ok result, after) := by
  change Polling.andThen polling next world = _ ↔ _
  unfold Polling.andThen
  rcases polling world with ⟨status | first, between⟩
  · simp
  · simp

theorem orReject_eq_ok {found : Option Result} {message : String}
    {world after : World} {result : Result} :
    orReject found message world = (.ok result, after) ↔
      found = some result ∧ world = after := by
  cases found <;> simp [orReject]

theorem ask_eq_ok {transport : RpcTransport World} {method params : ByteString}
    {read : ByteString → Option Result} {message : String} {world after : World}
    {result : Result} :
    ask transport method params read message world = (.ok result, after) ↔
      Answers (transport method params world).1 read result ∧
        (transport method params world).2 = after := by
  unfold ask
  rw [bind_eq_ok]
  simp only [orReject_eq_ok, call, Answers]
  rcases transport method params world with ⟨⟨status, response⟩, between⟩
  cases status.isOk <;> simp [and_comm]

/-- A part of a poll ends it only with a failure. -/
def EndsWithFailure (polling : Polling World Result) : Prop :=
  ∀ world status after, polling world = (.error status, after) →
    status.isOk = false

theorem endsWithFailure_bind {polling : Polling World First}
    {next : First → Polling World Second} (first : EndsWithFailure polling)
    (second : ∀ result, EndsWithFailure (next result)) :
    EndsWithFailure (polling >>= next) := by
  intro world status after ended
  change Polling.andThen polling next world = _ at ended
  unfold Polling.andThen at ended
  rcases polled : polling world with ⟨(failure | result), between⟩
  · rw [polled] at ended
    cases ended
    exact first world _ _ polled
  · rw [polled] at ended
    exact second result _ _ _ ended

theorem endsWithFailure_orReject (found : Option Result) (message : String) :
    EndsWithFailure (orReject found message : Polling World Result) := by
  intro world status after ended
  cases found with
  | none =>
      cases ended
      rfl
  | some result => cases ended

theorem endsWithFailure_ask (transport : RpcTransport World)
    (method params : ByteString) (read : ByteString → Option Result)
    (message : String) : EndsWithFailure (ask transport method params read message) := by
  refine endsWithFailure_bind ?_ fun response => endsWithFailure_orReject _ _
  intro world status after ended
  unfold call at ended
  rcases transport method params world with ⟨⟨returned, response⟩, between⟩
  dsimp only at ended
  split at ended
  · next failed =>
      cases ended
      simpa using failed
  · cases ended

theorem endsWithFailure_observe (doubles : DoubleArithmetic Double)
    (config : BitcoinCoreRpcConfig) (transport : RpcTransport World)
    (batch : ObservationBatch Double) :
    EndsWithFailure (observe doubles config transport batch) := by
  unfold observe
  repeat' first
    | exact endsWithFailure_ask _ _ _ _ _
    | exact endsWithFailure_orReject _ _
    | refine endsWithFailure_bind ?_ fun result => ?_
  nofun

/-- A poll fails if one of its parts does, or else returns what was observed. -/
theorem poll_cases (doubles : DoubleArithmetic Double)
    (config : BitcoinCoreRpcConfig) (transport : RpcTransport World) (now : Int64)
    (world : World) :
    (∃ status after, observe doubles config transport (newBatch config now) world =
          (.error status, after) ∧
        (poll doubles config transport now world).1.1.isOk = false) ∨
      ∃ observed after, observe doubles config transport (newBatch config now) world =
          (.ok observed, after) ∧
        poll doubles config transport now world =
          ((.success "", observed), after) := by
  unfold poll
  dsimp only
  rcases ended : observe doubles config transport (newBatch config now) world with
    ⟨(status | observed), after⟩
  · exact .inl ⟨status, after, rfl,
      endsWithFailure_observe doubles config transport _ _ _ _ ended⟩
  · exact .inr ⟨observed, after, rfl, rfl⟩

end Success

end Bitcoin

end Blocxxi
