import Blocxxi.CryptoHash

/-!
# Core primitives

Transactions, blocks and chain snapshots, with the identifiers derived from
their contents.  A clock reading is an argument of every function that takes
one, so that two runs can be compared at the same readings.
-/

namespace Blocxxi

namespace Core

open Cxx

inductive StatusCode
  | ok
  | invalidArgument
  | duplicate
  | notFound
  | storageError
  | rejected
  | unsupported
  | ioError
  deriving DecidableEq, Repr

structure Status where
  code : StatusCode := .ok
  message : String := ""
  deriving DecidableEq, Repr

namespace Status

def isOk (status : Status) : Bool :=
  status.code == .ok

def success (message : String) : Status where
  code := .ok
  message := message

def failure (code : StatusCode) (message : String) : Status where
  code := code
  message := message

@[simp]
theorem isOk_success (message : String) : (success message).isOk = true :=
  rfl

@[simp]
theorem isOk_failure (code : StatusCode) (message : String) :
    (failure code message).isOk = decide (code = .ok) := by
  cases code <;> rfl

end Status

abbrev BlockId := Hash256
abbrev TransactionId := Hash256
abbrev Height := UInt64

structure ChainConfig where
  chainId : ByteString := ascii "blocxxi.local"
  displayName : ByteString := ascii "Blocxxi Local Chain"
  dataDirectory : ByteString := []
  createGenesis : Bool := true
  genesisPayload : ByteString := ascii "blocxxi:genesis"
  deriving DecidableEq

structure Transaction where
  id : TransactionId := Hash.zero
  type : ByteString := ascii "message"
  payload : ByteString := []
  metadata : ByteString := []
  deriving DecidableEq

structure BlockHeader where
  id : BlockId := Hash.zero
  previousId : BlockId := Hash.zero
  height : Height := 0
  timestampUtc : Int64 := 0
  source : ByteString := ascii "local"
  deriving DecidableEq

structure Block where
  header : BlockHeader := {}
  transactions : List Transaction := []
  deriving DecidableEq

structure ChainSnapshot where
  height : Height := 0
  headId : BlockId := Hash.zero
  blockCount : UInt64 := 0
  acceptedTransactions : UInt64 := 0
  bootstrapped : Bool := false
  deriving DecidableEq

inductive EventType
  | nodeStarting
  | nodeStarted
  | nodeStopped
  | transactionAccepted
  | blockCommitted
  | discoveryAttached
  | adapterAttached
  | serviceRegistered
  | serviceStarted
  | serviceCompleted
  | serviceFailed
  deriving DecidableEq, Repr

structure ChainEvent where
  type : EventType := .nodeStarted
  message : ByteString := []
  snapshot : ChainSnapshot := {}
  transaction : Option Transaction := none
  block : Option Block := none
  deriving DecidableEq

def fnvOffset : UInt64 := 1469598103934665603
def fnvPrime : UInt64 := 1099511628211

/-- One 64-bit lane of an identifier. -/
def stableHash (seed : ByteString) (lane : UInt64) : UInt64 :=
  let value := fnvOffset ^^^ (lane + 0x9e3779b97f4a7c15)
  let value := seed.foldl
    (fun value byte => (value ^^^ byte.toUInt64) * fnvPrime) value
  (value ^^^ lane) * fnvPrime

/-- The bytes of a lane, most significant first. -/
def laneBytes (value : UInt64) : ByteString :=
  (List.range 8).map fun offset =>
    ((value >>> UInt64.ofNat ((7 - offset) * 8)) &&& 0xFF).toUInt8

def makeId (seed : ByteString) : Hash256 where
  bytes := (List.range 4).flatMap fun lane =>
    laneBytes (stableHash seed (UInt64.ofNat lane))
  size_eq := by simp [laneBytes, List.range_succ]

namespace Transaction

def fromText (type payload metadata : ByteString) : Transaction where
  id := makeId (type ++ ascii "|" ++ payload ++ ascii "|" ++ metadata)
  type := type
  payload := payload
  metadata := metadata

end Transaction

namespace Block

def makeNext (previousId : BlockId) (height : Height)
    (transactions : List Transaction) (source : ByteString) (now : Int64) :
    Block :=
  let seed := previousId.toHex ++ ascii "|" ++
    ByteText.decimal height.toNat ++ ascii "|" ++ source ++
      transactions.flatMap fun transaction => ascii "|" ++ transaction.id.toHex
  { header :=
      { id := makeId seed
        previousId := previousId
        height := height
        timestampUtc := now
        source := source }
    transactions := transactions }

end Block

end Core

end Blocxxi
