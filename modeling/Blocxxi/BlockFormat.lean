import Blocxxi.MerkleRoots
import Blocxxi.SignetWire

/-!
# Blocks and their bytes

A block is a header of 80 bytes and a list of transactions.  A transaction with
witnesses has a zero marker and a flag in front of its inputs, and one stack of
items for each input behind its outputs; its identifier is the hash of the bytes
without them.
-/

namespace Blocxxi

namespace Bitcoin

open Cxx ByteText

structure TxInput where
  previousHash : Hash256
  previousIndex : UInt32
  script : ByteString
  sequence : UInt32

structure TxOutput where
  value : UInt64
  script : ByteString

/-- One stack of items for each input, announced by a flag. -/
structure Witness (inputCount : Nat) where
  flag : UInt8
  perInput : List (List ByteString)
  flag_ne : flag ≠ 0
  perInput_length : perInput.length = inputCount

/-- Without a witness the first byte behind the version must not look like a
marker with a flag. -/
structure WireTransaction where
  version : UInt32
  inputs : List TxInput
  outputs : List TxOutput
  witness : Option (Witness inputs.length)
  lockTime : UInt32
  plain : witness = none → inputs ≠ [] ∨ outputs = []

structure WireBlock where
  header : ByteString
  header_length : header.length = 80
  transactions : List WireTransaction
  nonempty : transactions ≠ []

/-- A count and the bytes of so many items. -/
def countedBytes {Item : Type} (spell : Item → ByteString) (items : List Item) :
    ByteString :=
  compactSizeBytes (UInt64.ofNat items.length) ++ items.flatMap spell

def scriptBytes (script : ByteString) : ByteString :=
  compactSizeBytes (UInt64.ofNat script.length) ++ script

def TxInput.bytes (input : TxInput) : ByteString :=
  (input.previousHash.bytes ++ littleEndianBytes input.previousIndex.toUInt64 4) ++
    (scriptBytes input.script ++ littleEndianBytes input.sequence.toUInt64 4)

def TxOutput.bytes (output : TxOutput) : ByteString :=
  littleEndianBytes output.value 8 ++ scriptBytes output.script

namespace WireTransaction

variable (transaction : WireTransaction)

def versionBytes : ByteString :=
  littleEndianBytes transaction.version.toUInt64 4

def markerBytes : ByteString :=
  match transaction.witness with
  | none => []
  | some witness => [0, witness.flag]

def inputBytes : ByteString :=
  countedBytes TxInput.bytes transaction.inputs

def outputBytes : ByteString :=
  countedBytes TxOutput.bytes transaction.outputs

def witnessBytes : ByteString :=
  match transaction.witness with
  | none => []
  | some witness => witness.perInput.flatMap (countedBytes scriptBytes)

def lockTimeBytes : ByteString :=
  littleEndianBytes transaction.lockTime.toUInt64 4

def bytes : ByteString :=
  transaction.versionBytes ++ (transaction.markerBytes ++
    (transaction.inputBytes ++ (transaction.outputBytes ++
      (transaction.witnessBytes ++ transaction.lockTimeBytes))))

/-- The bytes without marker, flag and witness. -/
def strippedBytes : ByteString :=
  transaction.versionBytes ++ transaction.inputBytes ++
    transaction.outputBytes ++ transaction.lockTimeBytes

/-- The sum of the values of the outputs. -/
def outputTotal : Nat :=
  (transaction.outputs.map fun output => output.value.toNat).sum

end WireTransaction

namespace WireBlock

variable (doubleSha256 : ByteString → Hash256) (block : WireBlock)

def bytes : ByteString :=
  block.header ++ countedBytes WireTransaction.bytes block.transactions

/-- Some bytes of the header. -/
def headerBytes (offset width : Nat) : ByteString :=
  (block.header.drop offset).take width

/-- The hashes that the Merkle tree is built from. -/
def hashes : List Hash256 :=
  block.transactions.map fun transaction => doubleSha256 transaction.strippedBytes

/-- What there is to tell about a block. -/
def metadata : BlockMetadata where
  blockHashHex := shownHash (doubleSha256 block.header)
  previousHashHex := wireHashToHex (block.headerBytes 4 32)
  merkleRootHex := wireHashToHex (block.headerBytes 36 32)
  version := UInt32.ofNat (littleEndian (block.headerBytes 0 4))
  timestamp := UInt32.ofNat (littleEndian (block.headerBytes 68 4))
  nonce := UInt32.ofNat (littleEndian (block.headerBytes 76 4))
  transactionCount := UInt64.ofNat block.transactions.length
  totalOutputValue :=
    UInt64.ofNat (block.transactions.map WireTransaction.outputTotal).sum
  merkleRootMatches :=
    merkleRoot doubleSha256 (block.hashes doubleSha256) =
      some (block.headerBytes 36 32)
  transactionSizes :=
    block.transactions.map fun transaction => transaction.bytes.length
  transactionVersions := block.transactions.map WireTransaction.version
  transactionInputCounts := block.transactions.map fun transaction =>
    UInt64.ofNat transaction.inputs.length
  transactionOutputCounts := block.transactions.map fun transaction =>
    UInt64.ofNat transaction.outputs.length
  transactionOutputValues := block.transactions.map fun transaction =>
    UInt64.ofNat transaction.outputTotal
  transactionHasWitness := block.transactions.map fun transaction =>
    transaction.witness.isSome
  transactionIds := (block.hashes doubleSha256).map shownHash
  transactionWitnessIds := block.transactions.map fun transaction =>
    shownHash (doubleSha256 transaction.bytes)

end WireBlock

end Bitcoin

end Blocxxi
