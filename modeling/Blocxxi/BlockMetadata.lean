import Blocxxi.BitcoinBytes
import Blocxxi.CryptoHash
import Blocxxi.CursorReader

/-!
# Reading a block

A block payload is an 80-byte header, a count of transactions and the
transactions.  The parser reads it with one cursor through four nested loops,
whose counts and script lengths come from the payload.  Each reader is written
once for any addition of cursors, so the parser on the machine and the parser
that the format means are two runs of one definition.
-/

namespace Blocxxi

namespace Bitcoin

open Cxx ByteText CursorReader CursorReader.Reader

/-- A layer with an odd number of nodes repeats its last one. -/
def padLayer (layer : List ByteString) : List ByteString :=
  if layer.length % 2 ≠ 0 then layer ++ layer.getLast?.toList else layer

section Hashing

variable (doubleSha256 : ByteString → Hash256)

def hashPairs : List ByteString → List ByteString
  | first :: second :: rest =>
      (doubleSha256 (first ++ second)).bytes :: hashPairs rest
  | _ => []

/-- The layers above, up to the one with a single node. -/
def collapseLayers : Nat → List ByteString → List ByteString
  | 0, layer => layer
  | fuel + 1, layer =>
      if layer.length ≤ 1 then layer
      else collapseLayers fuel (hashPairs doubleSha256 (padLayer layer))

/-- The bytes of a transaction id, in the order in which they are hashed. -/
def merkleLeaf (txid : ByteString) : Option ByteString := do
  let bytes ← hexToBytes txid
  if bytes.length ≠ 32 then none else some bytes.reverse

def computeMerkleRootHex (txids : List ByteString) : Option ByteString :=
  if txids = [] then none
  else do
    let layer ← txids.mapM merkleLeaf
    let root := collapseLayers doubleSha256 layer.length layer
    some (toHex (root.headD []).reverse)

end Hashing

/-- Why the parser stops: the payload is no block, or a range to copy is not a
range of the payload. -/
inductive Stop
  | rejected
  | invalidRange
  deriving DecidableEq, Repr

def littleEndian : ByteString → Nat
  | [] => 0
  | byte :: rest => byte.toNat + 256 * littleEndian rest

section Fields

variable (payload : Span UInt8)

def byteAt (offset : Nat) : UInt8 :=
  payload.items.getD offset 0

def bytesAt (offset width : Nat) : ByteString :=
  (payload.items.drop offset).take width

/-- A number of the given width, unless the payload ends before it does. -/
def readLittleEndian (width : Nat) : Reader Stop (Option UInt64) := do
  let start ← position
  let complete ← advance payload.size width
  pure (if complete then
      some (UInt64.ofNat (littleEndian (bytesAt payload start width)))
    else none)

def compactWidth (first : UInt8) : Nat :=
  if first = 0xFD then 2 else if first = 0xFE then 4 else 8

def readCompactSize : Reader Stop (Option UInt64) := do
  let offset ← position
  if payload.size ≤ offset then pure none
  else do
    step 1
    let first := byteAt payload offset
    if first < 253 then pure (some first.toUInt64)
    else readLittleEndian payload (compactWidth first)

def readCount : Reader Stop UInt64 :=
  require .rejected (readCompactSize payload)

def readBytes (count : Nat) : Reader Stop Unit :=
  demand .rejected (advance payload.size count)

/-- The marker and the flag in front of the inputs, if the transaction has
witnesses. -/
def readWitnessFlag : Reader Stop Bool := do
  let offset ← position
  let stop ← ask 2
  if stop ≤ payload.size ∧ byteAt payload offset = 0 ∧
      byteAt payload (offset + 1) ≠ 0 then do
    step 2
    pure true
  else pure false

/-- A script or a witness: its length, then its bytes. -/
def readScript : Reader Stop Unit := do
  let size ← readCount payload
  readBytes payload size.toNat

def readInput : Reader Stop Unit := do
  readBytes payload 36
  readScript payload
  readBytes payload 4

/-- One output; the total grows by its value. -/
def readOutput (total : UInt64) : Reader Stop UInt64 := do
  let value ← require .rejected (readLittleEndian payload 8)
  readScript payload
  pure (total + value)

def readWitness : Reader Stop Unit := do
  let stackItems ← readCount payload
  iterate (fun _ => readScript payload) stackItems.toNat ()

def readInputs : Reader Stop UInt64 := do
  let inputCount ← readCount payload
  iterate (fun _ => readInput payload) inputCount.toNat ()
  pure inputCount

def readOutputs : Reader Stop (UInt64 × UInt64) := do
  let outputCount ← readCount payload
  let total ← iterate (readOutput payload) outputCount.toNat 0
  pure (outputCount, total)

/-- One witness for each input, if there are any. -/
def readWitnesses (hasWitness : Bool) (inputCount : UInt64) :
    Reader Stop Unit :=
  if hasWitness then
    iterate (fun _ => readWitness payload) inputCount.toNat ()
  else pure ()

/-- The bytes of a range that is about to be appended to a buffer. -/
def copyRange (range : Copy) : Reader Stop ByteString := do
  copy payload.size .invalidRange range.start range.stop
  pure (bytesAt payload range.start (range.stop - range.start))

end Fields

structure BlockMetadata where
  blockHashHex : ByteString := []
  previousHashHex : ByteString := []
  merkleRootHex : ByteString := []
  version : UInt32 := 0
  timestamp : UInt32 := 0
  nonce : UInt32 := 0
  transactionCount : UInt64 := 0
  totalOutputValue : UInt64 := 0
  merkleRootMatches : Bool := false
  transactionSizes : List Nat := []
  transactionVersions : List UInt32 := []
  transactionInputCounts : List UInt64 := []
  transactionOutputCounts : List UInt64 := []
  transactionOutputValues : List UInt64 := []
  transactionHasWitness : List Bool := []
  transactionIds : List ByteString := []
  transactionWitnessIds : List ByteString := []
  deriving DecidableEq

/-- What one pass over a transaction finds. -/
structure TransactionParts where
  version : UInt64
  versionRange : Copy
  hasWitness : Bool
  inputCount : UInt64
  inputs : Copy
  outputCount : UInt64
  outputTotal : UInt64
  outputs : Copy

section Blocks

variable (doubleSha256 : ByteString → Hash256) (payload : Span UInt8)

def readParts : Reader Stop TransactionParts := do
  let (version, versionRange) ←
    spanned (require .rejected (readLittleEndian payload 4))
  let hasWitness ← readWitnessFlag payload
  let (inputCount, inputs) ← spanned (readInputs payload)
  let ((outputCount, outputTotal), outputs) ← spanned (readOutputs payload)
  readWitnesses payload hasWitness inputCount
  readBytes payload 4
  pure { version, versionRange, hasWitness, inputCount, inputs, outputCount,
         outputTotal, outputs }

def readTransaction (metadata : BlockMetadata) :
    Reader Stop BlockMetadata := do
  let (parts, whole) ← spanned (readParts payload)
  let fullTx ← copyRange payload whole
  let versionBytes ← copyRange payload parts.versionRange
  let inputBytes ← copyRange payload parts.inputs
  let outputBytes ← copyRange payload parts.outputs
  let lockTime ← copyRange payload ⟨sizeSub whole.stop 4, whole.stop⟩
  let wtxid := doubleSha256 fullTx
  let txid :=
    doubleSha256 (versionBytes ++ inputBytes ++ outputBytes ++ lockTime)
  pure { metadata with
    transactionSizes :=
      metadata.transactionSizes ++ [sizeSub whole.stop whole.start]
    transactionVersions :=
      metadata.transactionVersions ++ [parts.version.toUInt32]
    transactionInputCounts :=
      metadata.transactionInputCounts ++ [parts.inputCount]
    transactionOutputCounts :=
      metadata.transactionOutputCounts ++ [parts.outputCount]
    transactionOutputValues :=
      metadata.transactionOutputValues ++ [parts.outputTotal]
    totalOutputValue := metadata.totalOutputValue + parts.outputTotal
    transactionHasWitness :=
      metadata.transactionHasWitness ++ [parts.hasWitness]
    transactionWitnessIds :=
      metadata.transactionWitnessIds ++ [toHex wtxid.bytes.reverse]
    transactionIds := metadata.transactionIds ++ [toHex txid.bytes.reverse] }

/-- The fields of the header. -/
def blockHeaderFields : BlockMetadata where
  version := UInt32.ofNat (littleEndian (bytesAt payload 0 4))
  timestamp := UInt32.ofNat (littleEndian (bytesAt payload 68 4))
  nonce := UInt32.ofNat (littleEndian (bytesAt payload 76 4))
  previousHashHex := wireHashToHex (bytesAt payload 4 32)
  merkleRootHex := wireHashToHex (bytesAt payload 36 32)
  blockHashHex := toHex (doubleSha256 (bytesAt payload 0 80)).bytes.reverse

def readBlock : Reader Stop BlockMetadata := do
  let count ← readCount payload
  iterate (readTransaction doubleSha256 payload) count.toNat
    { blockHeaderFields doubleSha256 payload with transactionCount := count }

/-- The cursor behind the header. -/
def afterHeader : Cursor where
  offset := 80

/-- The parser's run, with the metadata and what its cursor did. -/
def parseRun (add : Nat → Nat → Nat) : Except Stop BlockMetadata × Cursor :=
  if payload.size < 81 then (.error .rejected, afterHeader)
  else (readBlock doubleSha256 payload).run add afterHeader

def finishMetadata (metadata : BlockMetadata) : Option BlockMetadata := do
  let merkle ← computeMerkleRootHex doubleSha256 metadata.transactionIds
  some { metadata with merkleRootMatches := merkle = metadata.merkleRootHex }

def parseBlockMetadata : Except Fault (Option BlockMetadata) :=
  match (parseRun doubleSha256 payload sizeAdd).1 with
  | .ok metadata => .ok (finishMetadata doubleSha256 metadata)
  | .error .rejected => .ok none
  | .error .invalidRange => .error .outOfBounds

/-- What reading a transaction leaves alone, and the identifier it adds. -/
theorem readTransaction_arrives {doubleSha256 : ByteString → Hash256}
    {payload : Span UInt8} {add : Nat → Nat → Nat} {metadata next : BlockMetadata}
    {cursor after : Cursor}
    (arrived : (readTransaction doubleSha256 payload metadata).run add cursor =
      (.ok next, after)) :
    next.blockHashHex = metadata.blockHashHex ∧
      next.merkleRootHex = metadata.merkleRootHex ∧
        ∃ hash : Hash256, next.transactionIds =
          metadata.transactionIds ++ [wireHashToHex hash.bytes] := by
  obtain ⟨⟨parts, whole⟩, _, _, rest⟩ := bind_ok arrived
  obtain ⟨fullTx, _, _, rest⟩ := bind_ok rest
  obtain ⟨versionBytes, _, _, rest⟩ := bind_ok rest
  obtain ⟨inputBytes, _, _, rest⟩ := bind_ok rest
  obtain ⟨outputBytes, _, _, rest⟩ := bind_ok rest
  obtain ⟨lockTime, _, _, finished⟩ := bind_ok rest
  cases finished
  exact ⟨rfl, rfl, _, rfl⟩

/-- What the header fields have and every transaction keeps, the parser's run
has at its end. -/
theorem parseRun_keeps {doubleSha256 : ByteString → Hash256}
    {payload : Span UInt8} {add : Nat → Nat → Nat} {kept : BlockMetadata → Prop}
    (starts : ∀ count, kept
      { blockHeaderFields doubleSha256 payload with transactionCount := count })
    (keeps : ∀ metadata cursor next after, kept metadata →
      (readTransaction doubleSha256 payload metadata).run add cursor =
        (.ok next, after) → kept next)
    {metadata : BlockMetadata}
    (parsed : (parseRun doubleSha256 payload add).1 = .ok metadata) :
    kept metadata := by
  unfold parseRun at parsed
  split at parsed
  · cases parsed
  · obtain ⟨count, between, _, looped⟩ :=
      bind_ok (Prod.ext parsed rfl :
        (readBlock doubleSha256 payload).run add afterHeader = (_, _))
    exact iterate_keeps keeps (starts count) looped

/-- Accepted metadata is what the run found, finished. -/
theorem parseBlockMetadata_cases {doubleSha256 : ByteString → Hash256}
    {payload : Span UInt8} {metadata : BlockMetadata}
    (parsed : parseBlockMetadata doubleSha256 payload = .ok (some metadata)) :
    ∃ found, (parseRun doubleSha256 payload sizeAdd).1 = .ok found ∧
      finishMetadata doubleSha256 found = some metadata := by
  unfold parseBlockMetadata at parsed
  split at parsed
  · rename_i found run
    exact ⟨found, run, Except.ok.inj parsed⟩
  · cases parsed
  · cases parsed

end Blocks

end Bitcoin

end Blocxxi
