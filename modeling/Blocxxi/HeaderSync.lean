import Blocxxi.BitcoinBytes
import Blocxxi.NodeFacade

/-!
# The header sync adapter

A batch of headers is validated as a whole against the last imported header;
then every header becomes a transaction and a block of its own.
-/

namespace Blocxxi

namespace Bitcoin

open Blocxxi.Core Cxx Chain

inductive Network
  | mainnet
  | testnet
  | signet
  | regtest
  deriving DecidableEq, Repr

structure Options where
  network : Network := .signet
  peerHint : ByteString := []
  headerSyncOnly : Bool := true
  deriving DecidableEq

structure Header where
  height : UInt32 := 0
  hashHex : ByteString := []
  previousHashHex : ByteString := []
  merkleRootHex : ByteString := []
  version : UInt32 := 0
  timestamp : UInt32 := 0
  bits : UInt32 := 0
  nonce : UInt32 := 0
  deriving DecidableEq

structure HeaderSyncAdapter where
  options : Options := {}
  bound : Bool := false
  importedHeights : List UInt32 := []
  lastHeader : Option Header := none
  deriving DecidableEq

def networkName (options : Options) : ByteString :=
  match options.network with
  | .mainnet => ascii "mainnet"
  | .testnet => ascii "testnet"
  | .signet => ascii "signet"
  | .regtest => ascii "regtest"

def headerMode (options : Options) : ByteString :=
  if options.headerSyncOnly then ascii "headers-only" else ascii "full"

def adapterName (options : Options) : ByteString :=
  ascii "bitcoin.header-sync:" ++ networkName options ++ ascii ":" ++
    headerMode options

def bootstrapHint (options : Options) : ByteString :=
  ascii "bitcoin.peer:" ++ options.peerHint

def headerMetadata (options : Options) : ByteString :=
  ascii "network=" ++ networkName options ++ ascii ";mode=" ++
    headerMode options ++
      if options.peerHint = [] then []
      else ascii ";peer_hint=" ++ options.peerHint

def validateHeader (header : Header) (previous : Option Header) : Status :=
  if header.hashHex = [] then
    .failure .invalidArgument "header hash is required"
  else if 0 < header.height ∧ header.previousHashHex = [] then
    .failure .invalidArgument "non-genesis headers require a previous hash"
  else if previous.any fun last => header.height != last.height + 1 then
    .failure .rejected "headers must advance by exactly one height"
  else if previous.any fun last => header.previousHashHex != last.hashHex then
    .failure .rejected "header sequence is not continuous"
  else if header.bits = 0 then .success ""
  else
    match targetFromCompact header.bits signetPowLimitHex with
    | none =>
        .failure .rejected "header bits do not derive a valid target"
    | some target =>
        match hashBytesFromHex header.hashHex with
        | none => .failure .invalidArgument "header hash must be 32 bytes"
        | some hash =>
            if target < hash then
              .failure .rejected "header proof of work does not satisfy target"
            else if previous.any fun last =>
                last.bits != 0 && last.height % 2016 != 0 &&
                  header.bits != last.bits then
              .failure .rejected ("unexpected signet difficulty transition " ++
                "between adjacent headers")
            else .success ""

/-- The first pass over a batch. -/
def validateHeaders (previous : Option Header) : List Header → Status
  | [] => .success ""
  | header :: headers =>
      let status := validateHeader header previous
      if !status.isOk then status
      else validateHeaders (some header) headers

def headerPayload (header : Header) : ByteString :=
  ascii "height=" ++ ByteText.decimal header.height.toNat ++
    ascii ";hash=" ++ header.hashHex ++
      ascii ";previous=" ++ header.previousHashHex ++
        ascii ";version=" ++ ByteText.decimal header.version.toNat

def headerTransaction (options : Options) (header : Header) : Transaction :=
  Transaction.fromText (ascii "bitcoin.header") (headerPayload header)
    (headerMetadata options)

def headerSource (options : Options) : ByteString :=
  ascii "bitcoin:" ++ networkName options

variable {BlockState SnapshotState : Type}
variable (kernel : Kernel BlockState SnapshotState)

/-- The second pass: one transaction and one commit for every header.  The
`clock` gives the reading at each commit; the status comes with the imported
heights. -/
def importHeaders (options : Options) (clock : Nat → Int64) :
    List Header → List UInt32 → Node.NodeState BlockState SnapshotState →
      Except Fault (Status × List UInt32) ×
        Node.NodeState BlockState SnapshotState
  | [], imported, node => (.ok (.success "", imported), node)
  | header :: headers, imported, node =>
      let (submitted, node) :=
        Node.submitTransaction (headerTransaction options header) node
      if !submitted.isOk then (.ok (submitted, imported), node)
      else
        let (outcome, node) := Node.commitPending kernel (headerSource options)
          (clock imported.length) node
        match outcome with
        | .error fault => (.error fault, node)
        | .ok committed =>
            if !committed.isOk then (.ok (committed, imported), node)
            else
              importHeaders options clock headers (imported ++ [header.height])
                node

namespace HeaderSyncAdapter

def submitHeaders (clock : Nat → Int64) (headers : Span Header)
    (adapter : HeaderSyncAdapter)
    (node : Node.NodeState BlockState SnapshotState) :
    Except Fault Status × HeaderSyncAdapter ×
      Node.NodeState BlockState SnapshotState :=
  if !adapter.bound then
    (.ok (.failure .rejected "adapter must be bound to a node first"),
      adapter, node)
  else if headers.items = [] then
    (.ok (.failure .invalidArgument "at least one header is required"),
      adapter, node)
  else
    let validated := validateHeaders adapter.lastHeader headers.items
    if !validated.isOk then (.ok validated, adapter, node)
    else
      let (outcome, node) :=
        importHeaders kernel adapter.options clock headers.items [] node
      match outcome with
      | .error fault => (.error fault, adapter, node)
      | .ok (status, imported) =>
          if !status.isOk then (.ok status, adapter, node)
          else
            (.ok (.success ""),
              { adapter with
                importedHeights := adapter.importedHeights ++ imported
                lastHeader := headers.items.getLast? },
              node)

def submitHeader (clock : Nat → Int64) (header : Header)
    (adapter : HeaderSyncAdapter)
    (node : Node.NodeState BlockState SnapshotState) :
    Except Fault Status × HeaderSyncAdapter ×
      Node.NodeState BlockState SnapshotState :=
  submitHeaders kernel clock ⟨[header], by simp⟩ adapter node

def bind (adapter : HeaderSyncAdapter)
    (node : Node.NodeState BlockState SnapshotState) :
    Status × HeaderSyncAdapter × Node.NodeState BlockState SnapshotState :=
  let adapter := { adapter with bound := true }
  if adapter.options.peerHint ≠ [] then
    let (status, node) :=
      Node.attachDiscovery (bootstrapHint adapter.options) node
    if !status.isOk then (status, adapter, node)
    else
      let (status, node) := Node.attachAdapter (adapterName adapter.options) node
      (status, adapter, node)
  else
    let (status, node) := Node.attachAdapter (adapterName adapter.options) node
    (status, adapter, node)

end HeaderSyncAdapter

end Bitcoin

end Blocxxi
