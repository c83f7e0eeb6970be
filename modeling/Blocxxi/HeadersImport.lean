import Blocxxi.HeaderSync
import Blocxxi.SignetLiveClient

/-!
# Importing live headers

Headers are fetched from the first peer that answers, and submitted as one
batch.  The last of them is written to a file under the state root, and the
next import asks for the headers behind the one in that file.
-/

namespace Blocxxi

namespace Bitcoin

open Blocxxi.Core Cxx ByteText Chain CursorReader

structure SignetHeadersResult where
  peerAddress : ByteString := []
  protocolVersion : Int32 := 0
  commandTrace : List ByteString := []
  headerHashes : List ByteString := []
  headers : List Header := []
  deriving DecidableEq

def encodeGetHeadersPayload (locatorHashHex : ByteString) : Option ByteString := do
  let locator ← wireHashFromHex locatorHashHex
  some (littleEndianBytes kProtocolVersion 4 ++ compactSizeBytes 1 ++ locator ++
    List.replicate 32 0)

/-- A number of variable width, and the offset behind it. -/
def compactSizeAt (payload : Span UInt8) (offset : Nat) : Option UInt64 × Nat :=
  match (readCompactSize payload).wrapping { offset := offset } with
  | (.ok found, cursor) => (found, cursor.offset)
  | (.error _, cursor) => (none, cursor.offset)

section Fetching

variable (doubleSha256 : ByteString → Hash256)

/-- The header in the 80 bytes at an offset. -/
def wireHeader (payload : Span UInt8) (offset : Nat) (height : UInt32) :
    Header where
  height := height
  hashHex := toHex (doubleSha256 (bytesAt payload offset 80)).bytes.reverse
  previousHashHex := wireHashToHex (bytesAt payload (offset + 4) 32)
  merkleRootHex := wireHashToHex (bytesAt payload (offset + 36) 32)
  version := UInt32.ofNat (littleEndian (bytesAt payload offset 4))
  timestamp := UInt32.ofNat (littleEndian (bytesAt payload (offset + 68) 4))
  bits := UInt32.ofNat (littleEndian (bytesAt payload (offset + 72) 4))
  nonce := UInt32.ofNat (littleEndian (bytesAt payload (offset + 76) 4))

/-- The loop over the headers of a payload. -/
def parseHeadersFrom (payload : Span UInt8) (locatorHeight : UInt32) :
    Nat → UInt32 → Nat → SignetHeadersResult → Status × SignetHeadersResult
  | 0, _, _, result => (.success "", result)
  | count + 1, index, offset, result =>
      if payload.size < sizeAdd offset 80 then
        (.failure .rejected "headers payload is truncated", result)
      else
        let (transactionCount, behind) :=
          compactSizeAt payload (sizeAdd offset 80)
        if transactionCount ≠ some 0 then
          (.failure .rejected "headers payload contains invalid txn count",
            result)
        else
          let header :=
            wireHeader doubleSha256 payload offset (locatorHeight + index + 1)
          parseHeadersFrom payload locatorHeight count (index + 1) behind
            { result with
              headerHashes := result.headerHashes ++ [header.hashHex]
              headers := result.headers ++ [header] }

def parseHeadersPayload (payload : Span UInt8) (locatorHeight : UInt32)
    (result : SignetHeadersResult) : Status × SignetHeadersResult :=
  match compactSizeAt payload 0 with
  | (none, _) => (.failure .rejected "headers response is empty", result)
  | (some count, offset) =>
      if count = 0 then
        (.failure .rejected "headers response is empty", result)
      else
        parseHeadersFrom doubleSha256 payload locatorHeight count.toNat 0 offset
          result

/-- Read on until a message carries headers, or the connection ends.  The bound
on the passes is larger than the number of messages that are left to read. -/
def awaitHeaders : Nat → Socket → List ByteString →
    Option (Span UInt8) × List ByteString
  | 0, _, trace => (none, trace)
  | passes + 1, socket, trace =>
      let (message, socket, trace) := readNextNonPingMessage socket trace
      match message with
      | none => (none, trace)
      | some message =>
          if message.command = ascii "headers" then
            (some message.payload, trace)
          else awaitHeaders passes socket trace

/-- The attempt at one endpoint: the payload with the headers, if there is one,
and what was learned. -/
def requestHeaders (getHeaders : ByteString) (port : UInt16) (now : UInt64)
    (endpoint : Endpoint) (result : SignetHeadersResult) :
    Option (Span UInt8) × SignetHeadersResult :=
  if ¬ endpoint.connects then (none, result)
  else
    let (shaken, socket, handshake) :=
      completeVersionHandshake endpoint.address port now endpoint.socket
    let result : SignetHeadersResult :=
      { protocolVersion := handshake.protocolVersion
        commandTrace := handshake.trace }
    if ¬ shaken then (none, result)
    else
      let (sent, socket) := sendMessage (ascii "getheaders") getHeaders socket
      if ¬ sent then (none, result)
      else
        let (payload, trace) := awaitHeaders (socket.incoming.length + 1) socket
          result.commandTrace
        (payload, { result with commandTrace := trace })

/-- The loop over the endpoints, up to the first that sends headers. -/
def receiveHeaders (getHeaders : ByteString) (port : UInt16) (now : UInt64) :
    List Endpoint → SignetHeadersResult →
      Option (Span UInt8 × Address) × SignetHeadersResult
  | [], result => (none, result)
  | endpoint :: rest, result =>
      match requestHeaders getHeaders port now endpoint result with
      | (some payload, result) => (some (payload, endpoint.address), result)
      | (none, result) => receiveHeaders getHeaders port now rest result

structure SignetLiveOptions where
  port : UInt16 := 38333
  locatorHashHex : ByteString := ascii
    "00000008819873e925422c1ff0f99f7cc9bbb232af63a077a480a3633bee1ef6"
  locatorHeight : UInt32 := 0
  stateRoot : ByteString := []
  deriving DecidableEq

/-- What the world does during an import: the addresses of the host, the clock,
and the outcomes of reading and writing the file under the state root. -/
structure ImportWorld where
  endpoints : Option (List Endpoint) := none
  now : UInt64 := 0
  readable : Bool := true
  created : Bool := true
  writable : Bool := true

def fetchHeaders (options : SignetLiveOptions) (world : ImportWorld) :
    Status × SignetHeadersResult :=
  match world.endpoints with
  | none => (.failure .ioError "failed to resolve signet host", {})
  | some endpoints =>
      match encodeGetHeadersPayload options.locatorHashHex with
      | none => (.failure .invalidArgument "invalid signet locator hash", {})
      | some getHeaders =>
          match receiveHeaders getHeaders options.port world.now endpoints {} with
          | (none, result) =>
              (.failure .ioError "failed to complete live signet headers fetch",
                result)
          | (some (payload, address), result) =>
              let (status, result) :=
                parseHeadersPayload doubleSha256 payload options.locatorHeight
                  result
              if !status.isOk then (status, result)
              else (.success "", { result with peerAddress := address.text })

end Fetching

/-- The two lines of the state file. -/
def importStateText (height : UInt32) (hashHex : ByteString) : ByteString :=
  unlines [ascii "height=" ++ decimal height.toNat, ascii "hash=" ++ hashHex]

/-- Read the state file, if there is one and it can be opened.  A height that
is no number throws. -/
def loadImportState (file : Option ByteString) (readable : Bool) :
    Except Fault (Option (UInt32 × ByteString)) :=
  match file with
  | none => .ok none
  | some content =>
      if ¬ readable then .ok none
      else
        match lines content with
        | heightLine :: hashLine :: _ =>
            if ¬ (ascii "height=").isPrefixOf heightLine ∨
                ¬ (ascii "hash=").isPrefixOf hashLine then .ok none
            else do
              let height ← stoull (heightLine.drop (ascii "height=").length)
              .ok (some (height.toUInt32, hashLine.drop (ascii "hash=").length))
        | _ => .ok none

inductive StorageMode
  | inMemory
  | fileSystem
  deriving DecidableEq

/-- The options of the node that an import looks at. -/
structure NodeOptions where
  chain : ChainConfig := {}
  storageMode : StorageMode := .inMemory
  storageRoot : ByteString := []
  deriving DecidableEq

/-- The state root that an import uses: the one it is given, or else the place
where the node keeps its files; the empty path if there is none. -/
def resolveStateRoot (options : SignetLiveOptions) (nodeOptions : NodeOptions) :
    ByteString :=
  if options.stateRoot ≠ [] then options.stateRoot
  else if nodeOptions.storageMode ≠ .fileSystem then []
  else if nodeOptions.storageRoot ≠ [] then nodeOptions.storageRoot
  else nodeOptions.chain.dataDirectory

/-- The options of an import with the locator that was persisted. -/
def resolveImportOptions (options : SignetLiveOptions) (nodeOptions : NodeOptions)
    (file : Option ByteString) (readable : Bool) :
    Except Fault SignetLiveOptions := do
  let options :=
    { options with stateRoot := resolveStateRoot options nodeOptions }
  if options.stateRoot = [] then .ok options
  else
    match ← loadImportState file readable with
    | none => .ok options
    | some (height, hashHex) =>
        .ok { options with locatorHeight := height, locatorHashHex := hashHex }

/-- The state file after an import. -/
def persistImportProgress (options : SignetLiveOptions)
    (result : SignetHeadersResult) (world : ImportWorld)
    (file : Option ByteString) : Option ByteString :=
  match result.headers.getLast? with
  | none => file
  | some last =>
      if options.stateRoot = [] ∨ ¬ world.created ∨ ¬ world.writable then file
      else some (importStateText last.height last.hashHex)

variable {BlockState SnapshotState : Type}

/-- What an import returns and leaves.  The fetched headers are handed out only
when all of them were imported. -/
structure ImportResult (BlockState SnapshotState : Type) where
  outcome : Except Fault Status
  liveResult : Option SignetHeadersResult := none
  adapter : HeaderSyncAdapter
  node : Node.NodeState BlockState SnapshotState
  file : Option ByteString

/-- Submit the fetched headers, and remember the last one. -/
def submitFetched (kernel : Kernel BlockState SnapshotState)
    (clock : Nat → Int64) (options : SignetLiveOptions)
    (result : SignetHeadersResult) (world : ImportWorld)
    (adapter : HeaderSyncAdapter)
    (node : Node.NodeState BlockState SnapshotState)
    (file : Option ByteString) : ImportResult BlockState SnapshotState :=
  -- No vector is as long as that.
  if fits : result.headers.length < 2 ^ 63 then
    match adapter.submitHeaders kernel clock ⟨result.headers, fits⟩ node with
    | (.error fault, adapter, node) =>
        { outcome := .error fault, adapter, node, file }
    | (.ok status, adapter, node) =>
        if status.isOk then
          { outcome := .ok status, liveResult := some result, adapter, node
            file := persistImportProgress options result world file }
        else { outcome := .ok status, adapter, node, file }
  else { outcome := .error (.exception "vector::reserve"), adapter, node, file }

/-- Import the headers that the peers send, into a node whose state file has
the given content. -/
def importLiveSignetHeaders (doubleSha256 : ByteString → Hash256)
    (kernel : Kernel BlockState SnapshotState) (clock : Nat → Int64)
    (options : SignetLiveOptions) (nodeOptions : NodeOptions)
    (world : ImportWorld) (adapter : HeaderSyncAdapter)
    (node : Node.NodeState BlockState SnapshotState)
    (file : Option ByteString) : ImportResult BlockState SnapshotState :=
  if !adapter.bound then
    { outcome := .ok (.failure .rejected
        "adapter must be bound to a node first")
      adapter, node, file }
  else
    match resolveImportOptions options nodeOptions file world.readable with
    | .error fault => { outcome := .error fault, adapter, node, file }
    | .ok resolved =>
        let (status, result) := fetchHeaders doubleSha256 resolved world
        if !status.isOk then { outcome := .ok status, adapter, node, file }
        else if result.headers = [] then
          { outcome := .ok (.failure .rejected
              "live signet fetch returned no headers")
            adapter, node, file }
        else
          submitFetched kernel clock resolved result world adapter node file

end Bitcoin

end Blocxxi
