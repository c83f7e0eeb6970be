import Blocxxi.CorePrimitives
import Blocxxi.SignetWire

/-!
# Fetching blocks from signet

Blocks are fetched by hash: from the cache directory if every one of them is
there, else from the first peer that delivers as many blocks as were asked
for.  What the file system, the resolver and the peers do is the input of the
model.
-/

namespace Blocxxi

namespace Bitcoin

open Blocxxi.Core Cxx ByteText

structure BlockBody where
  blockHashHex : ByteString
  payload : Span UInt8

/-- The hash in the header of a payload, as it is shown. -/
def headerHashHex (doubleSha256 : ByteString → Hash256) (payload : Span UInt8) :
    ByteString :=
  toHex (doubleSha256 (bytesAt payload 0 80)).bytes.reverse

def parseBlockPayload (doubleSha256 : ByteString → Hash256)
    (payload : Span UInt8) : Option BlockBody :=
  if payload.size < 80 then none
  else some
    { blockHashHex := headerHashHex doubleSha256 payload, payload := payload }

/-- A file of the cache; opening it may fail. -/
structure CacheFile where
  opens : Bool := true
  content : Span UInt8

/-- The state root: the files of its block cache, whether the directory can be
created, and the outcomes of opening files to write. -/
structure StateRoot where
  files : List (ByteString × CacheFile) := []
  created : Bool := true
  opens : List Bool := []

def cacheFileName (blockHashHex : ByteString) : ByteString :=
  blockHashHex ++ ascii ".blk"

structure SignetBlocksResult where
  peerAddress : ByteString := []
  protocolVersion : Int32 := 0
  commandTrace : List ByteString := []
  blocks : List BlockBody := []
  metadata : List BlockMetadata := []

/-- Write the blocks one after the other, up to the first that cannot be
opened. -/
def writeBlocks : List BlockBody → StateRoot → StateRoot
  | [], root => root
  | block :: rest, root =>
      if root.opens.headD false then
        writeBlocks rest
          { root with
            files := (cacheFileName block.blockHashHex,
              { content := block.payload }) ::
                root.files.filter (·.1 ≠ cacheFileName block.blockHashHex)
            opens := root.opens.tail }
      else { root with opens := root.opens.tail }

/-- No state root is configured, or blocks are written into its cache. -/
def persistFetchedBlocks (root : Option StateRoot) (result : SignetBlocksResult) :
    Option StateRoot :=
  root.map fun root =>
    if result.blocks = [] then root
    else if ¬ root.created then root
    else writeBlocks result.blocks root

section Fetching

variable (doubleSha256 : ByteString → Hash256)

/-- The loop over the requested hashes that reads the cache; it ends without a
result at the first block that is missing or cannot be parsed. -/
def loadCachedBlocks (root : StateRoot) :
    List ByteString → Except Fault (Option (List BlockBody × List BlockMetadata))
  | [] => .ok (some ([], []))
  | hash :: rest =>
      match root.files.lookup (cacheFileName hash) with
      | none => .ok none
      | some file =>
          if ¬ file.opens then .ok none
          else
            match parseBlockPayload doubleSha256 file.content,
              parseBlockMetadata doubleSha256 file.content with
            | _, .error fault => .error fault
            | some block, .ok (some metadata) =>
                (loadCachedBlocks root rest).map fun loaded =>
                  loaded.map fun (blocks, allMetadata) =>
                    (block :: blocks, metadata :: allMetadata)
            | _, _ => .ok none

/-- An address that the host resolves to: whether it can be connected to, and
the connection. -/
structure Endpoint where
  address : Address := {}
  connects : Bool := true
  socket : Socket

/-- The block of a message is added to the result, or a status ends the call. -/
def acceptBlock (payload : Span UInt8) (result : SignetBlocksResult) :
    Except Fault (Except Status SignetBlocksResult) :=
  match parseBlockPayload doubleSha256 payload with
  | none => .ok (.error (.failure .rejected "received malformed block payload"))
  | some block =>
      match parseBlockMetadata doubleSha256 payload with
      | .error fault => .error fault
      | .ok none => .ok (.error (.failure .rejected
          "received block with unreadable metadata"))
      | .ok (some metadata) => .ok (.ok
          { result with
            blocks := result.blocks ++ [block]
            metadata := result.metadata ++ [metadata] })

/-- The loop that receives blocks, until there are enough or the connection
ends.  The bound on its passes is larger than the number of messages that are
left to read.  A status ends the whole call. -/
def receiveBlocks (wanted : Nat) :
    Nat → Socket → SignetBlocksResult →
      Except Fault (Option Status × Socket × SignetBlocksResult)
  | 0, socket, result => .ok (none, socket, result)
  | passes + 1, socket, result =>
      if result.blocks.length < wanted then
        let (message, socket, trace) :=
          readNextNonPingMessage socket result.commandTrace
        let result := { result with commandTrace := trace }
        match message with
        | none => .ok (none, socket, result)
        | some message =>
            if message.command = ascii "block" then
              match acceptBlock doubleSha256 message.payload result with
              | .error fault => .error fault
              | .ok (.error status) => .ok (some status, socket, result)
              | .ok (.ok result) => receiveBlocks wanted passes socket result
            else receiveBlocks wanted passes socket result
      else .ok (none, socket, result)

/-- What happened at one endpoint: it did not deliver, the call ends with a
failure, or all blocks were delivered. -/
inductive Attempt
  | givesUp (result : SignetBlocksResult)
  | fails (status : Status) (result : SignetBlocksResult)
  | delivers (result : SignetBlocksResult)

/-- The handshake and the request; it gives up with what it has learned. -/
def requestBlocks (getData : ByteString) (port : UInt16) (now : UInt64)
    (endpoint : Endpoint) : Bool × Socket × SignetBlocksResult :=
  let (shaken, socket, handshake) :=
    completeVersionHandshake endpoint.address port now endpoint.socket
  let result : SignetBlocksResult :=
    { protocolVersion := handshake.protocolVersion
      commandTrace := handshake.trace }
  if ¬ shaken then (false, socket, result)
  else
    let (sent, socket) := sendMessage (ascii "getdata") getData socket
    (sent, socket, result)

/-- What became of the receiving loop. -/
def attemptOf (wanted : Nat) (address : Address)
    (received : Option Status × Socket × SignetBlocksResult) : Attempt :=
  match received with
  | (some status, _, result) => .fails status result
  | (none, _, result) =>
      if result.blocks.length = wanted then
        .delivers { result with peerAddress := address.text }
      else .givesUp result

def tryEndpoint (wanted : Nat) (getData : ByteString) (port : UInt16)
    (now : UInt64) (endpoint : Endpoint) (result : SignetBlocksResult) :
    Except Fault Attempt :=
  if ¬ endpoint.connects then .ok (.givesUp result)
  else
    let (requested, socket, result) := requestBlocks getData port now endpoint
    if ¬ requested then .ok (.givesUp result)
    else
      (receiveBlocks doubleSha256 wanted (socket.incoming.length + 1) socket
        result).map (attemptOf wanted endpoint.address)

/-- The loop over the endpoints: the first attempt that does not give up. -/
def tryEndpoints (wanted : Nat) (getData : ByteString) (port : UInt16)
    (now : UInt64) : List Endpoint → SignetBlocksResult → Except Fault Attempt
  | [], result => .ok (.givesUp result)
  | endpoint :: rest, result =>
      match tryEndpoint doubleSha256 wanted getData port now endpoint result with
      | .ok (.givesUp result) => tryEndpoints wanted getData port now rest result
      | attempt => attempt

/-- What the world does during a call. -/
structure FetchWorld where
  root : Option StateRoot := none
  endpoints : Option (List Endpoint) := none
  port : UInt16 := 38333
  now : UInt64 := 0

/-- What a call returns, and the state root after it. -/
structure FetchOutcome where
  status : Status
  result : SignetBlocksResult
  root : Option StateRoot

/-- The end of a call in which the peers were asked. -/
def outcomeOf (root : Option StateRoot) : Attempt → FetchOutcome
  | .givesUp result =>
      ⟨.failure .ioError "failed to complete live signet block retrieval",
        result, root⟩
  | .fails status result => ⟨status, result, root⟩
  | .delivers result =>
      ⟨.success "", result, persistFetchedBlocks root result⟩

/-- The part of the call that asks the peers. -/
def fetchFromPeers (blockHashes : List ByteString) (world : FetchWorld) :
    Except Fault FetchOutcome :=
  -- the result is reset only when there is a cache to look into
  let result : SignetBlocksResult :=
    if world.root.isSome then {} else { peerAddress := ascii "cache" }
  match encodeGetDataPayload blockHashes with
  | none => .ok ⟨.failure .invalidArgument "invalid block hash for getdata",
      result, world.root⟩
  | some getData =>
      match world.endpoints with
      | none => .ok ⟨.failure .ioError "failed to resolve signet host", result,
          world.root⟩
      | some endpoints =>
          (tryEndpoints doubleSha256 blockHashes.length getData world.port
            world.now endpoints result).map (outcomeOf world.root)

/-- The blocks in the cache, if a state root is configured and all are there. -/
def fetchFromCache (blockHashes : List ByteString) (root : Option StateRoot) :
    Except Fault (Option (List BlockBody × List BlockMetadata)) :=
  match root with
  | none => .ok none
  | some root => loadCachedBlocks doubleSha256 root blockHashes

def fetchBlocks (blockHashes : List ByteString) (world : FetchWorld) :
    Except Fault FetchOutcome :=
  if blockHashes = [] then
    .ok ⟨.failure .invalidArgument "at least one block hash is required", {},
      world.root⟩
  else
    match fetchFromCache doubleSha256 blockHashes world.root with
    | .error fault => .error fault
    | .ok (some (blocks, metadata)) =>
        .ok ⟨.success "",
          { peerAddress := ascii "cache", commandTrace := [ascii "cache"],
            blocks := blocks, metadata := metadata },
          world.root⟩
    | .ok none => fetchFromPeers doubleSha256 blockHashes world

end Fetching

end Bitcoin

end Blocxxi
