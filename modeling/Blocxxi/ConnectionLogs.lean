import Blocxxi.HeadersImport

/-!
# What happens on a connection

A socket remembers what was sent over it and a trace the commands that were
read, but neither tells what came before what.  Here the functions that talk to
a peer keep a log of the messages they receive and attempt to send, in the
order in which that happens, one log for each connection that is opened.
Without the logs they are the functions that they are called after.
-/

namespace Blocxxi

namespace Bitcoin

open Blocxxi.Core Cxx ByteText

/-- A message is received, or one is attempted to be sent. -/
inductive WireEvent
  | received (message : DecodedMessage)
  | attempted (command payload : ByteString) (sent : Bool)

/-- The log of a connection to an endpoint. -/
structure Connection where
  endpoint : Endpoint
  log : List WireEvent

abbrev sendMessageLogged (command payload : ByteString) (socket : Socket)
    (log : List WireEvent) : (Bool × Socket) × List WireEvent :=
  let (sent, socket) := sendMessage command payload socket
  ((sent, socket), log ++ [.attempted command payload sent])

def readNextNonPingLogged :
    List DecodedMessage → Socket → List ByteString → List WireEvent →
      (Option DecodedMessage × Socket × List ByteString) × List WireEvent
  | [], socket, trace, log => ((none, { socket with incoming := [] }, trace), log)
  | message :: rest, socket, trace, log =>
      let socket := { socket with incoming := rest }
      let trace := trace ++ [message.command]
      let log := log ++ [.received message]
      if message.command ≠ ascii "ping" then ((some message, socket, trace), log)
      else
        let ((answered, socket), log) :=
          sendMessageLogged (ascii "pong") message.payload.items socket log
        if answered then readNextNonPingLogged rest socket trace log
        else ((none, socket, trace), log)

def readNextNonPingMessageLogged (socket : Socket) (trace : List ByteString)
    (log : List WireEvent) :
    (Option DecodedMessage × Socket × List ByteString) × List WireEvent :=
  readNextNonPingLogged socket.incoming socket trace log

def awaitHandshakeLogged :
    List DecodedMessage → Socket → Handshake → List WireEvent →
      (Bool × Socket × Handshake) × List WireEvent
  | [], socket, state, log =>
      ((state.sawVersion && state.sawVerack, { socket with incoming := [] },
        state), log)
  | message :: rest, socket, state, log =>
      if state.sawVersion && state.sawVerack then
        ((true, { socket with incoming := message :: rest }, state), log)
      else
        let socket := { socket with incoming := rest }
        let state := { state with trace := state.trace ++ [message.command] }
        let log := log ++ [.received message]
        if message.command = ascii "version" then
          let ((answered, socket), log) :=
            sendMessageLogged (ascii "verack") [] socket log
          let state := { state with
            protocolVersion :=
              protocolVersionOf message.payload state.protocolVersion
            sawVersion := true }
          if answered then awaitHandshakeLogged rest socket state log
          else ((false, socket, state), log)
        else if message.command = ascii "ping" then
          let ((answered, socket), log) :=
            sendMessageLogged (ascii "pong") message.payload.items socket log
          if answered then awaitHandshakeLogged rest socket state log
          else ((false, socket, state), log)
        else if message.command = ascii "verack" then
          awaitHandshakeLogged rest socket { state with sawVerack := true } log
        else awaitHandshakeLogged rest socket state log

def completeVersionHandshakeLogged (remoteAddress : Address) (port : UInt16)
    (now : UInt64) (socket : Socket) : (Bool × Socket × Handshake) × List WireEvent :=
  let ((sent, socket), log) := sendMessageLogged (ascii "version")
    (encodeVersionPayload remoteAddress port now) socket []
  if sent then awaitHandshakeLogged socket.incoming socket {} log
  else ((false, socket, {}), log)

theorem readNextNonPingLogged_fst (incoming : List DecodedMessage) (socket : Socket)
    (trace : List ByteString) (log : List WireEvent) :
    (readNextNonPingLogged incoming socket trace log).1 =
      readNextNonPing incoming socket trace := by
  induction incoming generalizing socket trace log with
  | nil => rfl
  | cons message rest ih =>
      simp only [readNextNonPingLogged, readNextNonPing, apply_ite Prod.fst, ih]

theorem readNextNonPingMessageLogged_fst (socket : Socket) (trace : List ByteString)
    (log : List WireEvent) :
    (readNextNonPingMessageLogged socket trace log).1 =
      readNextNonPingMessage socket trace :=
  readNextNonPingLogged_fst socket.incoming socket trace log

theorem awaitHandshakeLogged_fst (incoming : List DecodedMessage) (socket : Socket)
    (state : Handshake) (log : List WireEvent) :
    (awaitHandshakeLogged incoming socket state log).1 =
      awaitHandshake incoming socket state := by
  induction incoming generalizing socket state log with
  | nil => rfl
  | cons message rest ih =>
      simp only [awaitHandshakeLogged, awaitHandshake, apply_ite Prod.fst, ih]

theorem completeVersionHandshakeLogged_fst (remoteAddress : Address) (port : UInt16)
    (now : UInt64) (socket : Socket) :
    (completeVersionHandshakeLogged remoteAddress port now socket).1 =
      completeVersionHandshake remoteAddress port now socket := by
  simp only [completeVersionHandshakeLogged, completeVersionHandshake,
    apply_ite Prod.fst, awaitHandshakeLogged_fst]

def awaitHeadersLogged :
    Nat → Socket → List ByteString → List WireEvent →
      (Option (Span UInt8) × List ByteString) × List WireEvent
  | 0, _, trace, log => ((none, trace), log)
  | passes + 1, socket, trace, log =>
      let ((message, socket, trace), log) :=
        readNextNonPingMessageLogged socket trace log
      match message with
      | none => ((none, trace), log)
      | some message =>
          if message.command = ascii "headers" then
            ((some message.payload, trace), log)
          else awaitHeadersLogged passes socket trace log

/-- The attempt at an endpoint that was connected to. -/
def requestHeadersLogged (getHeaders : ByteString) (port : UInt16) (now : UInt64)
    (endpoint : Endpoint) :
    (Option (Span UInt8) × SignetHeadersResult) × List WireEvent :=
  let ((shaken, socket, handshake), log) :=
    completeVersionHandshakeLogged endpoint.address port now endpoint.socket
  let result : SignetHeadersResult :=
    { protocolVersion := handshake.protocolVersion
      commandTrace := handshake.trace }
  if ¬ shaken then ((none, result), log)
  else
    let ((sent, socket), log) :=
      sendMessageLogged (ascii "getheaders") getHeaders socket log
    if ¬ sent then ((none, result), log)
    else
      let ((payload, trace), log) :=
        awaitHeadersLogged (socket.incoming.length + 1) socket
          result.commandTrace log
      ((payload, { result with commandTrace := trace }), log)

def receiveHeadersLogged (getHeaders : ByteString) (port : UInt16) (now : UInt64) :
    List Endpoint → SignetHeadersResult →
      (Option (Span UInt8 × Address) × SignetHeadersResult) × List Connection
  | [], result => ((none, result), [])
  | endpoint :: rest, result =>
      if ¬ endpoint.connects then
        receiveHeadersLogged getHeaders port now rest result
      else
        match requestHeadersLogged getHeaders port now endpoint with
        | ((some payload, result), log) =>
            ((some (payload, endpoint.address), result), [⟨endpoint, log⟩])
        | ((none, result), log) =>
            let (received, connections) :=
              receiveHeadersLogged getHeaders port now rest result
            (received, ⟨endpoint, log⟩ :: connections)

def fetchHeadersLogged (doubleSha256 : ByteString → Hash256)
    (options : SignetLiveOptions) (world : ImportWorld) :
    (Status × SignetHeadersResult) × List Connection :=
  match world.endpoints with
  | none => ((.failure .ioError "failed to resolve signet host", {}), [])
  | some endpoints =>
      match encodeGetHeadersPayload options.locatorHashHex with
      | none => ((.failure .invalidArgument "invalid signet locator hash", {}), [])
      | some getHeaders =>
          match receiveHeadersLogged getHeaders options.port world.now
            endpoints {} with
          | ((none, result), connections) =>
              ((.failure .ioError "failed to complete live signet headers fetch",
                result), connections)
          | ((some (payload, address), result), connections) =>
              let (status, result) :=
                parseHeadersPayload doubleSha256 payload options.locatorHeight
                  result
              if !status.isOk then ((status, result), connections)
              else
                ((.success "", { result with peerAddress := address.text }),
                  connections)

theorem awaitHeadersLogged_fst (passes : Nat) (socket : Socket)
    (trace : List ByteString) (log : List WireEvent) :
    (awaitHeadersLogged passes socket trace log).1 =
      awaitHeaders passes socket trace := by
  induction passes generalizing socket trace log with
  | zero => rfl
  | succ passes ih =>
      have read := readNextNonPingMessageLogged_fst socket trace log
      unfold awaitHeadersLogged awaitHeaders
      rw [← read]
      generalize readNextNonPingMessageLogged socket trace log = next
      obtain ⟨⟨_ | message, after, traced⟩, logged⟩ := next
      · rfl
      · dsimp only
        split
        · rfl
        · exact ih _ _ _

theorem requestHeadersLogged_fst {getHeaders : ByteString} {port : UInt16}
    {now : UInt64} {endpoint : Endpoint} (connects : endpoint.connects = true)
    (result : SignetHeadersResult) :
    (requestHeadersLogged getHeaders port now endpoint).1 =
      requestHeaders getHeaders port now endpoint result := by
  have shake := completeVersionHandshakeLogged_fst endpoint.address port now
    endpoint.socket
  unfold requestHeadersLogged requestHeaders
  rw [if_neg (not_not.mpr connects), ← shake]
  generalize completeVersionHandshakeLogged endpoint.address port now
    endpoint.socket = handshaken
  obtain ⟨⟨shaken, socket, handshake⟩, log⟩ := handshaken
  simp only [apply_ite Prod.fst, awaitHeadersLogged_fst]

theorem receiveHeadersLogged_fst (getHeaders : ByteString) (port : UInt16)
    (now : UInt64) (endpoints : List Endpoint) (result : SignetHeadersResult) :
    (receiveHeadersLogged getHeaders port now endpoints result).1 =
      receiveHeaders getHeaders port now endpoints result := by
  induction endpoints generalizing result with
  | nil => rfl
  | cons endpoint rest ih =>
      unfold receiveHeadersLogged receiveHeaders
      by_cases connects : endpoint.connects = true
      · rw [if_neg (not_not.mpr connects), ← requestHeadersLogged_fst connects]
        generalize requestHeadersLogged getHeaders port now endpoint = attempt
        obtain ⟨⟨_ | payload, after⟩, log⟩ := attempt
        · exact ih after
        · rfl
      · rw [if_pos connects, requestHeaders, if_pos connects]
        exact ih result

theorem fetchHeadersLogged_fst (doubleSha256 : ByteString → Hash256)
    (options : SignetLiveOptions) (world : ImportWorld) :
    (fetchHeadersLogged doubleSha256 options world).1 =
      fetchHeaders doubleSha256 options world := by
  unfold fetchHeadersLogged fetchHeaders
  cases world.endpoints with
  | none => rfl
  | some endpoints =>
      cases encodeGetHeadersPayload options.locatorHashHex with
      | none => rfl
      | some getHeaders =>
          dsimp only
          rw [← receiveHeadersLogged_fst]
          generalize receiveHeadersLogged getHeaders options.port world.now
            endpoints {} = received
          obtain ⟨⟨_ | ⟨payload, address⟩, result⟩, connections⟩ := received
          · rfl
          · dsimp only
            split <;> rfl

section Blocks

variable (doubleSha256 : ByteString → Hash256)

def receiveBlocksLogged (wanted : Nat) :
    Nat → Socket → SignetBlocksResult → List WireEvent →
      Except Fault (Option Status × Socket × SignetBlocksResult) × List WireEvent
  | 0, socket, result, log => (.ok (none, socket, result), log)
  | passes + 1, socket, result, log =>
      if result.blocks.length < wanted then
        let ((message, socket, trace), log) :=
          readNextNonPingMessageLogged socket result.commandTrace log
        let result := { result with commandTrace := trace }
        match message with
        | none => (.ok (none, socket, result), log)
        | some message =>
            if message.command = ascii "block" then
              match acceptBlock doubleSha256 message.payload result with
              | .error fault => (.error fault, log)
              | .ok (.error status) => (.ok (some status, socket, result), log)
              | .ok (.ok result) =>
                  receiveBlocksLogged wanted passes socket result log
            else receiveBlocksLogged wanted passes socket result log
      else (.ok (none, socket, result), log)

def requestBlocksLogged (getData : ByteString) (port : UInt16) (now : UInt64)
    (endpoint : Endpoint) : (Bool × Socket × SignetBlocksResult) × List WireEvent :=
  let ((shaken, socket, handshake), log) :=
    completeVersionHandshakeLogged endpoint.address port now endpoint.socket
  let result : SignetBlocksResult :=
    { protocolVersion := handshake.protocolVersion
      commandTrace := handshake.trace }
  if ¬ shaken then ((false, socket, result), log)
  else
    let ((sent, socket), log) :=
      sendMessageLogged (ascii "getdata") getData socket log
    ((sent, socket, result), log)

/-- The attempt at an endpoint that was connected to. -/
def tryEndpointLogged (wanted : Nat) (getData : ByteString) (port : UInt16)
    (now : UInt64) (endpoint : Endpoint) :
    Except Fault Attempt × List WireEvent :=
  let ((requested, socket, result), log) :=
    requestBlocksLogged getData port now endpoint
  if ¬ requested then (.ok (.givesUp result), log)
  else
    let (received, log) :=
      receiveBlocksLogged doubleSha256 wanted (socket.incoming.length + 1) socket
        result log
    (received.map (attemptOf wanted endpoint.address), log)

def tryEndpointsLogged (wanted : Nat) (getData : ByteString) (port : UInt16)
    (now : UInt64) :
    List Endpoint → SignetBlocksResult → Except Fault Attempt × List Connection
  | [], result => (.ok (.givesUp result), [])
  | endpoint :: rest, result =>
      if ¬ endpoint.connects then
        tryEndpointsLogged wanted getData port now rest result
      else
        match tryEndpointLogged doubleSha256 wanted getData port now endpoint with
        | (.ok (.givesUp result), log) =>
            let (attempt, connections) :=
              tryEndpointsLogged wanted getData port now rest result
            (attempt, ⟨endpoint, log⟩ :: connections)
        | (attempt, log) => (attempt, [⟨endpoint, log⟩])

def fetchFromPeersLogged (blockHashes : List ByteString) (world : FetchWorld) :
    Except Fault FetchOutcome × List Connection :=
  let result : SignetBlocksResult :=
    if world.root.isSome then {} else { peerAddress := ascii "cache" }
  match encodeGetDataPayload blockHashes with
  | none => (.ok ⟨.failure .invalidArgument "invalid block hash for getdata",
      result, world.root⟩, [])
  | some getData =>
      match world.endpoints with
      | none => (.ok ⟨.failure .ioError "failed to resolve signet host", result,
          world.root⟩, [])
      | some endpoints =>
          let (attempt, connections) :=
            tryEndpointsLogged doubleSha256 blockHashes.length getData world.port
              world.now endpoints result
          (attempt.map (outcomeOf world.root), connections)

def fetchBlocksLogged (blockHashes : List ByteString) (world : FetchWorld) :
    Except Fault FetchOutcome × List Connection :=
  if blockHashes = [] then
    (.ok ⟨.failure .invalidArgument "at least one block hash is required", {},
      world.root⟩, [])
  else
    match fetchFromCache doubleSha256 blockHashes world.root with
    | .error fault => (.error fault, [])
    | .ok (some (blocks, metadata)) =>
        (.ok ⟨.success "",
          { peerAddress := ascii "cache", commandTrace := [ascii "cache"],
            blocks := blocks, metadata := metadata },
          world.root⟩, [])
    | .ok none => fetchFromPeersLogged doubleSha256 blockHashes world

end Blocks

variable {doubleSha256 : ByteString → Hash256}

theorem receiveBlocksLogged_fst (wanted passes : Nat) (socket : Socket)
    (result : SignetBlocksResult) (log : List WireEvent) :
    (receiveBlocksLogged doubleSha256 wanted passes socket result log).1 =
      receiveBlocks doubleSha256 wanted passes socket result := by
  induction passes generalizing socket result log with
  | zero => rfl
  | succ passes ih =>
      have read := readNextNonPingMessageLogged_fst socket result.commandTrace log
      unfold receiveBlocksLogged receiveBlocks
      rw [← read]
      generalize readNextNonPingMessageLogged socket result.commandTrace log = next
      obtain ⟨⟨_ | message, after, traced⟩, logged⟩ := next
      · rw [apply_ite Prod.fst]
      · dsimp only
        split
        · split
          · cases acceptBlock doubleSha256 message.payload
                { result with commandTrace := traced } with
            | error fault => rfl
            | ok accepted =>
                cases accepted with
                | error status => rfl
                | ok extended => exact ih _ _ _
          · exact ih _ _ _
        · rfl

theorem requestBlocksLogged_fst (getData : ByteString) (port : UInt16)
    (now : UInt64) (endpoint : Endpoint) :
    (requestBlocksLogged getData port now endpoint).1 =
      requestBlocks getData port now endpoint := by
  unfold requestBlocksLogged requestBlocks
  rw [← completeVersionHandshakeLogged_fst]
  simp only [apply_ite Prod.fst]

theorem tryEndpointLogged_fst {wanted : Nat} {getData : ByteString} {port : UInt16}
    {now : UInt64} {endpoint : Endpoint} (connects : endpoint.connects = true)
    (result : SignetBlocksResult) :
    (tryEndpointLogged doubleSha256 wanted getData port now endpoint).1 =
      tryEndpoint doubleSha256 wanted getData port now endpoint result := by
  unfold tryEndpointLogged tryEndpoint
  rw [if_neg (not_not.mpr connects), ← requestBlocksLogged_fst]
  simp only [apply_ite Prod.fst, receiveBlocksLogged_fst]

theorem tryEndpointsLogged_fst (wanted : Nat) (getData : ByteString) (port : UInt16)
    (now : UInt64) (endpoints : List Endpoint) (result : SignetBlocksResult) :
    (tryEndpointsLogged doubleSha256 wanted getData port now endpoints result).1 =
      tryEndpoints doubleSha256 wanted getData port now endpoints result := by
  induction endpoints generalizing result with
  | nil => rfl
  | cons endpoint rest ih =>
      unfold tryEndpointsLogged tryEndpoints
      by_cases connects : endpoint.connects = true
      · rw [if_neg (not_not.mpr connects), ← tryEndpointLogged_fst connects]
        generalize tryEndpointLogged doubleSha256 wanted getData port now endpoint =
          attempt
        obtain ⟨fault | ended, log⟩ := attempt
        · rfl
        · cases ended with
          | givesUp after => exact ih after
          | fails status after => rfl
          | delivers after => rfl
      · rw [if_pos connects, tryEndpoint, if_pos connects]
        exact ih result

theorem fetchBlocksLogged_fst (blockHashes : List ByteString) (world : FetchWorld) :
    (fetchBlocksLogged doubleSha256 blockHashes world).1 =
      fetchBlocks doubleSha256 blockHashes world := by
  have peers : (fetchFromPeersLogged doubleSha256 blockHashes world).1 =
      fetchFromPeers doubleSha256 blockHashes world := by
    unfold fetchFromPeersLogged fetchFromPeers
    cases encodeGetDataPayload blockHashes with
    | none => rfl
    | some getData =>
        cases world.endpoints with
        | none => rfl
        | some endpoints => simp only [← tryEndpointsLogged_fst]
  unfold fetchBlocksLogged fetchBlocks
  split
  · rfl
  · cases fetchFromCache doubleSha256 blockHashes world.root with
    | error fault => rfl
    | ok cached =>
        cases cached with
        | none => exact peers
        | some found => rfl

end Bitcoin

end Blocxxi
