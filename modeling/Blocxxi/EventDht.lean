import Blocxxi.EventStore
import Blocxxi.Krpc

/-!
# Queries over the network

A query with a deterministic key asks every router for the peers that announced
the key and every peer for its records, and merges what comes back into the
records of the local store.  A request waits for one reply before the next one
is sent; replies are the input of the model.
-/

namespace Blocxxi

namespace P2P

open Blocxxi.Core Cxx ByteText Bencode Kademlia MergeByKey

/-- The address is in network order: four or sixteen bytes. -/
structure IpEndpoint where
  address : ByteString := [0, 0, 0, 0]
  port : UInt16 := 0
  deriving DecidableEq

/-- The text of an endpoint with an address of four bytes. -/
def IpEndpoint.toText (endpoint : IpEndpoint) : ByteString :=
  DelimitedText.joined 46 (endpoint.address.map fun byte => decimal byte.toNat) ++
    58 :: decimal endpoint.port.toNat

def decodeCompactPeer (encoded : ByteString) : Outcome IpEndpoint :=
  match encoded with
  | [first, second, third, fourth, high, low] =>
      .returned
        { address := [first, second, third, fourth]
          port := (high.toUInt16 <<< 8) ||| low.toUInt16 }
  | _ => .thrown "compact peer encoding must be 6 bytes"

/-- What comes of a request while its caller waits. -/
inductive Reply
  | timedOut
  | failed (message : String)
  | answered (message : KrpcMessage)

/-- The session: who asks, the replies to come, and the requests sent. -/
structure Session where
  selfId : Hash160 := Hash.zero
  replies : List Reply := []
  sent : List (IpEndpoint × KrpcQuery) := []

/-- Send a query and wait for its reply; no reply is a timeout. -/
def Session.ask (session : Session) (destination : IpEndpoint)
    (query : KrpcQuery) : Reply × Session :=
  (session.replies.headD .timedOut,
    { session with
      replies := session.replies.tail
      sent := session.sent ++ [(destination, query)] })

/-- A field that may be absent; a field of another type throws. -/
def findString (values : DictionaryType) (key : String) :
    Outcome (Option ByteString) :=
  match values.lookup (ascii key) with
  | none => .returned none
  | some found => do
      let text ← found.asString
      .returned (some text)

def findInteger (values : DictionaryType) (key : String) :
    Outcome (Option Int64) :=
  match values.lookup (ascii key) with
  | none => .returned none
  | some found => do
      let integer ← found.asInteger
      .returned (some integer)

/-- The attributes, unless some item lacks its key or its value. -/
def parseAttributes : List Value → Outcome (Option (List EventAttribute))
  | [] => .returned (some [])
  | item :: items => do
      let entry ← item.asDictionary
      let key ← findString entry "key"
      let value ← findString entry "value"
      match key, value with
      | some key, some value => do
          let rest ← parseAttributes items
          .returned (rest.map ({ key := key, value := value } :: ·))
      | _, _ => .returned none

/-- The items of a list field; an absent field has none. -/
def findList (values : DictionaryType) (key : String) : Outcome (List Value) :=
  match values.lookup (ascii key) with
  | none => .returned []
  | some found => found.asList

/-- The strings of a list. -/
def stringsOf : List Value → Outcome (List ByteString)
  | [] => .returned []
  | item :: items => do
      let text ← item.asString
      let rest ← stringsOf items
      .returned (text :: rest)

def parseEnvelope (value : Value) : Outcome (Option EventEnvelope) := do
  let dict ← value.asDictionary
  let schema ← findString dict "schema"
  let eventType ← findString dict "event_type"
  let taxonomy ← findString dict "taxonomy"
  let source ← findString dict "source"
  let producer ← findString dict "producer"
  let windowStart ← findInteger dict "window_start"
  let windowEnd ← findInteger dict "window_end"
  let observedAt ← findInteger dict "observed_at"
  let publishedAt ← findInteger dict "published_at"
  let summary ← findString dict "summary"
  let payload ← findString dict "payload"
  match schema, eventType, taxonomy, source, producer, windowStart, windowEnd,
      observedAt, publishedAt, summary, payload with
  | some schema, some eventType, some taxonomy, some source, some producer,
      some windowStart, some windowEnd, some observedAt, some publishedAt,
      some summary, some payload => do
      let identifierItems ← findList dict "identifiers"
      let identifiers ← stringsOf identifierItems
      let attributeItems ← findList dict "attributes"
      let attributes ← parseAttributes attributeItems
      .returned (attributes.map fun attributes =>
        { schema, eventType, taxonomy, source, producer,
          window := { startUtc := windowStart, endUtc := windowEnd },
          observedAtUtc := observedAt, publishedAtUtc := publishedAt,
          identifiers, attributes, summary, payload })
  | _, _, _, _, _, _, _, _, _, _, _ => .returned none

def parseSignedEventRecord (value : Value) :
    Outcome (Option SignedEventRecord) := do
  let dict ← value.asDictionary
  let signerName ← findString dict "signer_name"
  let publicKey ← findString dict "signer_public_key_hex"
  let signature ← findString dict "signature_hex"
  match dict.lookup (ascii "envelope"), signerName, publicKey, signature with
  | some found, some signerName, some publicKey, some signature => do
      let envelope ← parseEnvelope found
      .returned (envelope.map fun envelope =>
        { envelope, signerName, signerPublicKeyHex := publicKey,
          signatureHex := signature })
  | _, _, _, _ => .returned none

/-- The event that stands for a record a peer has sent. -/
def receivedEvent (record : SignedEventRecord) : PublishedEvent where
  dhtKey := record.deterministicKey
  infoHash := deriveInfoHash record.deterministicKey
  record := record

/-- The events of a list of records, unless some record is invalid. -/
def receivedEvents : List Value → Outcome (Option (List PublishedEvent))
  | [] => .returned (some [])
  | item :: items => do
      let parsed ← parseSignedEventRecord item
      match parsed with
      | none => .returned none
      | some record => do
          let rest ← receivedEvents items
          .returned (rest.map (receivedEvent record :: ·))

/-- The status and the result of a request: `read` is the callback on a
response.  An exception thrown by the callback is swallowed by the receiver of
the datagram, which leaves the status of a timeout. -/
def settle {Result : Type} (timeout wrongPayload : String) (none : Result)
    (read : DictionaryType → Outcome (Status × Result)) :
    Reply → Status × Result
  | .timedOut => (.failure .ioError timeout, none)
  | .failed message => (.failure .ioError message, none)
  | .answered message =>
      match message.payload with
      | .response response =>
          match read response.values with
          | .returned settled => settled
          | _ => (.failure .ioError timeout, none)
      | _ => (.failure .rejected wrongPayload, none)

/-- The endpoints that a list of compact peers stands for. -/
def decodePeers : List Value → Outcome (List IpEndpoint)
  | [] => .returned []
  | value :: values => do
      let encoded ← value.asString
      let peer ← decodeCompactPeer encoded
      let peers ← decodePeers values
      .returned (peer :: peers)

/-- The callback on a router's response, when no token is asked for. -/
def readPeers (values : DictionaryType) :
    Outcome (Status × List IpEndpoint) := do
  let items ← findList values "values"
  let peers ← decodePeers items
  .returned (.success "", peers)

def queryRouter (deterministicKey : ByteString) (router : IpEndpoint)
    (session : Session) : (Status × List IpEndpoint) × Session :=
  let (reply, session) := session.ask router
    { method := ascii "get_peers"
      arguments := [(ascii "id", .string session.selfId.bytes),
        (ascii "info_hash", .string (deriveInfoHash deterministicKey).bytes)] }
  (settle "DHT query timed out" "DHT query did not return a response payload"
    [] readPeers reply, session)

/-- The callback on a peer's response. -/
def readRecords (values : DictionaryType) :
    Outcome (Status × List PublishedEvent) :=
  match values.lookup (ascii "records") with
  | none => .returned (.success "", [])
  | some found => do
      let items ← found.asList
      let events ← receivedEvents items
      .returned (match events with
        | none =>
            (.failure .rejected "peer query returned an invalid event record",
              [])
        | some events => (.success "", events))

def queryPeerRecords (deterministicKey : ByteString) (peer : IpEndpoint)
    (session : Session) : (Status × List PublishedEvent) × Session :=
  let (reply, session) := session.ask peer
    { method := ascii "bx_get_event"
      arguments := [(ascii "id", .string session.selfId.bytes),
        (ascii "key", .string deterministicKey)] }
  (settle "peer record query timed out"
    "peer query did not return a response payload" [] readRecords reply, session)

structure EventQueryResult where
  records : List PublishedEvent := []
  peers : List IpEndpoint := []

/-- The variables of the loops over routers and peers. -/
structure QueryState where
  session : Session
  result : EventQueryResult
  seen : List ByteString := []
  anySuccess : Bool := false
  lastError : Status :=
    .failure .ioError "failed to query deterministic DHT key"

/-- Merge events into a list, one after the other. -/
def mergePublishedRecords (records offered : List PublishedEvent) :
    List PublishedEvent :=
  offered.foldl
    (fun records published => (mergePublishedRecord records published).2) records

/-- One pass of the loop over the peers of a router. -/
def visitPeer (deterministicKey : ByteString) (state : QueryState)
    (peer : IpEndpoint) : QueryState :=
  let isNew := !state.seen.contains peer.toText
  let ((status, records), session) :=
    queryPeerRecords deterministicKey peer state.session
  { state with
    session := session
    seen := if isNew then peer.toText :: state.seen else state.seen
    result :=
      { peers := if isNew then state.result.peers ++ [peer]
          else state.result.peers
        records := if status.isOk then
            mergePublishedRecords state.result.records records
          else state.result.records } }

/-- One pass of the loop over the routers. -/
def visitRouter (deterministicKey : ByteString) (state : QueryState)
    (router : IpEndpoint) : QueryState :=
  let ((status, peers), session) :=
    queryRouter deterministicKey router state.session
  if ¬ status.isOk then { state with session := session, lastError := status }
  else
    { peers.foldl (visitPeer deterministicKey) { state with session := session }
      with anySuccess := true }

structure MainlineEventDht where
  routers : List IpEndpoint := []
  localStore : MemoryEventDht := {}

/-- The status and the result of a query, and the session after it. -/
def MainlineEventDht.query (arrangement : Arrangement) (query : EventQuery)
    (dht : MainlineEventDht) (session : Session) :
    Status × EventQueryResult × Session :=
  let records := dht.localStore.query arrangement query
  match query.deterministicKey with
  | none => (.success "", { records := records }, session)
  | some deterministicKey =>
      if dht.routers = [] then
        (.failure .invalidArgument "at least one DHT router is required",
          { records := records }, session)
      else
        let state := dht.routers.foldl (visitRouter deterministicKey)
          { session := session, result := { records := records } }
        (if state.anySuccess then .success "" else state.lastError,
          { state.result with records := state.result.records.take query.limit },
          state.session)

end P2P

end Blocxxi
