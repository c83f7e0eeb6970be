import Blocxxi.EventDht
import Blocxxi.MainlineNode
import Blocxxi.OrderedMap

/-!
# Answering queries

A node answers the queries it receives.  It remembers the token it gave to each
sender that asked for peers, and the peers that were announced with the token.
What is done before an answer fails stays done: the loop that receives swallows
the exception.  The text of an address that is not IPv4 is a parameter, and so
are the application's callbacks, which come with every datagram.
-/

namespace Blocxxi

namespace Kademlia

open Cxx Bencode ByteText P2P

def isV4 (endpoint : IpEndpoint) : Bool :=
  endpoint.address.length == 4

/-- `ToString`: the address, a colon and the port. -/
def endpointText (v6Text : ByteString → ByteString) (endpoint : IpEndpoint) :
    ByteString :=
  if isV4 endpoint then endpoint.toText
  else v6Text endpoint.address ++ 58 :: decimal endpoint.port.toNat

def encodeCompactPeer (endpoint : IpEndpoint) : Outcome ByteString :=
  if isV4 endpoint then
    .returned (endpoint.address ++
      [(endpoint.port >>> 8).toUInt8, endpoint.port.toUInt8])
  else .thrown "compact peer encoding currently requires IPv4"

structure Node where
  id : Hash160
  endpoint : IpEndpoint

def encodeCompactNode (node : Node) : Outcome ByteString :=
  if isV4 node.endpoint then do
    let peer ← encodeCompactPeer node.endpoint
    .returned (node.id.bytes ++ peer)
  else .thrown "compact node encoding currently requires IPv4"

/-- The loop over the announced peers of an answer. -/
def compactPeers : List IpEndpoint → Outcome (List Value)
  | [] => .returned []
  | peer :: peers => do
      let compact ← encodeCompactPeer peer
      let rest ← compactPeers peers
      .returned (.string compact :: rest)

/-- The tokens by the text of their senders, and the announced peers by info
hash. -/
structure PeerTables where
  issuedTokens : AList fun _ : ByteString => ByteString := ∅
  announcedPeers : OrderedMap ByteString (List IpEndpoint) := .empty

/-- A string argument of a query. -/
def requireArgument (query : KrpcQuery) (key : String) : Outcome ByteString :=
  match query.arguments.lookup (ascii key) with
  | none => .thrown "missing query string argument"
  | some found => found.asString

/-- The endpoint that an announcement is for: the sender, with the port in the
arguments unless the port of the datagram is implied. -/
def announcedEndpoint (sender : IpEndpoint) (query : KrpcQuery) :
    Outcome IpEndpoint := do
  let impliedPort ← findInteger query.arguments "implied_port"
  if impliedPort.getD 0 = 0 then do
    let port ← findInteger query.arguments "port"
    match port with
    | none => .thrown "announce_peer requires a port"
    | some port =>
        .returned { sender with port := UInt16.ofNat port.toUInt64.toNat }
  else .returned sender

/-- A peer that is known is not recorded again. -/
def recordPeer (endpoint : IpEndpoint) (known : Option (List IpEndpoint)) :
    List IpEndpoint :=
  let peers := known.getD []
  if endpoint ∈ peers then peers else peers ++ [endpoint]

def recordAnnouncedPeer (infoHash : ByteString) (sender : IpEndpoint)
    (query : KrpcQuery) (announced : OrderedMap ByteString (List IpEndpoint)) :
    Outcome (OrderedMap ByteString (List IpEndpoint)) := do
  let endpoint ← announcedEndpoint sender query
  .returned (announced.alter infoHash (recordPeer endpoint))

/-- The callbacks of the application: the first is told of every query, the
second, if there is one, answers those the node does not know. -/
structure Application where
  onQuery : ByteString → IpEndpoint → Outcome Unit := fun _ _ => .returned ()
  onCustomQuery : Option (ByteString → KrpcQuery → IpEndpoint →
    Outcome (Option DictionaryType)) := none

def makeErrorResponse (code : Int64) (message : ByteString)
    (transactionId : ByteString) : KrpcMessage where
  transactionId := transactionId
  version := some (ascii "BX01")
  payload := .error { code := code, message := message }

def makeValuesResponse (transactionId : ByteString) (values : DictionaryType) :
    KrpcMessage where
  transactionId := transactionId
  version := some (ascii "BX01")
  payload := .response { values := values }

/-- `std::map::insert_or_assign`. -/
def insertOrAssign (key : ByteString) (value : Value) :
    DictionaryType → DictionaryType
  | [] => [(key, value)]
  | (other, stored) :: rest =>
      if key = other then (key, value) :: rest
      else if key < other then (key, value) :: (other, stored) :: rest
      else (other, stored) :: insertOrAssign key value rest

section Responses

variable (self : Node)

def selfValues : DictionaryType :=
  [(ascii "id", .string self.id.bytes)]

def findNodeValues : Outcome DictionaryType := do
  let nodes ← encodeCompactNode self
  .returned (emplace (ascii "nodes") (.string nodes) (selfValues self))

def getPeersValues (token infoHash : ByteString)
    (announced : OrderedMap ByteString (List IpEndpoint)) :
    Outcome DictionaryType :=
  let values := emplace (ascii "token") (.string token) (selfValues self)
  match announced.lookup infoHash with
  | some (peer :: peers) => do
      let compact ← compactPeers (peer :: peers)
      .returned (emplace (ascii "values") (.list compact) values)
  | _ => do
      let nodes ← encodeCompactNode self
      .returned (emplace (ascii "nodes") (.string nodes) values)

/-- The info hashes with a peer, one after the other. -/
def sampleText (announced : OrderedMap ByteString (List IpEndpoint)) :
    ByteString :=
  announced.entries.flatMap fun entry => if entry.2.isEmpty then [] else entry.1

def makeSampleInfohashesPayload
    (announced : OrderedMap ByteString (List IpEndpoint)) :
    Outcome DictionaryType := do
  let nodes ← encodeCompactNode self
  .returned
    [(ascii "id", .string self.id.bytes),
      (ascii "interval", .integer 21600),
      (ascii "nodes", .string nodes),
      (ascii "num", .integer (Int64.ofNat announced.entries.length)),
      (ascii "samples", .string (sampleText announced))]

/-- The values of the application's callback over the node's own. -/
def customValues (application : Application) (method : ByteString)
    (query : KrpcQuery) (sender : IpEndpoint) :
    Outcome (Option DictionaryType) :=
  match application.onCustomQuery with
  | none => .returned none
  | some respond => do
      let values ← respond method query sender
      .returned (values.map fun custom => custom.foldl
        (fun values entry => insertOrAssign entry.1 entry.2 values)
        (selfValues self))

end Responses

section Answers

variable (v6Text : ByteString → ByteString) (self : Node)

def makeToken (sender : IpEndpoint) : ByteString :=
  endpointText v6Text sender

/-- Answer with the values, if they could be made. -/
def answerWith (transactionId : ByteString) (values : Outcome DictionaryType) :
    Outcome (Option KrpcMessage) := do
  let values ← values
  .returned (some (makeValuesResponse transactionId values))

/-- The token is remembered before the answer is made. -/
def answerGetPeers (query : KrpcQuery) (sender : IpEndpoint)
    (transactionId : ByteString) (tables : PeerTables) :
    Outcome (Option KrpcMessage) × PeerTables :=
  match requireArgument query "info_hash" with
  | .returned infoHash =>
      let token := makeToken v6Text sender
      (answerWith transactionId
          (getPeersValues self token infoHash tables.announcedPeers),
        { tables with issuedTokens :=
            tables.issuedTokens.insert (endpointText v6Text sender) token })
  | .thrown message => (.thrown message, tables)
  | .running => (.running, tables)

/-- The peers after an announcement with the right token. -/
def acceptAnnouncement (query : KrpcQuery) (sender : IpEndpoint)
    (announced : OrderedMap ByteString (List IpEndpoint)) :
    Outcome (OrderedMap ByteString (List IpEndpoint)) := do
  let infoHash ← requireArgument query "info_hash"
  recordAnnouncedPeer infoHash sender query announced

def answerAnnouncePeer (query : KrpcQuery) (sender : IpEndpoint)
    (transactionId : ByteString) (tables : PeerTables) :
    Outcome (Option KrpcMessage) × PeerTables :=
  match requireArgument query "token" with
  | .returned token =>
      if tables.issuedTokens.lookup (endpointText v6Text sender) ≠ some token then
        (.returned (some (makeErrorResponse 203
          (ascii "invalid announce_peer token") transactionId)), tables)
      else
        match acceptAnnouncement query sender tables.announcedPeers with
        | .returned announced =>
            (.returned (some (makeValuesResponse transactionId (selfValues self))),
              { tables with announcedPeers := announced })
        | .thrown message => (.thrown message, tables)
        | .running => (.running, tables)
  | .thrown message => (.thrown message, tables)
  | .running => (.running, tables)

def makeResponse (application : Application) (query : KrpcQuery)
    (sender : IpEndpoint) (transactionId : ByteString) (tables : PeerTables) :
    Outcome (Option KrpcMessage) × PeerTables :=
  if query.method = ascii "find_node" then
    (answerWith transactionId (findNodeValues self), tables)
  else if query.method = ascii "get_peers" then
    answerGetPeers v6Text self query sender transactionId tables
  else if query.method = ascii "sample_infohashes" then
    (answerWith transactionId
      (makeSampleInfohashesPayload self tables.announcedPeers), tables)
  else if query.method = ascii "announce_peer" then
    answerAnnouncePeer v6Text self query sender transactionId tables
  else if query.method = ascii "ping" then
    (.returned (some (makeValuesResponse transactionId (selfValues self))), tables)
  else
    (do let values ← customValues self application query.method query sender
        .returned (values.map (makeValuesResponse transactionId)), tables)

/-- A datagram, with the number of steps the decoder gets and the callbacks at
the time it arrives. -/
structure Datagram where
  sender : IpEndpoint
  bytes : ByteString
  steps : Nat
  application : Application := {}

/-- The query in a datagram that the application lets pass, with its transaction
identifier. -/
def Datagram.query? (datagram : Datagram) : Option (ByteString × KrpcQuery) :=
  match decodeKrpc datagram.bytes datagram.steps with
  | .returned { transactionId, payload := .query query, .. } =>
      match datagram.application.onQuery query.method datagram.sender with
      | .returned _ => some (transactionId, query)
      | _ => none
  | _ => none

/-- `AsyncSend`: what is larger than a datagram is not sent. -/
def asyncSend (encoded : ByteString) : Option ByteString :=
  if safePayloadSize < encoded.length then none else some encoded

/-- The datagram that is sent for a response, if there is one. -/
def sendResponse (response : Outcome (Option KrpcMessage)) : Option ByteString :=
  match response with
  | .returned (some response) => asyncSend (encodeKrpc response)
  | _ => none

/-- The datagram that is sent in answer, and the tables after it. -/
def answerDatagram (datagram : Datagram) (tables : PeerTables) :
    Option ByteString × PeerTables :=
  match datagram.query? with
  | none => (none, tables)
  | some (transactionId, query) =>
      let answered := makeResponse v6Text self datagram.application query
        datagram.sender transactionId tables
      (sendResponse answered.1, answered.2)

/-- The tables after some datagrams, starting with none. -/
def tablesAfter (datagrams : List Datagram) : PeerTables :=
  StepMachine.run (fun datagram tables =>
    (answerDatagram v6Text self datagram tables).2) datagrams {}

end Answers

end Kademlia

end Blocxxi
