import Blocxxi.InfoHashSamples
import Blocxxi.KrpcRoundTrip

/-!
# The size of an answer

The answer to a query for peers lists all of them, and a sample all info hashes,
so the senders decide how large an answer gets.  What is larger than a datagram
is dropped without a word.  Here the sizes are computed, and with them how much
may be announced before an answer is dropped.
-/

namespace Blocxxi

namespace Kademlia

open Cxx Bencode ByteText P2P DelimitedText StepMachine

/-- The size of an encoded string of some length. -/
def stringSize (length : Nat) : Nat :=
  (decimal length).length + 1 + length

theorem appendEncodedString_length (value : ByteString) :
    (appendEncodedString value).length = stringSize value.length := by
  have colon : (ascii ":").length = 1 := rfl
  rw [appendEncodedString, List.length_append, List.length_append, colon,
    stringSize]

theorem decimal_length_le_of_lt {number digits : Nat} (positive : 0 < digits)
    (small : number < 10 ^ digits) : (decimal number).length ≤ digits := by
  unfold decimal
  split
  · exact positive
  · rw [List.length_reverse, List.length_map, Nat.digits_length_le_iff (by decide)]
    exact small

theorem stringSize_le {length bound : Nat} (short : length ≤ bound)
    (twoDigits : bound < 100) : stringSize length ≤ 3 + bound := by
  have digits : (decimal length).length ≤ 2 :=
    decimal_length_le_of_lt (by decide) (by omega)
  unfold stringSize
  omega

/-- What a response adds to its values: the transaction identifier, the version
and the type. -/
theorem response_length (transactionId : ByteString) (values : DictionaryType) :
    (encodeKrpc (makeValuesResponse transactionId values)).length =
      25 + stringSize transactionId.length + (encodeEntries values).length := by
  have root : messageRoot (makeValuesResponse transactionId values) =
      [(ascii "r", .dictionary values), (ascii "t", .string transactionId),
        (ascii "v", .string (ascii "BX01")), (ascii "y", .string (ascii "r"))] :=
    rfl
  rw [encodeKrpc_eq, root]
  simp only [encode, encodeEntries, List.length_append, appendEncodedString_length]
  have constants : (ascii "d").length = 1 ∧ (ascii "e").length = 1 ∧
      stringSize (ascii "r").length = 3 ∧ stringSize (ascii "t").length = 3 ∧
      stringSize (ascii "v").length = 3 ∧ stringSize (ascii "y").length = 3 ∧
      stringSize (ascii "BX01").length = 6 ∧ ([] : ByteString).length = 0 := by
    decide
  omega

section Answers

variable {node : Node}

theorem selfValues_length : (encodeEntries (selfValues node)).length = 27 := by
  have bytes : node.id.bytes.length = 20 := node.id.size_eq
  simp only [selfValues, encodeEntries, encode, List.length_append,
    appendEncodedString_length, bytes]
  decide

theorem compactBytes_length {endpoint : IpEndpoint} (v4 : isV4 endpoint = true) :
    (compactBytes endpoint).length = 6 := by
  rw [isV4, beq_iff_eq] at v4
  rw [compactBytes, List.length_append, v4]
  rfl

theorem compactNode_length (v4 : isV4 node.endpoint = true) :
    (node.id.bytes ++ compactBytes node.endpoint).length = 26 := by
  rw [List.length_append, compactBytes_length v4, node.id.size_eq]

/-- Every announced peer takes eight bytes of an answer. -/
theorem compactPeers_length {peers : List IpEndpoint}
    (v4 : ∀ peer ∈ peers, isV4 peer = true) :
    (encodeItems (peers.map fun peer => .string (compactBytes peer))).length =
      8 * peers.length := by
  induction peers with
  | nil => rfl
  | cons peer peers ih =>
      have size := ih fun other member => v4 other (List.mem_cons_of_mem peer member)
      have eight : stringSize 6 = 8 := by decide
      rw [List.map_cons, encodeItems, encode, List.length_append,
        appendEncodedString_length, compactBytes_length (v4 peer List.mem_cons_self),
        size, eight, List.length_cons]
      omega

theorem findNodeValues_length (v4 : isV4 node.endpoint = true) :
    ∃ values, findNodeValues node = .returned values ∧
      (encodeEntries values).length = 63 := by
  have size := compactNode_length v4
  have bytes : node.id.bytes.length = 20 := node.id.size_eq
  rw [findNodeValues, encodeCompactNode_v4 v4]
  refine ⟨[(ascii "id", .string node.id.bytes),
    (ascii "nodes", .string (node.id.bytes ++ compactBytes node.endpoint))], rfl, ?_⟩
  generalize node.id.bytes ++ compactBytes node.endpoint = nodes at size ⊢
  simp only [encodeEntries, encode, List.length_append,
    appendEncodedString_length, bytes, size]
  decide

/-- The size of the announced peers in an answer, or of the node in their
place. -/
def peersSize : Option (List IpEndpoint) → Nat
  | some (peer :: peers) => 10 + 8 * (peer :: peers).length
  | _ => 36

theorem getPeersValues_length (v4 : isV4 node.endpoint = true)
    (token infoHash : ByteString)
    {announced : OrderedMap ByteString (List IpEndpoint)}
    (peersV4 : ∀ peers, announced.lookup infoHash = some peers →
      ∀ peer ∈ peers, isV4 peer = true) :
    ∃ values, getPeersValues node token infoHash announced = .returned values ∧
      (encodeEntries values).length = 34 + stringSize token.length +
        peersSize (announced.lookup infoHash) := by
  have bytes : node.id.bytes.length = 20 := node.id.size_eq
  unfold getPeersValues
  dsimp only
  split
  · rename_i peer peers found
    have size := compactPeers_length (peersV4 _ found)
    rw [compactPeers_v4 (peersV4 _ found)]
    generalize ((peer :: peers).map fun peer =>
      Value.string (compactBytes peer)) = compact at size ⊢
    refine ⟨[(ascii "id", .string node.id.bytes), (ascii "token", .string token),
      (ascii "values", .list compact)], rfl, ?_⟩
    simp only [encodeEntries, encode, List.length_append,
      appendEncodedString_length, bytes, size]
    have constants : stringSize (ascii "id").length = 4 ∧ stringSize 20 = 23 ∧
        stringSize (ascii "token").length = 7 ∧
        stringSize (ascii "values").length = 8 ∧ (ascii "l").length = 1 ∧
        (ascii "e").length = 1 ∧ ([] : ByteString).length = 0 := by
      decide
    rw [found, peersSize]
    omega
  · rename_i noPeers
    have isNode : peersSize (announced.lookup infoHash) = 36 := by
      unfold peersSize
      split
      · rename_i peer peers found
        exact (noPeers peer peers found).elim
      · rfl
    have size := compactNode_length v4
    rw [encodeCompactNode_v4 v4]
    generalize node.id.bytes ++ compactBytes node.endpoint = nodes at size ⊢
    refine ⟨[(ascii "id", .string node.id.bytes), (ascii "nodes", .string nodes),
      (ascii "token", .string token)], rfl, ?_⟩
    simp only [encodeEntries, encode, List.length_append,
      appendEncodedString_length, bytes, size]
    have constants : stringSize (ascii "id").length = 4 ∧ stringSize 20 = 23 ∧
        stringSize (ascii "token").length = 7 ∧
        stringSize (ascii "nodes").length = 7 ∧ stringSize 26 = 29 ∧
        ([] : ByteString).length = 0 := by
      decide
    omega

/-- The digits of the number of info hashes. -/
def numText (announced : OrderedMap ByteString (List IpEndpoint)) : ByteString :=
  decimalInt (Int64.ofNat announced.entries.length).toInt

theorem samplePayload_length (v4 : isV4 node.endpoint = true)
    (announced : OrderedMap ByteString (List IpEndpoint)) :
    ∃ values, makeSampleInfohashesPayload node announced = .returned values ∧
      (encodeEntries values).length = 96 + (numText announced).length +
        stringSize (sampleText announced).length := by
  have size := compactNode_length v4
  have bytes : node.id.bytes.length = 20 := node.id.size_eq
  rw [makeSampleInfohashesPayload, encodeCompactNode_v4 v4]
  generalize node.id.bytes ++ compactBytes node.endpoint = nodes at size ⊢
  refine ⟨_, rfl, ?_⟩
  simp only [encodeEntries, encode, List.length_append,
    appendEncodedString_length, bytes, size]
  have constants : stringSize (ascii "id").length = 4 ∧ stringSize 20 = 23 ∧
      stringSize (ascii "interval").length = 10 ∧
      (decimalInt (Int64.toInt 21600)).length = 5 ∧
      stringSize (ascii "nodes").length = 7 ∧ stringSize 26 = 29 ∧
      stringSize (ascii "num").length = 5 ∧
      stringSize (ascii "samples").length = 9 ∧ (ascii "i").length = 1 ∧
      (ascii "e").length = 1 ∧ ([] : ByteString).length = 0 := by
    decide
  unfold numText
  omega

end Answers

/-- The argument is there, and is as long as an identifier. -/
def HasHash (query : KrpcQuery) (key : String) : Prop :=
  ∃ hash, requireArgument query key = .returned hash ∧ hash.length = 20

/-- A query that a node must answer, with the arguments it should have. -/
def WellFormed (query : KrpcQuery) : Prop :=
  HasHash query "id" ∧
    (query.method = ascii "ping" ∨
      (query.method = ascii "find_node" ∧ HasHash query "target") ∨
      (query.method = ascii "get_peers" ∧ HasHash query "info_hash") ∨
      (query.method = ascii "sample_infohashes" ∧ HasHash query "target"))

/-- There is a response, and it is sent. -/
def Fits (response : Outcome (Option KrpcMessage)) : Prop :=
  ∃ message, response = .returned (some message) ∧
    (encodeKrpc message).length ≤ safePayloadSize ∧
    sendResponse response = some (encodeKrpc message)

section Fitting

variable (v6Text : ByteString → ByteString) (node : Node)

/-- Every well-formed query of an IPv4 sender is answered. -/
def AlwaysAnswers (tables : PeerTables) : Prop :=
  ∀ (application : Application) (query : KrpcQuery) (sender : IpEndpoint)
    (transactionId : ByteString), WellFormed query → isV4 sender = true →
      transactionId.length ≤ 16 →
        Fits (makeResponse v6Text node application query sender transactionId
          tables).1

/-- No info hash has more peers than an answer has room for, and a sample has
room for all info hashes. -/
structure LittleAnnounced (announced : OrderedMap ByteString (List IpEndpoint)) :
    Prop where
  peers : ∀ infoHash peers, infoHash.length = 20 →
    announced.lookup infoHash = some peers → peers.length ≤ 167
  samples : (sampleText announced).length +
    (decimal (sampleText announced).length).length +
      (numText announced).length ≤ 1311

variable {v6Text node}

theorem fits_answerWith {transactionId : ByteString}
    {answer : Outcome DictionaryType} {values : DictionaryType}
    (returned : answer = .returned values) :
    Fits (answerWith transactionId answer) ↔
      25 + stringSize transactionId.length + (encodeEntries values).length ≤
        1452 := by
  rw [returned, ← response_length]
  constructor
  · rintro ⟨message, isMessage, small, -⟩
    cases isMessage
    exact small
  · intro small
    refine ⟨_, rfl, small, ?_⟩
    exact if_neg (Nat.not_lt.mpr small)

theorem decimal_byte_length (byte : UInt8) : (decimal byte.toNat).length ≤ 3 :=
  decimal_length_le_of_lt (by decide) (Nat.lt_trans byte.toNat_lt (by decide))

/-- The text of an IPv4 endpoint has no more than four times three digits, four
separators and five digits. -/
theorem endpointText_length {sender : IpEndpoint} (v4 : isV4 sender = true) :
    (endpointText v6Text sender).length ≤ 21 := by
  have port : (decimal sender.port.toNat).length ≤ 5 :=
    decimal_length_le_of_lt (by decide)
      (Nat.lt_trans sender.port.toNat_lt (by decide))
  rw [endpointText, if_pos v4, IpEndpoint.toText]
  rw [isV4, beq_iff_eq] at v4
  obtain ⟨first, second, third, fourth, address⟩ := List.length_eq_four.mp v4
  have firstLength := decimal_byte_length first
  have secondLength := decimal_byte_length second
  have thirdLength := decimal_byte_length third
  have fourthLength := decimal_byte_length fourth
  simp only [address, List.map_cons, List.map_nil, joined, List.flatMap_cons,
    List.flatMap_nil, List.length_append, List.length_cons, List.length_nil]
  omega

/-- The response to a query of each kind. -/
theorem makeResponse_ping (application : Application) {query : KrpcQuery}
    (sender : IpEndpoint) (transactionId : ByteString) (tables : PeerTables)
    (method : query.method = ascii "ping") :
    (makeResponse v6Text node application query sender transactionId tables).1 =
      answerWith transactionId (.returned (selfValues node)) := by
  have differs : ascii "ping" ≠ ascii "find_node" ∧
      ascii "ping" ≠ ascii "get_peers" ∧
      ascii "ping" ≠ ascii "sample_infohashes" ∧
      ascii "ping" ≠ ascii "announce_peer" := by
    decide
  simp only [makeResponse, method, differs.1, differs.2.1, differs.2.2.1,
    differs.2.2.2, if_false, if_true]
  rfl

theorem makeResponse_findNode (application : Application) {query : KrpcQuery}
    (sender : IpEndpoint) (transactionId : ByteString) (tables : PeerTables)
    (method : query.method = ascii "find_node") :
    (makeResponse v6Text node application query sender transactionId tables).1 =
      answerWith transactionId (findNodeValues node) := by
  simp only [makeResponse, method, if_true]

theorem makeResponse_getPeers (application : Application) {query : KrpcQuery}
    (sender : IpEndpoint) (transactionId : ByteString) (tables : PeerTables)
    (method : query.method = ascii "get_peers") {infoHash : ByteString}
    (isHash : requireArgument query "info_hash" = .returned infoHash) :
    (makeResponse v6Text node application query sender transactionId tables).1 =
      answerWith transactionId (getPeersValues node (endpointText v6Text sender)
        infoHash tables.announcedPeers) := by
  have differs : ascii "get_peers" ≠ ascii "find_node" := by decide
  simp only [makeResponse, method, differs, if_false, if_true, answerGetPeers,
    isHash, makeToken]

theorem makeResponse_sample (application : Application) {query : KrpcQuery}
    (sender : IpEndpoint) (transactionId : ByteString) (tables : PeerTables)
    (method : query.method = ascii "sample_infohashes") :
    (makeResponse v6Text node application query sender transactionId tables).1 =
      answerWith transactionId
        (makeSampleInfohashesPayload node tables.announcedPeers) := by
  have differs : ascii "sample_infohashes" ≠ ascii "find_node" ∧
      ascii "sample_infohashes" ≠ ascii "get_peers" := by
    decide
  simp only [makeResponse, method, differs.1, differs.2, if_false, if_true]

/-- Every well-formed query is answered when little is announced. -/
theorem answers_of_littleAnnounced (v4 : isV4 node.endpoint = true)
    {tables : PeerTables}
    (peersV4 : ∀ infoHash peers,
      tables.announcedPeers.lookup infoHash = some peers →
        ∀ peer ∈ peers, isV4 peer = true)
    (little : LittleAnnounced tables.announcedPeers) :
    AlwaysAnswers v6Text node tables := by
  intro application query sender transactionId wellFormed senderV4 short
  have identifier := stringSize_le short (by decide)
  rcases wellFormed.2 with method | ⟨method, -⟩ | ⟨method, infoHash, isHash, size⟩ |
    ⟨method, -⟩
  · rw [makeResponse_ping application sender transactionId tables method,
      fits_answerWith rfl, selfValues_length]
    omega
  · obtain ⟨values, areValues, length⟩ := findNodeValues_length v4
    rw [makeResponse_findNode application sender transactionId tables method,
      fits_answerWith areValues]
    omega
  · obtain ⟨values, areValues, length⟩ := getPeersValues_length v4
      (endpointText v6Text sender) infoHash (peersV4 infoHash)
    rw [makeResponse_getPeers application sender transactionId tables method isHash,
      fits_answerWith areValues]
    have tokenLength : (endpointText v6Text sender).length ≤ 21 :=
      endpointText_length senderV4
    have token := stringSize_le tokenLength (by decide)
    have peers : peersSize (tables.announcedPeers.lookup infoHash) ≤ 1346 := by
      unfold peersSize
      split
      · rename_i peer peers found
        have few := little.peers infoHash _ size found
        omega
      · decide
    omega
  · obtain ⟨values, areValues, length⟩ := samplePayload_length v4
      tables.announcedPeers
    rw [makeResponse_sample application sender transactionId tables method,
      fits_answerWith areValues]
    have samples := little.samples
    unfold stringSize at length
    omega

/-- A query for peers, or for a sample, of twenty bytes. -/
def hashQuery (method key : String) (hash : ByteString) : KrpcQuery where
  method := ascii method
  arguments := [(ascii "id", .string (List.replicate 20 0)),
    (ascii key, .string hash)]

/-- The sender with the longest text. -/
def longSender : IpEndpoint where
  address := [255, 255, 255, 255]
  port := 65535

/-- The longest transaction identifier. -/
def longId : ByteString :=
  List.replicate 16 0

theorem littleAnnounced_of_answers (v4 : isV4 node.endpoint = true)
    {tables : PeerTables}
    (peersV4 : ∀ infoHash peers,
      tables.announcedPeers.lookup infoHash = some peers →
        ∀ peer ∈ peers, isV4 peer = true)
    (answers : AlwaysAnswers v6Text node tables) :
    LittleAnnounced tables.announcedPeers := by
  have identifier : stringSize longId.length = 19 := by decide
  have hasId (method key : String) (hash : ByteString) :
      HasHash (hashQuery method key hash) "id" :=
    ⟨List.replicate 20 0, rfl, rfl⟩
  constructor
  · intro infoHash peers size found
    have isHash : requireArgument (hashQuery "get_peers" "info_hash" infoHash)
        "info_hash" = .returned infoHash := rfl
    have fits := answers {} (hashQuery "get_peers" "info_hash" infoHash) longSender
      longId ⟨hasId _ _ _, Or.inr (Or.inr (Or.inl ⟨rfl, infoHash, isHash, size⟩))⟩
      rfl (by decide)
    obtain ⟨values, areValues, length⟩ := getPeersValues_length v4
      (endpointText v6Text longSender) infoHash (peersV4 infoHash)
    rw [makeResponse_getPeers {} longSender longId tables rfl isHash,
      fits_answerWith areValues, length, found] at fits
    have token : stringSize (endpointText v6Text longSender).length = 24 := by
      have isText : endpointText v6Text longSender = longSender.toText := rfl
      rw [isText]
      decide
    cases peers with
    | nil => exact Nat.zero_le _
    | cons peer peers =>
        rw [peersSize] at fits
        omega
  · have fits := answers {} (hashQuery "sample_infohashes" "target"
      (List.replicate 20 0)) longSender longId
      ⟨hasId _ _ _, Or.inr (Or.inr (Or.inr ⟨rfl, _, rfl, rfl⟩))⟩ rfl (by decide)
    obtain ⟨values, areValues, length⟩ := samplePayload_length v4
      tables.announcedPeers
    rw [makeResponse_sample {} longSender longId tables rfl,
      fits_answerWith areValues, length] at fits
    unfold stringSize at fits identifier
    omega

end Fitting

/-- A node with an IPv4 endpoint answers every well-formed query, after any
datagrams of IPv4 senders, exactly as long as little is announced. -/
theorem alwaysAnswers_iff (v6Text : ByteString → ByteString) {node : Node}
    (v4 : isV4 node.endpoint = true) {history : List Datagram}
    (sendersV4 : ∀ datagram ∈ history, isV4 datagram.sender = true) :
    AlwaysAnswers v6Text node (tablesAfter v6Text node history) ↔
      LittleAnnounced (tablesAfter v6Text node history).announcedPeers := by
  have peersV4 := announcedPeers_v4 v6Text node sendersV4
  constructor
  · exact littleAnnounced_of_answers v4 peersV4
  · exact answers_of_littleAnnounced v4 peersV4

/-- A message in a datagram, with enough steps to decode it. -/
def messageDatagram (sender : IpEndpoint) (message : KrpcMessage) : Datagram where
  sender := sender
  bytes := encodeKrpc message
  steps := (encodeKrpc message).length + 1

theorem messageDatagram_query? (sender : IpEndpoint) (message : KrpcMessage)
    {query : KrpcQuery} (isQuery : message.payload = .query query)
    (ordered : (Value.dictionary query.arguments).Ordered)
    (small : (encodeKrpc message).length < 2 ^ 63) :
    (messageDatagram sender message).query? =
      some (message.transactionId, query) := by
  have decoded : decodeKrpc (encodeKrpc message)
      ((encodeKrpc message).length + 1) = .returned message := by
    apply decodeKrpc_encodeKrpc _ small (Nat.lt_succ_self _)
    rw [isQuery]
    exact ordered
  obtain ⟨transactionId, version, payload⟩ := message
  cases isQuery
  rw [Datagram.query?, messageDatagram]
  dsimp only
  rw [decoded]

/-- An info hash that many peers are announced for. -/
def popularHash : ByteString :=
  List.replicate 20 104

def askMessage : KrpcMessage where
  transactionId := ascii "a"
  payload := .query (hashQuery "get_peers" "info_hash" popularHash)

def announceQuery (port : Nat) : KrpcQuery where
  method := ascii "announce_peer"
  arguments := [(ascii "id", .string (List.replicate 20 0)),
    (ascii "info_hash", .string popularHash),
    (ascii "port", .integer (Int64.ofNat port)),
    (ascii "token", .string (ascii "127.0.0.1:7"))]

def announceMessage (port : Nat) : KrpcMessage where
  transactionId := ascii "b"
  payload := .query (announceQuery port)

/-- One sender asks for the peers of an info hash, and announces a peer on one
port after the other. -/
def portHistory (count : Nat) : List Datagram :=
  messageDatagram v4Sender askMessage ::
    (List.range count).map fun port =>
      messageDatagram v4Sender (announceMessage port)

/-- The peer on a port of the sender. -/
def peerOn (port : Nat) : IpEndpoint :=
  { v4Sender with port := UInt16.ofNat port }

theorem hashQuery_ordered (method : String) (hash : ByteString) :
    (Value.dictionary (hashQuery method "info_hash" hash).arguments).Ordered := by
  have keys : [ascii "id", ascii "info_hash"].Pairwise (· < ·) := by decide
  exact ⟨(List.pairwise_map (f := Prod.fst)).mp keys, trivial, trivial, trivial⟩

theorem announceQuery_ordered (port : Nat) :
    (Value.dictionary (announceQuery port).arguments).Ordered := by
  have keys : [ascii "id", ascii "info_hash", ascii "port",
      ascii "token"].Pairwise (· < ·) := by
    decide
  exact ⟨(List.pairwise_map (f := Prod.fst)).mp keys, trivial, trivial, trivial,
    trivial, trivial⟩

theorem announceMessage_length {port : Nat} (small : port < 168) :
    (encodeKrpc (announceMessage port)).length < 2 ^ 63 := by
  have number : (Int64.ofNat port).toInt = port :=
    Int64.toInt_ofNat_of_lt (by omega)
  have digits : (decimalInt port).length ≤ 3 := by
    rw [decimalInt, if_neg (by omega), Int.natAbs_natCast]
    exact decimal_length_le_of_lt (by decide) (by omega)
  have root : messageRoot (announceMessage port) =
      [(ascii "a", .dictionary (announceQuery port).arguments),
        (ascii "q", .string (ascii "announce_peer")),
        (ascii "t", .string (ascii "b")), (ascii "y", .string (ascii "q"))] :=
    rfl
  rw [encodeKrpc_eq, root]
  simp only [announceQuery, encode, encodeEntries, List.length_append, number,
    appendEncodedString_length]
  have keys : ∀ key ∈ [ascii "a", ascii "id", ascii "info_hash", ascii "port",
      ascii "token", ascii "q", ascii "t", ascii "y", ascii "b",
      List.replicate 20 0, popularHash, ascii "127.0.0.1:7",
      ascii "announce_peer"], stringSize key.length ≤ 23 := by
    decide
  simp only [List.forall_mem_cons] at keys
  have marks : (ascii "d").length = 1 ∧ (ascii "e").length = 1 ∧
      (ascii "i").length = 1 ∧ ([] : ByteString).length = 0 := by
    decide
  omega

theorem announcedEndpoint_announceQuery {port : Nat} (small : port < 168) :
    announcedEndpoint v4Sender (announceQuery port) = .returned (peerOn port) := by
  have sameNumber : (Int64.ofNat port).toUInt64.toNat = port := by
    have unsigned : (Int64.ofNat port).toUInt64 = UInt64.ofNat port := rfl
    rw [unsigned, UInt64.toNat_ofNat']
    omega
  have isPort : announcedEndpoint v4Sender (announceQuery port) =
      .returned { v4Sender with
        port := UInt16.ofNat (Int64.ofNat port).toUInt64.toNat } :=
    rfl
  rw [isPort, sameNumber]
  rfl

theorem peerOn_injective {first second : Nat} (firstSmall : first < 168)
    (secondSmall : second < 168) (same : peerOn first = peerOn second) :
    first = second := by
  have ports := congrArg (fun endpoint => endpoint.port.toNat) same
  simp only [peerOn, UInt16.toNat_ofNat'] at ports
  omega

/-- The announced peers after some ports. -/
def portEntries : Nat → List (ByteString × List IpEndpoint)
  | 0 => []
  | count + 1 => [(popularHash, (List.range (count + 1)).map peerOn)]

/-- The peer on the next port is a peer of its own. -/
theorem alterEntries_portEntries {count : Nat} (small : count < 168) :
    OrderedMap.alterEntries popularHash (recordPeer (peerOn count))
      (portEntries count) = portEntries (count + 1) := by
  cases count with
  | zero => rfl
  | succ count =>
      have fresh : peerOn (count + 1) ∉ (List.range (count + 1)).map peerOn := by
        intro member
        obtain ⟨earlier, inRange, same⟩ := List.mem_map.mp member
        have before := List.mem_range.mp inRange
        have sameIndex := peerOn_injective (by omega) small same
        omega
      have recorded : recordPeer (peerOn (count + 1))
          (some ((List.range (count + 1)).map peerOn)) =
            (List.range (count + 2)).map peerOn := by
        rw [recordPeer, Option.getD_some, if_neg fresh,
          List.range_succ (n := count + 1), List.map_append, List.map_singleton]
      rw [portEntries, OrderedMap.alterEntries, if_pos rfl, recorded, portEntries]

variable (v6Text : ByteString → ByteString) (node : Node)

theorem portHistory_tables {count : Nat} (small : count ≤ 168) :
    (tablesAfter v6Text node (portHistory count)).issuedTokens.lookup
        (endpointText v6Text v4Sender) = some (ascii "127.0.0.1:7") ∧
      (tablesAfter v6Text node (portHistory count)).announcedPeers.entries =
        portEntries count := by
  induction count with
  | zero =>
      have isQuery := messageDatagram_query? v4Sender askMessage rfl
        (hashQuery_ordered "get_peers" popularHash) (by decide)
      have asks : AsksForPeers (messageDatagram v4Sender askMessage) :=
        ⟨_, _, popularHash, isQuery, rfl, rfl⟩
      have tables : tablesAfter v6Text node (portHistory 0) =
          { ({} : PeerTables) with
            issuedTokens := ({} : PeerTables).issuedTokens.insert
              (endpointText v6Text v4Sender) (makeToken v6Text v4Sender) } :=
        answerDatagram_asks node asks
      rw [tables]
      refine ⟨?_, rfl⟩
      rw [AList.lookup_insert]
      rfl
  | succ count ih =>
      obtain ⟨given, entries⟩ := ih (by omega)
      have history : portHistory (count + 1) = portHistory count ++
          [messageDatagram v4Sender (announceMessage count)] := by
        simp [portHistory, List.range_succ]
      have isQuery := messageDatagram_query? v4Sender (announceMessage count) rfl
        (announceQuery_ordered count) (announceMessage_length (by omega))
      have announces : Announces v6Text
          (tablesAfter v6Text node (portHistory count))
          (messageDatagram v4Sender (announceMessage count)) popularHash
          (ascii "127.0.0.1:7") (peerOn count) :=
        ⟨_, _, isQuery, rfl, rfl, given, rfl,
          announcedEndpoint_announceQuery (by omega)⟩
      rw [history, tablesAfter_append_singleton,
        answerDatagram_announces node announces]
      refine ⟨given, ?_⟩
      rw [← alterEntries_portEntries (by omega), ← entries]
      rfl

theorem portHistory_v4 (count : Nat) :
    ∀ datagram ∈ portHistory count, isV4 datagram.sender = true := by
  intro datagram member
  rcases List.mem_cons.mp member with rfl | announcing
  · rfl
  · obtain ⟨port, -, rfl⟩ := List.mem_map.mp announcing
    rfl

/-- With 167 peers every query is answered still. -/
theorem alwaysAnswers_portHistory :
    AlwaysAnswers loopbackText ⟨Hash.zero, v4Sender⟩
      (tablesAfter loopbackText ⟨Hash.zero, v4Sender⟩ (portHistory 167)) := by
  have small : 167 ≤ 168 := by decide
  have entries := (portHistory_tables loopbackText ⟨Hash.zero, v4Sender⟩ small).2
  apply (alwaysAnswers_iff loopbackText rfl (portHistory_v4 167)).mpr
  constructor
  · intro infoHash peers _ found
    have member := OrderedMap.mem_iff_lookup.mpr found
    rw [entries] at member
    cases List.mem_singleton.mp member
    rw [List.length_map, List.length_range]
  · rw [numText, sampleText, entries]
    decide

/-- After the peers of one sender on 168 ports the query for them is not
answered. -/
theorem portHistory_notAnswered :
    ¬ ∀ (v6Text : ByteString → ByteString) (node : Node),
      isV4 node.endpoint = true → ∀ history : List Datagram,
        (∀ datagram ∈ history, isV4 datagram.sender = true) →
          AlwaysAnswers v6Text node (tablesAfter v6Text node history) := by
  intro always
  have answers := always loopbackText ⟨Hash.zero, v4Sender⟩ rfl (portHistory 168)
    (portHistory_v4 168)
  have little := littleAnnounced_of_answers rfl
    (announcedPeers_v4 loopbackText _ (portHistory_v4 168)) answers
  have entries := (portHistory_tables loopbackText ⟨Hash.zero, v4Sender⟩
    (Nat.le_refl 168)).2
  have found : (tablesAfter loopbackText ⟨Hash.zero, v4Sender⟩
      (portHistory 168)).announcedPeers.lookup popularHash =
        some ((List.range 168).map peerOn) := by
    apply OrderedMap.mem_iff_lookup.mp
    rw [entries]
    exact List.mem_singleton_self _
  have few := little.peers popularHash _ (by decide) found
  rw [List.length_map, List.length_range] at few
  omega

end Kademlia

end Blocxxi
