import Blocxxi.QueryAnswers
import Mathlib.Data.List.Induction

/-!
# Announced peers are authorised

A peer is stored by an announcement that presents the token of its own sender,
and a sender has a token once it has asked for peers.  The token is remembered
before the answer is made, so an answer that cannot be made, because a compact
encoding exists for IPv4 only, leaves a token that was never sent.
-/

namespace Blocxxi

namespace Kademlia

open Cxx Bencode ByteText P2P DelimitedText StepMachine

/-- What is relied on of the texts of other addresses: they contain a colon, and
tell the addresses apart. -/
structure PresentsAddresses (v6Text : ByteString → ByteString) : Prop where
  colon : ∀ address, 58 ∈ v6Text address
  injective : Function.Injective v6Text

/-- The part of an endpoint's text that is for the address. -/
def addressText (v6Text : ByteString → ByteString) (endpoint : IpEndpoint) :
    ByteString :=
  if isV4 endpoint then
    joined 46 (endpoint.address.map fun byte => decimal byte.toNat)
  else v6Text endpoint.address

theorem endpointText_eq (v6Text : ByteString → ByteString)
    (endpoint : IpEndpoint) :
    endpointText v6Text endpoint =
      addressText v6Text endpoint ++ 58 :: decimal endpoint.port.toNat := by
  unfold endpointText addressText
  split <;> rfl

theorem decimals_plain {separator : UInt8} (special : isDigit separator = false)
    (address : ByteString) :
    ∀ item ∈ address.map fun byte => decimal byte.toNat, separator ∉ item := by
  intro item member
  obtain ⟨byte, -, rfl⟩ := List.mem_map.mp member
  exact notMem_decimal special

theorem colon_notMem_decimals (address : ByteString) :
    58 ∉ joined 46 (address.map fun byte => decimal byte.toNat) := by
  intro member
  rcases mem_joined member with isDot | ⟨item, itemMem, inItem⟩
  · cases isDot
  · exact decimals_plain (by decide) address item itemMem inItem

variable {v6Text : ByteString → ByteString} (node : Node)

theorem addressText_injective (presents : PresentsAddresses v6Text)
    {first second : IpEndpoint}
    (same : addressText v6Text first = addressText v6Text second) :
    first.address = second.address := by
  unfold addressText at same
  split at same <;> split at same
  · rename_i firstV4 secondV4
    rw [isV4, beq_iff_eq] at firstV4 secondV4
    have nonempty (address : ByteString) (four : address.length = 4) :
        (address.map fun byte => decimal byte.toNat) ≠ [] := by
      rw [← List.length_pos_iff, List.length_map, four]
      decide
    have decimals := joined_inj_of_ne_nil (nonempty _ firstV4)
      (nonempty _ secondV4) (decimals_plain (by decide) _)
      (decimals_plain (by decide) _) same
    apply eq_of_map_eq _ decimals
    intro byte _ other _ sameText
    exact UInt8.toNat_inj.mp (decimal_injective sameText)
  · have colon := presents.colon second.address
    rw [← same] at colon
    exact (colon_notMem_decimals _ colon).elim
  · have colon := presents.colon first.address
    rw [same] at colon
    exact (colon_notMem_decimals _ colon).elim
  · exact presents.injective same

/-- The text of an endpoint determines it. -/
theorem endpointText_injective (presents : PresentsAddresses v6Text) :
    Function.Injective (endpointText v6Text) := by
  intro first second same
  rw [endpointText_eq, endpointText_eq] at same
  obtain ⟨addresses, ports⟩ := append_last_inj (notMem_decimal (by decide))
    (notMem_decimal (by decide)) same
  have sameAddress := addressText_injective presents addresses
  have samePort := UInt16.toNat_inj.mp (decimal_injective ports)
  cases first
  cases second
  cases sameAddress
  cases samePort
  rfl

/-- The datagram is a query for the peers of an info hash. -/
def AsksForPeers (datagram : Datagram) : Prop :=
  ∃ transactionId query infoHash,
    datagram.query? = some (transactionId, query) ∧
      query.method = ascii "get_peers" ∧
      requireArgument query "info_hash" = .returned infoHash

/-- The datagram announces an endpoint for an info hash, with the token that its
sender was given. -/
def Announces (v6Text : ByteString → ByteString) (tables : PeerTables)
    (datagram : Datagram) (infoHash token : ByteString) (endpoint : IpEndpoint) :
    Prop :=
  ∃ transactionId query, datagram.query? = some (transactionId, query) ∧
    query.method = ascii "announce_peer" ∧
    requireArgument query "token" = .returned token ∧
    tables.issuedTokens.lookup (endpointText v6Text datagram.sender) =
      some token ∧
    requireArgument query "info_hash" = .returned infoHash ∧
    announcedEndpoint datagram.sender query = .returned endpoint

theorem acceptAnnouncement_returned {query : KrpcQuery} {sender : IpEndpoint}
    {announced after : OrderedMap ByteString (List IpEndpoint)}
    (accepted : acceptAnnouncement query sender announced = .returned after) :
    ∃ infoHash endpoint, requireArgument query "info_hash" = .returned infoHash ∧
      announcedEndpoint sender query = .returned endpoint ∧
      after = announced.alter infoHash (recordPeer endpoint) := by
  obtain ⟨infoHash, isHash, recorded⟩ := Outcome.bind_returned accepted
  obtain ⟨endpoint, isEndpoint, altered⟩ := Outcome.bind_returned recorded
  cases altered
  exact ⟨infoHash, endpoint, isHash, isEndpoint, rfl⟩

/-- A datagram asks for peers, and its sender is given a token; or it announces
a peer, which is recorded; or it leaves both tables alone. -/
theorem answerDatagram_cases (datagram : Datagram) (tables : PeerTables) :
    (AsksForPeers datagram ∧
      (answerDatagram v6Text node datagram tables).2 = { tables with
        issuedTokens := tables.issuedTokens.insert
          (endpointText v6Text datagram.sender)
          (makeToken v6Text datagram.sender) }) ∨
    (∃ infoHash token endpoint,
      Announces v6Text tables datagram infoHash token endpoint ∧
        (answerDatagram v6Text node datagram tables).2 = { tables with
          announcedPeers :=
            tables.announcedPeers.alter infoHash (recordPeer endpoint) }) ∨
    (answerDatagram v6Text node datagram tables).2 = tables := by
  unfold answerDatagram
  split
  · exact Or.inr (Or.inr rfl)
  rename_i transactionId query isQuery
  dsimp only
  unfold makeResponse
  split
  · exact Or.inr (Or.inr rfl)
  split
  · rename_i asks
    unfold answerGetPeers
    split
    · rename_i infoHash isHash
      exact Or.inl ⟨⟨transactionId, query, infoHash, isQuery, asks, isHash⟩, rfl⟩
    · exact Or.inr (Or.inr rfl)
    · exact Or.inr (Or.inr rfl)
  split
  · exact Or.inr (Or.inr rfl)
  split
  · rename_i announces
    unfold answerAnnouncePeer
    split
    · rename_i token isToken
      split
      · exact Or.inr (Or.inr rfl)
      · rename_i known
        rw [ne_eq, not_not] at known
        split
        · rename_i accepted
          obtain ⟨infoHash, endpoint, isHash, isEndpoint, rfl⟩ :=
            acceptAnnouncement_returned accepted
          exact Or.inr (Or.inl ⟨infoHash, token, endpoint, ⟨transactionId, query,
            isQuery, announces, isToken, known, isHash, isEndpoint⟩, rfl⟩)
        · exact Or.inr (Or.inr rfl)
        · exact Or.inr (Or.inr rfl)
    · exact Or.inr (Or.inr rfl)
    · exact Or.inr (Or.inr rfl)
  split
  · exact Or.inr (Or.inr rfl)
  · exact Or.inr (Or.inr rfl)

/-- A query for peers is given a token. -/
theorem answerDatagram_asks {datagram : Datagram} {tables : PeerTables}
    (asks : AsksForPeers datagram) :
    (answerDatagram v6Text node datagram tables).2 = { tables with
      issuedTokens := tables.issuedTokens.insert
        (endpointText v6Text datagram.sender)
        (makeToken v6Text datagram.sender) } := by
  obtain ⟨transactionId, query, infoHash, isQuery, method, isHash⟩ := asks
  have notFindNode : ascii "get_peers" ≠ ascii "find_node" := by decide
  simp only [answerDatagram, isQuery, makeResponse, method, notFindNode, if_false,
    if_true, answerGetPeers, isHash]

/-- An announcement with the right token is recorded. -/
theorem answerDatagram_announces {datagram : Datagram} {tables : PeerTables}
    {infoHash token : ByteString} {endpoint : IpEndpoint}
    (announces : Announces v6Text tables datagram infoHash token endpoint) :
    (answerDatagram v6Text node datagram tables).2 = { tables with
      announcedPeers :=
        tables.announcedPeers.alter infoHash (recordPeer endpoint) } := by
  obtain ⟨transactionId, query, isQuery, method, isToken, given, isHash,
    isEndpoint⟩ := announces
  have accepted : acceptAnnouncement query datagram.sender
      tables.announcedPeers = .returned
        (tables.announcedPeers.alter infoHash (recordPeer endpoint)) := by
    rw [acceptAnnouncement, isHash, Outcome.returned_bind, recordAnnouncedPeer,
      isEndpoint, Outcome.returned_bind]
  have notFindNode : ascii "announce_peer" ≠ ascii "find_node" := by decide
  have notGetPeers : ascii "announce_peer" ≠ ascii "get_peers" := by decide
  have notSample : ascii "announce_peer" ≠ ascii "sample_infohashes" := by decide
  simp only [answerDatagram, isQuery, makeResponse, method, notFindNode,
    notGetPeers, notSample, if_false, if_true, answerAnnouncePeer, isToken, given,
    accepted, ne_eq, not_true_eq_false]

theorem mem_recordPeer {peer endpoint : IpEndpoint}
    {known : Option (List IpEndpoint)} :
    peer ∈ recordPeer endpoint known ↔ peer = endpoint ∨ peer ∈ known.getD [] := by
  unfold recordPeer
  dsimp only
  split
  · rename_i isKnown
    constructor
    · exact Or.inr
    · rintro (rfl | member)
      · exact isKnown
      · exact member
  · rw [List.mem_append, List.mem_singleton, or_comm]

theorem mem_getD_nil {peer : IpEndpoint} {known : Option (List IpEndpoint)}
    (member : peer ∈ known.getD []) : ∃ peers, known = some peers ∧ peer ∈ peers := by
  cases known with
  | none => cases member
  | some peers => exact ⟨peers, rfl, member⟩

theorem recordPeer_ne_nil (endpoint : IpEndpoint)
    (known : Option (List IpEndpoint)) : recordPeer endpoint known ≠ [] :=
  List.ne_nil_of_mem (mem_recordPeer.mpr (Or.inl rfl))

theorem recordPeer_nodup {endpoint : IpEndpoint}
    {known : Option (List IpEndpoint)} (distinct : (known.getD []).Nodup) :
    (recordPeer endpoint known).Nodup := by
  unfold recordPeer
  dsimp only
  split
  · exact distinct
  · rename_i fresh
    rw [List.nodup_append_comm, List.singleton_append]
    exact List.nodup_cons.mpr ⟨fresh, distinct⟩

/-- An announced endpoint has the address of the announcement's sender. -/
theorem announcedEndpoint_address {sender endpoint : IpEndpoint}
    {query : KrpcQuery}
    (announced : announcedEndpoint sender query = .returned endpoint) :
    endpoint.address = sender.address := by
  obtain ⟨impliedPort, -, rest⟩ := Outcome.bind_returned announced
  split at rest
  · obtain ⟨port, -, isEndpoint⟩ := Outcome.bind_returned rest
    cases port with
    | none => cases isEndpoint
    | some port =>
        cases isEndpoint
        rfl
  · cases rest
    rfl

theorem isV4_of_address {first second : IpEndpoint}
    (same : first.address = second.address) : isV4 first = isV4 second := by
  rw [isV4, isV4, same]

variable (v6Text)

theorem tablesAfter_append_singleton (history : List Datagram)
    (datagram : Datagram) :
    tablesAfter v6Text node (history ++ [datagram]) =
      (answerDatagram v6Text node datagram (tablesAfter v6Text node history)).2 := by
  unfold tablesAfter
  rw [run_append]
  rfl

/-- Peers that IPv4 senders announced have IPv4 endpoints. -/
theorem announcedPeers_v4 {history : List Datagram}
    (sendersV4 : ∀ datagram ∈ history, isV4 datagram.sender = true) :
    ∀ infoHash peers,
      (tablesAfter v6Text node history).announcedPeers.lookup infoHash =
          some peers →
        ∀ peer ∈ peers, isV4 peer = true := by
  induction history using List.reverseRecOn with
  | nil =>
      intro infoHash peers found
      cases found
  | append_singleton history datagram ih =>
      have earlierV4 := ih fun earlier member =>
        sendersV4 earlier (List.mem_append_left _ member)
      rw [tablesAfter_append_singleton]
      rcases answerDatagram_cases node datagram (tablesAfter v6Text node history)
        with ⟨-, result⟩ | ⟨infoHash, token, endpoint, announces, result⟩ | result
      · rw [result]
        exact earlierV4
      · rw [result]
        intro otherHash peers found peer member
        rw [OrderedMap.lookup_alter] at found
        split at found
        · cases found
          rcases mem_recordPeer.mp member with rfl | isKnown
          · obtain ⟨-, query, -, -, -, -, -, isEndpoint⟩ := announces
            rw [isV4_of_address (announcedEndpoint_address isEndpoint)]
            exact sendersV4 datagram (List.mem_append_right _ List.mem_cons_self)
          · obtain ⟨earlier, wasFound, inEarlier⟩ := mem_getD_nil isKnown
            exact earlierV4 infoHash earlier wasFound peer inEarlier
        · exact earlierV4 otherHash peers found peer member
      · rw [result]
        exact earlierV4

/-- The response to a query for peers, if it is not too large to be sent. -/
def RespondsWithToken (before : List Datagram) (asking : Datagram)
    (token : ByteString) : Prop :=
  ∃ transactionId values, values.lookup (ascii "token") = some (.string token) ∧
    (answerDatagram v6Text node asking (tablesAfter v6Text node before)).1 =
      asyncSend (encodeKrpc (makeValuesResponse transactionId values))

/-- The query for peers is answered, by a datagram with the token. -/
def AnsweredWithToken (before : List Datagram) (asking : Datagram)
    (token : ByteString) : Prop :=
  AsksForPeers asking ∧
    ∃ transactionId values, values.lookup (ascii "token") = some (.string token) ∧
      (answerDatagram v6Text node asking (tablesAfter v6Text node before)).1 =
        some (encodeKrpc (makeValuesResponse transactionId values))

/-- The query for peers is given the token, and a response with it is made when
the node and the senders so far have IPv4 endpoints. -/
structure IssuesToken (before : List Datagram) (asking : Datagram)
    (token : ByteString) : Prop where
  asks : AsksForPeers asking
  remembered : (tablesAfter v6Text node (before ++ [asking])).issuedTokens.lookup
    (endpointText v6Text asking.sender) = some token
  responds : isV4 node.endpoint = true →
    (∀ datagram ∈ before, isV4 datagram.sender = true) →
      RespondsWithToken v6Text node before asking token

/-- The datagram is what puts the endpoint into the list of the info hash. -/
def Stores (before : List Datagram) (announcing : Datagram)
    (infoHash token : ByteString) (endpoint : IpEndpoint) : Prop :=
  let tables := tablesAfter v6Text node before
  Announces v6Text tables announcing infoHash token endpoint ∧
    endpoint ∉ (tables.announcedPeers.lookup infoHash).getD []

/-- The endpoint was stored by an announcement with the token that an earlier
query of the same sender was issued, in the given sense. -/
def Authorised (issues : List Datagram → Datagram → ByteString → Prop)
    (history : List Datagram) (infoHash : ByteString) (endpoint : IpEndpoint) :
    Prop :=
  ∃ before asking between announcing after token,
    history = before ++ asking :: between ++ announcing :: after ∧
      asking.sender = announcing.sender ∧
      endpoint.address = announcing.sender.address ∧
      issues before asking token ∧
      Stores v6Text node (before ++ asking :: between) announcing infoHash token
        endpoint

/-- What the tables say about the datagrams so far. -/
structure Books (history : List Datagram) : Prop where
  lists : ∀ infoHash peers,
    (tablesAfter v6Text node history).announcedPeers.lookup infoHash =
        some peers →
      peers ≠ [] ∧ peers.Nodup ∧ ∀ endpoint ∈ peers,
        Authorised v6Text node (IssuesToken v6Text node) history infoHash endpoint
  tokens : ∀ (sender : IpEndpoint) (token : ByteString),
    (tablesAfter v6Text node history).issuedTokens.lookup
        (endpointText v6Text sender) = some token →
      ∃ before asking after, history = before ++ asking :: after ∧
        asking.sender = sender ∧ IssuesToken v6Text node before asking token

variable {v6Text node}

theorem Authorised.later {issues : List Datagram → Datagram → ByteString → Prop}
    {history : List Datagram} {infoHash : ByteString} {endpoint : IpEndpoint}
    (authorised : Authorised v6Text node issues history infoHash endpoint)
    (datagram : Datagram) :
    Authorised v6Text node issues (history ++ [datagram]) infoHash endpoint := by
  obtain ⟨before, asking, between, announcing, after, token, rfl, rest⟩ := authorised
  exact ⟨before, asking, between, announcing, after ++ [datagram], token,
    by simp, rest⟩

/-- The bytes of an address and a port. -/
def compactBytes (endpoint : IpEndpoint) : ByteString :=
  endpoint.address ++ [(endpoint.port >>> 8).toUInt8, endpoint.port.toUInt8]

theorem encodeCompactPeer_v4 {endpoint : IpEndpoint} (v4 : isV4 endpoint = true) :
    encodeCompactPeer endpoint = .returned (compactBytes endpoint) := by
  rw [encodeCompactPeer, if_pos v4, compactBytes]

theorem compactPeers_v4 {peers : List IpEndpoint}
    (v4 : ∀ peer ∈ peers, isV4 peer = true) :
    compactPeers peers =
      .returned (peers.map fun peer => .string (compactBytes peer)) := by
  induction peers with
  | nil => rfl
  | cons peer peers ih =>
      rw [compactPeers, encodeCompactPeer_v4 (v4 peer List.mem_cons_self),
        Outcome.returned_bind,
        ih fun other member => v4 other (List.mem_cons_of_mem peer member)]
      rfl

/-- A node is encoded as its identifier and a compact peer. -/
theorem encodeCompactNode_v4 (v4 : isV4 node.endpoint = true) :
    encodeCompactNode node =
      .returned (node.id.bytes ++ compactBytes node.endpoint) := by
  rw [encodeCompactNode, if_pos v4, encodeCompactPeer_v4 v4]
  rfl

/-- Over IPv4 endpoints the values of an answer can be made, and the token is
among them. -/
theorem getPeersValues_v4 (v4 : isV4 node.endpoint = true)
    (token infoHash : ByteString)
    {announced : OrderedMap ByteString (List IpEndpoint)}
    (peersV4 : ∀ peers, announced.lookup infoHash = some peers →
      ∀ peer ∈ peers, isV4 peer = true) :
    ∃ values, getPeersValues node token infoHash announced = .returned values ∧
      values.lookup (ascii "token") = some (.string token) := by
  unfold getPeersValues
  dsimp only
  split
  · rename_i peer peers found
    rw [compactPeers_v4 (peersV4 _ found)]
    exact ⟨_, rfl, rfl⟩
  · rw [encodeCompactNode_v4 v4]
    exact ⟨_, rfl, rfl⟩

theorem respondsWithToken {history : List Datagram} {datagram : Datagram}
    (asks : AsksForPeers datagram) (v4 : isV4 node.endpoint = true)
    (sendersV4 : ∀ earlier ∈ history, isV4 earlier.sender = true) :
    RespondsWithToken v6Text node history datagram
      (makeToken v6Text datagram.sender) := by
  obtain ⟨transactionId, query, infoHash, isQuery, method, isHash⟩ := asks
  obtain ⟨values, areValues, token⟩ := getPeersValues_v4 v4
    (makeToken v6Text datagram.sender) infoHash
    (announcedPeers_v4 v6Text node sendersV4 infoHash)
  refine ⟨transactionId, values, token, ?_⟩
  have notFindNode : ascii "get_peers" ≠ ascii "find_node" := by decide
  simp only [answerDatagram, isQuery, makeResponse, method, notFindNode, if_false,
    if_true, answerGetPeers, isHash, areValues]
  rfl

variable {history : List Datagram} {datagram : Datagram}

/-- Asking for peers gives the sender a token, and changes nothing else. -/
theorem books_asks (presents : PresentsAddresses v6Text)
    (books : Books v6Text node history) (asks : AsksForPeers datagram)
    (result : (answerDatagram v6Text node datagram
      (tablesAfter v6Text node history)).2 =
        { tablesAfter v6Text node history with
          issuedTokens := (tablesAfter v6Text node history).issuedTokens.insert
            (endpointText v6Text datagram.sender)
            (makeToken v6Text datagram.sender) }) :
    Books v6Text node (history ++ [datagram]) := by
  have tables := tablesAfter_append_singleton v6Text node history datagram
  rw [result] at tables
  constructor
  · intro infoHash peers found
    rw [tables] at found
    obtain ⟨nonempty, distinct, authorised⟩ := books.lists infoHash peers found
    exact ⟨nonempty, distinct, fun endpoint member =>
      (authorised endpoint member).later datagram⟩
  · intro sender token found
    rw [tables] at found
    rcases tableLookup_of_insert found with ⟨sameText, isToken⟩ | ⟨-, earlier⟩
    · obtain rfl := endpointText_injective presents sameText
      refine ⟨history, datagram, [], rfl, rfl, asks, ?_, ?_⟩
      · rw [tables]
        exact found
      · intro v4 sendersV4
        rw [isToken]
        exact respondsWithToken asks v4 sendersV4
    · obtain ⟨before, asking, after, rfl, isSender, issues⟩ :=
        books.tokens sender token earlier
      exact ⟨before, asking, after ++ [datagram], by simp, isSender, issues⟩

/-- A peer that is announced with the token of its sender is authorised. -/
theorem authorised_announced (books : Books v6Text node history) {infoHash token : ByteString}
    {endpoint : IpEndpoint}
    (announces : Announces v6Text (tablesAfter v6Text node history) datagram
      infoHash token endpoint)
    (fresh : endpoint ∉ ((tablesAfter v6Text node history).announcedPeers.lookup
      infoHash).getD []) :
    Authorised v6Text node (IssuesToken v6Text node) (history ++ [datagram])
      infoHash endpoint := by
  have stores : Stores v6Text node history datagram infoHash token endpoint :=
    ⟨announces, fresh⟩
  obtain ⟨-, query, -, -, -, given, -, isEndpoint⟩ := announces
  obtain ⟨before, asking, between, rfl, isSender, issues⟩ :=
    books.tokens datagram.sender token given
  exact ⟨before, asking, between, datagram, [], token, rfl, isSender,
    announcedEndpoint_address isEndpoint, issues, stores⟩

/-- An announcement records its endpoint, and changes nothing else. -/
theorem books_announces (books : Books v6Text node history) {infoHash token : ByteString}
    {endpoint : IpEndpoint}
    (announces : Announces v6Text (tablesAfter v6Text node history) datagram
      infoHash token endpoint)
    (result : (answerDatagram v6Text node datagram
      (tablesAfter v6Text node history)).2 =
        { tablesAfter v6Text node history with
          announcedPeers := (tablesAfter v6Text node history).announcedPeers.alter
            infoHash (recordPeer endpoint) }) :
    Books v6Text node (history ++ [datagram]) := by
  have tables := tablesAfter_append_singleton v6Text node history datagram
  rw [result] at tables
  constructor
  · intro otherHash peers found
    rw [tables, OrderedMap.lookup_alter] at found
    split at found
    · rename_i sameHash
      subst sameHash
      cases found
      refine ⟨recordPeer_ne_nil _ _, recordPeer_nodup ?_, ?_⟩
      · cases known : (tablesAfter v6Text node history).announcedPeers.lookup
            otherHash with
        | none => exact List.nodup_nil
        | some earlier => exact (books.lists otherHash earlier known).2.1
      · intro peer member
        by_cases isKnown : peer ∈
            ((tablesAfter v6Text node history).announcedPeers.lookup
              otherHash).getD []
        · obtain ⟨earlier, found, inEarlier⟩ := mem_getD_nil isKnown
          exact ((books.lists otherHash earlier found).2.2 peer inEarlier).later
            datagram
        · obtain rfl := (mem_recordPeer.mp member).resolve_right isKnown
          exact authorised_announced books announces isKnown
    · obtain ⟨nonempty, distinct, authorised⟩ := books.lists otherHash peers found
      exact ⟨nonempty, distinct, fun peer member =>
        (authorised peer member).later datagram⟩
  · intro sender otherToken found
    rw [tables] at found
    obtain ⟨before, asking, after, rfl, isSender, issues⟩ :=
      books.tokens sender otherToken found
    exact ⟨before, asking, after ++ [datagram], by simp, isSender, issues⟩

/-- A datagram that leaves the tables alone keeps the books. -/
theorem books_idle (books : Books v6Text node history)
    (result : (answerDatagram v6Text node datagram
      (tablesAfter v6Text node history)).2 = tablesAfter v6Text node history) :
    Books v6Text node (history ++ [datagram]) := by
  have tables := tablesAfter_append_singleton v6Text node history datagram
  rw [result] at tables
  constructor
  · intro infoHash peers found
    rw [tables] at found
    obtain ⟨nonempty, distinct, authorised⟩ := books.lists infoHash peers found
    exact ⟨nonempty, distinct, fun endpoint member =>
      (authorised endpoint member).later datagram⟩
  · intro sender token found
    rw [tables] at found
    obtain ⟨before, asking, after, rfl, isSender, issues⟩ :=
      books.tokens sender token found
    exact ⟨before, asking, after ++ [datagram], by simp, isSender, issues⟩

/-- The books are kept over any datagrams. -/
theorem books_of_history (presents : PresentsAddresses v6Text)
    (history : List Datagram) : Books v6Text node history := by
  induction history using List.reverseRecOn with
  | nil =>
      constructor
      · intro infoHash peers found
        cases found
      · intro sender token found
        cases found
  | append_singleton history datagram ih =>
      rcases answerDatagram_cases node datagram (tablesAfter v6Text node history)
        with ⟨asks, result⟩ | ⟨infoHash, token, endpoint, announces, result⟩ | result
      · exact books_asks presents ih asks result
      · exact books_announces ih announces result
      · exact books_idle ih result

/-- Announced peers are authorised: a stored endpoint has the address of a sender
that announced it with the token of a query of its own, and only such
announcements change the lists, only queries for peers the tokens. -/
theorem announcedPeers_authorised (presents : PresentsAddresses v6Text)
    (node : Node) (history : List Datagram) :
    (∀ infoHash peers,
      (tablesAfter v6Text node history).announcedPeers.lookup infoHash =
          some peers →
        peers ≠ [] ∧ peers.Nodup ∧ ∀ endpoint ∈ peers,
          Authorised v6Text node (IssuesToken v6Text node) history infoHash
            endpoint) ∧
    ∀ datagram : Datagram,
      let tables := tablesAfter v6Text node history
      let after := (answerDatagram v6Text node datagram tables).2
      ((¬ ∃ infoHash token endpoint,
          Announces v6Text tables datagram infoHash token endpoint) →
        after.announcedPeers = tables.announcedPeers) ∧
      (¬ AsksForPeers datagram → after.issuedTokens = tables.issuedTokens) ∧
      ∀ other : IpEndpoint, other ≠ datagram.sender →
        after.issuedTokens.lookup (endpointText v6Text other) =
          tables.issuedTokens.lookup (endpointText v6Text other) := by
  refine ⟨(books_of_history presents history).lists, ?_⟩
  intro datagram
  dsimp only
  rcases answerDatagram_cases node datagram (tablesAfter v6Text node history) with
    ⟨asks, result⟩ | ⟨infoHash, token, endpoint, announces, result⟩ | result
  · rw [result]
    refine ⟨fun _ => rfl, fun noQuery => (noQuery asks).elim, ?_⟩
    intro other differs
    apply AList.lookup_insert_ne
    exact fun sameText => differs (endpointText_injective presents sameText)
  · rw [result]
    refine ⟨?_, fun _ => rfl, fun _ _ => rfl⟩
    exact fun noAnnouncement =>
      (noAnnouncement ⟨infoHash, token, endpoint, announces⟩).elim
  · rw [result]
    exact ⟨fun _ => rfl, fun _ => rfl, fun _ _ => rfl⟩

/-- The loopback address of IPv6. -/
def v6Loopback : ByteString :=
  List.replicate 15 0 ++ [1]

/-- The text of the loopback address, and texts of the same kind for others. -/
def loopbackText (address : ByteString) : ByteString :=
  if address = v6Loopback then ascii "::1"
  else 58 :: Hex.encode address false true

theorem loopbackText_presents : PresentsAddresses loopbackText where
  colon := by
    intro address
    unfold loopbackText
    split
    · decide
    · exact List.mem_cons_self
  injective := by
    have apart (address : ByteString) :
        ascii "::1" ≠ 58 :: Hex.encode address false true := by
      intro same
      have colon : 58 ∈ Hex.encode address false true := by
        rw [← (List.cons.inj same).2]
        decide
      exact Hex.notMem_encode (by decide) colon
    intro first second same
    unfold loopbackText at same
    split at same <;> split at same
    · rename_i isFirst isSecond
      rw [isFirst, isSecond]
    · exact (apart _ same).elim
    · exact (apart _ same.symm).elim
    · exact Hex.encode_injective true (List.cons.inj same).2

def askingDatagram (sender : IpEndpoint) : Datagram where
  sender := sender
  bytes := ascii "d1:ad9:info_hash1:he1:q9:get_peers1:t1:a1:y1:qe"
  steps := 60

/-- An announcement for the port of the datagram. -/
def announcingDatagram (sender : IpEndpoint) (token : String) : Datagram where
  sender := sender
  bytes := ascii ("d1:ad12:implied_porti1e9:info_hash1:h5:token" ++ token ++
    "e1:q13:announce_peer1:t1:b1:y1:qe")
  steps := 120

def v4Sender : IpEndpoint where
  address := [127, 0, 0, 1]
  port := 7

def v6Sender : IpEndpoint where
  address := v6Loopback
  port := 7

/-- The announcement of a sender that asked before is recorded. -/
theorem announced_loopback :
    (tablesAfter loopbackText ⟨Hash.zero, v4Sender⟩ [askingDatagram v4Sender,
      announcingDatagram v4Sender "11:127.0.0.1:7"]).announcedPeers.entries =
        [(ascii "h", [v4Sender])] := by
  decide +kernel

theorem announcedPeers_authorised_loopback :
    Authorised loopbackText ⟨Hash.zero, v4Sender⟩
      (IssuesToken loopbackText ⟨Hash.zero, v4Sender⟩)
      [askingDatagram v4Sender, announcingDatagram v4Sender "11:127.0.0.1:7"]
      (ascii "h") v4Sender := by
  have stored : (tablesAfter loopbackText ⟨Hash.zero, v4Sender⟩
      [askingDatagram v4Sender,
        announcingDatagram v4Sender "11:127.0.0.1:7"]).announcedPeers.lookup
          (ascii "h") = some [v4Sender] := by
    rw [OrderedMap.lookup, announced_loopback]
    decide
  exact ((announcedPeers_authorised loopbackText_presents _ _).1 _ _ stored).2.2
    v4Sender List.mem_cons_self

/-- On an IPv6 node the compact encoding of the answer throws, and yet its token
is good for an announcement. -/
theorem announcedPeers_notAnswered :
    ¬ ∀ v6Text : ByteString → ByteString, PresentsAddresses v6Text →
      ∀ (node : Node) (history : List Datagram) (infoHash : ByteString)
        (peers : List IpEndpoint),
        (tablesAfter v6Text node history).announcedPeers.lookup infoHash =
            some peers →
          ∀ endpoint ∈ peers, Authorised v6Text node
            (AnsweredWithToken v6Text node) history infoHash endpoint := by
  intro always
  have stored : (tablesAfter loopbackText ⟨Hash.zero, v6Sender⟩
      [askingDatagram v6Sender,
        announcingDatagram v6Sender "5:::1:7"]).announcedPeers.lookup
          (ascii "h") = some [v6Sender] := by
    decide +kernel
  obtain ⟨before, asking, between, announcing, after, token, split, -, -,
    ⟨-, transactionId, values, -, answered⟩, -⟩ :=
    always loopbackText loopbackText_presents _ _ _ _ stored v6Sender
      List.mem_cons_self
  have lengths := congrArg List.length split
  simp only [List.length_cons, List.length_nil, List.length_append] at lengths
  obtain rfl : before = [] := List.length_eq_zero_iff.mp (by omega)
  obtain rfl : askingDatagram v6Sender = asking := (List.cons.inj split).1
  have noAnswer : (answerDatagram loopbackText ⟨Hash.zero, v6Sender⟩
      (askingDatagram v6Sender)
      (tablesAfter loopbackText ⟨Hash.zero, v6Sender⟩ [])).1 = none := by
    decide +kernel
  rw [noAnswer] at answered
  cases answered

end Kademlia

end Blocxxi
