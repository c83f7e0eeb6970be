import Blocxxi.AnswerSizes

/-!
# The ports of announced peers

An announcement names a port, unless the port of its datagram is implied.  The
port travels as a signed number of 64 bits, is cut to the 16 bits of an endpoint
when it is recorded, and leaves in two bytes of a compact peer.  Nothing looks at
its range on the way, so a number that is no port is recorded as another one.
-/

namespace Blocxxi

namespace Kademlia

open Cxx Bencode ByteText P2P StepMachine

/-- The two bytes of a port, put together again. -/
theorem port_of_bytes (port : UInt16) :
    ((port >>> 8).toUInt8.toUInt16 <<< 8) ||| port.toUInt8.toUInt16 = port := by
  apply UInt16.toBitVec_inj.mp
  ext place bounded
  simp only [UInt16.toBitVec_or, UInt16.toBitVec_shiftLeft, UInt8.toBitVec_toUInt16,
    UInt16.toBitVec_toUInt8, UInt16.toBitVec_shiftRight]
  simp
  grind

/-- A compact peer is decoded to the endpoint that it encodes. -/
theorem decodeCompactPeer_compactBytes {endpoint : IpEndpoint}
    (v4 : isV4 endpoint = true) :
    decodeCompactPeer (compactBytes endpoint) = .returned endpoint := by
  obtain ⟨address, port⟩ := endpoint
  rw [isV4, beq_iff_eq] at v4
  obtain ⟨first, second, third, fourth, rfl⟩ := List.length_eq_four.mp v4
  simp only [compactBytes, List.cons_append, List.nil_append, decodeCompactPeer,
    port_of_bytes]

/-- The port of the datagram is not implied, so the arguments have to name one. -/
def NeedsPort (query : KrpcQuery) : Prop :=
  ∃ implied, findInteger query.arguments "implied_port" = .returned implied ∧
    implied.getD 0 = 0

def ImpliesPort (query : KrpcQuery) : Prop :=
  ∃ implied, findInteger query.arguments "implied_port" = .returned (some implied) ∧
    implied ≠ 0

/-- The port in the arguments. -/
def NamesPort (query : KrpcQuery) (port : Int64) : Prop :=
  findInteger query.arguments "port" = .returned (some port)

def IsPort (port : Int64) : Prop :=
  1 ≤ port.toInt ∧ port.toInt ≤ 65535

instance (port : Int64) : Decidable (IsPort port) :=
  inferInstanceAs (Decidable (_ ∧ _))

/-- What stays of a number in the 16 bits of an endpoint. -/
theorem narrowed_toNat (port : Int64) :
    ((UInt16.ofNat port.toUInt64.toNat).toNat : Int) = port.toInt % 65536 := by
  have isInt : port.toInt = port.toBitVec.toInt := rfl
  have isNat : port.toUInt64.toNat = port.toBitVec.toNat := rfl
  have bounded := port.toBitVec.isLt
  rw [UInt16.toNat_ofNat', isInt, isNat, BitVec.toInt_eq_toNat_cond]
  split <;> omega

/-- The sender, with what stays of the number as its port. -/
def narrowedEndpoint (sender : IpEndpoint) (port : Int64) : IpEndpoint :=
  { sender with port := UInt16.ofNat port.toUInt64.toNat }

variable {query : KrpcQuery}

theorem announcedEndpoint_implied (sender : IpEndpoint) (implies : ImpliesPort query) :
    announcedEndpoint sender query = .returned sender := by
  obtain ⟨implied, found, nonzero⟩ := implies
  rw [announcedEndpoint, found, Outcome.returned_bind, Option.getD_some,
    if_neg nonzero]

theorem announcedEndpoint_named (sender : IpEndpoint) (needs : NeedsPort query)
    {port : Int64} (names : NamesPort query port) :
    announcedEndpoint sender query = .returned (narrowedEndpoint sender port) := by
  obtain ⟨implied, found, zero⟩ := needs
  rw [announcedEndpoint, found, Outcome.returned_bind, if_pos zero, names,
    Outcome.returned_bind, narrowedEndpoint]

/-- An endpoint is announced for the port in the arguments, where one is needed. -/
theorem names_of_announcedEndpoint {sender endpoint : IpEndpoint}
    (needs : NeedsPort query)
    (announced : announcedEndpoint sender query = .returned endpoint) :
    ∃ port, NamesPort query port ∧ endpoint = narrowedEndpoint sender port := by
  obtain ⟨implied, found, zero⟩ := needs
  rw [announcedEndpoint, found, Outcome.returned_bind, if_pos zero] at announced
  obtain ⟨port, isPort, rest⟩ := Outcome.bind_returned announced
  cases port with
  | none => cases rest
  | some port =>
      cases rest
      exact ⟨port, isPort, rfl⟩

section Announcements

variable (v6Text : ByteString → ByteString) (node : Node)

/-- The tables after some more datagrams. -/
def tablesThrough (later : List Datagram) (tables : PeerTables) : PeerTables :=
  run (fun datagram tables => (answerDatagram v6Text node datagram tables).2) later
    tables

/-- The peers that are recorded for an info hash. -/
def recordedPeers (tables : PeerTables) (infoHash : ByteString) : List IpEndpoint :=
  (tables.announcedPeers.lookup infoHash).getD []

/-- The endpoint is recorded for the info hash; and a query for the peers of the
info hash, when all of them have IPv4 addresses, is answered with compact peers of
which one is decoded to it. -/
structure HandsOut (tables : PeerTables) (infoHash : ByteString)
    (endpoint : IpEndpoint) : Prop where
  recorded : endpoint ∈ recordedPeers tables infoHash
  answered : ∀ (application : Application) (query : KrpcQuery) (asker : IpEndpoint)
    (transactionId : ByteString), query.method = ascii "get_peers" →
      requireArgument query "info_hash" = .returned infoHash →
      (∀ peer ∈ recordedPeers tables infoHash, isV4 peer = true) →
        ∃ values compact encoded,
          (makeResponse v6Text node application query asker transactionId tables).1 =
              .returned (some (makeValuesResponse transactionId values)) ∧
            values.lookup (ascii "values") = some (.list compact) ∧
            .string encoded ∈ compact ∧
            decodeCompactPeer encoded = .returned endpoint

/-- The datagram announces a peer with the token that its sender was given. -/
structure ValidAnnouncement (tables : PeerTables) (datagram : Datagram)
    (query : KrpcQuery) : Prop where
  isQuery : ∃ transactionId, datagram.query? = some (transactionId, query)
  method : query.method = ascii "announce_peer"
  token : ∃ token, requireArgument query "token" = .returned token ∧
    tables.issuedTokens.lookup (endpointText v6Text datagram.sender) = some token

/-- The endpoint is recorded, and handed out however many datagrams later. -/
structure RecordsPeer (tables : PeerTables) (datagram : Datagram)
    (infoHash : ByteString) (endpoint : IpEndpoint) : Prop where
  recorded : (answerDatagram v6Text node datagram tables).2 = { tables with
    announcedPeers := tables.announcedPeers.alter infoHash (recordPeer endpoint) }
  handedOut : ∀ later : List Datagram,
    HandsOut v6Text node (tablesThrough v6Text node (datagram :: later) tables)
      infoHash endpoint

/-- What an announcement asks for is what is recorded. -/
structure PortRespected (tables : PeerTables) (datagram : Datagram)
    (query : KrpcQuery) : Prop where
  named : ∀ infoHash port, requireArgument query "info_hash" = .returned infoHash →
    NeedsPort query → NamesPort query port → IsPort port →
      ∃ endpoint : IpEndpoint, endpoint.address = datagram.sender.address ∧
        (endpoint.port.toNat : Int) = port.toInt ∧
        RecordsPeer v6Text node tables datagram infoHash endpoint
  implied : ∀ infoHash, requireArgument query "info_hash" = .returned infoHash →
    ImpliesPort query →
      RecordsPeer v6Text node tables datagram infoHash datagram.sender
  unusable : NeedsPort query → (¬ ∃ port, NamesPort query port ∧ IsPort port) →
    (answerDatagram v6Text node datagram tables).2.announcedPeers =
      tables.announcedPeers

/-- The arguments name a number that is no port, and what stays of it in 16 bits is
not recorded as a port of the sender yet. -/
def NamesNoPort (tables : PeerTables) (sender : IpEndpoint) (query : KrpcQuery) :
    Prop :=
  NeedsPort query ∧ ∃ infoHash port,
    requireArgument query "info_hash" = .returned infoHash ∧
      NamesPort query port ∧ ¬ IsPort port ∧
      ∃ endpoint : IpEndpoint, endpoint.address = sender.address ∧
        (endpoint.port.toNat : Int) = port.toInt % 65536 ∧
        endpoint ∉ recordedPeers tables infoHash

variable {v6Text node}
variable {tables : PeerTables} {datagram : Datagram} {infoHash : ByteString}
  {endpoint : IpEndpoint}

/-- A recorded peer stays. -/
theorem recorded_answerDatagram (datagram : Datagram)
    (recorded : endpoint ∈ recordedPeers tables infoHash) :
    endpoint ∈ recordedPeers (answerDatagram v6Text node datagram tables).2
      infoHash := by
  rcases answerDatagram_cases node datagram tables
    with ⟨-, result⟩ | ⟨otherHash, token, other, -, result⟩ | result
  · rw [result]
    exact recorded
  · rw [result, recordedPeers, OrderedMap.lookup_alter]
    split
    · rename_i sameHash
      subst sameHash
      exact mem_recordPeer.mpr (.inr recorded)
    · exact recorded
  · rw [result]
    exact recorded

theorem recorded_tablesThrough (later : List Datagram)
    (recorded : endpoint ∈ recordedPeers tables infoHash) :
    endpoint ∈ recordedPeers (tablesThrough v6Text node later tables) infoHash := by
  have kept : ∀ (datagram : Datagram) (tables : PeerTables),
      endpoint ∈ recordedPeers tables infoHash →
        endpoint ∈ recordedPeers (answerDatagram v6Text node datagram tables).2
          infoHash :=
    fun datagram _ => recorded_answerDatagram datagram
  exact invariant_run kept later tables recorded

/-- Whatever is recorded is handed out. -/
theorem handsOut_of_recorded (recorded : endpoint ∈ recordedPeers tables infoHash) :
    HandsOut v6Text node tables infoHash endpoint where
  recorded := recorded
  answered := by
    intro application query asker transactionId method isHash v4
    obtain ⟨peers, found, member⟩ := mem_getD_nil recorded
    have peersV4 : ∀ peer ∈ peers, isV4 peer = true := by
      intro peer inPeers
      exact v4 peer (by rwa [recordedPeers, found])
    have notFindNode : ascii "get_peers" ≠ ascii "find_node" := by decide
    cases peers with
    | nil => cases member
    | cons first rest =>
        refine ⟨emplace (ascii "values")
            (.list ((first :: rest).map fun peer => .string (compactBytes peer)))
            (emplace (ascii "token") (.string (makeToken v6Text asker))
              (selfValues node)),
          _, compactBytes endpoint, ?_, rfl,
          List.mem_map.mpr ⟨endpoint, member, rfl⟩,
          decodeCompactPeer_compactBytes (peersV4 endpoint member)⟩
        simp only [makeResponse, method, notFindNode, if_false, if_true,
          answerGetPeers, isHash, getPeersValues, found, compactPeers_v4 peersV4]
        rfl

/-- An announcement that can be made is recorded. -/
theorem recordsPeer {query : KrpcQuery}
    (valid : ValidAnnouncement v6Text tables datagram query)
    (isHash : requireArgument query "info_hash" = .returned infoHash)
    (announced : announcedEndpoint datagram.sender query = .returned endpoint) :
    RecordsPeer v6Text node tables datagram infoHash endpoint := by
  obtain ⟨transactionId, isQuery⟩ := valid.isQuery
  obtain ⟨token, isToken, given⟩ := valid.token
  have announces : Announces v6Text tables datagram infoHash token endpoint :=
    ⟨transactionId, query, isQuery, valid.method, isToken, given, isHash, announced⟩
  have after := answerDatagram_announces node announces
  refine ⟨after, fun later => handsOut_of_recorded (recorded_tablesThrough later ?_)⟩
  change endpoint ∈ recordedPeers (answerDatagram v6Text node datagram tables).2 infoHash
  rw [after, recordedPeers, OrderedMap.lookup_alter, if_pos rfl]
  exact mem_recordPeer.mpr (.inl rfl)

/-- A valid announcement leaves the peers alone, or announces an endpoint. -/
theorem announcedPeers_of_valid {query : KrpcQuery}
    (valid : ValidAnnouncement v6Text tables datagram query) :
    (answerDatagram v6Text node datagram tables).2.announcedPeers =
        tables.announcedPeers ∨
      ∃ infoHash endpoint, requireArgument query "info_hash" = .returned infoHash ∧
        announcedEndpoint datagram.sender query = .returned endpoint ∧
        (answerDatagram v6Text node datagram tables).2.announcedPeers =
          tables.announcedPeers.alter infoHash (recordPeer endpoint) := by
  obtain ⟨transactionId, isQuery⟩ := valid.isQuery
  rcases answerDatagram_cases node datagram tables
    with ⟨-, result⟩ | ⟨infoHash, token, endpoint, announces, result⟩ | result
  · exact .inl (by rw [result])
  · obtain ⟨otherId, other, isOther, -, -, -, isHash, announced⟩ := announces
    obtain rfl : query = other := by
      rw [isQuery] at isOther
      cases isOther
      rfl
    exact .inr ⟨infoHash, endpoint, isHash, announced, by rw [result]⟩
  · exact .inl (by rw [result])

/-- Recording a peer that is known changes nothing. -/
theorem alter_recordPeer_eq {announced : OrderedMap ByteString (List IpEndpoint)}
    (known : endpoint ∈ (announced.lookup infoHash).getD []) :
    announced.alter infoHash (recordPeer endpoint) = announced := by
  obtain ⟨peers, found, member⟩ := mem_getD_nil known
  apply OrderedMap.alter_eq_self found
  rw [recordPeer, Option.getD_some, if_pos member]

/-- A new peer changes the list of its info hash. -/
theorem alter_recordPeer_ne {announced : OrderedMap ByteString (List IpEndpoint)}
    (fresh : endpoint ∉ (announced.lookup infoHash).getD []) :
    announced.alter infoHash (recordPeer endpoint) ≠ announced := by
  intro same
  have lists := congrArg (fun map => (OrderedMap.lookup infoHash map).getD []) same
  rw [OrderedMap.lookup_alter, if_pos rfl, Option.getD_some] at lists
  exact fresh (lists ▸ mem_recordPeer.mpr (.inl rfl))

/-- A number that is no port is recorded as another port. -/
theorem not_portRespected {query : KrpcQuery}
    (valid : ValidAnnouncement v6Text tables datagram query)
    (noPort : NamesNoPort tables datagram.sender query) :
    ¬ PortRespected v6Text node tables datagram query := by
  obtain ⟨needs, infoHash, port, isHash, names, notPort, endpoint, address, isPort,
    fresh⟩ := noPort
  intro respected
  have unchanged := respected.unusable needs fun ⟨other, otherNames, isOther⟩ => by
    rw [NamesPort, names] at otherNames
    cases otherNames
    exact notPort isOther
  have announced := announcedEndpoint_named datagram.sender needs names
  have isEndpoint : narrowedEndpoint datagram.sender port = endpoint := by
    obtain ⟨otherAddress, otherPort⟩ := endpoint
    have narrowed := narrowed_toNat port
    rw [narrowedEndpoint, IpEndpoint.mk.injEq]
    refine ⟨address.symm, UInt16.toNat_inj.mp ?_⟩
    dsimp only at isPort
    omega
  have records : RecordsPeer v6Text node tables datagram infoHash _ :=
    recordsPeer valid isHash announced
  have after := records.recorded
  rw [isEndpoint] at after
  rw [after] at unchanged
  exact alter_recordPeer_ne fresh unchanged

/-- Every other announcement is respected. -/
theorem portRespected {query : KrpcQuery}
    (valid : ValidAnnouncement v6Text tables datagram query)
    (notOther : ¬ NamesNoPort tables datagram.sender query) :
    PortRespected v6Text node tables datagram query where
  named := by
    intro infoHash port isHash needs names isPort
    have narrowed := narrowed_toNat port
    obtain ⟨positive, bounded⟩ := isPort
    refine ⟨narrowedEndpoint datagram.sender port, rfl, ?_,
      recordsPeer valid isHash (announcedEndpoint_named datagram.sender needs names)⟩
    change ((UInt16.ofNat port.toUInt64.toNat).toNat : Int) = port.toInt
    omega
  implied := by
    intro infoHash isHash implies
    exact recordsPeer valid isHash (announcedEndpoint_implied datagram.sender implies)
  unusable := by
    intro needs unusable
    rcases announcedPeers_of_valid valid
      with unchanged | ⟨infoHash, endpoint, isHash, announced, after⟩
    · exact unchanged
    obtain ⟨port, names, rfl⟩ := names_of_announcedEndpoint needs announced
    rw [after]
    apply alter_recordPeer_eq
    by_contra fresh
    exact notOther ⟨needs, infoHash, port, isHash, names,
      fun isPort => unusable ⟨port, names, isPort⟩,
      narrowedEndpoint datagram.sender port, rfl, narrowed_toNat port, fresh⟩

variable (node) in
/-- What an announcement asks for is what is recorded, unless it names a number
that is no port. -/
theorem portRespected_iff {query : KrpcQuery}
    (valid : ValidAnnouncement v6Text tables datagram query) :
    PortRespected v6Text node tables datagram query ↔
      ¬ NamesNoPort tables datagram.sender query :=
  ⟨fun respected noPort => not_portRespected valid noPort respected,
    portRespected valid⟩

end Announcements

/-- A sender that asked for peers announces one on the given port. -/
theorem announceMessage_valid {port : Nat}
    (small : (encodeKrpc (announceMessage port)).length < 2 ^ 63) :
    ValidAnnouncement loopbackText
      (tablesAfter loopbackText ⟨Hash.zero, v4Sender⟩ (portHistory 0))
      (messageDatagram v4Sender (announceMessage port)) (announceQuery port) where
  isQuery := ⟨_, messageDatagram_query? v4Sender (announceMessage port) rfl
    (announceQuery_ordered port) small⟩
  method := rfl
  token := ⟨_, rfl, (portHistory_tables loopbackText ⟨Hash.zero, v4Sender⟩
    (Nat.zero_le 168)).1⟩

theorem portRespected_iff_eighty :
    PortRespected loopbackText ⟨Hash.zero, v4Sender⟩
      (tablesAfter loopbackText ⟨Hash.zero, v4Sender⟩ (portHistory 0))
      (messageDatagram v4Sender (announceMessage 80)) (announceQuery 80) := by
  apply (portRespected_iff ⟨Hash.zero, v4Sender⟩
    (announceMessage_valid (announceMessage_length (by decide)))).mpr
  rintro ⟨-, infoHash, port, -, names, notPort, -⟩
  have isEighty : NamesPort (announceQuery 80) 80 := rfl
  rw [NamesPort, isEighty] at names
  cases names
  exact notPort (by decide)

/-- The port 65537 is recorded as the port 1. -/
theorem portRespected_largePort :
    ¬ ∀ (v6Text : ByteString → ByteString) (node : Node) (tables : PeerTables)
      (datagram : Datagram) (query : KrpcQuery),
      ValidAnnouncement v6Text tables datagram query →
        PortRespected v6Text node tables datagram query := by
  intro always
  have valid := announceMessage_valid (by decide +kernel :
    (encodeKrpc (announceMessage 65537)).length < 2 ^ 63)
  refine not_portRespected valid ?_ (always _ ⟨Hash.zero, v4Sender⟩ _ _ _ valid)
  have entries := (portHistory_tables loopbackText ⟨Hash.zero, v4Sender⟩
    (Nat.zero_le 168)).2
  have noPeers : recordedPeers
      (tablesAfter loopbackText ⟨Hash.zero, v4Sender⟩ (portHistory 0)) popularHash =
        [] := by
    rw [recordedPeers, OrderedMap.lookup, entries]
    rfl
  refine ⟨⟨none, rfl, rfl⟩, popularHash, 65537, rfl, rfl, by decide, peerOn 1, rfl,
    by decide, ?_⟩
  rw [noPeers]
  exact List.not_mem_nil

end Kademlia

end Blocxxi
