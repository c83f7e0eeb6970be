import Blocxxi.SignetLiveClient

/-!
# Which blocks are fetched

The cache files that are named after the requested hashes, or the blocks that
a peer sends, are returned without comparing them with the request.  A call
therefore returns the requested blocks exactly when the inputs serve them.
-/

namespace Blocxxi

namespace Bitcoin

open Blocxxi.Core Cxx ByteText CursorReader CursorReader.Reader

variable {doubleSha256 : ByteString → Hash256}

theorem parseRun_hash {payload : Span UInt8} {add : Nat → Nat → Nat}
    {metadata : BlockMetadata}
    (parsed : (parseRun doubleSha256 payload add).1 = .ok metadata) :
    metadata.blockHashHex = headerHashHex doubleSha256 payload := by
  apply parseRun_keeps (fun _ => rfl) _ parsed
  intro state cursor next after same arrived
  exact (readTransaction_arrives arrived).1.trans same

theorem parseBlockMetadata_hash {payload : Span UInt8} {metadata : BlockMetadata}
    (parsed : parseBlockMetadata doubleSha256 payload = .ok (some metadata)) :
    metadata.blockHashHex = headerHashHex doubleSha256 payload := by
  obtain ⟨found, run, finished⟩ := parseBlockMetadata_cases parsed
  unfold finishMetadata at finished
  obtain ⟨merkle, -, same⟩ := Option.bind_eq_some_iff.mp finished
  cases same
  have hash : found.blockHashHex = headerHashHex doubleSha256 payload :=
    parseRun_hash run
  exact hash

/-- A payload with metadata has a body. -/
theorem parseBlockPayload_of_metadata {payload : Span UInt8}
    {metadata : BlockMetadata}
    (parsed : parseBlockMetadata doubleSha256 payload = .ok (some metadata)) :
    parseBlockPayload doubleSha256 payload = some
      ⟨headerHashHex doubleSha256 payload, payload⟩ := by
  have large : ¬ payload.size < 80 := by
    intro small
    have rejected : (parseRun doubleSha256 payload sizeAdd).1 =
        .error .rejected := by
      rw [parseRun, if_pos (by omega)]
    unfold parseBlockMetadata at parsed
    rw [rejected] at parsed
    cases parsed
  rw [parseBlockPayload, if_neg large]

theorem acceptBlock_of_metadata {payload : Span UInt8} {metadata : BlockMetadata}
    (parsed : parseBlockMetadata doubleSha256 payload = .ok (some metadata))
    (result : SignetBlocksResult) :
    acceptBlock doubleSha256 payload result = .ok (.ok
      { result with
        blocks := result.blocks ++ [⟨headerHashHex doubleSha256 payload, payload⟩]
        metadata := result.metadata ++ [metadata] }) := by
  rw [acceptBlock, parseBlockPayload_of_metadata parsed]
  dsimp only
  rw [parsed]

/-- A payload without metadata is not accepted, and no status is a success. -/
theorem acceptBlock_of_unread {payload : Span UInt8}
    (unread : ∀ metadata,
      parseBlockMetadata doubleSha256 payload ≠ .ok (some metadata))
    (result : SignetBlocksResult) :
    (∃ fault, acceptBlock doubleSha256 payload result = .error fault) ∨
      ∃ status, acceptBlock doubleSha256 payload result = .ok (.error status) ∧
        status.isOk = false := by
  unfold acceptBlock
  split
  · exact Or.inr ⟨_, rfl, rfl⟩
  · split
    · exact Or.inl ⟨_, rfl⟩
    · exact Or.inr ⟨_, rfl, rfl⟩
    · rename_i parsed
      exact (unread _ parsed).elim

/-- What a source of blocks comes to: it gives too few, it gives something that
is no block, or it gives the payloads of all blocks. -/
inductive Delivery
  | incomplete
  | malformed
  | complete (payloads : List (Span UInt8))

/-- One more payload in front. -/
def Delivery.cons (payload : Span UInt8) : Delivery → Delivery
  | .incomplete => .incomplete
  | .malformed => .malformed
  | .complete payloads => .complete (payload :: payloads)

section Serving

variable (doubleSha256)

/-- The files that the cache holds for the requested hashes. -/
def cacheDelivery (root : StateRoot) : List ByteString → Delivery
  | [] => .complete []
  | hash :: rest =>
      match root.files.lookup (cacheFileName hash) with
      | none => .incomplete
      | some file =>
          if ¬ file.opens then .incomplete
          else
            match parseBlockMetadata doubleSha256 file.content with
            | .error _ => .malformed
            | .ok none => .incomplete
            | .ok (some _) => (cacheDelivery root rest).cons file.content

/-- A payload in front of what follows, if it can be read. -/
def blockDelivery (payload : Span UInt8) (delivery : Delivery) : Delivery :=
  match parseBlockMetadata doubleSha256 payload with
  | .ok (some _) => delivery.cons payload
  | _ => .malformed

/-- The first blocks among the messages of a peer, as many as are wanted, if
every ping in between can be answered. -/
def peerDelivery : Nat → List DecodedMessage → List Bool → Delivery
  | 0, _, _ => .complete []
  | _ + 1, [], _ => .incomplete
  | wanted + 1, message :: rest, sends =>
      if message.command = ascii "ping" then
        if sends.headD false then peerDelivery (wanted + 1) rest sends.tail
        else .incomplete
      else if message.command = ascii "block" then
        blockDelivery doubleSha256 message.payload
          (peerDelivery wanted rest sends)
      else peerDelivery (wanted + 1) rest sends

/-- What a peer delivers once the handshake is over and the request is sent. -/
def endpointDelivery (wanted : Nat) (getData : ByteString) (port : UInt16)
    (now : UInt64) (endpoint : Endpoint) : Delivery :=
  let (requested, socket, _) := requestBlocks getData port now endpoint
  if endpoint.connects ∧ requested then
    peerDelivery doubleSha256 wanted socket.incoming socket.sends
  else .incomplete

/-- The first peer that does not stop early decides. -/
def firstDelivery (wanted : Nat) (getData : ByteString) (port : UInt16)
    (now : UInt64) : List Endpoint → Delivery
  | [] => .incomplete
  | endpoint :: rest =>
      match endpointDelivery doubleSha256 wanted getData port now endpoint with
      | .incomplete => firstDelivery wanted getData port now rest
      | delivery => delivery

/-- What the peers deliver, if the request can be encoded and the host
resolved. -/
def peersDelivery (blockHashes : List ByteString) (world : FetchWorld) :
    Delivery :=
  match encodeGetDataPayload blockHashes, world.endpoints with
  | some getData, some endpoints =>
      firstDelivery doubleSha256 blockHashes.length getData world.port world.now
        endpoints
  | _, _ => .incomplete

/-- What the cache or, where it is incomplete, the peers serve. -/
def served (blockHashes : List ByteString) (world : FetchWorld) : Delivery :=
  if blockHashes = [] then .incomplete
  else
    match world.root.elim .incomplete
      (cacheDelivery doubleSha256 · blockHashes) with
    | .incomplete => peersDelivery doubleSha256 blockHashes world
    | delivery => delivery

end Serving

theorem blockDelivery_of_metadata {payload : Span UInt8}
    {metadata : BlockMetadata}
    (parsed : parseBlockMetadata doubleSha256 payload = .ok (some metadata))
    (delivery : Delivery) :
    blockDelivery doubleSha256 payload delivery = delivery.cons payload := by
  rw [blockDelivery, parsed]

theorem blockDelivery_of_unread {payload : Span UInt8}
    (unread : ∀ metadata,
      parseBlockMetadata doubleSha256 payload ≠ .ok (some metadata))
    (delivery : Delivery) :
    blockDelivery doubleSha256 payload delivery = .malformed := by
  unfold blockDelivery
  split
  · rename_i metadata parsed
    exact (unread metadata parsed).elim
  · rfl

/-- The result holds the blocks and the metadata of these hashes. -/
structure Holds (hashes : List ByteString) (result : SignetBlocksResult) :
    Prop where
  blocks : result.blocks.map BlockBody.blockHashHex = hashes
  metadata : result.metadata.map BlockMetadata.blockHashHex = hashes

theorem Holds.length {hashes : List ByteString} {result : SignetBlocksResult}
    (holds : Holds hashes result) : result.blocks.length = hashes.length := by
  rw [← holds.blocks, List.length_map]

theorem Holds.add {hashes : List ByteString} {result : SignetBlocksResult}
    (holds : Holds hashes result) {payload : Span UInt8} {metadata : BlockMetadata}
    (parsed : parseBlockMetadata doubleSha256 payload = .ok (some metadata)) :
    Holds (hashes ++ [headerHashHex doubleSha256 payload])
      { result with
        blocks := result.blocks ++ [⟨headerHashHex doubleSha256 payload, payload⟩]
        metadata := result.metadata ++ [metadata] } := by
  constructor
  · simp [holds.blocks]
  · simp [holds.metadata, parseBlockMetadata_hash parsed]

/-- A peer from which no more can be read delivers too few blocks. -/
theorem peerDelivery_of_none {wanted : Nat} {incoming : List DecodedMessage}
    {socket after : Socket} {trace traced : List ByteString}
    (read : readNextNonPing incoming socket trace = (none, after, traced)) :
    peerDelivery doubleSha256 (wanted + 1) incoming socket.sends =
      .incomplete := by
  induction incoming generalizing socket trace with
  | nil => rfl
  | cons message rest ih =>
      unfold readNextNonPing at read
      by_cases isPing : message.command = ascii "ping"
      · rw [if_neg (not_not.mpr isPing)] at read
        rw [peerDelivery, if_pos isPing]
        dsimp only [sendMessage] at read
        by_cases answered : socket.sends.headD false
        · rw [if_pos answered] at read ⊢
          exact ih read
        · rw [if_neg answered]
      · rw [if_pos isPing] at read
        cases read

/-- The next message that is no ping comes first in what the peer delivers. -/
theorem peerDelivery_of_some {wanted : Nat} {incoming : List DecodedMessage}
    {socket after : Socket} {trace traced : List ByteString}
    {message : DecodedMessage}
    (read : readNextNonPing incoming socket trace =
      (some message, after, traced)) :
    after.incoming.length < incoming.length ∧
      message.command ≠ ascii "ping" ∧
        peerDelivery doubleSha256 (wanted + 1) incoming socket.sends =
          peerDelivery doubleSha256 (wanted + 1) (message :: after.incoming)
            after.sends := by
  induction incoming generalizing socket trace with
  | nil => cases read
  | cons first rest ih =>
      unfold readNextNonPing at read
      by_cases isPing : first.command = ascii "ping"
      · rw [if_neg (not_not.mpr isPing)] at read
        rw [peerDelivery, if_pos isPing]
        dsimp only [sendMessage] at read
        by_cases answered : socket.sends.headD false
        · rw [if_pos answered] at read ⊢
          obtain ⟨shorter, notPing, same⟩ := ih read
          exact ⟨Nat.lt_succ_of_lt shorter, notPing, same⟩
        · rw [if_neg answered] at read
          cases read
      · rw [if_pos isPing] at read
        cases read
        exact ⟨Nat.lt_succ_self _, isPing, rfl⟩

section Ending

variable (doubleSha256)

/-- How the receiving loop ends when the peer delivers something, and the result
held blocks before. -/
def EndsAs (wanted : Nat) (held : List ByteString)
    (received : Except Fault (Option Status × Socket × SignetBlocksResult)) :
    Delivery → Prop
  | .incomplete => ∃ socket result, received = .ok (none, socket, result) ∧
      result.blocks.length ≠ wanted
  | .malformed => ∀ status socket result,
      received = .ok (status, socket, result) →
        ∃ failure, status = some failure ∧ failure.isOk = false
  | .complete payloads => ∃ socket result,
      received = .ok (none, socket, result) ∧ result.blocks.length = wanted ∧
        Holds (held ++ payloads.map (headerHashHex doubleSha256)) result

end Ending

theorem endsAs_cons {wanted : Nat} {held : List ByteString}
    {payload : Span UInt8} {delivery : Delivery}
    {received : Except Fault (Option Status × Socket × SignetBlocksResult)}
    (ends : EndsAs doubleSha256 wanted
      (held ++ [headerHashHex doubleSha256 payload]) received delivery) :
    EndsAs doubleSha256 wanted held received (delivery.cons payload) := by
  cases delivery with
  | incomplete => exact ends
  | malformed => exact ends
  | complete payloads =>
      obtain ⟨socket, result, returned, enough, holds⟩ := ends
      refine ⟨socket, result, returned, enough, ?_⟩
      rwa [List.map_cons, List.append_cons]

/-- A block that cannot be read ends the loop with a failure. -/
theorem endsAs_unread {wanted : Nat} {held : List ByteString} {payload : Span UInt8}
    (unread : ∀ metadata,
      parseBlockMetadata doubleSha256 payload ≠ .ok (some metadata))
    (socket : Socket) (result : SignetBlocksResult)
    (next : SignetBlocksResult →
      Except Fault (Option Status × Socket × SignetBlocksResult)) :
    EndsAs doubleSha256 wanted held
      (match acceptBlock doubleSha256 payload result with
        | .error fault => .error fault
        | .ok (.error status) => .ok (some status, socket, result)
        | .ok (.ok result) => next result) .malformed := by
  rcases acceptBlock_of_unread unread result with
    ⟨fault, failed⟩ | ⟨status, rejected, notOk⟩
  · rw [failed]
    exact fun _ _ _ returned => by cases returned
  · rw [rejected]
    intro _ _ _ returned
    cases returned
    exact ⟨status, rfl, notOk⟩

/-- The receiving loop follows what the peer delivers. -/
theorem receiveBlocks_endsAs {wanted passes : Nat} {held : List ByteString}
    {socket : Socket} {result : SignetBlocksResult}
    (enough : socket.incoming.length < passes) (holds : Holds held result)
    (few : held.length ≤ wanted) :
    EndsAs doubleSha256 wanted held
      (receiveBlocks doubleSha256 wanted passes socket result)
      (peerDelivery doubleSha256 (wanted - held.length) socket.incoming
        socket.sends) := by
  induction passes generalizing held socket result with
  | zero => omega
  | succ passes ih =>
      unfold receiveBlocks
      rw [holds.length]
      by_cases more : held.length < wanted
      · rw [if_pos more]
        obtain ⟨left, leftEq⟩ : ∃ left, wanted - held.length = left + 1 :=
          ⟨wanted - held.length - 1, by omega⟩
        rw [leftEq]
        rcases read : readNextNonPingMessage socket result.commandTrace with
          ⟨_ | message, after, traced⟩
        · rw [peerDelivery_of_none read]
          refine ⟨after, { result with commandTrace := traced }, rfl, ?_⟩
          have length := holds.length
          dsimp only
          omega
        · obtain ⟨shorter, notPing, same⟩ := peerDelivery_of_some read
          have enoughAfter : after.incoming.length < passes := by omega
          dsimp only
          rw [same, peerDelivery, if_neg notPing]
          by_cases isBlock : message.command = ascii "block"
          · rw [if_pos isBlock, if_pos isBlock]
            by_cases readable : ∃ metadata,
              parseBlockMetadata doubleSha256 message.payload = .ok (some metadata)
            · obtain ⟨metadata, parsed⟩ := readable
              rw [acceptBlock_of_metadata parsed, blockDelivery_of_metadata parsed]
              apply endsAs_cons
              have leftAfter : left = wanted -
                  (held ++ [headerHashHex doubleSha256 message.payload]).length := by
                rw [List.length_append, List.length_singleton]
                omega
              rw [leftAfter]
              apply ih enoughAfter
              · have traces : Holds held { result with commandTrace := traced } :=
                  ⟨holds.blocks, holds.metadata⟩
                exact traces.add parsed
              · rw [List.length_append, List.length_singleton]
                omega
            · have unread := not_exists.mp readable
              rw [blockDelivery_of_unread unread]
              exact endsAs_unread unread after { result with commandTrace := traced } _
          · rw [if_neg isBlock, if_neg isBlock, ← leftEq]
            exact ih enoughAfter ⟨holds.blocks, holds.metadata⟩ few
      · rw [if_neg more]
        have done : wanted - held.length = 0 := by omega
        rw [done, peerDelivery]
        refine ⟨socket, result, rfl, ?_, ?_⟩
        · rw [holds.length]
          omega
        · rwa [List.map_nil, List.append_nil]

section Calls

variable (doubleSha256)

/-- How reading the cache ends. -/
def LoadsAs (loaded : Except Fault (Option (List BlockBody × List BlockMetadata))) :
    Delivery → Prop
  | .incomplete => loaded = .ok none
  | .malformed => ∃ fault, loaded = .error fault
  | .complete payloads => ∃ blocks metadata, loaded = .ok (some (blocks, metadata)) ∧
      blocks.map BlockBody.blockHashHex =
        payloads.map (headerHashHex doubleSha256) ∧
      metadata.map BlockMetadata.blockHashHex =
        payloads.map (headerHashHex doubleSha256)

/-- How an attempt at one or more endpoints ends. -/
def AttemptsAs (attempt : Except Fault Attempt) : Delivery → Prop
  | .incomplete => ∃ result, attempt = .ok (.givesUp result)
  | .malformed => ∀ ended, attempt = .ok ended →
      ∃ status result, ended = .fails status result ∧ status.isOk = false
  | .complete payloads => ∃ result, attempt = .ok (.delivers result) ∧
      Holds (payloads.map (headerHashHex doubleSha256)) result

/-- How a call ends. -/
def CallsAs (call : Except Fault FetchOutcome) : Delivery → Prop
  | .complete payloads => ∃ outcome, call = .ok outcome ∧
      outcome.status.isOk = true ∧
        Holds (payloads.map (headerHashHex doubleSha256)) outcome.result
  | _ => ∀ outcome, call = .ok outcome → outcome.status.isOk = false

end Calls

theorem loadCachedBlocks_loadsAs (root : StateRoot) (blockHashes : List ByteString) :
    LoadsAs doubleSha256 (loadCachedBlocks doubleSha256 root blockHashes)
      (cacheDelivery doubleSha256 root blockHashes) := by
  induction blockHashes with
  | nil => exact ⟨[], [], rfl, rfl, rfl⟩
  | cons hash rest ih =>
      unfold loadCachedBlocks cacheDelivery
      cases root.files.lookup (cacheFileName hash) with
      | none => rfl
      | some file =>
          dsimp only
          by_cases opens : file.opens
          · rw [if_neg (not_not.mpr opens), if_neg (not_not.mpr opens)]
            rcases parsed : parseBlockMetadata doubleSha256 file.content with
              fault | _ | metadata
            · exact ⟨fault, rfl⟩
            · rfl
            · rw [parseBlockPayload_of_metadata parsed]
              dsimp only
              cases delivered : cacheDelivery doubleSha256 root rest with
              | incomplete =>
                  rw [delivered] at ih
                  have loaded : loadCachedBlocks doubleSha256 root rest = _ := ih
                  rw [loaded]
                  rfl
              | malformed =>
                  rw [delivered] at ih
                  obtain ⟨fault, failed⟩ := ih
                  rw [failed]
                  exact ⟨fault, rfl⟩
              | complete payloads =>
                  rw [delivered] at ih
                  obtain ⟨blocks, allMetadata, loaded, blocksEq, metadataEq⟩ := ih
                  rw [loaded]
                  refine ⟨_, _, rfl, ?_, ?_⟩
                  · rw [List.map_cons, List.map_cons, blocksEq]
                  · rw [List.map_cons, List.map_cons, metadataEq,
                      parseBlockMetadata_hash parsed]
          · rw [if_pos opens, if_pos opens]
            rfl

theorem requestBlocks_holds (getData : ByteString) (port : UInt16) (now : UInt64)
    (endpoint : Endpoint) :
    Holds [] (requestBlocks getData port now endpoint).2.2 := by
  unfold requestBlocks
  dsimp only
  split <;> exact ⟨rfl, rfl⟩

theorem tryEndpoint_attemptsAs (wanted : Nat) (getData : ByteString)
    (port : UInt16) (now : UInt64) (endpoint : Endpoint)
    (result : SignetBlocksResult) :
    AttemptsAs doubleSha256
      (tryEndpoint doubleSha256 wanted getData port now endpoint result)
      (endpointDelivery doubleSha256 wanted getData port now endpoint) := by
  unfold tryEndpoint endpointDelivery
  have holds := requestBlocks_holds getData port now endpoint
  generalize requestBlocks getData port now endpoint = exchange at holds ⊢
  obtain ⟨requested, socket, start⟩ := exchange
  dsimp only at holds ⊢
  by_cases connects : endpoint.connects
  · rw [if_neg (not_not.mpr connects)]
    by_cases accepted : requested
    · rw [if_neg (not_not.mpr accepted), if_pos ⟨connects, accepted⟩]
      have ends : EndsAs doubleSha256 wanted []
          (receiveBlocks doubleSha256 wanted (socket.incoming.length + 1) socket
            start)
          (peerDelivery doubleSha256 wanted socket.incoming socket.sends) :=
        receiveBlocks_endsAs (Nat.lt_succ_self _) holds (Nat.zero_le wanted)
      cases delivered : peerDelivery doubleSha256 wanted socket.incoming
          socket.sends with
      | incomplete =>
          rw [delivered] at ends
          obtain ⟨after, final, returned, tooFew⟩ := ends
          rw [returned]
          refine ⟨final, ?_⟩
          simp [Except.map, attemptOf, tooFew]
      | malformed =>
          rw [delivered] at ends
          intro ended endedEq
          cases received : receiveBlocks doubleSha256 wanted
              (socket.incoming.length + 1) socket start with
          | error fault =>
              rw [received] at endedEq
              cases endedEq
          | ok outcome =>
              obtain ⟨status, after, final⟩ := outcome
              obtain ⟨failure, rfl, notOk⟩ := ends status after final received
              rw [received] at endedEq
              cases endedEq
              exact ⟨failure, final, rfl, notOk⟩
      | complete payloads =>
          rw [delivered] at ends
          obtain ⟨after, final, returned, enough, finalHolds⟩ := ends
          rw [returned]
          refine ⟨{ final with peerAddress := endpoint.address.text }, ?_, ?_⟩
          · simp [Except.map, attemptOf, enough]
          · rw [List.nil_append] at finalHolds
            exact ⟨finalHolds.blocks, finalHolds.metadata⟩
    · rw [if_pos accepted, if_neg fun both => accepted both.2]
      exact ⟨start, rfl⟩
  · rw [if_pos connects, if_neg fun both => connects both.1]
    exact ⟨result, rfl⟩

theorem tryEndpoints_attemptsAs (wanted : Nat) (getData : ByteString)
    (port : UInt16) (now : UInt64) (endpoints : List Endpoint)
    (result : SignetBlocksResult) :
    AttemptsAs doubleSha256
      (tryEndpoints doubleSha256 wanted getData port now endpoints result)
      (firstDelivery doubleSha256 wanted getData port now endpoints) := by
  induction endpoints generalizing result with
  | nil => exact ⟨result, rfl⟩
  | cons endpoint rest ih =>
      have first : AttemptsAs doubleSha256 _ _ :=
        tryEndpoint_attemptsAs wanted getData port now endpoint result
      unfold tryEndpoints firstDelivery
      cases delivered : endpointDelivery doubleSha256 wanted getData port now
          endpoint with
      | incomplete =>
          rw [delivered] at first
          obtain ⟨after, gaveUp⟩ := first
          rw [gaveUp]
          exact ih after
      | malformed =>
          rw [delivered] at first
          intro ended endedEq
          split at endedEq
          · rename_i after gaveUp
            obtain ⟨status, final, impossible, -⟩ := first _ gaveUp
            cases impossible
          · exact first ended endedEq
      | complete payloads =>
          rw [delivered] at first
          obtain ⟨final, deliveredAll, holds⟩ := first
          rw [deliveredAll]
          exact ⟨final, rfl, holds⟩

theorem fetchFromPeers_callsAs (blockHashes : List ByteString)
    (world : FetchWorld) :
    CallsAs doubleSha256 (fetchFromPeers doubleSha256 blockHashes world)
      (peersDelivery doubleSha256 blockHashes world) := by
  unfold fetchFromPeers peersDelivery
  cases encodeGetDataPayload blockHashes with
  | none =>
      intro outcome returned
      cases returned
      rfl
  | some getData =>
      cases world.endpoints with
      | none =>
          intro outcome returned
          cases returned
          rfl
      | some endpoints =>
          dsimp only
          generalize (if world.root.isSome then ({} : SignetBlocksResult)
            else { peerAddress := ascii "cache" }) = start
          have attempts : AttemptsAs doubleSha256 _ _ :=
            tryEndpoints_attemptsAs blockHashes.length getData world.port
              world.now endpoints start
          cases delivered : firstDelivery doubleSha256 blockHashes.length getData
              world.port world.now endpoints with
          | incomplete =>
              rw [delivered] at attempts
              obtain ⟨result, gaveUp⟩ := attempts
              rw [gaveUp]
              intro outcome returned
              cases returned
              rfl
          | malformed =>
              rw [delivered] at attempts
              intro outcome returned
              cases attempt : tryEndpoints doubleSha256 blockHashes.length
                  getData world.port world.now endpoints start with
              | error fault =>
                  rw [attempt] at returned
                  cases returned
              | ok ended =>
                  obtain ⟨status, result, rfl, notOk⟩ := attempts ended attempt
                  rw [attempt] at returned
                  cases returned
                  exact notOk
          | complete payloads =>
              rw [delivered] at attempts
              obtain ⟨result, deliveredAll, holds⟩ := attempts
              rw [deliveredAll]
              exact ⟨_, rfl, rfl, holds⟩

theorem fetchBlocks_callsAs (blockHashes : List ByteString) (world : FetchWorld) :
    CallsAs doubleSha256 (fetchBlocks doubleSha256 blockHashes world)
      (served doubleSha256 blockHashes world) := by
  unfold fetchBlocks served
  by_cases empty : blockHashes = []
  · rw [if_pos empty, if_pos empty]
    intro outcome returned
    cases returned
    rfl
  · rw [if_neg empty, if_neg empty]
    unfold fetchFromCache
    cases world.root with
    | none => exact fetchFromPeers_callsAs blockHashes world
    | some root =>
        dsimp only [Option.elim]
        have loads : LoadsAs doubleSha256 _ _ :=
          loadCachedBlocks_loadsAs root blockHashes
        cases delivered : cacheDelivery doubleSha256 root blockHashes with
        | incomplete =>
            rw [delivered] at loads
            have missing : loadCachedBlocks doubleSha256 root blockHashes = _ :=
              loads
            rw [missing]
            exact fetchFromPeers_callsAs blockHashes world
        | malformed =>
            rw [delivered] at loads
            obtain ⟨fault, failed⟩ := loads
            rw [failed]
            intro outcome returned
            cases returned
        | complete payloads =>
            rw [delivered] at loads
            obtain ⟨blocks, metadata, loaded, blocksEq, metadataEq⟩ := loads
            rw [loaded]
            exact ⟨_, rfl, rfl, blocksEq, metadataEq⟩

/-- The result is the requested blocks, in some order, with the metadata of
each. -/
structure ReturnsRequested (blockHashes : List ByteString)
    (result : SignetBlocksResult) : Prop where
  length : result.blocks.length = blockHashes.length
  requested : (result.blocks.map BlockBody.blockHashHex).Perm blockHashes
  metadata : result.metadata.map BlockMetadata.blockHashHex =
    result.blocks.map BlockBody.blockHashHex

/-- A successful call returns the requested blocks. -/
def FetchesRequested (doubleSha256 : ByteString → Hash256)
    (blockHashes : List ByteString) (world : FetchWorld) : Prop :=
  ∀ outcome, fetchBlocks doubleSha256 blockHashes world = .ok outcome →
    outcome.status.isOk = true → ReturnsRequested blockHashes outcome.result

/-- The payloads that are served, if they are, hash to the requested hashes. -/
def ServesRequested (doubleSha256 : ByteString → Hash256)
    (blockHashes : List ByteString) (world : FetchWorld) : Prop :=
  ∀ payloads, served doubleSha256 blockHashes world = .complete payloads →
    (payloads.map (headerHashHex doubleSha256)).Perm blockHashes

/-- A call fetches the requested blocks exactly when the cache files or the peer
that complete it serve them. -/
theorem fetchesRequested_iff (doubleSha256 : ByteString → Hash256)
    (blockHashes : List ByteString) (world : FetchWorld) :
    FetchesRequested doubleSha256 blockHashes world ↔
      ServesRequested doubleSha256 blockHashes world := by
  have calls : CallsAs doubleSha256 _ _ := fetchBlocks_callsAs blockHashes world
  constructor
  · intro fetches payloads complete
    rw [complete] at calls
    obtain ⟨outcome, returned, isOk, holds⟩ := calls
    rw [← holds.blocks]
    exact (fetches outcome returned isOk).requested
  · intro serves outcome returned isOk
    cases delivered : served doubleSha256 blockHashes world with
    | incomplete =>
        rw [delivered] at calls
        rw [calls outcome returned] at isOk
        cases isOk
    | malformed =>
        rw [delivered] at calls
        rw [calls outcome returned] at isOk
        cases isOk
    | complete payloads =>
        rw [delivered] at calls
        obtain ⟨same, sameReturned, -, holds⟩ := calls
        rw [returned] at sameReturned
        cases sameReturned
        have requested := serves payloads delivered
        rw [← holds.blocks] at requested
        refine ⟨?_, requested, ?_⟩
        · rw [← requested.length_eq, List.length_map]
        · rw [holds.metadata, holds.blocks]

/-- The smallest block: a header and one transaction without inputs and
outputs. -/
def smallestBlock : Span UInt8 where
  items := List.replicate 80 0 ++ [1] ++ List.replicate 10 0
  length_lt := by simp

/-- A peer that greets and sends the smallest block, whatever it is asked
for. -/
def carelessPeer : Endpoint where
  socket :=
    { incoming :=
        [⟨ascii "version", ⟨[], by simp⟩⟩, ⟨ascii "verack", ⟨[], by simp⟩⟩,
          ⟨ascii "block", smallestBlock⟩]
      sends := [true, true, true] }

/-- The peer's block is returned in the place of the requested one. -/
theorem not_fetchesRequested :
    ¬ FetchesRequested (fun _ => Hash.zero) [List.replicate 64 49]
      { endpoints := some [carelessPeer] } := by
  intro fetches
  have otherHash : (fetchBlocks (fun _ => Hash.zero) [List.replicate 64 49]
      { endpoints := some [carelessPeer] }).toOption.map (fun outcome =>
        (outcome.status.isOk, outcome.result.blocks.map BlockBody.blockHashHex)) =
      some (true, [List.replicate 64 48]) := by
    decide +kernel
  cases returned : fetchBlocks (fun _ => Hash.zero) [List.replicate 64 49]
      { endpoints := some [carelessPeer] } with
  | error fault =>
      rw [returned] at otherHash
      cases otherHash
  | ok outcome =>
      rw [returned] at otherHash
      obtain ⟨isOk, blocks⟩ := Prod.mk.inj (Option.some.inj otherHash)
      have requested := (fetches outcome returned isOk).requested
      rw [blocks] at requested
      exact absurd requested (by decide)

end Bitcoin

end Blocxxi
