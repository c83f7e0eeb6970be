import Blocxxi.BlockRoundTrip

/-!
# What a matching root says about the transactions

Two blocks with the same header and matching roots have the same identifiers if
they have equally many transactions and nothing that was hashed for the roots
collides.  Otherwise the identifiers are the same once both lists are completed:
a list that repeats its last identifiers has the root of the shorter one.
-/

namespace Blocxxi

namespace Bitcoin

open Cxx ByteText CursorReader CursorReader.Reader MerkleTree

section Parsed

variable {doubleSha256 : ByteString → Hash256} {payload : Span UInt8}

/-- The root of the header and the identifiers of hashes. -/
structure ShowsHashes (payload : Span UInt8) (metadata : BlockMetadata)
    (hashes : List Hash256) : Prop where
  stored : metadata.merkleRootHex = wireHashToHex (bytesAt payload 36 32)
  ids : metadata.transactionIds = hashes.map shownHash

theorem parseRun_showsHashes {add : Nat → Nat → Nat} {metadata : BlockMetadata}
    (parsed : (parseRun doubleSha256 payload add).1 = .ok metadata) :
    ∃ hashes, ShowsHashes payload metadata hashes := by
  apply parseRun_keeps (fun _ => ⟨[], rfl, rfl⟩) _ parsed
  rintro state cursor next after ⟨hashes, shows⟩ arrived
  obtain ⟨-, sameRoot, hash, added⟩ := readTransaction_arrives arrived
  refine ⟨hashes ++ [hash], sameRoot.trans shows.stored, ?_⟩
  rw [added, shows.ids, List.map_append]
  rfl

/-- The identifiers of an accepted block are those of hashes, and its root
matches if it is the root of their tree. -/
theorem parse_showsHashes {metadata : BlockMetadata}
    (parsed : parseBlockMetadata doubleSha256 payload = .ok (some metadata))
    (isMatching : metadata.merkleRootMatches = true) :
    ∃ hashes : List Hash256, metadata.transactionIds = hashes.map shownHash ∧
      merkleRoot doubleSha256 hashes = some (bytesAt payload 36 32) := by
  obtain ⟨found, run, finished⟩ := parseBlockMetadata_cases parsed
  obtain ⟨hashes, shows⟩ := parseRun_showsHashes run
  have nonempty : hashes ≠ [] := by
    rintro rfl
    rw [finishMetadata, shows.ids] at finished
    cases finished
  rw [finishMetadata_shown doubleSha256 nonempty shows.ids shows.stored] at finished
  cases finished
  exact ⟨hashes, shows.ids, of_decide_eq_true isMatching⟩

end Parsed

section Roots

variable (doubleSha256 : ByteString → Hash256)

/-- The byte strings that are hashed for the root over some identifiers. -/
def rootInputs (txids : List ByteString) : List ByteString :=
  let leaves := (txids.mapM merkleLeaf).getD []
  (combinedPairs (pairHash doubleSha256) (height leaves) leaves).map fun pair =>
    pair.1 ++ pair.2

/-- The identifiers with those that are repeated in place of missing ones. -/
def completedIds (txids : List ByteString) : List ByteString :=
  completed (height txids) txids

theorem height_map {First Second : Type} (change : First → Second)
    (leaves : List First) : height (leaves.map change) = height leaves := by
  rw [height, List.length_map, height]

theorem rootInputs_shown (hashes : List Hash256) :
    rootInputs doubleSha256 (hashes.map shownHash) =
      (combinedPairs (pairHash doubleSha256) (height hashes)
        (hashes.map Hash.bytes)).map fun pair => pair.1 ++ pair.2 := by
  rw [rootInputs, mapM_merkleLeaf_shown, Option.getD_some, height_map]

/-- All nodes of a tree over hashes have the width of a hash. -/
theorem node_length {steps : Nat} {hashes : List Hash256}
    {pair : ByteString × ByteString}
    (member : pair ∈ combinedPairs (pairHash doubleSha256) steps
      (hashes.map Hash.bytes)) : pair.1.length = 32 ∧ pair.2.length = 32 := by
  have leaves : ∀ leaf ∈ hashes.map Hash.bytes, leaf.length = 32 := by
    intro leaf inLeaves
    obtain ⟨hash, -, rfl⟩ := List.mem_map.mp inLeaves
    exact hash.size_eq
  exact forall_combinedPairs (fun node => node.length = 32)
    (pairHash_length doubleSha256) leaves member

/-- Pairs of nodes do not collide if their bytes do not. -/
theorem collisionFree_of_injOn {first second : List Hash256}
    (injOn : Set.InjOn doubleSha256 {bytes | bytes ∈
      rootInputs doubleSha256 (first.map shownHash) ++
        rootInputs doubleSha256 (second.map shownHash)}) :
    CollisionFree (pairHash doubleSha256)
      (combinedPairs (pairHash doubleSha256) (height first) (first.map Hash.bytes) ++
        combinedPairs (pairHash doubleSha256) (height second)
          (second.map Hash.bytes)) := by
  have lengths : ∀ pair ∈ combinedPairs (pairHash doubleSha256) (height first)
      (first.map Hash.bytes) ++ combinedPairs (pairHash doubleSha256)
        (height second) (second.map Hash.bytes), pair.1.length = 32 := by
    intro pair member
    rcases List.mem_append.mp member with inFirst | inSecond
    · exact (node_length doubleSha256 inFirst).1
    · exact (node_length doubleSha256 inSecond).1
  rw [rootInputs_shown, rootInputs_shown, ← List.map_append] at injOn
  intro pair inPairs other inOthers same
  have bytes := injOn (List.mem_map_of_mem inPairs) (List.mem_map_of_mem inOthers)
    (Hash.ext same)
  obtain ⟨firsts, seconds⟩ := List.append_inj bytes
    ((lengths pair inPairs).trans (lengths other inOthers).symm)
  exact Prod.ext firsts seconds

theorem completedIds_shown (hashes : List Hash256) :
    completedIds (hashes.map shownHash) =
      (completed (height hashes) (hashes.map Hash.bytes)).map wireHashToHex := by
  have shown : hashes.map shownHash = (hashes.map Hash.bytes).map wireHashToHex := by
    rw [List.map_map]
    rfl
  rw [completedIds, height_map, shown, completed_map]

end Roots

section SameRoot

variable {doubleSha256 : ByteString → Hash256} {first second : List Hash256}
  {top : ByteString} (firstRoot : merkleRoot doubleSha256 first = some top)
  (secondRoot : merkleRoot doubleSha256 second = some top)
  (injOn : Set.InjOn doubleSha256 {bytes | bytes ∈
    rootInputs doubleSha256 (first.map shownHash) ++
      rootInputs doubleSha256 (second.map shownHash)})

include firstRoot secondRoot injOn

/-- Trees of one height over hashes with the same root have the same completed
identifiers. -/
theorem completedIds_eq (sameHeight : height first = height second) :
    completedIds (first.map shownHash) = completedIds (second.map shownHash) := by
  have free := collisionFree_of_injOn doubleSha256 injOn
  have tops := (top_eq _ firstRoot).trans (top_eq _ secondRoot).symm
  rw [height_map, height_map, sameHeight] at tops
  rw [sameHeight] at free
  rw [completedIds_shown, completedIds_shown, sameHeight,
    completed_eq_of_tops free tops]

/-- The identifiers of a lower tree with the same root are hashes of bytes that
are hashed in the higher one. -/
theorem shownHash_of_lower (lower : height first < height second) {id : ByteString}
    (member : id ∈ first.map shownHash) :
    ∃ bytes ∈ rootInputs doubleSha256 (second.map shownHash),
      bytes.length = 64 ∧ shownHash (doubleSha256 bytes) = id := by
  have free := collisionFree_of_injOn doubleSha256 injOn
  have tops := (top_eq _ firstRoot).trans (top_eq _ secondRoot).symm
  obtain ⟨steps, isHeight⟩ := Nat.exists_eq_add_of_lt lower
  have higher : height second = steps + 1 + height first := by omega
  rw [height_map, height_map, higher] at tops
  rw [higher] at free
  obtain ⟨hash, inFirst, rfl⟩ := List.mem_map.mp member
  obtain ⟨pair, inPairs, isLeaf⟩ := leaf_combined_of_tops free tops
    (List.mem_map_of_mem inFirst)
  obtain ⟨firstLength, secondLength⟩ := node_length doubleSha256 inPairs
  refine ⟨pair.1 ++ pair.2, ?_, ?_, congrArg wireHashToHex isLeaf⟩
  · rw [rootInputs_shown, higher]
    exact List.mem_map_of_mem inPairs
  · rw [List.length_append, firstLength, secondLength]

end SameRoot

theorem stored_of_header {first second : Span UInt8}
    (sameHeader : bytesAt first 0 80 = bytesAt second 0 80) :
    bytesAt first 36 32 = bytesAt second 36 32 := by
  have inHeader : ∀ payload : Span UInt8,
      bytesAt payload 36 32 = ((bytesAt payload 0 80).drop 36).take 32 := by
    intro payload
    simp [bytesAt, List.drop_take, List.take_take]
  rw [inHeader, inHeader, sameHeader]

/-- Two accepted payloads with one header whose roots match, where nothing that
is hashed for the roots collides: lists of one length are the same; trees of one
height have the same completed identifiers; and every identifier of a lower tree
is the hash of 64 bytes that are hashed in the higher one. -/
theorem matchingRoots_transactionIds (doubleSha256 : ByteString → Hash256)
    {first second : Span UInt8} {firstBlock secondBlock : BlockMetadata}
    (firstParsed : parseBlockMetadata doubleSha256 first = .ok (some firstBlock))
    (secondParsed : parseBlockMetadata doubleSha256 second = .ok (some secondBlock))
    (sameHeader : bytesAt first 0 80 = bytesAt second 0 80)
    (firstMatches : firstBlock.merkleRootMatches = true)
    (secondMatches : secondBlock.merkleRootMatches = true)
    (injOn : Set.InjOn doubleSha256 {bytes | bytes ∈
      rootInputs doubleSha256 firstBlock.transactionIds ++
        rootInputs doubleSha256 secondBlock.transactionIds}) :
    (firstBlock.transactionIds.length = secondBlock.transactionIds.length →
      firstBlock.transactionIds = secondBlock.transactionIds) ∧
    (height firstBlock.transactionIds = height secondBlock.transactionIds →
      completedIds firstBlock.transactionIds =
        completedIds secondBlock.transactionIds) ∧
    (height firstBlock.transactionIds < height secondBlock.transactionIds →
      ∀ id ∈ firstBlock.transactionIds,
        ∃ bytes ∈ rootInputs doubleSha256 secondBlock.transactionIds,
          bytes.length = 64 ∧ shownHash (doubleSha256 bytes) = id) := by
  obtain ⟨firstHashes, firstIds, firstRoot⟩ := parse_showsHashes firstParsed firstMatches
  obtain ⟨secondHashes, secondIds, secondRoot⟩ :=
    parse_showsHashes secondParsed secondMatches
  rw [stored_of_header sameHeader] at firstRoot
  rw [firstIds, secondIds] at injOn ⊢
  rw [height_map, height_map]
  refine ⟨?_, completedIds_eq firstRoot secondRoot injOn, ?_⟩
  · intro sameLength
    have sameHeight : height firstHashes = height secondHashes := by
      rw [List.length_map, List.length_map] at sameLength
      rw [height, height, sameLength]
    have same := completedIds_eq firstRoot secondRoot injOn sameHeight
    rw [completedIds, completedIds, height_map, height_map, sameHeight] at same
    exact completed_injective sameLength same
  · intro lower id member
    exact shownHash_of_lower firstRoot secondRoot injOn lower member

/-- A transaction without inputs and outputs. -/
def emptyTransaction (lockTime : UInt32) : WireTransaction where
  version := 1
  inputs := []
  outputs := []
  witness := none
  lockTime := lockTime
  plain := fun _ => Or.inr rfl

section Repeated

variable (doubleSha256 : ByteString → Hash256)

/-- The root over three transactions. -/
def rootOfThree : Hash256 :=
  let hash := fun lockTime =>
    (doubleSha256 (emptyTransaction lockTime).strippedBytes).bytes
  doubleSha256 (pairHash doubleSha256 (hash 0) (hash 1) ++
    pairHash doubleSha256 (hash 2) (hash 2))

/-- The block of the transactions with these lock times, under that root. -/
def blockUnderRoot (lockTimes : List UInt32) (nonempty : lockTimes ≠ []) : WireBlock where
  header := List.replicate 36 0 ++
    ((rootOfThree doubleSha256).bytes ++ List.replicate 12 0)
  header_length := by
    rw [List.length_append, List.length_append, (rootOfThree doubleSha256).size_eq,
      List.length_replicate, List.length_replicate]
  transactions := lockTimes.map emptyTransaction
  nonempty := fun empty => nonempty (List.map_eq_nil_iff.mp empty)

theorem blockUnderRoot_fits {lockTimes : List UInt32} (nonempty : lockTimes ≠ [])
    (few : (countedBytes WireTransaction.bytes (lockTimes.map emptyTransaction)).length <
      2 ^ 62) : (blockUnderRoot doubleSha256 lockTimes nonempty).bytes.length < 2 ^ 63 := by
  have length := (blockUnderRoot doubleSha256 lockTimes nonempty).header_length
  rw [WireBlock.bytes, List.length_append, length]
  change 80 + (countedBytes WireTransaction.bytes
    (lockTimes.map emptyTransaction)).length < _
  omega

/-- The hashes of the transactions with these lock times. -/
def emptyHashes (lockTimes : List UInt32) : List Hash256 :=
  lockTimes.map fun lockTime =>
    doubleSha256 (emptyTransaction lockTime).strippedBytes

theorem merkleRoot_three :
    merkleRoot doubleSha256 (emptyHashes doubleSha256 [0, 1, 2]) =
      some (rootOfThree doubleSha256).bytes := by
  have isHeight : height ((emptyHashes doubleSha256 [0, 1, 2]).map Hash.bytes) = 2 := by
    change Nat.clog 2 3 = 2
    decide +kernel
  rw [merkleRoot, root, isHeight]
  rfl

/-- Repeating the last transaction leaves the root as it is. -/
theorem merkleRoot_repeated :
    merkleRoot doubleSha256 (emptyHashes doubleSha256 [0, 1, 2, 2]) =
      some (rootOfThree doubleSha256).bytes := by
  have firstHeight :
      height ((emptyHashes doubleSha256 [0, 1, 2]).map Hash.bytes) = 2 := by
    change Nat.clog 2 3 = 2
    decide +kernel
  have secondHeight :
      height ((emptyHashes doubleSha256 [0, 1, 2, 2]).map Hash.bytes) = 2 := by
    change Nat.clog 2 4 = 2
    decide +kernel
  rw [← merkleRoot_three]
  apply root_eq_of_completed
  · rw [firstHeight, secondHeight]
  · rw [firstHeight, secondHeight]
    rfl

theorem blockUnderRoot_matches {lockTimes : List UInt32} (nonempty : lockTimes ≠ [])
    (isRoot : merkleRoot doubleSha256 (emptyHashes doubleSha256 lockTimes) =
      some (rootOfThree doubleSha256).bytes) :
    ((blockUnderRoot doubleSha256 lockTimes nonempty).metadata
      doubleSha256).merkleRootMatches = true := by
  have stored : (blockUnderRoot doubleSha256 lockTimes nonempty).headerBytes 36 32 =
      (rootOfThree doubleSha256).bytes := by
    change ((List.replicate 36 0 ++
      ((rootOfThree doubleSha256).bytes ++ List.replicate 12 0)).drop 36).take 32 = _
    rw [List.drop_left' List.length_replicate,
      List.take_left' (rootOfThree doubleSha256).size_eq]
  have hashes : (blockUnderRoot doubleSha256 lockTimes nonempty).hashes doubleSha256 =
      emptyHashes doubleSha256 lockTimes := by
    rw [WireBlock.hashes, blockUnderRoot, List.map_map]
    rfl
  rw [WireBlock.metadata, stored, hashes]
  exact decide_eq_true isRoot

end Repeated

def threeTransactions (doubleSha256 : ByteString → Hash256) : WireBlock :=
  blockUnderRoot doubleSha256 [0, 1, 2] (List.cons_ne_nil _ _)

def repeatedTransactions (doubleSha256 : ByteString → Hash256) : WireBlock :=
  blockUnderRoot doubleSha256 [0, 1, 2, 2] (List.cons_ne_nil _ _)

theorem threeTransactions_fits (doubleSha256 : ByteString → Hash256) :
    (threeTransactions doubleSha256).bytes.length < 2 ^ 63 :=
  blockUnderRoot_fits doubleSha256 _ (by decide +kernel)

theorem repeatedTransactions_fits (doubleSha256 : ByteString → Hash256) :
    (repeatedTransactions doubleSha256).bytes.length < 2 ^ 63 :=
  blockUnderRoot_fits doubleSha256 _ (by decide +kernel)

theorem threeTransactions_header (doubleSha256 : ByteString → Hash256) :
    bytesAt ⟨_, threeTransactions_fits doubleSha256⟩ 0 80 =
      bytesAt ⟨_, repeatedTransactions_fits doubleSha256⟩ 0 80 := by
  rw [bytesAt_header (threeTransactions doubleSha256) rfl (by decide),
    bytesAt_header (repeatedTransactions doubleSha256) rfl (by decide)]
  rfl

/-- Whatever is used to hash, three transactions and the same with the last one
repeated are accepted under one header, and both roots match. -/
theorem matchingRoots_not_pinning :
    ¬ ∃ doubleSha256 : ByteString → Hash256,
      ∀ (first second : Span UInt8) (firstBlock secondBlock : BlockMetadata),
        parseBlockMetadata doubleSha256 first = .ok (some firstBlock) →
        parseBlockMetadata doubleSha256 second = .ok (some secondBlock) →
        bytesAt first 0 80 = bytesAt second 0 80 →
        firstBlock.merkleRootMatches = true →
        secondBlock.merkleRootMatches = true →
          firstBlock.transactionIds = secondBlock.transactionIds := by
  rintro ⟨doubleSha256, pins⟩
  have same := pins ⟨_, threeTransactions_fits doubleSha256⟩
    ⟨_, repeatedTransactions_fits doubleSha256⟩ _ _
    (parse_bytes doubleSha256 (threeTransactions doubleSha256) rfl)
    (parse_bytes doubleSha256 (repeatedTransactions doubleSha256) rfl)
    (threeTransactions_header doubleSha256)
    (blockUnderRoot_matches doubleSha256 _ (merkleRoot_three doubleSha256))
    (blockUnderRoot_matches doubleSha256 _ (merkleRoot_repeated doubleSha256))
  cases congrArg List.length same

/-- A way to hash that mixes the two halves of 64 bytes. -/
def mixedHash (bytes : ByteString) : Hash256 where
  bytes := (List.range 32).map fun index =>
    bytes.getD index 0 + 3 * bytes.getD (index + 32) 0
  size_eq := (List.length_map _).trans List.length_range

theorem matchingRoots_repeatedTransactions :
    let three := (threeTransactions mixedHash).metadata mixedHash
    let repeated := (repeatedTransactions mixedHash).metadata mixedHash
    (three.transactionIds.length = repeated.transactionIds.length →
      three.transactionIds = repeated.transactionIds) ∧
    (height three.transactionIds = height repeated.transactionIds →
      completedIds three.transactionIds = completedIds repeated.transactionIds) ∧
    (height three.transactionIds < height repeated.transactionIds →
      ∀ id ∈ three.transactionIds,
        ∃ bytes ∈ rootInputs mixedHash repeated.transactionIds,
          bytes.length = 64 ∧ shownHash (mixedHash bytes) = id) := by
  apply matchingRoots_transactionIds mixedHash
    (parse_bytes mixedHash (threeTransactions mixedHash) rfl)
    (parse_bytes mixedHash (repeatedTransactions mixedHash) rfl)
    (threeTransactions_header mixedHash)
    (blockUnderRoot_matches mixedHash _ (merkleRoot_three mixedHash))
    (blockUnderRoot_matches mixedHash _ (merkleRoot_repeated mixedHash))
  have apart : ∀ bytes ∈ rootInputs mixedHash
        ((threeTransactions mixedHash).metadata mixedHash).transactionIds ++
      rootInputs mixedHash
        ((repeatedTransactions mixedHash).metadata mixedHash).transactionIds,
      ∀ other ∈ rootInputs mixedHash
        ((threeTransactions mixedHash).metadata mixedHash).transactionIds ++
      rootInputs mixedHash
        ((repeatedTransactions mixedHash).metadata mixedHash).transactionIds,
      mixedHash bytes = mixedHash other → bytes = other := by
    decide +kernel
  exact fun bytes inBytes other inOther same => apart bytes inBytes other inOther same

end Bitcoin

end Blocxxi
