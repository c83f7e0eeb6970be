import Blocxxi.BlockFetching
import Blocxxi.MerkleRootIds
import Blocxxi.Sha256Streaming

/-!
# What digests commit to

Padded messages never end in one another, so messages with one digest come with two
blocks that were compressed to the same state on the way, or are the same.  This
carries over to the double hash of the wire format, to the tree over the transactions
of a block, and to its header.
-/

namespace Blocxxi

namespace Nova

open Cxx BlockChaining

namespace Sha256

theorem storeBE32_injective : Function.Injective storeBE32 := by
  intro first second same
  obtain ⟨one, two, three, four⟩ :
      (first >>> 24).toUInt8 = (second >>> 24).toUInt8 ∧
        (first >>> 16).toUInt8 = (second >>> 16).toUInt8 ∧
        (first >>> 8).toUInt8 = (second >>> 8).toUInt8 ∧
        first.toUInt8 = second.toUInt8 := by
    simpa only [storeBE32, List.cons.injEq, and_true] using same
  rw [← Simd.hostWord_wordBytes first, ← Simd.hostWord_wordBytes second, one, two, three,
    four]

theorem shiftedByte_toNat (val : UInt64) {places : UInt64} (small : places.toNat < 64) :
    (val >>> places).toUInt8.toNat = val.toNat / 2 ^ places.toNat % 2 ^ 8 := by
  rw [UInt64.toNat_toUInt8, UInt64.toNat_shiftRight, Nat.mod_eq_of_lt small,
    Nat.shiftRight_eq_div_pow]

/-- The number that is stored is read from its bytes. -/
theorem value_storeBE64 (val : UInt64) : BigEndian.value (storeBE64 val) = val.toNat := by
  have bound := val.toNat_lt
  simp only [storeBE64, BigEndian.value, List.foldl_cons, List.foldl_nil]
  rw [shiftedByte_toNat val (by decide), shiftedByte_toNat val (by decide),
    shiftedByte_toNat val (by decide), shiftedByte_toNat val (by decide),
    shiftedByte_toNat val (by decide), shiftedByte_toNat val (by decide),
    shiftedByte_toNat val (by decide), UInt64.toNat_toUInt8]
  simp only [UInt64.reduceToNat]
  omega

theorem digestOf_injective : Function.Injective digestOf := by
  intro first second same
  have bytes : (stateWords first).flatMap storeBE32 =
      (stateWords second).flatMap storeBE32 := congrArg Hash.bytes same
  have words : ∀ {words others : List UInt32}, words.length = others.length →
      words.flatMap storeBE32 = others.flatMap storeBE32 → words = others := by
    intro words others lengths joined
    induction words generalizing others with
    | nil => exact (List.eq_nil_of_length_eq_zero lengths.symm).symm
    | cons word words ih =>
        cases others with
        | nil => cases lengths
        | cons other others =>
            obtain ⟨heads, tails⟩ := List.append_inj joined rfl
            rw [storeBE32_injective heads, ih (Nat.succ.inj lengths) tails]
  have states : stateWords first = stateWords second := words rfl bytes
  simp only [stateWords, List.cons.injEq, and_true] at states
  obtain ⟨a, b, c, d, e, f, g, h⟩ := states
  ext1 <;> assumption

/-- A message whose length in bits is counted without an overflow. -/
def CountFits (message : ByteString) : Prop :=
  message.length < 2 ^ 61

instance (message : ByteString) : Decidable (CountFits message) :=
  inferInstanceAs (Decidable (_ < _))

theorem padding_length (length : Nat) : (padding length).length = zeroCount length + 9 := by
  simp [padding, storeBE64]

theorem padding_whole (length : Nat) : kBlockSize ∣ length + (padding length).length := by
  rw [padding_length, zeroCount, kBlockSize]
  omega

theorem flatten_padded (message : ByteString) :
    (padded message).flatten = message ++ padding message.length := by
  apply flatten_wholeBlocks
  rw [List.length_append]
  exact padding_whole message.length

/-- The padding tells the length of the message. -/
theorem length_eq_of_suffix {first second : ByteString} (firstCounts : CountFits first)
    (secondCounts : CountFits second)
    (suffix : first ++ padding first.length <:+ second ++ padding second.length) :
    first.length = second.length := by
  obtain ⟨front, joined⟩ := suffix
  have ends {message front : ByteString} :
      front ++ (message ++ padding message.length) =
        (front ++ message ++ 0x80 :: List.replicate (zeroCount message.length) 0) ++
          storeBE64 (UInt64.ofNat message.length * 8) := by
    simp only [padding, List.append_assoc, List.cons_append]
  have whole := @ends second []
  rw [List.nil_append] at whole
  rw [ends, whole] at joined
  have stored := congrArg BigEndian.value (List.append_inj_right' joined rfl)
  rw [value_storeBE64, value_storeBE64] at stored
  have bits {message : ByteString} (counts : CountFits message) :
      (UInt64.ofNat message.length * 8).toNat = message.length * 8 := by
    unfold CountFits at counts
    have fits : message.length % 2 ^ 64 = message.length := Nat.mod_eq_of_lt (by omega)
    rw [UInt64.toNat_mul, UInt64.toNat_ofNat', fits]
    exact Nat.mod_eq_of_lt (by change message.length * 8 < _; omega)
  rw [bits firstCounts, bits secondCounts] at stored
  omega

theorem eq_of_padded_suffix {first second : ByteString} (firstCounts : CountFits first)
    (secondCounts : CountFits second) (suffix : padded first <:+ padded second) :
    first = second := by
  obtain ⟨front, joined⟩ := suffix
  have bytes := congrArg List.flatten joined
  rw [List.flatten_append, flatten_padded, flatten_padded] at bytes
  have lengths := length_eq_of_suffix firstCounts secondCounts ⟨_, bytes⟩
  have none : front.flatten = [] := by
    have counted := congrArg List.length bytes
    rw [List.length_append, List.length_append, List.length_append, lengths] at counted
    exact List.eq_nil_of_length_eq_zero (by omega)
  rw [none, List.nil_append] at bytes
  exact List.append_inj_left bytes lengths

/-- The pairs of a state and a block that are compressed for a digest. -/
def digestInputs (message : ByteString) : List (Words × ByteString) :=
  inputs compress kInitState (padded message)

theorem eq_of_sha256 {first second : ByteString} (firstCounts : CountFits first)
    (secondCounts : CountFits second)
    (free : CollisionFree compress (digestInputs first ++ digestInputs second))
    (same : sha256 first = sha256 second) : first = second := by
  have suffixFree (ends : padded first <:+ padded second ∨ padded second <:+ padded first) :
      first = second := by
    rcases ends with suffix | suffix
    · exact eq_of_padded_suffix firstCounts secondCounts suffix
    · exact (eq_of_padded_suffix secondCounts firstCounts suffix).symm
  exact message_eq_of_foldl_eq suffixFree free (digestOf_injective same)

theorem sha256_injOn {messages : List ByteString}
    (count : ∀ message ∈ messages, CountFits message)
    (free : CollisionFree compress (messages.flatMap digestInputs)) :
    Set.InjOn sha256 {message | message ∈ messages} := by
  intro first inFirst second inSecond same
  refine eq_of_sha256 (count first inFirst) (count second inSecond) ?_ same
  apply free.of_subset
  intro pair member
  rcases List.mem_append.mp member with ofFirst | ofSecond
  · exact List.mem_flatMap_of_mem inFirst ofFirst
  · exact List.mem_flatMap_of_mem inSecond ofSecond

/-- Runs that hand over the same digests were given the same messages, each as a
whole, unless two of the blocks they worked off collide. -/
theorem messages_eq_of_run {first second : List (Bool × Call)}
    (count : ∀ message ∈ messages [] (first.map Prod.snd) ++
      messages [] (second.map Prod.snd), CountFits message)
    (free : CollisionFree compress ((messages [] (first.map Prod.snd) ++
      messages [] (second.map Prod.snd)).flatMap digestInputs))
    (same : Hasher.run {} first = Hasher.run {} second) :
    messages [] (first.map Prod.snd) = messages [] (second.map Prod.snd) := by
  rw [represents_new.run, represents_new.run] at same
  exact MerkleTree.map_injOn (sha256_injOn count free) (List.subset_append_left _ _)
    (List.subset_append_right _ _) same

theorem messages_eq_of_run_cut :
    let whole := [(false, Call.update [97, 98]), (false, .finalize)]
    let cut := [(true, Call.update [97]), (true, .update [98]), (false, .finalize)]
    messages [] (whole.map Prod.snd) = messages [] (cut.map Prod.snd) := by
  intro whole cut
  refine messages_eq_of_run ?_ ?_ ?_
  · decide
  · intro pair inPairs other inOthers _
    have single : ∀ pair ∈ (messages [] (whole.map Prod.snd) ++
        messages [] (cut.map Prod.snd)).flatMap digestInputs,
        pair = (kInitState, [97, 98] ++ padding 2) := by
      decide
    rw [single pair inPairs, single other inOthers]
  · rw [represents_new.run, represents_new.run]
    rfl

end Sha256

end Nova

namespace Bitcoin

open Cxx ByteText BlockChaining MerkleTree Nova Nova.Sha256

/-- `DoubleSha256`. -/
def doubleSha256 (hasShaNi : Bool) (payload : ByteString) : Hash256 :=
  let first := computeSha256 hasShaNi payload
  computeSha256 hasShaNi first.bytes

/-- The pairs that are compressed for a double hash. -/
def doubleInputs (payload : ByteString) : List (Words × ByteString) :=
  digestInputs payload ++ digestInputs (sha256 payload).bytes

theorem countFits_bytes (hash : Hash256) : CountFits hash.bytes := by
  rw [CountFits, hash.size_eq]
  decide

theorem doubleSha256_injOn (hasShaNi : Bool) {payloads : List ByteString}
    (count : ∀ payload ∈ payloads, CountFits payload)
    (free : BlockChaining.CollisionFree compress (payloads.flatMap doubleInputs)) :
    Set.InjOn (doubleSha256 hasShaNi) {payload | payload ∈ payloads} := by
  intro first inFirst second inSecond same
  rw [doubleSha256, doubleSha256, computeSha256_eq, computeSha256_eq, computeSha256_eq,
    computeSha256_eq] at same
  have inside {payload : ByteString} (member : payload ∈ payloads) :
      doubleInputs payload ⊆ payloads.flatMap doubleInputs :=
    fun _ ofPayload => List.mem_flatMap_of_mem member ofPayload
  have outer : (sha256 first).bytes = (sha256 second).bytes := by
    refine eq_of_sha256 (countFits_bytes _) (countFits_bytes _) (free.of_subset ?_) same
    exact List.append_subset.mpr
      ⟨fun _ ofFirst => inside inFirst (List.mem_append_right _ ofFirst),
        fun _ ofSecond => inside inSecond (List.mem_append_right _ ofSecond)⟩
  refine eq_of_sha256 (count _ inFirst) (count _ inSecond) (free.of_subset ?_)
    (Hash.ext outer)
  exact List.append_subset.mpr
    ⟨fun _ ofFirst => inside inFirst (List.mem_append_left _ ofFirst),
      fun _ ofSecond => inside inSecond (List.mem_append_left _ ofSecond)⟩

section BlockHashes

variable (hasShaNi : Bool)

/-- The byte strings that are hashed for the hash and the root of a block. -/
def hashedFor (payload : Span UInt8) (metadata : BlockMetadata) : List ByteString :=
  bytesAt payload 0 80 :: rootInputs (doubleSha256 hasShaNi) metadata.transactionIds

variable {hasShaNi}

theorem countFits_hashedFor {payload : Span UInt8} {metadata : BlockMetadata}
    {hashes : List Hash256} (ids : metadata.transactionIds = hashes.map shownHash) :
    ∀ bytes ∈ hashedFor hasShaNi payload metadata, CountFits bytes := by
  intro bytes member
  unfold CountFits
  rcases List.mem_cons.mp member with rfl | forRoot
  · have few : (bytesAt payload 0 80).length ≤ 80 := List.length_take_le _ _
    omega
  · rw [ids, rootInputs_shown] at forRoot
    obtain ⟨pair, inPairs, rfl⟩ := List.mem_map.mp forRoot
    obtain ⟨one, two⟩ := node_length _ inPairs
    rw [List.length_append, one, two]
    decide

/-- Two accepted payloads whose headers have the same hash and whose roots match, where
no two of the blocks compressed for hashes and roots collide, have the same header;
equally many transactions are the same ones, and trees of one height have the same
completed identifiers. -/
theorem transactionIds_of_blockHash {first second : Span UInt8}
    {firstBlock secondBlock : BlockMetadata}
    (firstParsed : parseBlockMetadata (doubleSha256 hasShaNi) first =
      .ok (some firstBlock))
    (secondParsed : parseBlockMetadata (doubleSha256 hasShaNi) second =
      .ok (some secondBlock))
    (sameHash : firstBlock.blockHashHex = secondBlock.blockHashHex)
    (firstMatches : firstBlock.merkleRootMatches = true)
    (secondMatches : secondBlock.merkleRootMatches = true)
    (free : BlockChaining.CollisionFree compress
      ((hashedFor hasShaNi first firstBlock ++
        hashedFor hasShaNi second secondBlock).flatMap doubleInputs)) :
    bytesAt first 0 80 = bytesAt second 0 80 ∧
      (firstBlock.transactionIds.length = secondBlock.transactionIds.length →
        firstBlock.transactionIds = secondBlock.transactionIds) ∧
      (height firstBlock.transactionIds = height secondBlock.transactionIds →
        completedIds firstBlock.transactionIds =
          completedIds secondBlock.transactionIds) := by
  obtain ⟨firstHashes, firstIds, firstRoot⟩ := parse_showsHashes firstParsed firstMatches
  obtain ⟨secondHashes, secondIds, secondRoot⟩ :=
    parse_showsHashes secondParsed secondMatches
  have injOn := doubleSha256_injOn hasShaNi (fun bytes member =>
    (List.mem_append.mp member).elim (countFits_hashedFor firstIds bytes)
      (countFits_hashedFor secondIds bytes)) free
  have sameHeader : bytesAt first 0 80 = bytesAt second 0 80 := by
    rw [parseBlockMetadata_hash firstParsed, parseBlockMetadata_hash secondParsed]
      at sameHash
    have digests := List.reverse_inj.mp (toHex_injective sameHash)
    exact injOn (by simp [hashedFor]) (by simp [hashedFor]) (Hash.ext digests)
  have rootsInjOn : Set.InjOn (doubleSha256 hasShaNi) {bytes | bytes ∈
      rootInputs (doubleSha256 hasShaNi) (firstHashes.map shownHash) ++
        rootInputs (doubleSha256 hasShaNi) (secondHashes.map shownHash)} := by
    apply injOn.mono
    intro bytes member
    rw [← firstIds, ← secondIds] at member
    simp only [hashedFor, Set.mem_ofPred_eq, List.mem_append, List.mem_cons] at member ⊢
    tauto
  rw [stored_of_header sameHeader] at firstRoot
  have completedSame := completedIds_eq firstRoot secondRoot rootsInjOn
  refine ⟨sameHeader, ?_, ?_⟩
  · intro sameLength
    rw [firstIds, secondIds] at sameLength ⊢
    have sameHeight : height firstHashes = height secondHashes := by
      rw [List.length_map, List.length_map] at sameLength
      rw [height, height, sameLength]
    have same := completedSame sameHeight
    rw [completedIds, completedIds, height_map, height_map, sameHeight] at same
    exact completed_injective sameLength same
  · rw [firstIds, secondIds, height_map, height_map]
    exact completedSame

end BlockHashes

section Alone

/-- A transaction without inputs and outputs, and with or without a witness. -/
def transactionAlone (witness : Option (Witness 0)) : WireTransaction where
  version := 1
  inputs := []
  outputs := []
  witness := witness
  lockTime := 0
  plain := fun _ => .inr rfl

variable (doubleSha256 : ByteString → Hash256) (witness : Option (Witness 0))

/-- Its hash, which is that of the bytes without the witness. -/
def hashAlone : Hash256 :=
  doubleSha256 (transactionAlone none).strippedBytes

def headerAlone : ByteString :=
  List.replicate 36 0 ++ ((hashAlone doubleSha256).bytes ++ List.replicate 12 0)

theorem headerAlone_length : (headerAlone doubleSha256).length = 80 := by
  rw [headerAlone, List.length_append, List.length_append,
    (hashAlone doubleSha256).size_eq, List.length_replicate, List.length_replicate]

/-- A block in which nothing else is, under that hash. -/
def blockAlone : WireBlock where
  header := headerAlone doubleSha256
  header_length := headerAlone_length doubleSha256
  transactions := [transactionAlone witness]
  nonempty := List.cons_ne_nil _ _

theorem blockAlone_matches :
    ((blockAlone doubleSha256 witness).metadata doubleSha256).merkleRootMatches = true := by
  have stored : (blockAlone doubleSha256 witness).headerBytes 36 32 =
      (hashAlone doubleSha256).bytes := by
    change ((List.replicate 36 0 ++
      ((hashAlone doubleSha256).bytes ++ List.replicate 12 0)).drop 36).take 32 = _
    rw [List.drop_left' List.length_replicate,
      List.take_left' (hashAlone doubleSha256).size_eq]
  have isRoot : merkleRoot doubleSha256 [hashAlone doubleSha256] =
      some (hashAlone doubleSha256).bytes := root_single _ _
  rw [WireBlock.metadata, stored]
  exact decide_eq_true isRoot

/-- Nothing is hashed for the root over one transaction. -/
theorem rootInputs_blockAlone :
    rootInputs doubleSha256
      ((blockAlone doubleSha256 witness).metadata doubleSha256).transactionIds = [] := by
  have single : height [hashAlone doubleSha256] = 0 := height_single (Nat.le_refl 1)
  have shown := rootInputs_shown doubleSha256 [hashAlone doubleSha256]
  rw [single] at shown
  exact shown

theorem blockAlone_fits
    (few : (countedBytes WireTransaction.bytes [transactionAlone witness]).length < 2 ^ 62) :
    (blockAlone doubleSha256 witness).bytes.length < 2 ^ 63 := by
  rw [WireBlock.bytes, List.length_append, (blockAlone doubleSha256 witness).header_length]
  change 80 + (countedBytes WireTransaction.bytes [transactionAlone witness]).length < _
  omega

theorem bytesAt_blockAlone (fits : (blockAlone doubleSha256 witness).bytes.length < 2 ^ 63) :
    bytesAt ⟨_, fits⟩ 0 80 = headerAlone doubleSha256 := by
  rw [bytesAt_header (blockAlone doubleSha256 witness) rfl (by decide)]
  exact List.take_of_length_le (Nat.le_of_eq (headerAlone_length doubleSha256))

end Alone

theorem flagByte_ne : (1 : UInt8) ≠ 0 := by
  decide

/-- A witness for no inputs. -/
def emptyWitness : Witness 0 :=
  ⟨1, [], flagByte_ne, rfl⟩

def plainPayload : Span UInt8 :=
  ⟨_, blockAlone_fits (doubleSha256 false) none (by decide +kernel)⟩

def flaggedPayload : Span UInt8 :=
  ⟨_, blockAlone_fits (doubleSha256 false) (some emptyWitness) (by decide +kernel)⟩

theorem headerAlone_free : BlockChaining.CollisionFree compress
    (doubleInputs (headerAlone (doubleSha256 false))) := by
  apply CollisionFree.of_nodup
  decide +kernel

theorem transactionIds_of_blockHash_alone :
    let plain := (blockAlone (doubleSha256 false) none).metadata (doubleSha256 false)
    let flagged :=
      (blockAlone (doubleSha256 false) (some emptyWitness)).metadata (doubleSha256 false)
    bytesAt plainPayload 0 80 = bytesAt flaggedPayload 0 80 ∧
      (plain.transactionIds.length = flagged.transactionIds.length →
        plain.transactionIds = flagged.transactionIds) ∧
      (height plain.transactionIds = height flagged.transactionIds →
        completedIds plain.transactionIds = completedIds flagged.transactionIds) := by
  intro plain flagged
  refine transactionIds_of_blockHash
    (parse_bytes (doubleSha256 false) (blockAlone (doubleSha256 false) none) rfl)
    (parse_bytes (doubleSha256 false)
      (blockAlone (doubleSha256 false) (some emptyWitness)) rfl)
    rfl (blockAlone_matches _ _) (blockAlone_matches _ _) ?_
  rw [hashedFor, hashedFor, rootInputs_blockAlone, rootInputs_blockAlone, plainPayload,
    flaggedPayload, bytesAt_blockAlone, bytesAt_blockAlone]
  apply headerAlone_free.of_subset
  intro pair member
  simpa using member

end Bitcoin

end Blocxxi
