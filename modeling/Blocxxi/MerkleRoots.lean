import Blocxxi.BlockMetadata
import Blocxxi.MerkleTree

/-!
# The root the parser computes

The parser collapses one layer after the other until a single node is left.
What it computes is the root of the Merkle tree whose nodes are the bytes of
hashes, shown in the order in which hashes are shown.
-/

namespace Blocxxi

namespace Bitcoin

open Cxx ByteText MerkleTree

section Hashing

variable (doubleSha256 : ByteString → Hash256)

/-- The bytes of a node above two others. -/
def pairHash (first second : ByteString) : ByteString :=
  (doubleSha256 (first ++ second)).bytes

@[simp]
theorem pairHash_length (first second : ByteString) :
    (pairHash doubleSha256 first second).length = 32 :=
  (doubleSha256 (first ++ second)).size_eq

theorem padLayer_cons_cons (first second : ByteString) (rest : List ByteString) :
    padLayer (first :: second :: rest) = first :: second :: padLayer rest := by
  unfold padLayer
  have sameParity : (first :: second :: rest).length % 2 = rest.length % 2 := by
    simp only [List.length_cons]
    omega
  rw [sameParity]
  split
  · rename_i odd
    cases rest with
    | nil => contradiction
    | cons third rest => simp
  · rfl

/-- Padding and hashing make the layer above. -/
theorem hashPairs_padLayer (layer : List ByteString) :
    hashPairs doubleSha256 (padLayer layer) =
      above (pairHash doubleSha256) layer := by
  fun_induction paired layer with
  | case1 first second rest induction =>
      rw [padLayer_cons_cons, hashPairs, induction]
      rfl
  | case2 last => rfl
  | case3 => rfl

/-- The loop reaches the top of the tree. -/
theorem collapseLayers_eq (fuel : Nat) (layer : List ByteString)
    (enough : layer.length ≤ fuel) :
    collapseLayers doubleSha256 fuel layer =
      (above (pairHash doubleSha256))^[height layer] layer := by
  induction fuel generalizing layer with
  | zero =>
      rw [height_single (by omega)]
      rfl
  | succ fuel induction =>
      unfold collapseLayers
      split
      · rename_i single
        rw [height_single single]
        rfl
      · have several : 2 ≤ layer.length := by omega
        have shorter := above_length (pairHash doubleSha256) layer
        rw [hashPairs_padLayer, induction _ (by omega),
          height_above (pairHash doubleSha256) several,
          Function.iterate_succ_apply]

/-- An identifier is the hash of a transaction as it is shown. -/
def shownHash (hash : Hash256) : ByteString :=
  wireHashToHex hash.bytes

theorem merkleLeaf_shownHash (hash : Hash256) :
    merkleLeaf (shownHash hash) = some hash.bytes := by
  have width : ¬ hash.bytes.reverse.length ≠ 32 := by
    rw [List.length_reverse, hash.size_eq]
    decide
  change (hexToBytes (toHex hash.bytes.reverse)).bind (fun bytes =>
    if bytes.length ≠ 32 then none else some bytes.reverse) = _
  rw [hexToBytes_toHex, Option.bind_some, if_neg width, List.reverse_reverse]

/-- The root of the tree over the hashes of transactions. -/
def merkleRoot (hashes : List Hash256) : Option ByteString :=
  root (pairHash doubleSha256) (hashes.map Hash.bytes)

theorem mapM_merkleLeaf_shown (hashes : List Hash256) :
    (hashes.map shownHash).mapM merkleLeaf = some (hashes.map Hash.bytes) := by
  induction hashes with
  | nil => rfl
  | cons hash hashes induction => simp [merkleLeaf_shownHash, induction]

theorem computeMerkleRootHex_shown (hashes : List Hash256) :
    computeMerkleRootHex doubleSha256 (hashes.map shownHash) =
      (merkleRoot doubleSha256 hashes).map wireHashToHex := by
  by_cases empty : hashes = []
  · subst empty
    rfl
  · have nonempty : hashes.map Hash.bytes ≠ [] := by simpa using empty
    obtain ⟨top, single⟩ := List.length_eq_one_iff.mp
      (top_length (pairHash doubleSha256) nonempty)
    have isRoot : merkleRoot doubleSha256 hashes = some top := by
      rw [merkleRoot, root, single]
      rfl
    unfold computeMerkleRootHex
    rw [if_neg (by simpa using empty), mapM_merkleLeaf_shown, isRoot]
    change some (toHex ((collapseLayers doubleSha256 (hashes.map Hash.bytes).length
      (hashes.map Hash.bytes)).headD []).reverse) = _
    rw [collapseLayers_eq doubleSha256 _ _ (Nat.le_refl _), single]
    rfl

theorem merkleRoot_isSome {hashes : List Hash256} (nonempty : hashes ≠ []) :
    (merkleRoot doubleSha256 hashes).isSome := by
  have leaves : hashes.map Hash.bytes ≠ [] := by simpa using nonempty
  obtain ⟨top, single⟩ := List.length_eq_one_iff.mp
    (top_length (pairHash doubleSha256) leaves)
  rw [merkleRoot, root, single]
  rfl

/-- The loop leaves at most one node, however long the list is, and more passes
would change nothing. -/
theorem collapseLayers_ends (layer : List ByteString) (more : Nat) :
    (collapseLayers doubleSha256 layer.length layer).length ≤ 1 ∧
      collapseLayers doubleSha256 (layer.length + more) layer =
        collapseLayers doubleSha256 layer.length layer := by
  rw [collapseLayers_eq doubleSha256 _ _ (Nat.le_add_right _ _),
    collapseLayers_eq doubleSha256 _ _ (Nat.le_refl _)]
  refine ⟨?_, rfl⟩
  by_cases empty : layer = []
  · subst empty
    exact Nat.zero_le 1
  · exact Nat.le_of_eq (top_length (pairHash doubleSha256) empty)

/-- An identifier: 64 lower-case digits. -/
structure ShowsHash (txid : ByteString) : Prop where
  length_eq : txid.length = 64
  digits : ∀ digit ∈ txid, digit ∈ Hex.alphabetLowerCase

theorem showsHash_replicate {digit : UInt8} (isDigit : digit ∈ Hex.alphabetLowerCase) :
    ShowsHash (List.replicate 64 digit) where
  length_eq := List.length_replicate
  digits other member := by
    rw [List.eq_of_mem_replicate member]
    exact isDigit

/-- Lower-case digits are shown as they are. -/
theorem lowerCaseDigit_of_mem {digit : UInt8}
    (member : digit ∈ Hex.alphabetLowerCase) : Hex.lowerCaseDigit digit = digit := by
  have table : ∀ digit ∈ Hex.alphabetLowerCase, Hex.lowerCaseDigit digit = digit := by
    decide +kernel
  exact table digit member

theorem ShowsHash.exists_hash {txid : ByteString} (shows_ : ShowsHash txid) :
    ∃ hash : Hash256, shownHash hash = txid := by
  have length := shows_.length_eq
  obtain ⟨bytes, decoded⟩ := Hex.decodePairs_digits (by omega : txid.length % 2 = 0)
    fun digit member => .inr (shows_.digits digit member)
  have halves := Hex.decodePairs_length decoded
  refine ⟨⟨bytes.reverse, ?_⟩, ?_⟩
  · rw [List.length_reverse]
    omega
  · rw [shownHash, wireHashToHex, List.reverse_reverse, toHex,
      Hex.encode_decodePairs decoded]
    calc txid.map Hex.lowerCaseDigit = txid.map id :=
          List.map_congr_left fun digit member =>
            lowerCaseDigit_of_mem (shows_.digits digit member)
      _ = txid := List.map_id txid

/-- Identifiers of 64 lower-case digits are those of hashes. -/
theorem exists_hashes {txids : List ByteString}
    (show_ : ∀ txid ∈ txids, ShowsHash txid) :
    ∃ hashes : List Hash256, hashes.map shownHash = txids := by
  induction txids with
  | nil => exact ⟨[], rfl⟩
  | cons txid txids ih =>
      obtain ⟨hash, isShown⟩ := (show_ txid (by simp)).exists_hash
      obtain ⟨hashes, areShown⟩ := ih fun other member => show_ other (by simp [member])
      exact ⟨hash :: hashes, by rw [List.map_cons, isShown, areShown]⟩

theorem merkleLeaf_eq_none {txid : ByteString} (length : txid.length ≠ 64) :
    merkleLeaf txid = none := by
  unfold merkleLeaf hexToBytes
  split
  · rfl
  · cases extracted : extractPairs txid with
    | none => rfl
    | some bytes =>
        have halves := extractPairs_length extracted
        exact if_pos (by omega)

theorem mapM_merkleLeaf_eq_none {txids : List ByteString} {txid : ByteString}
    (member : txid ∈ txids) (length : txid.length ≠ 64) :
    txids.mapM merkleLeaf = none := by
  induction txids with
  | nil => cases member
  | cons first txids ih =>
      rw [List.mapM_cons]
      rcases List.mem_cons.mp member with rfl | inRest
      · rw [merkleLeaf_eq_none length]
        rfl
      · rw [ih inRest]
        cases merkleLeaf first <;> rfl

/-- No root is computed without identifiers or from one of the wrong length; from
identifiers of 64 lower-case digits it is the root of the tree over the hashes they
show; and the loop over the layers ends. -/
theorem computeMerkleRootHex_layeredRoot :
    (∀ txids : List ByteString, (txids = [] ∨ ∃ txid ∈ txids, txid.length ≠ 64) →
      computeMerkleRootHex doubleSha256 txids = none) ∧
    (∀ txids : List ByteString, txids ≠ [] → (∀ txid ∈ txids, ShowsHash txid) →
      ∃ (hashes : List Hash256) (root : ByteString), hashes.map shownHash = txids ∧
        layeredRoot (pairHash doubleSha256) (hashes.map Hash.bytes) = some root ∧
        computeMerkleRootHex doubleSha256 txids = some (wireHashToHex root)) ∧
    ∀ (layer : List ByteString) (more : Nat),
      (collapseLayers doubleSha256 layer.length layer).length ≤ 1 ∧
        collapseLayers doubleSha256 (layer.length + more) layer =
          collapseLayers doubleSha256 layer.length layer := by
  refine ⟨?_, ?_, collapseLayers_ends doubleSha256⟩
  · rintro txids (rfl | ⟨txid, member, length⟩)
    · rfl
    · rw [computeMerkleRootHex, mapM_merkleLeaf_eq_none member length]
      split <;> rfl
  · intro txids nonempty show_
    obtain ⟨hashes, rfl⟩ := exists_hashes show_
    have leaves : hashes ≠ [] := by simpa using nonempty
    have hasRoot := merkleRoot_isSome doubleSha256 leaves
    obtain ⟨root, isRoot⟩ := Option.isSome_iff_exists.mp hasRoot
    refine ⟨hashes, root, rfl, ?_, ?_⟩
    · rw [layeredRoot_eq_root]
      exact isRoot
    · rw [computeMerkleRootHex_shown, isRoot]
      rfl

theorem computeMerkleRootHex_layeredRoot_three :
    ∃ (hashes : List Hash256) (root : ByteString),
      hashes.map shownHash =
        [List.replicate 64 48, List.replicate 64 97, List.replicate 64 57] ∧
      layeredRoot (pairHash fun _ => Hash.zero) (hashes.map Hash.bytes) = some root ∧
      computeMerkleRootHex (fun _ => Hash.zero)
        [List.replicate 64 48, List.replicate 64 97, List.replicate 64 57] =
          some (wireHashToHex root) := by
  refine (computeMerkleRootHex_layeredRoot fun _ => Hash.zero).2.1 _
    (List.cons_ne_nil _ _) ?_
  simp only [List.forall_mem_cons]
  exact ⟨showsHash_replicate (by decide), showsHash_replicate (by decide),
    showsHash_replicate (by decide), nofun⟩

end Hashing

end Bitcoin

end Blocxxi
