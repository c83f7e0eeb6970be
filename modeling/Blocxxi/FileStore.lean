import Blocxxi.FileBlockFormat
import Blocxxi.InMemoryStore
import Blocxxi.KeySort
import Mathlib.Data.List.Perm.Basic

/-!
# The file stores

Every block is a file of its own, named by its height and identifier; the
snapshot is one file.  A directory is listed in an order of the file system's
choosing, so every result about a lookup holds for any listing order.  Writes
may fail; without failures the stores keep what is put into them.
-/

namespace Blocxxi

namespace Storage

open Blocxxi.Core Cxx Chain

/-- How an attempt to write a file ends.  A torn write leaves a prefix of the
text, and the stream may or may not have noticed. -/
inductive WriteOutcome
  | written
  | directoryFailed
  | openFailed
  | torn (kept : Nat) (noticed : Bool)
  deriving DecidableEq, Repr

/-- The order in which the file system lists a directory. -/
structure ListingOrder where
  list : List (ByteString × ByteString) → List (ByteString × ByteString)
  perm : ∀ files, (list files).Perm files

def ListingOrder.asStored : ListingOrder where
  list := fun files => files
  perm := fun files => List.Perm.refl files

/-- The directory of the block files: names with contents, and how the coming
writes end; a write beyond those succeeds. -/
structure BlocksDirectory where
  created : Bool := false
  files : List (ByteString × ByteString) := []
  outcomes : List WriteOutcome := []

/-- The file after truncating and writing it. -/
def replaceFile (name text : ByteString)
    (files : List (ByteString × ByteString)) : List (ByteString × ByteString) :=
  if name ∈ files.map Prod.fst then
    files.map fun file => if file.1 = name then (name, text) else file
  else files ++ [(name, text)]

namespace BlocksDirectory

def putBlock (block : Block) (directory : BlocksDirectory) :
    Status × BlocksDirectory :=
  let rest := directory.outcomes.tail
  let name := blockFileName block
  match directory.outcomes.headD .written with
  | .directoryFailed =>
      (.failure .ioError "failed to create block store directory",
        { directory with outcomes := rest })
  | .openFailed =>
      (.failure .ioError "failed to open block file for writing",
        { directory with created := true, outcomes := rest })
  | .torn kept noticed =>
      (if noticed then .failure .ioError "failed to persist block contents"
        else .success "",
        { created := true
          files := replaceFile name ((blockText block).take kept) directory.files
          outcomes := rest })
  | .written =>
      (.success "",
        { created := true
          files := replaceFile name (blockText block) directory.files
          outcomes := rest })

/-- The first listed file whose block has the identifier. -/
def scanForBlock (id : BlockId) :
    List (ByteString × ByteString) → Except Fault (Option Block)
  | [] => .ok none
  | (_, text) :: rest => do
      let block ← readBlock text
      if block.header.id == id then .ok (some block)
      else scanForBlock id rest

def getBlock (order : ListingOrder) (id : BlockId)
    (directory : BlocksDirectory) : Except Fault (Option Block) :=
  if !directory.created then .ok none
  else scanForBlock id (order.list directory.files)

def getChain (order : ListingOrder) (directory : BlocksDirectory) :
    Except Fault (List Block) :=
  if !directory.created then .ok []
  else
    (KeySort.sortByKey Prod.fst (order.list directory.files)).mapM
      fun file => readBlock file.2

end BlocksDirectory

/-- The snapshot file, if it exists, and how the coming writes end. -/
structure SnapshotFile where
  content : Option ByteString := none
  outcomes : List WriteOutcome := []

namespace SnapshotFile

def save (snapshot : ChainSnapshot) (file : SnapshotFile) :
    Status × SnapshotFile :=
  let rest := file.outcomes.tail
  match file.outcomes.headD .written with
  | .directoryFailed =>
      (.failure .ioError "failed to create snapshot directory",
        { file with outcomes := rest })
  | .openFailed =>
      (.failure .ioError "failed to open snapshot file for writing",
        { file with outcomes := rest })
  | .torn kept noticed =>
      (if noticed then .failure .ioError "failed to persist snapshot contents"
        else .success "",
        { content := some ((snapshotText snapshot).take kept)
          outcomes := rest })
  | .written =>
      (.success "",
        { content := some (snapshotText snapshot), outcomes := rest })

def load (file : SnapshotFile) : Except Fault (Option ChainSnapshot) :=
  match file.content with
  | none => .ok none
  | some text => (readSnapshot text).map some

end SnapshotFile

def fileBlockStore (order : ListingOrder) : BlockStore BlocksDirectory where
  putBlock := BlocksDirectory.putBlock
  getBlock := BlocksDirectory.getBlock order
  getChain := BlocksDirectory.getChain order

def fileSnapshotStore : SnapshotStore SnapshotFile where
  save := SnapshotFile.save
  load := SnapshotFile.load

/-- A kernel with the default validator over the file stores. -/
def fileKernel (config : ChainConfig) (order : ListingOrder) :
    Kernel BlocksDirectory SnapshotFile :=
  Kernel.make config (fileBlockStore order) fileSnapshotStore none

/-- The file stores over an empty root directory, without failures to come. -/
def fileStart : KernelState BlocksDirectory SnapshotFile where
  blockState := {}
  snapshotState := {}

/-- The file of a block. -/
def blockFile (block : Block) : ByteString × ByteString :=
  (blockFileName block, blockText block)

/-- The directory has exactly the files of the blocks, and no write to come
fails. -/
structure HoldsOnDisk (directory : BlocksDirectory) (blocks : List Block) :
    Prop where
  files_eq : directory.files = blocks.map blockFile
  created : blocks ≠ [] → directory.created = true
  reliable : directory.outcomes = []

/-- The snapshot file holds the snapshot, and no write to come fails. -/
structure LoadsFromDisk (file : SnapshotFile) (found : Option ChainSnapshot) :
    Prop where
  content_eq : file.content = found.map snapshotText
  reliable : file.outcomes = []

theorem notMem_decimal_dash (number : Nat) : (45 : UInt8) ∉ ByteText.decimal number :=
  ByteText.notMem_decimal (by decide)

/-- A file name determines the height and the identifier in it. -/
theorem blockFileName_inj {first second : Block}
    (equal : blockFileName first = blockFileName second) :
    first.header.height = second.header.height ∧
      first.header.id = second.header.id := by
  have dash : ascii "-" = [45] := by decide
  unfold blockFileName at equal
  have withoutEnd := List.append_cancel_right equal
  simp only [dash, List.append_assoc, List.cons_append, List.nil_append]
    at withoutEnd
  obtain ⟨heights, ids⟩ := ByteText.append_separator_inj
    (notMem_decimal_dash _) (notMem_decimal_dash _) withoutEnd
  exact ⟨UInt64.toNat_inj.mp (ByteText.decimal_injective heights),
    Hash.toHex_injective ids⟩

/-- Blocks with distinct identifiers have distinct file names. -/
theorem blockFileNames_nodup {blocks : List Block}
    (distinct : (blockIds blocks).Nodup) :
    (blocks.map blockFileName).Nodup := by
  unfold blockIds at distinct
  rw [List.Nodup, List.pairwise_map] at distinct ⊢
  exact distinct.imp fun differ sameName => differ (blockFileName_inj sameName).2

/-- Listing the files of some blocks lists these blocks in some order. -/
theorem listed_blocks (order : ListingOrder) (blocks : List Block) :
    ∃ listed : List Block,
      order.list (blocks.map blockFile) = listed.map blockFile ∧
      listed.Perm blocks := by
  have rearranged := congrFun₂ (List.eq_map_comp_perm blockFile)
    (order.list (blocks.map blockFile)) blocks
  exact rearranged.mpr (order.perm (blocks.map blockFile))

theorem findBlock_perm {blocks others : List Block}
    (distinct : (blockIds blocks).Nodup) (arranged : others.Perm blocks)
    (id : BlockId) : findBlock others id = findBlock blocks id := by
  have othersDistinct : (blockIds others).Nodup :=
    (List.Perm.map (fun block : Block => block.header.id) arranged).nodup_iff.mpr
      distinct
  cases found : findBlock blocks id with
  | none =>
      rw [findBlock, List.find?_eq_none] at found ⊢
      exact fun block member => found block (arranged.mem_iff.mp member)
  | some block =>
      have sameId : block.header.id = id := by
        simpa using List.find?_some found
      have member : block ∈ blocks := List.mem_of_find?_eq_some found
      rw [← sameId]
      exact findBlock_of_mem othersDistinct (arranged.mem_iff.mpr member)

theorem scanForBlock_blocks (id : BlockId) (listed : List Block) :
    BlocksDirectory.scanForBlock id (listed.map blockFile) =
      .ok (findBlock listed id) := by
  induction listed with
  | nil => rfl
  | cons block listed ih =>
      simp only [List.map_cons, blockFile, BlocksDirectory.scanForBlock,
        readBlock_blockText, bind, Except.bind, findBlock, List.find?_cons]
      cases same : block.header.id == id with
      | true => rfl
      | false => exact ih

/-- A lookup finds the first listed block with the identifier. -/
theorem getBlock_listed (order : ListingOrder) {directory : BlocksDirectory}
    {blocks : List Block} (holds : HoldsOnDisk directory blocks) (id : BlockId) :
    ∃ listed : List Block, listed.Perm blocks ∧
      directory.getBlock order id = .ok (findBlock listed id) := by
  by_cases empty : blocks = []
  · refine ⟨[], by simp [empty], ?_⟩
    have noFiles : directory.files = [] := by simp [holds.files_eq, empty]
    have listsNone : order.list [] = [] := (order.perm []).eq_nil
    unfold BlocksDirectory.getBlock
    rw [noFiles, listsNone]
    simp [BlocksDirectory.scanForBlock, findBlock]
  · obtain ⟨listed, lists, arranged⟩ := listed_blocks order blocks
    refine ⟨listed, arranged, ?_⟩
    simp [BlocksDirectory.getBlock, holds.created empty, holds.files_eq, lists,
      scanForBlock_blocks]

/-- With distinct identifiers, a lookup does not depend on the listing
order. -/
theorem getBlock_eq (order : ListingOrder) {directory : BlocksDirectory}
    {blocks : List Block} (holds : HoldsOnDisk directory blocks)
    (distinct : (blockIds blocks).Nodup) (id : BlockId) :
    directory.getBlock order id = .ok (findBlock blocks id) := by
  obtain ⟨listed, arranged, found⟩ := getBlock_listed order holds id
  rw [found, findBlock_perm distinct arranged]

/-- The chain is read back in the order of the file names. -/
theorem getChain_onDisk (order : ListingOrder) {directory : BlocksDirectory}
    {blocks : List Block} (holds : HoldsOnDisk directory blocks)
    (distinct : (blockIds blocks).Nodup) :
    directory.getChain order = .ok (KeySort.sortByKey blockFileName blocks) := by
  have readAll (read : List Block) :
      (read.map blockFile).mapM (fun file => readBlock file.2) = .ok read := by
    induction read with
    | nil => rfl
    | cons block read ih =>
        rw [List.map_cons, List.mapM_cons, ih]
        simp [blockFile, readBlock_blockText, bind, Except.bind, pure, Except.pure]
  by_cases empty : blocks = []
  · have noFiles : directory.files = [] := by simp [holds.files_eq, empty]
    have listsNone : order.list [] = [] := (order.perm []).eq_nil
    unfold BlocksDirectory.getChain
    rw [noFiles, listsNone, empty]
    split <;> rfl
  · have names : ((blocks.map blockFile).map Prod.fst).Nodup := by
      rw [List.map_map]
      exact blockFileNames_nodup distinct
    have sorted : KeySort.sortByKey Prod.fst (order.list (blocks.map blockFile)) =
        (KeySort.sortByKey blockFileName blocks).map blockFile := by
      rw [KeySort.sortByKey_eq_of_perm names (order.perm _)]
      exact (KeySort.map_sortByKey (fun _ => rfl) blocks).symm
    simp [BlocksDirectory.getChain, holds.created empty, holds.files_eq, sorted,
      readAll]

theorem holdsOnDisk_nil : HoldsOnDisk {} [] where
  files_eq := rfl
  created := fun nonempty => absurd rfl nonempty
  reliable := rfl

theorem putBlock_reliable {directory : BlocksDirectory} {blocks : List Block}
    (holds : HoldsOnDisk directory blocks) (block : Block) :
    directory.putBlock block = (.success "",
      { created := true
        files := replaceFile (blockFileName block) (blockText block)
          (blocks.map blockFile)
        outcomes := [] }) := by
  simp [BlocksDirectory.putBlock, holds.reliable, holds.files_eq]

theorem putBlock_onDisk {directory : BlocksDirectory} {blocks : List Block}
    (holds : HoldsOnDisk directory blocks) {block : Block}
    (fresh : Fresh blocks block) :
    (directory.putBlock block).1 = .success "" ∧
      HoldsOnDisk (directory.putBlock block).2 (blocks ++ [block]) := by
  have newName : blockFileName block ∉ (blocks.map blockFile).map Prod.fst := by
    rw [List.map_map]
    intro member
    obtain ⟨earlier, earlierMem, sameName⟩ := List.mem_map.mp member
    apply fresh
    rw [← (blockFileName_inj sameName).2]
    exact List.mem_map_of_mem earlierMem
  rw [putBlock_reliable holds]
  refine ⟨rfl, ?_, fun _ => rfl, rfl⟩
  rw [replaceFile, if_neg newName]
  simp [blockFile]

/-- Writing a stored block once more changes no file. -/
theorem putBlock_again {directory : BlocksDirectory} {blocks : List Block}
    (holds : HoldsOnDisk directory blocks)
    (distinct : (blockIds blocks).Nodup) {block : Block}
    (stored : block ∈ blocks) :
    HoldsOnDisk (directory.putBlock block).2 blocks := by
  have sameFiles : replaceFile (blockFileName block) (blockText block)
      (blocks.map blockFile) = blocks.map blockFile := by
    have known : blockFileName block ∈ (blocks.map blockFile).map Prod.fst := by
      rw [List.map_map]
      exact List.mem_map.mpr ⟨block, stored, rfl⟩
    rw [replaceFile, if_pos known, List.map_map]
    apply List.map_congr_left
    intro other otherMem
    by_cases sameName : blockFileName other = blockFileName block
    · have same : other = block :=
        List.inj_on_of_nodup_map distinct otherMem stored
          (blockFileName_inj sameName).2
      simp [blockFile, same]
    · simp [blockFile, sameName]
  rw [putBlock_reliable holds, sameFiles]
  exact ⟨rfl, fun _ => rfl, rfl⟩

theorem mem_replaceFile (name text : ByteString)
    (files : List (ByteString × ByteString)) :
    (name, text) ∈ replaceFile name text files := by
  unfold replaceFile
  split
  · rename_i present
    obtain ⟨file, member, isName⟩ := List.mem_map.mp present
    exact List.mem_map.mpr ⟨file, member, if_pos isName⟩
  · exact List.mem_append_right _ List.mem_cons_self

theorem eq_of_mem_replaceFile {name text content : ByteString}
    {files : List (ByteString × ByteString)}
    (member : (name, content) ∈ replaceFile name text files) : content = text := by
  unfold replaceFile at member
  split at member
  · obtain ⟨file, -, isFile⟩ := List.mem_map.mp member
    split at isFile
    · exact (congrArg Prod.snd isFile).symm
    · rename_i otherName
      exact (otherName (congrArg Prod.fst isFile)).elim
  · rename_i absent
    rcases List.mem_append.mp member with old | isNew
    · exact (absent (List.mem_map_of_mem old)).elim
    · exact congrArg Prod.snd (List.mem_singleton.mp isNew)

/-- Without a failure, a block and a snapshot are read back from their files as
they were put and saved. -/
theorem fileFormats_lossless {directory : BlocksDirectory} {file : SnapshotFile}
    (blockWritten : directory.outcomes.headD .written = .written)
    (snapshotWritten : file.outcomes.headD .written = .written) (block : Block)
    (snapshot : ChainSnapshot) :
    ((directory.putBlock block).1.isOk = true ∧
      ∃ text, (blockFileName block, text) ∈ (directory.putBlock block).2.files ∧
        (∀ content, (blockFileName block, content) ∈
          (directory.putBlock block).2.files → content = text) ∧
        readBlock text = .ok block) ∧
      (file.save snapshot).1.isOk = true ∧
      (file.save snapshot).2.load = .ok (some snapshot) := by
  constructor
  · rw [BlocksDirectory.putBlock, blockWritten]
    exact ⟨rfl, blockText block, mem_replaceFile _ _ _,
      fun _ member => eq_of_mem_replaceFile member, readBlock_blockText block⟩
  · rw [SnapshotFile.save, snapshotWritten]
    refine ⟨rfl, ?_⟩
    dsimp only [SnapshotFile.load]
    rw [readSnapshot_snapshotText]
    rfl

/-- A block with separators in its texts and extreme numbers. -/
def awkwardBlock : Block where
  header := {
    height := 18446744073709551615
    timestampUtc := -9223372036854775808
    source := ascii "a=b|c\n" }
  transactions := [
    { type := ascii "|", payload := [10, 61, 124], metadata := [] },
    { type := [], payload := [], metadata := ascii "tx=\n" }]

theorem fileFormats_lossless_awkwardBlock :
    ∃ text, (blockFileName awkwardBlock, text) ∈
        (BlocksDirectory.putBlock awkwardBlock {}).2.files ∧
      readBlock text = .ok awkwardBlock := by
  obtain ⟨⟨-, text, member, -, isBlock⟩, -⟩ :=
    @fileFormats_lossless {} {} rfl rfl awkwardBlock {}
  exact ⟨text, member, isBlock⟩

theorem fileStores_keep (order : ListingOrder) :
    StoresKeep (fileBlockStore order) fileSnapshotStore HoldsOnDisk
      LoadsFromDisk where
  put_fresh := fun holds fresh => putBlock_onDisk holds fresh
  save := by
    intro file found snapshot loads
    have saved : file.save snapshot = (.success "",
        { content := some (snapshotText snapshot), outcomes := [] }) := by
      simp [SnapshotFile.save, loads.reliable]
    change (file.save snapshot).1 = .success "" ∧
      LoadsFromDisk (file.save snapshot).2 (some snapshot)
    rw [saved]
    exact ⟨rfl, rfl, rfl⟩
  load := by
    intro file found loads
    change file.load = .ok found
    cases found with
    | none => simp [SnapshotFile.load, loads.content_eq]
    | some snapshot =>
        simp [SnapshotFile.load, loads.content_eq, readSnapshot_snapshotText,
          Except.map]

/-- A kernel state over the file stores stands for a ledger state. -/
abbrev OnDisk (state : KernelState BlocksDirectory SnapshotFile)
    (abstract : LedgerState) : Prop :=
  Represents HoldsOnDisk LoadsFromDisk state abstract

theorem fileStart_represents : OnDisk fileStart .empty where
  holdsBlocks := holdsOnDisk_nil
  loadsSnapshot := ⟨rfl, rfl⟩
  snapshot_eq := rfl
  pending_eq := rfl

end Storage

end Blocxxi
