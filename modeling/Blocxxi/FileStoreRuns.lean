import Blocxxi.FileStore

/-!
# Runs over the file stores

A kernel over the file stores and one over the in-memory stores, driven by the
same calls, stand for the same ledger as long as no identifier is stored
twice.  They read the chain back in the same order only while the heights have
one decimal digit, because the file names are compared as text.
-/

namespace Blocxxi

namespace Storage

open Blocxxi.Core Cxx Chain

theorem decimal_of_lt_ten {number : Nat} (small : number < 10) :
    ByteText.decimal number = [ByteText.digitByte number] := by
  unfold ByteText.decimal
  split
  · rename_i zero
    rw [zero]
  · rename_i positive
    rw [Nat.digits_of_lt 10 number positive small]
    rfl

/-- The name of the file of the block at an index below ten. -/
theorem blockFileName_of_lt_ten {block : Block} {index : Nat}
    (height : block.header.height = UInt64.ofNat index) (small : index < 10) :
    ∃ rest, blockFileName block = ByteText.digitByte index :: rest := by
  have heightNat : block.header.height.toNat = index := by
    rw [height, UInt64.toNat_ofNat']
    omega
  refine ⟨ascii "-" ++ block.header.id.toHex ++ ascii ".blk", ?_⟩
  simp [blockFileName, heightNat, decimal_of_lt_ten small]

/-- Up to ten blocks, the file names ascend with the heights. -/
theorem ascending_of_length_le {blocks : List Block} (counted : Counted blocks)
    (short : blocks.length ≤ 10) : KeySort.Ascending blockFileName blocks := by
  unfold KeySort.Ascending
  rw [List.pairwise_iff_getElem]
  intro first second firstWithin secondWithin before
  obtain ⟨firstRest, firstName⟩ := blockFileName_of_lt_ten
    (counted first firstWithin) (by omega)
  obtain ⟨secondRest, secondName⟩ := blockFileName_of_lt_ten
    (counted second secondWithin) (by omega)
  rw [firstName, secondName, List.cons_le_cons_iff]
  left
  rw [UInt8.lt_iff_toNat_lt, ByteText.digitByte_toNat (by omega),
    ByteText.digitByte_toNat (by omega)]
  omega

/-- From the eleventh block on they do not: `10-` comes before `2-`. -/
theorem length_le_of_ascending {blocks : List Block} (counted : Counted blocks)
    (ascending : KeySort.Ascending blockFileName blocks) :
    blocks.length ≤ 10 := by
  by_contra long
  rw [Nat.not_le] at long
  unfold KeySort.Ascending at ascending
  rw [List.pairwise_iff_getElem] at ascending
  have ordered := ascending 2 10 (by omega) long (by decide)
  obtain ⟨secondRest, secondName⟩ := blockFileName_of_lt_ten
    (counted 2 (by omega)) (by decide)
  have tenth : blockFileName blocks[10] = (49 : UInt8) :: 48 ::
      (ascii "-" ++ blocks[10].header.id.toHex ++ ascii ".blk") := by
    have height : blocks[10].header.height.toNat = 10 :=
      congrArg UInt64.toNat (counted 10 long)
    have digits : ByteText.decimal 10 = [49, 48] := by decide
    simp [blockFileName, height, digits]
  rw [secondName, tenth, List.cons_le_cons_iff] at ordered
  rcases ordered with smaller | ⟨same, -⟩
  · exact absurd smaller (by decide)
  · exact absurd same (by decide)

/-- Sorting the file names keeps the order of the chain exactly up to ten
blocks. -/
theorem sortByKey_blockFileName_iff {blocks : List Block}
    (counted : Counted blocks) :
    KeySort.sortByKey blockFileName blocks = blocks ↔ blocks.length ≤ 10 := by
  rw [KeySort.sortByKey_eq_self_iff]
  exact ⟨length_le_of_ascending counted, ascending_of_length_le counted⟩

theorem inMemory_findsBlocks : FindsBlocks inMemoryBlockStore HoldsInMemory :=
  fun holds _ id => congrArg Except.ok (holds.lookup_eq id)

theorem file_findsBlocks (order : ListingOrder) :
    FindsBlocks (fileBlockStore order) HoldsOnDisk :=
  fun holds distinct id => getBlock_eq order holds distinct id

/-- Both kernels stand for one ledger. -/
def SameLedger (inMemory : KernelState MemoryBlocks (Option ChainSnapshot))
    (onDisk : KernelState BlocksDirectory SnapshotFile) : Prop :=
  ∃ abstract, InMemory inMemory abstract ∧ OnDisk onDisk abstract

/-- A step of both kernels keeps them on one ledger. -/
theorem sameLedger_step (config : ChainConfig) (order : ListingOrder)
    (input : KernelCall)
    (inMemory : KernelState MemoryBlocks (Option ChainSnapshot))
    (onDisk : KernelState BlocksDirectory SnapshotFile)
    (same : SameLedger inMemory onDisk)
    (new : StoresNew (inMemoryKernel config) input inMemory) :
    SameLedger ((inMemoryKernel config).step input inMemory)
      ((fileKernel config order).step input onDisk) := by
  obtain ⟨abstract, memory, disk⟩ := same
  have appendsNew : abstract.AppendsNew config input :=
    appendsNew_of_storesNew (inMemoryKernel config)
      inMemoryStores_keep inMemory_findsBlocks rfl memory new
  refine ⟨abstract.step config input, ?_, ?_⟩
  · exact step_refines (inMemoryKernel config) inMemoryStores_keep rfl input
      memory (Or.inl appendsNew)
  · exact step_refines (fileKernel config order) (fileStores_keep order) rfl
      input disk (Or.inl appendsNew)

theorem sameLedger_start : SameLedger inMemoryStart fileStart :=
  ⟨.empty, inMemoryStart_represents, fileStart_represents⟩

/-- Driven by the same calls, without storing an identifier twice, the file
kernel returns the chain of the in-memory kernel exactly as long as at most
ten blocks are stored. -/
theorem fileChain_eq_iff (config : ChainConfig) (order : ListingOrder)
    (calls : List KernelCall)
    (new : StepMachine.RunsWithin (inMemoryKernel config).step
      (StoresNew (inMemoryKernel config)) calls inMemoryStart) :
    (fileKernel config order).chain
        ((fileKernel config order).runCalls calls fileStart) =
      (inMemoryKernel config).chain
        ((inMemoryKernel config).runCalls calls inMemoryStart) ↔
    ((inMemoryKernel config).runCalls calls
      inMemoryStart).blockState.order.length ≤ 10 := by
  obtain ⟨abstract, memory, disk⟩ := StepMachine.related_run_within
    (sameLedger_step config order) calls _ _ sameLedger_start new
  have distinct := abstract.ledger.distinct
  have fileChain : (fileKernel config order).chain
      ((fileKernel config order).runCalls calls fileStart) =
        .ok (KeySort.sortByKey blockFileName abstract.ledger.blocks) :=
    getChain_onDisk order disk.holdsBlocks distinct
  have memoryChain : (inMemoryKernel config).chain
      ((inMemoryKernel config).runCalls calls inMemoryStart) =
        .ok abstract.ledger.blocks :=
    getChain_eq memory.holdsBlocks distinct
  have stored : ((inMemoryKernel config).runCalls calls
      inMemoryStart).blockState.order.length = abstract.ledger.blocks.length := by
    have orderEq := memory.holdsBlocks.order_eq
    unfold Kernel.runCalls
    rw [orderEq, List.length_map]
  rw [fileChain, memoryChain, stored, Except.ok.injEq]
  exact sortByKey_blockFileName_iff abstract.ledger.counted

/-- The identifier whose first byte is a number and whose other bytes are
zero. -/
def numberedId (number : Nat) : BlockId where
  bytes := UInt8.ofNat number :: List.replicate 31 0
  size_eq := by simp

/-- A block of a chain whose identifiers count up from one. -/
def numberedBlock (index : Nat) : Block where
  header :=
    { id := numberedId (index + 1)
      previousId := numberedId index
      height := UInt64.ofNat index }
  transactions := [{}]

/-- The calls that commit the first blocks of that chain. -/
def commitNumbered (count : Nat) : List KernelCall :=
  (List.range count).map fun index => .commitBlock (numberedBlock index)

/-- The eleventh block is read back between the second and the third. -/
theorem fileChain_reordered :
    ¬ ∀ (config : ChainConfig) (order : ListingOrder) (calls : List KernelCall),
      StepMachine.RunsWithin (inMemoryKernel config).step
        (StoresNew (inMemoryKernel config)) calls inMemoryStart →
      (fileKernel config order).chain
          ((fileKernel config order).runCalls calls fileStart) =
        (inMemoryKernel config).chain
          ((inMemoryKernel config).runCalls calls inMemoryStart) := by
  intro always
  have equal := always {} .asStored (commitNumbered 11) (by decide +kernel)
  revert equal
  decide +kernel

theorem fileChain_eq_three :
    (fileKernel {} .asStored).chain
        ((fileKernel {} .asStored).runCalls (commitNumbered 3) fileStart) =
      (inMemoryKernel {}).chain
        ((inMemoryKernel {}).runCalls (commitNumbered 3) inMemoryStart) :=
  (fileChain_eq_iff {} .asStored (commitNumbered 3) (by decide +kernel)).mpr
    (by decide +kernel)

theorem onDisk_run (config : ChainConfig) (order : ListingOrder)
    (calls : List KernelCall)
    (new : StepMachine.RunsWithin (fileKernel config order).step
      (StoresNew (fileKernel config order)) calls fileStart) :
    ∃ abstract,
      OnDisk ((fileKernel config order).runCalls calls fileStart) abstract := by
  have kept : ∀ input state, (∃ abstract, OnDisk state abstract) →
      StoresNew (fileKernel config order) input state →
        ∃ abstract, OnDisk ((fileKernel config order).step input state)
          abstract := by
    rintro input state ⟨abstract, disk⟩ storesNew
    have appendsNew : abstract.AppendsNew config input :=
      appendsNew_of_storesNew (fileKernel config order) (fileStores_keep order)
        (file_findsBlocks order) rfl disk storesNew
    exact ⟨_, step_refines (fileKernel config order) (fileStores_keep order) rfl
      input disk (Or.inl appendsNew)⟩
  exact StepMachine.invariant_run_within kept calls _
    ⟨.empty, fileStart_represents⟩ new

/-- A commit over the in-memory stores that succeeds is visible. -/
theorem inMemory_commitVisible (config : ChainConfig)
    {state : KernelState MemoryBlocks (Option ChainSnapshot)}
    {abstract : LedgerState} (memory : InMemory state abstract) (block : Block)
    (committed :
      ((inMemoryKernel config).commitBlock block state).1.isOk = true) :
    CommitVisible (inMemoryKernel config) block state := by
  by_cases extension : Extends abstract.ledger.blocks block
  · by_cases fresh : Fresh abstract.ledger.blocks block
    · exact commitVisible_of_fresh (inMemoryKernel config) inMemoryStores_keep
        inMemory_findsBlocks rfl memory extension fresh
    · have failed := (commitBlock_repeated (inMemoryKernel config)
        inMemoryBlockStore_rejects memory fresh).1
      rw [committed] at failed
      cases failed
  · have failed := (commitBlock_refused (inMemoryKernel config) rfl
      memory extension).1
    rw [committed] at failed
    cases failed

/-- A commit over the file stores that succeeds puts its block into the
directory and makes it the head. -/
theorem onDisk_commitBlock (config : ChainConfig) (order : ListingOrder)
    (state : KernelState BlocksDirectory SnapshotFile) (block : Block)
    (committed :
      ((fileKernel config order).commitBlock block state).1.isOk = true) :
    ((fileKernel config order).commitBlock block state).2.blockState =
        (state.blockState.putBlock block).2 ∧
      (fileKernel config order).head
          ((fileKernel config order).commitBlock block state).2 =
        (state.blockState.putBlock block).2.getBlock order block.header.id := by
  rcases (fileKernel config order).commitBlock_cases block state with
    ⟨refused, result⟩ | ⟨-, failed, result⟩ | ⟨-, -, result⟩
  · rw [result, refused] at committed
    cases committed
  · rw [result, failed] at committed
    cases committed
  · rw [result]
    exact ⟨rfl, rfl⟩

/-- A commit over the file stores that succeeds is visible exactly when no
other block is stored under its identifier. -/
theorem onDisk_commitVisible_iff (config : ChainConfig) (order : ListingOrder)
    {state : KernelState BlocksDirectory SnapshotFile}
    {abstract : LedgerState} (disk : OnDisk state abstract) (block : Block)
    (committed :
      ((fileKernel config order).commitBlock block state).1.isOk = true) :
    CommitVisible (fileKernel config order) block state ↔
      ∀ earlier, state.blockState.getBlock order block.header.id =
        .ok (some earlier) → earlier = block := by
  have distinct := abstract.ledger.distinct
  obtain ⟨stateAfter, headAfter⟩ :=
    onDisk_commitBlock config order state block committed
  constructor
  · rintro ⟨headIsBlock, keepsFound⟩ earlier found
    have stillFound := keepsFound block.header.id earlier found
    rw [stateAfter] at stillFound
    change (state.blockState.putBlock block).2.getBlock order _ = _ at stillFound
    rw [← headAfter, headIsBlock] at stillFound
    exact (Option.some.inj (Except.ok.inj stillFound)).symm
  · intro noOther
    by_cases fresh : Fresh abstract.ledger.blocks block
    · have extension : Extends abstract.ledger.blocks block := by
        by_contra refused
        have failed :=
          (commitBlock_refused (fileKernel config order) rfl disk refused).1
        rw [committed] at failed
        cases failed
      exact commitVisible_of_fresh (fileKernel config order)
        (fileStores_keep order) (file_findsBlocks order) rfl disk extension fresh
    · have isStored : block ∈ abstract.ledger.blocks := by
        obtain ⟨earlier, earlierMem, sameId⟩ := List.mem_map.mp (not_not.mp fresh)
        have found := getBlock_eq order disk.holdsBlocks distinct block.header.id
        rw [← sameId, findBlock_of_mem distinct earlierMem] at found
        rw [sameId] at found
        rwa [← noOther earlier found]
      have holdsAfter := putBlock_again disk.holdsBlocks distinct isStored
      have foundAfter := getBlock_eq order holdsAfter distinct
      constructor
      · rw [headAfter, foundAfter, findBlock_of_mem distinct isStored]
      · intro id stored found
        rw [stateAfter]
        change (state.blockState.putBlock block).2.getBlock order id = _
        change state.blockState.getBlock order id = _ at found
        rw [foundAfter, ← found, getBlock_eq order disk.holdsBlocks distinct]

/-- A commit that succeeds is visible over the in-memory stores, in every run;
over the file stores, in every run that stored no identifier twice, it is
visible exactly when no other block is stored under its identifier. -/
theorem commitVisible_iff (config : ChainConfig) (order : ListingOrder)
    (calls : List KernelCall) (block : Block) :
    (((inMemoryKernel config).commitBlock block
        ((inMemoryKernel config).runCalls calls inMemoryStart)).1.isOk = true →
      CommitVisible (inMemoryKernel config) block
        ((inMemoryKernel config).runCalls calls inMemoryStart)) ∧
    (StepMachine.RunsWithin (fileKernel config order).step
        (StoresNew (fileKernel config order)) calls fileStart →
      ((fileKernel config order).commitBlock block
        ((fileKernel config order).runCalls calls fileStart)).1.isOk = true →
      (CommitVisible (fileKernel config order) block
          ((fileKernel config order).runCalls calls fileStart) ↔
        ∀ earlier, ((fileKernel config order).runCalls calls
            fileStart).blockState.getBlock order block.header.id =
          .ok (some earlier) → earlier = block)) := by
  constructor
  · exact inMemory_commitVisible config (inMemory_run_refines config calls) block
  · intro new committed
    obtain ⟨abstract, disk⟩ := onDisk_run config order calls new
    exact onDisk_commitVisible_iff config order disk block committed

theorem commitVisible_numbered :
    CommitVisible (inMemoryKernel {}) (numberedBlock 2)
        ((inMemoryKernel {}).runCalls (commitNumbered 2) inMemoryStart) ∧
      CommitVisible (fileKernel {} .asStored) (numberedBlock 2)
        ((fileKernel {} .asStored).runCalls (commitNumbered 2) fileStart) := by
  have both := commitVisible_iff {} .asStored (commitNumbered 2) (numberedBlock 2)
  refine ⟨both.1 (by decide +kernel),
    (both.2 (by decide +kernel) (by decide +kernel)).mpr ?_⟩
  intro earlier found
  have notFound : ((fileKernel {} .asStored).runCalls (commitNumbered 2)
      fileStart).blockState.getBlock .asStored (numberedBlock 2).header.id =
        .ok none := by
    decide +kernel
  rw [notFound] at found
  cases found

/-- A block that repeats the identifier of the first one. -/
def repeatedBlock : Block where
  header :=
    { id := numberedId 1
      previousId := numberedId 1
      height := 1 }
  transactions := [{}]

/-- Over the file stores, a block that repeats an identifier is committed, and
the head is the block that had the identifier before. -/
theorem repeatedBlock_not_visible :
    ¬ ∀ (config : ChainConfig) (order : ListingOrder) (calls : List KernelCall)
        (block : Block),
      ((fileKernel config order).commitBlock block
        ((fileKernel config order).runCalls calls fileStart)).1.isOk = true →
      CommitVisible (fileKernel config order) block
        ((fileKernel config order).runCalls calls fileStart) := by
  intro always
  have head := (always {} .asStored (commitNumbered 1) repeatedBlock
    (by decide +kernel)).1
  revert head
  decide +kernel

end Storage

end Blocxxi
