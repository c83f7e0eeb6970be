import Blocxxi.KernelRefinement

/-!
# The in-memory stores

Blocks are kept in a map under the text of their identifiers, and the order of
insertion is kept beside the map.  A kernel over these stores refines the
ledger machine in every run, whatever blocks are supplied from outside.
-/

namespace Blocxxi

namespace Storage

open Blocxxi.Core Cxx Chain

structure MemoryBlocks where
  blocks : List (ByteString × Block) := []
  order : List ByteString := []

namespace MemoryBlocks

def putBlock (block : Block) (store : MemoryBlocks) : Status × MemoryBlocks :=
  let key := block.header.id.toHex
  if (store.blocks.lookup key).isSome then
    (.failure .duplicate "block already exists in memory store", store)
  else
    (.success "",
      { order := store.order ++ [key]
        blocks := (key, block) :: store.blocks })

def getBlock (id : BlockId) (store : MemoryBlocks) : Option Block :=
  store.blocks.lookup id.toHex

/-- `std::map::at`, which throws when the key is absent. -/
def blockAt (store : MemoryBlocks) (key : ByteString) : Except Fault Block :=
  match store.blocks.lookup key with
  | some block => .ok block
  | none => .error (.exception "map::at")

def getChain (store : MemoryBlocks) : Except Fault (List Block) :=
  store.order.mapM store.blockAt

end MemoryBlocks

def inMemoryBlockStore : BlockStore MemoryBlocks where
  putBlock := MemoryBlocks.putBlock
  getBlock := fun id store => .ok (store.getBlock id)
  getChain := MemoryBlocks.getChain

def inMemorySnapshotStore : SnapshotStore (Option ChainSnapshot) where
  save := fun snapshot _ => (.success "", some snapshot)
  load := fun stored => .ok stored

/-- A kernel with the default validator over fresh in-memory stores. -/
def inMemoryKernel (config : ChainConfig) :
    Kernel MemoryBlocks (Option ChainSnapshot) :=
  Kernel.make config inMemoryBlockStore inMemorySnapshotStore none

def inMemoryStart : KernelState MemoryBlocks (Option ChainSnapshot) where
  blockState := {}
  snapshotState := none

/-- The order lists the identifiers of the chain, and the map holds its
blocks. -/
structure HoldsInMemory (store : MemoryBlocks) (blocks : List Block) : Prop where
  order_eq : store.order = blocks.map fun block => block.header.id.toHex
  lookup_eq : ∀ id : BlockId,
    store.blocks.lookup id.toHex = findBlock blocks id

theorem holdsInMemory_nil : HoldsInMemory {} [] where
  order_eq := rfl
  lookup_eq := fun _ => rfl

theorem putBlock_refused {store : MemoryBlocks} {blocks : List Block}
    (holds : HoldsInMemory store blocks) {block : Block}
    (repeated : ¬ Fresh blocks block) :
    store.putBlock block =
      (.failure .duplicate "block already exists in memory store", store) := by
  have found : (store.blocks.lookup block.header.id.toHex).isSome = true := by
    rw [holds.lookup_eq, findBlock_isSome_iff]
    exact not_not.mp repeated
  simp [MemoryBlocks.putBlock, found]

theorem putBlock_fresh {store : MemoryBlocks} {blocks : List Block}
    (holds : HoldsInMemory store blocks) {block : Block}
    (fresh : Fresh blocks block) :
    (store.putBlock block).1 = .success "" ∧
      HoldsInMemory (store.putBlock block).2 (blocks ++ [block]) := by
  have notFound : findBlock blocks block.header.id = none := by
    rw [← Option.not_isSome_iff_eq_none, findBlock_isSome_iff]
    exact fresh
  have absent : (store.blocks.lookup block.header.id.toHex).isSome = false := by
    rw [holds.lookup_eq, notFound]
    rfl
  have stored : store.putBlock block = (.success "",
      { order := store.order ++ [block.header.id.toHex]
        blocks := (block.header.id.toHex, block) :: store.blocks }) := by
    simp [MemoryBlocks.putBlock, absent]
  rw [stored]
  refine ⟨rfl, ?_, ?_⟩
  · simp [holds.order_eq]
  · intro id
    rw [findBlock_append_singleton, List.lookup_cons]
    by_cases same : block.header.id = id
    · subst same
      simp [notFound]
    · have keys : (id.toHex == block.header.id.toHex) = false := by
        rw [beq_eq_false_iff_ne]
        exact fun equal => same (Hash.toHex_injective equal).symm
      rw [keys, holds.lookup_eq]
      simp [same]

/-- The chain is read back in the order of insertion. -/
theorem getChain_eq {store : MemoryBlocks} {blocks : List Block}
    (holds : HoldsInMemory store blocks)
    (distinct : (blockIds blocks).Nodup) :
    store.getChain = .ok blocks := by
  have readAll (read : List Block) (members : ∀ block ∈ read, block ∈ blocks) :
      (read.map fun block => block.header.id.toHex).mapM store.blockAt =
        .ok read := by
    induction read with
    | nil => rfl
    | cons block read ih =>
        have first : store.blockAt block.header.id.toHex = .ok block := by
          unfold MemoryBlocks.blockAt
          rw [holds.lookup_eq, findBlock_of_mem distinct (members block (by simp))]
        rw [List.map_cons, List.mapM_cons, first,
          ih fun member memberMem => members member (by simp [memberMem])]
        rfl
  unfold MemoryBlocks.getChain
  rw [holds.order_eq]
  exact readAll blocks fun _ member => member

theorem inMemoryStores_keep :
    StoresKeep inMemoryBlockStore inMemorySnapshotStore HoldsInMemory Eq where
  put_fresh := fun holds fresh => putBlock_fresh holds fresh
  save := fun _ _ => ⟨rfl, rfl⟩
  load := fun loads => congrArg Except.ok loads

theorem inMemoryBlockStore_rejects :
    RejectsRepeated inMemoryBlockStore HoldsInMemory := by
  intro store blocks block holds repeated
  have refused := putBlock_refused holds repeated
  change (store.putBlock block).1.isOk = false ∧ (store.putBlock block).2 = store
  rw [refused]
  exact ⟨rfl, rfl⟩

/-- A kernel state over the in-memory stores stands for a ledger state. -/
abbrev InMemory (state : KernelState MemoryBlocks (Option ChainSnapshot))
    (abstract : LedgerState) : Prop :=
  Represents HoldsInMemory Eq state abstract

theorem inMemoryStart_represents : InMemory inMemoryStart .empty where
  holdsBlocks := holdsInMemory_nil
  loadsSnapshot := rfl
  snapshot_eq := rfl
  pending_eq := rfl

/-- Every run over the in-memory stores does to the ledger what the ledger
machine does. -/
theorem inMemory_run_refines (config : ChainConfig) (calls : List KernelCall) :
    InMemory ((inMemoryKernel config).runCalls calls inMemoryStart)
      (StepMachine.run (LedgerState.step config) calls .empty) := by
  refine StepMachine.related_run ?_ calls _ _ inMemoryStart_represents
  intro input state abstract represents
  exact step_refines (inMemoryKernel config) inMemoryStores_keep rfl input
    represents (Or.inr inMemoryBlockStore_rejects)

end Storage

end Blocxxi
