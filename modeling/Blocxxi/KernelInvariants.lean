import Blocxxi.InMemoryStore

/-!
# Invariants of a kernel over the in-memory stores

The chain counts up from genesis and links block to block, the snapshot and
the stored snapshot summarise it, its last block is the head, and the waiting
transactions are distinct, after any sequence of calls.
-/

namespace Blocxxi

namespace Chain

open Blocxxi.Core Cxx Storage

/-- What ties a kernel's chain, snapshot, saved snapshot and pending
transactions together. -/
structure Consistent {BlockState SnapshotState : Type}
    (kernel : Kernel BlockState SnapshotState)
    (state : KernelState BlockState SnapshotState) (blocks : List Block) :
    Prop where
  chain_eq : kernel.chain state = .ok blocks
  empty_iff : blocks = [] ↔ state.snapshot.bootstrapped = false
  height_eq : ∀ (index : Nat) (within : index < blocks.length),
    blocks[index].header.height = UInt64.ofNat index
  first_parent : ∀ within : 0 < blocks.length,
    blocks[0].header.previousId = Hash.zero
  next_parent : ∀ (index : Nat) (within : index + 1 < blocks.length),
    blocks[index + 1].header.previousId = blocks[index].header.id
  ids_distinct : (blocks.map fun block => block.header.id).Nodup
  last_eq : ∀ last, blocks.getLast? = some last →
    state.snapshot.height = last.header.height ∧
      state.snapshot.headId = last.header.id
  blockCount_eq : state.snapshot.blockCount = UInt64.ofNat blocks.length
  acceptedTransactions_eq : state.snapshot.acceptedTransactions =
    UInt64.ofNat (blocks.map fun block => block.transactions.length).sum
  head_eq : kernel.head state = .ok blocks.getLast?
  saved_eq : state.snapshot.bootstrapped = true →
    kernel.snapshotStore.load state.snapshotState = .ok (some state.snapshot)
  pending_distinct :
    (state.pendingTransactions.map fun waiting => waiting.id).Nodup

theorem getLast?_cases (blocks : List Block) {last : Block}
    (atEnd : blocks.getLast? = some last) :
    ∃ front, blocks = front ++ [last] := by
  obtain ⟨front, split⟩ := List.getLast?_eq_some_iff.mp atEnd
  exact ⟨front, split⟩

/-- The head of the stored chain is its last block. -/
theorem inMemory_head_eq {config : ChainConfig}
    {state : KernelState MemoryBlocks (Option ChainSnapshot)}
    {abstract : LedgerState} (represents : InMemory state abstract) :
    (inMemoryKernel config).head state =
      .ok abstract.ledger.blocks.getLast? := by
  unfold Kernel.head
  rw [represents.snapshot_eq, snapshotOf_bootstrapped]
  rcases blocks_cases abstract.ledger.blocks with empty | ⟨front, last, split⟩
  · simp [empty]
  · have found := represents.holdsBlocks.lookup_eq last.header.id
    rw [findBlock_of_mem abstract.ledger.distinct (by simp [split])] at found
    have tip : (snapshotOf abstract.ledger.blocks).headId = last.header.id := by
      rw [snapshotOf_headId, split, LinkScheme.tip_append_singleton]
      rfl
    have nonempty : (!!abstract.ledger.blocks.isEmpty) = false := by
      simp [split]
    rw [nonempty, tip]
    simp only [Bool.false_eq_true, if_false]
    change (.ok (MemoryBlocks.getBlock _ _) : Except Fault (Option Block)) = _
    rw [MemoryBlocks.getBlock, found, split, List.getLast?_concat]

/-- A state over the in-memory stores that stands for a ledger is
consistent. -/
theorem consistent_of_represents {config : ChainConfig}
    {state : KernelState MemoryBlocks (Option ChainSnapshot)}
    {abstract : LedgerState} (represents : InMemory state abstract) :
    Consistent (inMemoryKernel config) state abstract.ledger.blocks where
  chain_eq := getChain_eq represents.holdsBlocks abstract.ledger.distinct
  empty_iff := by simp [represents.snapshot_eq]
  height_eq := abstract.ledger.counted
  first_parent := abstract.ledger.linked.parent_first
  next_parent := fun index within => abstract.ledger.linked.parent_succ within
  ids_distinct := abstract.ledger.distinct
  last_eq := by
    intro last atEnd
    obtain ⟨front, split⟩ := getLast?_cases _ atEnd
    rw [represents.snapshot_eq, split, snapshotOf_append_singleton]
    exact ⟨rfl, rfl⟩
  blockCount_eq := by rw [represents.snapshot_eq, snapshotOf_blockCount]
  acceptedTransactions_eq := by
    rw [represents.snapshot_eq, snapshotOf_acceptedTransactions]
    rfl
  head_eq := inMemory_head_eq represents
  saved_eq := by
    intro bootstrapped
    have nonempty : abstract.ledger.blocks ≠ [] := by
      rw [represents.snapshot_eq, snapshotOf_bootstrapped] at bootstrapped
      simpa using bootstrapped
    have loads := represents.loadsSnapshot
    rw [if_neg nonempty, ← represents.snapshot_eq] at loads
    exact congrArg Except.ok loads
  pending_distinct := by
    rw [represents.pending_eq]
    exact abstract.pendingDistinct

/-- After any sequence of calls, whatever blocks are supplied from outside, a
kernel with the default validator over fresh in-memory stores is consistent. -/
theorem inMemoryKernel_consistent (config : ChainConfig)
    (calls : List KernelCall) :
    ∃ blocks, Consistent (inMemoryKernel config)
      ((inMemoryKernel config).runCalls calls inMemoryStart) blocks :=
  ⟨_, consistent_of_represents (inMemory_run_refines config calls)⟩

end Chain

end Blocxxi
