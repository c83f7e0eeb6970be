import Blocxxi.ChainKernel
import Blocxxi.LinkedLog
import Mathlib.Tactic.MkIffOfInductiveProp

/-!
# The ledger a kernel maintains

A ledger is a sequence of blocks that count up from genesis, link to each
other and have distinct identifiers.  The kernel's snapshot is a function of
the ledger, and the default validator accepts exactly the blocks that extend
it.  This file defines the ledger with the waiting transactions as a machine
of its own, without any store.
-/

namespace Blocxxi

namespace Chain

open Blocxxi.Core Cxx

def blockLinks : LinkScheme Block BlockId where
  key := fun block => block.header.id
  parent := fun block => block.header.previousId
  root := Hash.zero

/-- The identifiers of the blocks of a chain. -/
def blockIds (blocks : List Block) : List BlockId :=
  blocks.map fun block => block.header.id

/-- The heights of the blocks are their positions. -/
abbrev Counted (blocks : List Block) : Prop :=
  LinkScheme.Numbered (fun block : Block => block.header.height)
    UInt64.ofNat blocks

structure Ledger where
  blocks : List Block
  linked : blockLinks.Linked blocks
  counted : Counted blocks
  distinct : (blockIds blocks).Nodup

/-- The number of transactions in a chain. -/
def transactionCount (blocks : List Block) : Nat :=
  (blocks.map fun block => block.transactions.length).sum

/-- The summary of a chain that a kernel keeps. -/
def snapshotOf (blocks : List Block) : ChainSnapshot :=
  match blocks.getLast? with
  | none => {}
  | some last =>
      { height := last.header.height
        headId := last.header.id
        blockCount := UInt64.ofNat blocks.length
        acceptedTransactions := UInt64.ofNat (transactionCount blocks)
        bootstrapped := true }

/-- The block extends the chain, as a block of its own source. -/
@[mk_iff]
structure Extends (blocks : List Block) (block : Block) : Prop where
  named : block.header.source ≠ []
  carries : blocks ≠ [] → block.transactions ≠ []
  height : block.header.height = UInt64.ofNat blocks.length
  parent : block.header.previousId = blockLinks.tip blocks

/-- No block of the chain has the block's identifier. -/
def Fresh (blocks : List Block) (block : Block) : Prop :=
  block.header.id ∉ blockIds blocks

instance (blocks : List Block) (block : Block) :
    Decidable (Extends blocks block) :=
  decidable_of_iff _ (extends_iff blocks block).symm

instance (blocks : List Block) (block : Block) :
    Decidable (Fresh blocks block) :=
  inferInstanceAs (Decidable (_ ∉ _))

namespace Ledger

def empty : Ledger where
  blocks := []
  linked := LinkScheme.linked_nil
  counted := LinkScheme.numbered_nil
  distinct := List.nodup_nil

/-- The ledger with one more block. -/
def extend (ledger : Ledger) (block : Block)
    (extension : Extends ledger.blocks block)
    (fresh : Fresh ledger.blocks block) : Ledger where
  blocks := ledger.blocks ++ [block]
  linked := ledger.linked.append_singleton extension.parent
  counted := ledger.counted.append_singleton extension.height
  distinct := LinkScheme.nodup_map_append_singleton ledger.distinct fresh

end Ledger

/-- The block that a chain holds under an identifier. -/
def findBlock (blocks : List Block) (id : BlockId) : Option Block :=
  blocks.find? fun block => block.header.id == id

theorem findBlock_isSome_iff (blocks : List Block) (id : BlockId) :
    (findBlock blocks id).isSome = true ↔ id ∈ blockIds blocks := by
  simp [findBlock, blockIds]

theorem findBlock_append_singleton (blocks : List Block) (block : Block)
    (id : BlockId) :
    findBlock (blocks ++ [block]) id =
      (findBlock blocks id).or
        (if block.header.id = id then some block else none) := by
  unfold findBlock
  rw [List.find?_append]
  by_cases same : block.header.id = id
  · simp [same]
  · simp [same]

/-- In a chain with distinct identifiers, a block is found under its own. -/
theorem findBlock_of_mem {blocks : List Block}
    (distinct : (blockIds blocks).Nodup) {block : Block}
    (member : block ∈ blocks) :
    findBlock blocks block.header.id = some block := by
  induction blocks with
  | nil => cases member
  | cons first rest ih =>
      obtain ⟨firstNew, restDistinct⟩ := List.nodup_cons.mp distinct
      rcases List.mem_cons.mp member with rfl | inRest
      · simp [findBlock]
      · have different : first.header.id ≠ block.header.id := by
          intro same
          exact firstNew (List.mem_map.mpr ⟨block, inRest, same.symm⟩)
        have passes : findBlock (first :: rest) block.header.id =
            findBlock rest block.header.id := by
          simp [findBlock, different]
        rw [passes]
        exact ih restDistinct inRest

@[simp]
theorem snapshotOf_nil : snapshotOf [] = {} :=
  rfl

theorem snapshotOf_append_singleton (blocks : List Block) (block : Block) :
    snapshotOf (blocks ++ [block]) =
      { height := block.header.height
        headId := block.header.id
        blockCount := UInt64.ofNat (blocks.length + 1)
        acceptedTransactions := UInt64.ofNat
          (transactionCount blocks + block.transactions.length)
        bootstrapped := true } := by
  simp [snapshotOf, transactionCount]

/-- A chain is empty, or has a last block. -/
theorem blocks_cases (blocks : List Block) :
    blocks = [] ∨ ∃ front last, blocks = front ++ [last] := by
  rcases List.eq_nil_or_concat blocks with empty | ⟨front, last, split⟩
  · exact Or.inl empty
  · exact Or.inr ⟨front, last, by simpa using split⟩

@[simp]
theorem snapshotOf_bootstrapped (blocks : List Block) :
    (snapshotOf blocks).bootstrapped = !blocks.isEmpty := by
  rcases blocks_cases blocks with rfl | ⟨front, last, rfl⟩
  · rfl
  · simp [snapshotOf_append_singleton]

@[simp]
theorem snapshotOf_headId (blocks : List Block) :
    (snapshotOf blocks).headId = blockLinks.tip blocks := by
  rcases blocks_cases blocks with rfl | ⟨front, last, rfl⟩
  · rfl
  · rw [snapshotOf_append_singleton, LinkScheme.tip_append_singleton]
    rfl

@[simp]
theorem snapshotOf_blockCount (blocks : List Block) :
    (snapshotOf blocks).blockCount = UInt64.ofNat blocks.length := by
  rcases blocks_cases blocks with rfl | ⟨front, last, rfl⟩
  · rfl
  · simp [snapshotOf_append_singleton]

@[simp]
theorem snapshotOf_acceptedTransactions (blocks : List Block) :
    (snapshotOf blocks).acceptedTransactions =
      UInt64.ofNat (transactionCount blocks) := by
  rcases blocks_cases blocks with rfl | ⟨front, last, rfl⟩
  · rfl
  · simp [snapshotOf_append_singleton, transactionCount]

/-- The height after the head of a ledger is the ledger's length. -/
theorem snapshotOf_next_height {blocks : List Block} (counted : Counted blocks) :
    (if (snapshotOf blocks).bootstrapped then (snapshotOf blocks).height + 1
      else 0) = UInt64.ofNat blocks.length := by
  rcases blocks_cases blocks with rfl | ⟨front, last, rfl⟩
  · rfl
  · have lastHeight : last.header.height = UInt64.ofNat front.length := by
      simpa using counted front.length (by simp)
    simp [snapshotOf_append_singleton, lastHeight, UInt64.ofNat_add]

/-- Committing a block advances the snapshot of the chain to the snapshot of
the longer chain. -/
theorem advanceSnapshot_snapshotOf (blocks : List Block) (block : Block) :
    advanceSnapshot (snapshotOf blocks) block =
      snapshotOf (blocks ++ [block]) := by
  simp [advanceSnapshot, snapshotOf_append_singleton, UInt64.ofNat_add]

/-- The default validator accepts the blocks that extend the chain, and no
others. -/
theorem basicBlockValidator_isOk_iff {blocks : List Block}
    (counted : Counted blocks) (block : Block) :
    (basicBlockValidator block (snapshotOf blocks)).isOk = true ↔
      Extends blocks block := by
  have nextHeight := snapshotOf_next_height counted
  rw [extends_iff, ← nextHeight, ← snapshotOf_headId]
  by_cases noSource : block.header.source = []
  · simp [basicBlockValidator, noSource]
  by_cases empty : blocks = []
  · subst empty
    by_cases height : block.header.height = 0
    · by_cases parent : block.header.previousId = Hash.zero <;>
        simp [basicBlockValidator, noSource, height, parent]
    · simp [basicBlockValidator, noSource, height]
  · by_cases noTransactions : block.transactions = []
    · simp [basicBlockValidator, noSource, empty, noTransactions]
    by_cases height :
        block.header.height = (snapshotOf blocks).height + 1
    · by_cases parent : block.header.previousId = blockLinks.tip blocks <;>
        simp [basicBlockValidator, noSource, empty, noTransactions, height,
          parent]
    · simp [basicBlockValidator, noSource, empty, noTransactions, height]

/-- The state that a kernel stands for. -/
structure LedgerState where
  ledger : Ledger
  pending : List Transaction
  pendingDistinct : (pending.map fun waiting => waiting.id).Nodup

namespace LedgerState

def empty : LedgerState where
  ledger := .empty
  pending := []
  pendingDistinct := List.nodup_nil

/-- Append the block if it extends the ledger and is new. -/
def commit (block : Block) (state : LedgerState) : LedgerState :=
  if admitted : Extends state.ledger.blocks block ∧
      Fresh state.ledger.blocks block then
    { ledger := state.ledger.extend block admitted.1 admitted.2
      pending := eraseCommitted state.pending block
      pendingDistinct := state.pendingDistinct.sublist
        (List.filter_sublist.map _) }
  else state

/-- Let the transaction wait, unless one with its identifier already does. -/
def submit (transaction : Transaction) (state : LedgerState) : LedgerState :=
  if waits : transaction.id ∈ state.pending.map fun waiting => waiting.id then
    state
  else
    { state with
      pending := state.pending ++ [transaction]
      pendingDistinct :=
        LinkScheme.nodup_map_append_singleton state.pendingDistinct waits }

/-- The block that a call would append. -/
def proposal (config : ChainConfig) (input : KernelCall) (state : LedgerState) :
    Option Block :=
  match input with
  | .bootstrap now =>
      if state.ledger.blocks = [] ∧ config.createGenesis = true then
        some (genesisBlock config now)
      else none
  | .submitTransaction _ => none
  | .commitBlock block => some block
  | .commitPending source now =>
      if state.pending = [] then none
      else some (Block.makeNext (blockLinks.tip state.ledger.blocks)
        (UInt64.ofNat state.ledger.blocks.length) state.pending source now)

/-- One call, over the ledger. -/
def step (config : ChainConfig) (input : KernelCall) (state : LedgerState) :
    LedgerState :=
  match input with
  | .submitTransaction transaction =>
      if transaction.type = [] ∨ transaction.payload = [] then state
      else state.submit transaction
  | _ =>
      match state.proposal config input with
      | some block => state.commit block
      | none => state

/-- Whatever the call would append to the ledger is new to it. -/
def AppendsNew (config : ChainConfig) (input : KernelCall)
    (state : LedgerState) : Prop :=
  ∀ block, state.proposal config input = some block →
    Extends state.ledger.blocks block → Fresh state.ledger.blocks block

theorem step_proposed {config : ChainConfig} {input : KernelCall}
    {state : LedgerState} {block : Block}
    (proposed : state.proposal config input = some block) :
    state.step config input = state.commit block := by
  cases input with
  | submitTransaction transaction => cases proposed
  | bootstrap now => simp only [step, proposed]
  | commitBlock other => simp only [step, proposed]
  | commitPending source now => simp only [step, proposed]

theorem step_idle {config : ChainConfig} {input : KernelCall} {state : LedgerState}
    (noSubmission : ∀ transaction, input ≠ .submitTransaction transaction)
    (none : state.proposal config input = none) :
    state.step config input = state := by
  cases input with
  | submitTransaction transaction => exact (noSubmission transaction rfl).elim
  | bootstrap now => simp only [step, none]
  | commitBlock block => simp only [step, none]
  | commitPending source now => simp only [step, none]

/-- A call commits the block that it proposes, or lets a transaction wait, or
changes nothing. -/
theorem step_cases (config : ChainConfig) (input : KernelCall)
    (state : LedgerState) :
    (∃ block, state.proposal config input = some block ∧
      state.step config input = state.commit block) ∨
    (∃ transaction, input = .submitTransaction transaction ∧
      state.step config input = state.submit transaction) ∨
    state.step config input = state := by
  cases proposed : state.proposal config input with
  | some block => exact Or.inl ⟨block, rfl, step_proposed proposed⟩
  | none =>
      by_cases submission : ∃ transaction, input = .submitTransaction transaction
      · obtain ⟨transaction, rfl⟩ := submission
        by_cases turnedDown : transaction.type = [] ∨ transaction.payload = []
        · exact Or.inr (Or.inr (if_pos turnedDown))
        · exact Or.inr (Or.inl ⟨transaction, rfl, if_neg turnedDown⟩)
      · exact Or.inr (Or.inr (step_idle (not_exists.mp submission) proposed))

theorem commit_admitted {block : Block} {state : LedgerState}
    (extension : Extends state.ledger.blocks block)
    (fresh : Fresh state.ledger.blocks block) :
    (state.commit block).ledger.blocks = state.ledger.blocks ++ [block] ∧
      (state.commit block).pending = eraseCommitted state.pending block := by
  unfold commit
  rw [dif_pos ⟨extension, fresh⟩]
  exact ⟨rfl, rfl⟩

theorem commit_refused {block : Block} {state : LedgerState}
    (refused : ¬ (Extends state.ledger.blocks block ∧
      Fresh state.ledger.blocks block)) :
    state.commit block = state :=
  dif_neg refused

end LedgerState

end Chain

end Blocxxi
