import Blocxxi.InMemoryStore

/-!
# Where an accepted transaction goes

A transaction that was accepted waits until a block is committed that has a
transaction with its identifier.  The kernel puts the transactions that wait into its
own blocks; a block from elsewhere may have another transaction under the identifier,
and then the one that waited is gone.
-/

namespace Blocxxi

namespace Chain

open Blocxxi.Core Cxx

/-- A block that the kernel did not make of its pending transactions, but was given by
one of the calls or made at the start of the chain. -/
def Supplied (config : ChainConfig) (calls : List KernelCall) (block : Block) :
    Prop :=
  KernelCall.commitBlock block ∈ calls ∨
    ∃ now, KernelCall.bootstrap now ∈ calls ∧ block = genesisBlock config now

/-- A block of the chain has the transaction, or has another one under its identifier
and was supplied. -/
def Booked (supplied : Block → Prop) (transaction : Transaction)
    (blocks : List Block) : Prop :=
  ∃ block ∈ blocks, transaction ∈ block.transactions ∨
    supplied block ∧ ∃ committed ∈ block.transactions, committed.id = transaction.id

theorem Booked.append {supplied : Block → Prop} {transaction : Transaction}
    {blocks : List Block} (booked : Booked supplied transaction blocks)
    (more : List Block) : Booked supplied transaction (blocks ++ more) := by
  obtain ⟨block, blockMem, found⟩ := booked
  exact ⟨block, List.mem_append_left more blockMem, found⟩

/-- The transaction waits or is booked. -/
def WaitsOrBooked (supplied : Block → Prop) (transaction : Transaction)
    (state : LedgerState) : Prop :=
  transaction ∈ state.pending ∨ Booked supplied transaction state.ledger.blocks

namespace LedgerState

variable {supplied : Block → Prop} {transaction : Transaction}

/-- Committing a block that was supplied, or has all that waits. -/
theorem waitsOrBooked_commit {state : LedgerState} {block : Block}
    (kept : WaitsOrBooked supplied transaction state)
    (origin : supplied block ∨ block.transactions = state.pending) :
    WaitsOrBooked supplied transaction (state.commit block) := by
  by_cases admitted : Extends state.ledger.blocks block ∧
      Fresh state.ledger.blocks block
  · obtain ⟨blocksAfter, pendingAfter⟩ := commit_admitted admitted.1 admitted.2
    unfold WaitsOrBooked
    rw [blocksAfter, pendingAfter]
    rcases kept with waits | booked
    · by_cases replaced : ∃ committed ∈ block.transactions,
          committed.id = transaction.id
      · right
        refine ⟨block, List.mem_append_right _ List.mem_cons_self, ?_⟩
        rcases origin with isSupplied | isOwn
        · exact Or.inr ⟨isSupplied, replaced⟩
        · rw [isOwn]
          exact Or.inl waits
      · left
        refine List.mem_filter.mpr ⟨waits, ?_⟩
        simpa using replaced
    · exact Or.inr (booked.append [block])
  · rw [commit_refused admitted]
    exact kept

theorem waitsOrBooked_submit {state : LedgerState}
    (kept : WaitsOrBooked supplied transaction state) (other : Transaction) :
    WaitsOrBooked supplied transaction (state.submit other) := by
  unfold submit
  split
  · exact kept
  · exact kept.imp_left fun waits => List.mem_append_left [other] waits

/-- What a call appends was supplied, or has all that waits. -/
theorem origin_of_proposal {config : ChainConfig} {calls : List KernelCall}
    {input : KernelCall} (isCall : input ∈ calls) {state : LedgerState}
    {block : Block} (proposed : state.proposal config input = some block) :
    Supplied config calls block ∨ block.transactions = state.pending := by
  cases input with
  | bootstrap now =>
      simp only [proposal] at proposed
      split at proposed
      · cases proposed
        exact Or.inl (Or.inr ⟨now, isCall, rfl⟩)
      · cases proposed
  | submitTransaction other => cases proposed
  | commitBlock other =>
      cases proposed
      exact Or.inl (Or.inl isCall)
  | commitPending source now =>
      simp only [proposal] at proposed
      split at proposed
      · cases proposed
      · cases proposed
        exact Or.inr rfl

theorem waitsOrBooked_step {config : ChainConfig} {calls : List KernelCall}
    {input : KernelCall} (isCall : input ∈ calls) {state : LedgerState}
    (kept : WaitsOrBooked (Supplied config calls) transaction state) :
    WaitsOrBooked (Supplied config calls) transaction (state.step config input) := by
  rcases state.step_cases config input with
    ⟨block, proposed, result⟩ | ⟨other, -, result⟩ | result
  · rw [result]
    exact waitsOrBooked_commit kept (origin_of_proposal isCall proposed)
  · rw [result]
    exact waitsOrBooked_submit kept other
  · rw [result]
    exact kept

theorem waitsOrBooked_run {config : ChainConfig} (calls : List KernelCall)
    {state : LedgerState}
    (kept : WaitsOrBooked (Supplied config calls) transaction state) :
    WaitsOrBooked (Supplied config calls) transaction
      (StepMachine.run (step config) calls state) :=
  StepMachine.invariant_run_of_mem calls
    (fun _ isCall _ keptThere => waitsOrBooked_step isCall keptThere) state kept

end LedgerState

end Chain

namespace Storage

open Blocxxi.Core Cxx Chain

/-- A transaction waits after it was accepted. -/
theorem mem_pending_of_accepted {BlockState SnapshotState : Type}
    {state : KernelState BlockState SnapshotState} {transaction : Transaction}
    (accepted : (Kernel.submitTransaction transaction state).1.isOk = true) :
    transaction ∈
      (Kernel.submitTransaction transaction state).2.pendingTransactions := by
  rcases Kernel.submitTransaction_cases transaction state with
    ⟨-, refused, -⟩ | ⟨-, -, -, submitted⟩
  · rw [refused] at accepted
    cases accepted
  · rw [submitted]
    exact List.mem_append_right _ List.mem_cons_self

/-- In every later state, a transaction that was accepted waits, or a block of the
chain has it, or has another one under its identifier and was supplied since. -/
theorem acceptedTransaction_kept (config : ChainConfig)
    (earlier later : List KernelCall) (transaction : Transaction)
    (accepted : (Kernel.submitTransaction transaction
      ((inMemoryKernel config).runCalls earlier inMemoryStart)).1.isOk = true) :
    let state := (inMemoryKernel config).runCalls
      (earlier ++ .submitTransaction transaction :: later) inMemoryStart
    ∃ blocks, (inMemoryKernel config).chain state = .ok blocks ∧
      (transaction ∈ state.pendingTransactions ∨
        ∃ block ∈ blocks, transaction ∈ block.transactions ∨
          Supplied config later block ∧
            ∃ committed ∈ block.transactions, committed.id = transaction.id) := by
  intro state
  let before := StepMachine.run (LedgerState.step config) earlier .empty
  let after := StepMachine.run (LedgerState.step config) later
    (before.step config (.submitTransaction transaction))
  have waits : transaction ∈
      (before.step config (.submitTransaction transaction)).pending := by
    have represents := submitTransaction_refines
      (inMemory_run_refines config earlier) config transaction
    rw [← represents.pending_eq]
    exact mem_pending_of_accepted accepted
  have kept : WaitsOrBooked (Supplied config later) transaction after :=
    LedgerState.waitsOrBooked_run later (Or.inl waits)
  have represents : InMemory state after := by
    have whole := inMemory_run_refines config
      (earlier ++ .submitTransaction transaction :: later)
    rwa [StepMachine.run_append] at whole
  refine ⟨after.ledger.blocks,
    getChain_eq represents.holdsBlocks after.ledger.distinct, ?_⟩
  rw [represents.pending_eq]
  exact kept

/-- A transaction under an identifier of ones. -/
def onesTransaction (payload : ByteString) : Transaction where
  id := ⟨List.replicate 32 1, rfl⟩
  payload := payload

def ownBlock : KernelCall := .commitPending (ascii "local") 0

theorem acceptedTransaction_kept_pending :
    let state := (inMemoryKernel {}).runCalls
      ([.bootstrap 0] ++ .submitTransaction (onesTransaction [1]) :: [ownBlock])
      inMemoryStart
    ∃ blocks, (inMemoryKernel {}).chain state = .ok blocks ∧
      (onesTransaction [1] ∈ state.pendingTransactions ∨
        ∃ block ∈ blocks, onesTransaction [1] ∈ block.transactions ∨
          Supplied {} [ownBlock] block ∧ ∃ committed ∈ block.transactions,
            committed.id = (onesTransaction [1]).id) :=
  acceptedTransaction_kept {} [.bootstrap 0] [ownBlock] (onesTransaction [1])
    (by decide +kernel)

/-- A block from elsewhere with another transaction under the identifier of one that
waits. -/
def replacingBlock : Block where
  transactions := [onesTransaction [2]]

/-- The transaction that waited is neither pending nor in the chain. -/
theorem acceptedTransaction_lost :
    ¬ ∀ (config : ChainConfig) (earlier later : List KernelCall)
      (transaction : Transaction),
      (Kernel.submitTransaction transaction
        ((inMemoryKernel config).runCalls earlier inMemoryStart)).1.isOk = true →
      transaction ∈ ((inMemoryKernel config).runCalls
        (earlier ++ .submitTransaction transaction :: later)
        inMemoryStart).pendingTransactions ∨
      ∃ blocks, (inMemoryKernel config).chain ((inMemoryKernel config).runCalls
          (earlier ++ .submitTransaction transaction :: later) inMemoryStart) =
          .ok blocks ∧
        ∃ block ∈ blocks, transaction ∈ block.transactions := by
  intro neverLost
  have kept := neverLost {} [] [.commitBlock replacingBlock] (onesTransaction [1])
    (by decide +kernel)
  have chain : (inMemoryKernel {}).chain ((inMemoryKernel {}).runCalls
      ([] ++ .submitTransaction (onesTransaction [1]) ::
        [.commitBlock replacingBlock]) inMemoryStart) = .ok [replacingBlock] := by
    decide +kernel
  rw [chain] at kept
  rcases kept with waits | ⟨blocks, isChain, booked⟩
  · revert waits
    decide +kernel
  · cases isChain
    revert booked
    decide +kernel

end Storage

end Blocxxi
