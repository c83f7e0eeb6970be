import Blocxxi.InMemoryStore

/-!
# Failing commits

A commit hands the block to the block store, then advances the snapshot and
the pending transactions, and saves the snapshot last.  A commit that fails in
that last step has already taken effect.
-/

namespace Blocxxi

namespace Chain

open Blocxxi.Core Cxx Storage

variable {BlockState SnapshotState : Type}

/-- A call that returns a failure status leaves the snapshot, the pending
transactions and the stored chain as they were. -/
def AllOrNothing (kernel : Kernel BlockState SnapshotState)
    (input : KernelCall) (state : KernelState BlockState SnapshotState) : Prop :=
  ∀ status, (kernel.call input state).1 = .ok status → status.isOk = false →
    (kernel.call input state).2.snapshot = state.snapshot ∧
      (kernel.call input state).2.pendingTransactions =
        state.pendingTransactions ∧
      kernel.chain (kernel.call input state).2 = kernel.chain state

/-- The validator turns the block down, or the block store does and keeps its
chain, or both stores accept what they are given. -/
def StoresSettle (kernel : Kernel BlockState SnapshotState) (block : Block)
    (state : KernelState BlockState SnapshotState) : Prop :=
  let put := kernel.blockStore.putBlock block state.blockState
  let saved := kernel.snapshotStore.save
    (advanceSnapshot state.snapshot block) state.snapshotState
  (kernel.validator block state.snapshot).isOk = false ∨
    (put.1.isOk = false ∧
      kernel.blockStore.getChain put.2 =
        kernel.blockStore.getChain state.blockState) ∨
    (put.1.isOk = true ∧ saved.1.isOk = true)

/-- A commit that takes effect shows in the snapshot's block count. -/
theorem advanceSnapshot_ne (snapshot : ChainSnapshot) (block : Block) :
    advanceSnapshot snapshot block ≠ snapshot := by
  intro equal
  have counts : snapshot.blockCount + 1 = snapshot.blockCount :=
    congrArg ChainSnapshot.blockCount equal
  have := congrArg UInt64.toNat counts
  have bounded := snapshot.blockCount.toNat_lt
  rw [UInt64.toNat_add] at this
  simp only [UInt64.toNat_one] at this
  omega

theorem commitBlock_unchanged_iff (kernel : Kernel BlockState SnapshotState)
    (block : Block) (state : KernelState BlockState SnapshotState) :
    ((kernel.commitBlock block state).1.isOk = false →
      (kernel.commitBlock block state).2.snapshot = state.snapshot ∧
        (kernel.commitBlock block state).2.pendingTransactions =
          state.pendingTransactions ∧
        kernel.chain (kernel.commitBlock block state).2 =
          kernel.chain state) ↔
      StoresSettle kernel block state := by
  unfold StoresSettle
  rcases kernel.commitBlock_cases block state with
    ⟨refused, result⟩ | ⟨accepted, failed, result⟩ | ⟨accepted, stored, result⟩
  · simp [result, refused]
  · simp [result, accepted, failed, Kernel.chain]
  · cases saved : (kernel.snapshotStore.save
        (advanceSnapshot state.snapshot block) state.snapshotState).1.isOk with
    | true => simp [result, accepted, stored, saved]
    | false =>
        simp [result, accepted, stored, saved,
          advanceSnapshot_ne state.snapshot block]

/-- Without a block to commit, a call that fails changes nothing. -/
theorem allOrNothing_of_no_proposal {kernel : Kernel BlockState SnapshotState}
    {input : KernelCall} {state : KernelState BlockState SnapshotState}
    (none : kernel.proposal input state = none) :
    AllOrNothing kernel input state := by
  intro status returned failed
  cases input with
  | bootstrap now =>
      simp only [Kernel.proposal] at none
      cases loaded : kernel.snapshotStore.load state.snapshotState with
      | error fault => simp [Kernel.call, Kernel.bootstrap, loaded] at returned
      | ok found =>
          cases found with
          | some snapshot =>
              simp only [Kernel.call, Kernel.bootstrap, loaded,
                Except.ok.injEq] at returned
              rw [← returned] at failed
              cases failed
          | none =>
              rw [loaded] at none
              have skips : kernel.config.createGenesis = false := by
                simpa using none
              simp [Kernel.call, Kernel.bootstrap, loaded, skips]
  | submitTransaction transaction =>
      rcases Kernel.submitTransaction_cases transaction state with
        ⟨-, -, unchanged⟩ | ⟨-, -, -, accepted⟩
      · simp [Kernel.call, unchanged, Kernel.chain]
      · simp only [Kernel.call, accepted, Except.ok.injEq] at returned
        rw [← returned] at failed
        cases failed
  | commitBlock block => cases none
  | commitPending source now =>
      have noneWaits : state.pendingTransactions = [] := by
        simpa [Kernel.proposal] using none
      simp [Kernel.call, Kernel.commitPending, noneWaits]

/-- A call is all or nothing exactly when the stores settle every block that
the call hands to them. -/
theorem allOrNothing_iff (kernel : Kernel BlockState SnapshotState)
    (input : KernelCall) (state : KernelState BlockState SnapshotState) :
    AllOrNothing kernel input state ↔
      ∀ block, kernel.proposal input state = some block →
        StoresSettle kernel block state := by
  cases proposed : kernel.proposal input state with
  | none =>
      simpa using allOrNothing_of_no_proposal proposed
  | some block =>
      have result := kernel.step_of_proposal proposed
      have settles := commitBlock_unchanged_iff kernel block state
      simpa [AllOrNothing, result] using settles

/-- A snapshot store that can never save. -/
def failingSnapshotStore : SnapshotStore Unit where
  save := fun _ _ =>
    (.failure .ioError "failed to open snapshot file for writing", ())
  load := fun _ => .ok none

/-- Over such a store, a failed commit leaves its block in the chain. -/
theorem commitBlock_not_allOrNothing :
    ¬ ∀ (kernel : Kernel MemoryBlocks Unit) (input : KernelCall)
        (state : KernelState MemoryBlocks Unit),
      AllOrNothing kernel input state := by
  intro always
  have atGenesis := always
    (Kernel.make {} inMemoryBlockStore failingSnapshotStore none)
    (.commitBlock {}) { blockState := {}, snapshotState := () }
  have changed := (atGenesis _ rfl (by decide)).2.2
  revert changed
  decide

end Chain

end Blocxxi
