import Blocxxi.FileStore

/-!
# Restarting a kernel

A kernel forgets its snapshot and its pending transactions when it stops, but the
snapshot store has what was saved last.  In a bootstrapped kernel that is its
snapshot, so a new kernel over the same stores goes on from it after `Bootstrap`:
only the pending transactions are lost.
-/

namespace Blocxxi

namespace Chain

open Blocxxi.Core Cxx

variable {BlockState SnapshotState : Type}

/-- The state of a new kernel over stores. -/
def newKernel (blockState : BlockState) (snapshotState : SnapshotState) :
    KernelState BlockState SnapshotState where
  blockState := blockState
  snapshotState := snapshotState

namespace KernelState

variable (state : KernelState BlockState SnapshotState)

/-- What is left of a kernel when another one starts over the same stores. -/
def restart : KernelState BlockState SnapshotState :=
  newKernel state.blockState state.snapshotState

def discardPending : KernelState BlockState SnapshotState :=
  { state with pendingTransactions := [] }

end KernelState

/-- What a call shows: its status, and then the snapshot and the stored blocks. -/
structure Observation (BlockState : Type) where
  status : Except Fault Status
  snapshot : ChainSnapshot
  stored : BlockState
  chain : Except Fault (List Block)

namespace Kernel

variable (kernel : Kernel BlockState SnapshotState)

def observations : List KernelCall → KernelState BlockState SnapshotState →
    List (Observation BlockState)
  | [], _ => []
  | input :: inputs, state =>
      let (status, after) := kernel.call input state
      { status := status
        snapshot := after.snapshot
        stored := after.blockState
        chain := kernel.chain after } :: observations inputs after

end Kernel

/-- In a reliable state, the snapshot store loads what was saved last. -/
def SavesReliably (store : SnapshotStore SnapshotState)
    (reliable : SnapshotState → Prop) : Prop :=
  ∀ state snapshot, reliable state →
    (store.save snapshot state).1.isOk = true ∧
      reliable (store.save snapshot state).2 ∧
      store.load (store.save snapshot state).2 = .ok (some snapshot)

/-- Once bootstrapped, a kernel has the snapshot that its store loads. -/
structure Persisted (kernel : Kernel BlockState SnapshotState)
    (reliable : SnapshotState → Prop)
    (state : KernelState BlockState SnapshotState) : Prop where
  reliable : reliable state.snapshotState
  loads : state.snapshot.bootstrapped = true →
    kernel.snapshotStore.load state.snapshotState = .ok (some state.snapshot)

variable {kernel : Kernel BlockState SnapshotState}
variable {reliable : SnapshotState → Prop}

theorem persisted_newKernel (blockState : BlockState)
    {snapshotState : SnapshotState} (isReliable : reliable snapshotState) :
    Persisted kernel reliable (newKernel blockState snapshotState) where
  reliable := isReliable
  loads := fun bootstrapped => by cases bootstrapped

theorem persisted_commitBlock (saves : SavesReliably kernel.snapshotStore reliable)
    {state : KernelState BlockState SnapshotState}
    (persisted : Persisted kernel reliable state) (block : Block) :
    Persisted kernel reliable (kernel.commitBlock block state).2 := by
  rcases kernel.commitBlock_cases block state with
    ⟨-, result⟩ | ⟨-, -, result⟩ | ⟨-, -, result⟩
  · rw [result]
    exact persisted
  · rw [result]
    exact ⟨persisted.reliable, persisted.loads⟩
  · obtain ⟨-, stillReliable, loads⟩ := saves state.snapshotState
      (advanceSnapshot state.snapshot block) persisted.reliable
    rw [result]
    exact ⟨stillReliable, fun _ => loads⟩

theorem persisted_step (saves : SavesReliably kernel.snapshotStore reliable)
    (input : KernelCall) (state : KernelState BlockState SnapshotState)
    (persisted : Persisted kernel reliable state) :
    Persisted kernel reliable (kernel.step input state) := by
  cases input with
  | bootstrap now =>
      unfold Kernel.step Kernel.call Kernel.bootstrap
      dsimp only
      split
      · exact persisted
      · rename_i snapshot loaded
        exact ⟨persisted.reliable, fun _ => loaded⟩
      · split
        · exact persisted
        · exact persisted_commitBlock saves persisted _
  | submitTransaction transaction =>
      rcases Kernel.submitTransaction_cases transaction state with
        ⟨-, -, unchanged⟩ | ⟨-, -, -, submitted⟩
      · rw [Kernel.step, Kernel.call, unchanged]
        exact persisted
      · rw [Kernel.step, Kernel.call, submitted]
        exact ⟨persisted.reliable, persisted.loads⟩
  | commitBlock block => exact persisted_commitBlock saves persisted block
  | commitPending source now =>
      unfold Kernel.step Kernel.call Kernel.commitPending
      dsimp only
      split
      · exact persisted
      · exact persisted_commitBlock saves persisted _

theorem persisted_run (saves : SavesReliably kernel.snapshotStore reliable)
    (calls : List KernelCall) {state : KernelState BlockState SnapshotState}
    (persisted : Persisted kernel reliable state) :
    Persisted kernel reliable (kernel.runCalls calls state) :=
  StepMachine.invariant_run (persisted_step saves) calls state persisted

/-- Bootstrapping after a restart brings everything back but the pending
transactions. -/
theorem bootstrap_restart {state : KernelState BlockState SnapshotState}
    (persisted : Persisted kernel reliable state)
    (bootstrapped : state.snapshot.bootstrapped = true) (now : Int64) :
    kernel.bootstrap now state.restart =
      (.ok (.success "loaded existing chain snapshot"), state.discardPending) := by
  have loads := persisted.loads bootstrapped
  simp only [Kernel.bootstrap, KernelState.restart, newKernel, loads]
  rfl

end Chain

namespace Storage

open Blocxxi.Core Cxx Chain

theorem fileSnapshotStore_savesReliably :
    SavesReliably fileSnapshotStore fun file => file.outcomes = [] := by
  intro file snapshot isReliable
  have saved : fileSnapshotStore.save snapshot file = (.success "",
      { content := some (snapshotText snapshot), outcomes := [] }) := by
    simp [fileSnapshotStore, SnapshotFile.save, isReliable]
  rw [saved]
  refine ⟨rfl, rfl, ?_⟩
  simp [fileSnapshotStore, SnapshotFile.load, readSnapshot_snapshotText, Except.map]

/-- A kernel over the file stores that stops when it is bootstrapped, and starts
again over the same directory, goes on as if only its pending transactions had been
discarded. -/
theorem restart_transparent (config : ChainConfig) (order : ListingOrder)
    (directory : BlocksDirectory) {file : SnapshotFile}
    (isReliable : file.outcomes = []) (calls continuation : List KernelCall)
    (now : Int64)
    (bootstrapped : ((fileKernel config order).runCalls calls
      (newKernel directory file)).snapshot.bootstrapped = true) :
    let ended := (fileKernel config order).runCalls calls (newKernel directory file)
    ((fileKernel config order).bootstrap now ended.restart).1 =
        .ok (.success "loaded existing chain snapshot") ∧
      (fileKernel config order).observations continuation
          ((fileKernel config order).bootstrap now ended.restart).2 =
        (fileKernel config order).observations continuation
          ended.discardPending := by
  intro ended
  have persisted : Persisted (fileKernel config order)
      (fun file => file.outcomes = []) ended :=
    persisted_run fileSnapshotStore_savesReliably calls
      (persisted_newKernel directory isReliable)
  rw [bootstrap_restart persisted bootstrapped now]
  exact ⟨rfl, rfl⟩

/-- A kernel that stops with a transaction pending, and then takes another one. -/
theorem restart_transparent_pending :
    let ended := (fileKernel {} .asStored).runCalls
      [.bootstrap 0, .submitTransaction { payload := [1] }] (newKernel {} {})
    (fileKernel {} .asStored).observations
        [.submitTransaction { payload := [2] }, .commitPending (ascii "local") 1]
        ((fileKernel {} .asStored).bootstrap 1 ended.restart).2 =
      (fileKernel {} .asStored).observations
        [.submitTransaction { payload := [2] }, .commitPending (ascii "local") 1]
        ended.discardPending :=
  (@restart_transparent {} .asStored {} {} rfl
    [.bootstrap 0, .submitTransaction { payload := [1] }]
    [.submitTransaction { payload := [2] }, .commitPending (ascii "local") 1] 1
    (by decide +kernel)).2

end Storage

end Blocxxi
