import Blocxxi.CorePrimitives
import Blocxxi.StepMachineRuns

/-!
# The chain kernel

The kernel validates blocks against its snapshot and drives two storage ports.
A port is given by its operations on a state of its own, so that one kernel
runs over the in-memory stores, over the file stores and over stores that fail
at any call.
-/

namespace Blocxxi

namespace Chain

open Blocxxi.Core Cxx

structure BlockStore (BlockState : Type) where
  putBlock : Block → BlockState → Status × BlockState
  getBlock : BlockId → BlockState → Except Fault (Option Block)
  getChain : BlockState → Except Fault (List Block)

structure SnapshotStore (SnapshotState : Type) where
  save : ChainSnapshot → SnapshotState → Status × SnapshotState
  load : SnapshotState → Except Fault (Option ChainSnapshot)

abbrev BlockValidator := Block → ChainSnapshot → Status

/-- The validator used when none is given. -/
def basicBlockValidator : BlockValidator := fun block snapshot =>
  if block.header.source = [] then
    .failure .invalidArgument "block source is required"
  else if snapshot.bootstrapped && block.transactions.isEmpty then
    .failure .invalidArgument "non-genesis blocks require transactions"
  else if !snapshot.bootstrapped then
    if block.header.height ≠ 0 then
      .failure .rejected "genesis block must start at height 0"
    else if block.header.previousId ≠ Hash.zero then
      .failure .rejected "genesis block must use an empty previous id"
    else .success ""
  else if block.header.height ≠ snapshot.height + 1 then
    .failure .rejected "block height does not extend the active head"
  else if block.header.previousId ≠ snapshot.headId then
    .failure .rejected "block does not link to the active head"
  else .success ""

structure Kernel (BlockState SnapshotState : Type) where
  config : ChainConfig
  blockStore : BlockStore BlockState
  snapshotStore : SnapshotStore SnapshotState
  validator : BlockValidator

structure KernelState (BlockState SnapshotState : Type) where
  blockState : BlockState
  snapshotState : SnapshotState
  snapshot : ChainSnapshot := {}
  pendingTransactions : List Transaction := []

/-- The snapshot after a block has been accepted. -/
def advanceSnapshot (snapshot : ChainSnapshot) (block : Block) :
    ChainSnapshot where
  height := block.header.height
  headId := block.header.id
  blockCount := snapshot.blockCount + 1
  acceptedTransactions :=
    snapshot.acceptedTransactions + UInt64.ofNat block.transactions.length
  bootstrapped := true

/-- The pending transactions that a block does not contain. -/
def eraseCommitted (pending : List Transaction) (block : Block) :
    List Transaction :=
  pending.filter fun waiting =>
    !block.transactions.any fun committed => committed.id == waiting.id

/-- The block that pending transactions make up. -/
def pendingBlock (snapshot : ChainSnapshot) (pending : List Transaction)
    (source : ByteString) (now : Int64) : Block :=
  Block.makeNext snapshot.headId
    (if snapshot.bootstrapped then snapshot.height + 1 else 0)
    pending source now

/-- The block that bootstrapping commits to an empty chain. -/
def genesisBlock (config : ChainConfig) (now : Int64) : Block :=
  Block.makeNext Hash.zero 0
    [Transaction.fromText (ascii "genesis") config.genesisPayload
      config.displayName]
    (ascii "genesis") now

namespace Kernel

variable {BlockState SnapshotState : Type}
variable (kernel : Kernel BlockState SnapshotState)

/-- Build a kernel, with the default validator if none is given. -/
def make (config : ChainConfig) (blockStore : BlockStore BlockState)
    (snapshotStore : SnapshotStore SnapshotState)
    (validator : Option BlockValidator) : Kernel BlockState SnapshotState where
  config := config
  blockStore := blockStore
  snapshotStore := snapshotStore
  validator := validator.getD basicBlockValidator

def commitBlock (block : Block) (state : KernelState BlockState SnapshotState) :
    Status × KernelState BlockState SnapshotState :=
  let validated := kernel.validator block state.snapshot
  if !validated.isOk then (validated, state)
  else
    let (stored, blockState) := kernel.blockStore.putBlock block state.blockState
    if !stored.isOk then (stored, { state with blockState := blockState })
    else
      let snapshot := advanceSnapshot state.snapshot block
      let pending := eraseCommitted state.pendingTransactions block
      let (saved, snapshotState) :=
        kernel.snapshotStore.save snapshot state.snapshotState
      (if !saved.isOk then saved else .success "",
        { blockState := blockState
          snapshotState := snapshotState
          snapshot := snapshot
          pendingTransactions := pending })

def submitTransaction (transaction : Transaction)
    (state : KernelState BlockState SnapshotState) :
    Status × KernelState BlockState SnapshotState :=
  if transaction.type = [] then
    (.failure .invalidArgument "transaction type is required", state)
  else if transaction.payload = [] then
    (.failure .invalidArgument "transaction payload is required", state)
  else if state.pendingTransactions.any fun pending =>
      pending.id == transaction.id then
    (.failure .duplicate "transaction already pending", state)
  else
    (.success "", { state with
      pendingTransactions := state.pendingTransactions ++ [transaction] })

def commitPending (source : ByteString) (now : Int64)
    (state : KernelState BlockState SnapshotState) :
    Status × KernelState BlockState SnapshotState :=
  if state.pendingTransactions = [] then
    (.failure .rejected "no pending transactions to commit", state)
  else
    kernel.commitBlock
      (pendingBlock state.snapshot state.pendingTransactions source now) state

def bootstrap (now : Int64) (state : KernelState BlockState SnapshotState) :
    Except Fault Status × KernelState BlockState SnapshotState :=
  match kernel.snapshotStore.load state.snapshotState with
  | .error fault => (.error fault, state)
  | .ok (some snapshot) =>
      (.ok (.success "loaded existing chain snapshot"),
        { state with snapshot := snapshot })
  | .ok none =>
      if !kernel.config.createGenesis then
        (.ok (.success "bootstrap skipped without genesis creation"), state)
      else
        let (status, state) := kernel.commitBlock (genesisBlock kernel.config now) state
        (.ok status, state)

def head (state : KernelState BlockState SnapshotState) :
    Except Fault (Option Block) :=
  if !state.snapshot.bootstrapped then .ok none
  else kernel.blockStore.getBlock state.snapshot.headId state.blockState

def chain (state : KernelState BlockState SnapshotState) :
    Except Fault (List Block) :=
  kernel.blockStore.getChain state.blockState

end Kernel

/-- A call to the kernel, with the clock reading that the call takes. -/
inductive KernelCall
  | bootstrap (now : Int64)
  | submitTransaction (transaction : Transaction)
  | commitBlock (block : Block)
  | commitPending (source : ByteString) (now : Int64)

namespace Kernel

variable {BlockState SnapshotState : Type}
variable (kernel : Kernel BlockState SnapshotState)

/-- The result of a call and the state it leaves. -/
def call (input : KernelCall) (state : KernelState BlockState SnapshotState) :
    Except Fault Status × KernelState BlockState SnapshotState :=
  match input with
  | .bootstrap now => kernel.bootstrap now state
  | .submitTransaction transaction =>
      (.ok (submitTransaction transaction state).1,
        (submitTransaction transaction state).2)
  | .commitBlock block =>
      (.ok (kernel.commitBlock block state).1, (kernel.commitBlock block state).2)
  | .commitPending source now =>
      (.ok (kernel.commitPending source now state).1,
        (kernel.commitPending source now state).2)

def step (input : KernelCall) (state : KernelState BlockState SnapshotState) :
    KernelState BlockState SnapshotState :=
  (kernel.call input state).2

/-- The state after a sequence of calls. -/
def runCalls (calls : List KernelCall)
    (state : KernelState BlockState SnapshotState) :
    KernelState BlockState SnapshotState :=
  StepMachine.run kernel.step calls state

/-- The block that a call hands to the validator, if the call gets that far. -/
def proposal (input : KernelCall)
    (state : KernelState BlockState SnapshotState) : Option Block :=
  match input with
  | .bootstrap now =>
      match kernel.snapshotStore.load state.snapshotState with
      | .ok none =>
          if kernel.config.createGenesis then some (genesisBlock kernel.config now)
          else none
      | _ => none
  | .submitTransaction _ => none
  | .commitBlock block => some block
  | .commitPending source now =>
      if state.pendingTransactions = [] then none
      else some
        (pendingBlock state.snapshot state.pendingTransactions source now)

/-- A commit is turned down by the validator, or by the block store, or it
takes effect, whatever the snapshot store answers. -/
theorem commitBlock_cases (block : Block)
    (state : KernelState BlockState SnapshotState) :
    ((kernel.validator block state.snapshot).isOk = false ∧
      kernel.commitBlock block state =
        (kernel.validator block state.snapshot, state)) ∨
    ((kernel.validator block state.snapshot).isOk = true ∧
      (kernel.blockStore.putBlock block state.blockState).1.isOk = false ∧
      kernel.commitBlock block state =
        ((kernel.blockStore.putBlock block state.blockState).1,
          { state with
            blockState :=
              (kernel.blockStore.putBlock block state.blockState).2 })) ∨
    ((kernel.validator block state.snapshot).isOk = true ∧
      (kernel.blockStore.putBlock block state.blockState).1.isOk = true ∧
      kernel.commitBlock block state =
        (if !(kernel.snapshotStore.save (advanceSnapshot state.snapshot block)
              state.snapshotState).1.isOk then
            (kernel.snapshotStore.save (advanceSnapshot state.snapshot block)
              state.snapshotState).1
          else .success "",
          { blockState :=
              (kernel.blockStore.putBlock block state.blockState).2
            snapshotState :=
              (kernel.snapshotStore.save (advanceSnapshot state.snapshot block)
                state.snapshotState).2
            snapshot := advanceSnapshot state.snapshot block
            pendingTransactions :=
              eraseCommitted state.pendingTransactions block })) := by
  cases validated : (kernel.validator block state.snapshot).isOk with
  | false =>
      left
      simp [commitBlock, validated]
  | true =>
      right
      cases stored :
          (kernel.blockStore.putBlock block state.blockState).1.isOk with
      | false =>
          left
          simp [commitBlock, validated, stored]
      | true =>
          right
          simp [commitBlock, validated, stored]

/-- Whether a transaction already waits is a matter of its identifier. -/
theorem any_pending_iff (pending : List Transaction) (transaction : Transaction) :
    (pending.any fun waiting => waiting.id == transaction.id) = true ↔
      transaction.id ∈ pending.map fun waiting => waiting.id := by
  rw [List.any_eq_true, List.mem_map]
  simp only [beq_iff_eq]

/-- A submission is turned down, or appends a transaction whose identifier is
not pending. -/
theorem submitTransaction_cases (transaction : Transaction)
    (state : KernelState BlockState SnapshotState) :
    ((transaction.type = [] ∨ transaction.payload = [] ∨
        transaction.id ∈ state.pendingTransactions.map fun waiting =>
          waiting.id) ∧
      (submitTransaction transaction state).1.isOk = false ∧
      (submitTransaction transaction state).2 = state) ∨
    (transaction.type ≠ [] ∧ transaction.payload ≠ [] ∧
      (transaction.id ∉ state.pendingTransactions.map fun waiting =>
        waiting.id) ∧
      submitTransaction transaction state =
        (.success "", { state with
          pendingTransactions :=
            state.pendingTransactions ++ [transaction] })) := by
  by_cases noType : transaction.type = []
  · left
    simp [submitTransaction, noType]
  by_cases noPayload : transaction.payload = []
  · left
    simp [submitTransaction, noType, noPayload]
  have waits := any_pending_iff state.pendingTransactions transaction
  by_cases duplicate : state.pendingTransactions.any (fun pending =>
      pending.id == transaction.id) = true
  · left
    refine ⟨Or.inr (Or.inr (waits.mp duplicate)), ?_⟩
    simp only [submitTransaction, noType, noPayload, duplicate, if_true,
      if_false]
    simp
  · right
    refine ⟨noType, noPayload, fun member => duplicate (waits.mpr member), ?_⟩
    simp [submitTransaction, noType, noPayload, duplicate]

/-- The state after a call is the state after committing the proposed block,
if there is one; otherwise only the snapshot or the pending list can change. -/
theorem step_of_proposal {input : KernelCall}
    {state : KernelState BlockState SnapshotState} {block : Block}
    (proposed : kernel.proposal input state = some block) :
    kernel.call input state =
      (.ok (kernel.commitBlock block state).1,
        (kernel.commitBlock block state).2) := by
  cases input with
  | bootstrap now =>
      simp only [proposal] at proposed
      simp only [call, bootstrap]
      split at proposed
      · rename_i loaded
        rw [loaded]
        split at proposed
        · rename_i creates
          cases proposed
          simp [creates]
        · cases proposed
      · cases proposed
  | submitTransaction transaction => cases proposed
  | commitBlock other =>
      cases proposed
      rfl
  | commitPending source now =>
      simp only [proposal] at proposed
      split at proposed
      · cases proposed
      · rename_i nonempty
        cases proposed
        simp [call, commitPending, nonempty]

end Kernel

end Chain

end Blocxxi
