import Blocxxi.HeaderSync
import Blocxxi.KernelAtomicity

/-!
# Batches of headers

A batch becomes one block for each header.  The blocks are determined by the
batch and the state it starts from, so the batch goes through exactly when the
validator and the stores accept these blocks one after the other.  Nothing is
undone when they stop accepting in the middle.
-/

namespace Blocxxi

namespace Bitcoin

open Blocxxi.Core Cxx Chain

variable {BlockState SnapshotState : Type}

/-- The store, with the blocks it has accepted in order. -/
def recording (store : BlockStore BlockState) :
    BlockStore (BlockState × List Block) where
  putBlock := fun block state =>
    let put := store.putBlock block state.1
    (put.1, (put.2, if put.1.isOk then state.2 ++ [block] else state.2))
  getBlock := fun id state => store.getBlock id state.1
  getChain := fun state => store.getChain state.1

/-- The kernel over the recording store. -/
def recorded (kernel : Kernel BlockState SnapshotState) :
    Kernel (BlockState × List Block) SnapshotState where
  config := kernel.config
  blockStore := recording kernel.blockStore
  snapshotStore := kernel.snapshotStore
  validator := kernel.validator

/-- The block of every header, when the first block also takes the
transactions that wait. -/
def headerBlocks (options : Options) (clock : Nat → Int64) :
    Nat → List Header → ChainSnapshot → List Transaction → List Block
  | _, [], _, _ => []
  | index, header :: headers, snapshot, pending =>
      let block := pendingBlock snapshot
        (pending ++ [headerTransaction options header]) (headerSource options)
          (clock index)
      block :: headerBlocks options clock (index + 1) headers
        (advanceSnapshot snapshot block) []

theorem eraseCommitted_self {block : Block} {pending : List Transaction}
    (taken : block.transactions = pending) :
    eraseCommitted pending block = [] := by
  unfold eraseCommitted
  rw [List.filter_eq_nil_iff]
  intro waiting member
  rw [taken]
  simpa using ⟨waiting, member, rfl⟩

/-- The stores and the validator accept one block. -/
def AcceptsBlock (kernel : Kernel BlockState SnapshotState) (block : Block)
    (state : KernelState BlockState SnapshotState) : Prop :=
  (kernel.validator block state.snapshot).isOk = true ∧
    (kernel.blockStore.putBlock block state.blockState).1.isOk = true ∧
    (kernel.snapshotStore.save (advanceSnapshot state.snapshot block)
      state.snapshotState).1.isOk = true

/-- The kernel state after an accepted block took every waiting transaction. -/
def acceptedState (kernel : Kernel BlockState SnapshotState) (block : Block)
    (state : KernelState BlockState SnapshotState) :
    KernelState BlockState SnapshotState where
  blockState := (kernel.blockStore.putBlock block state.blockState).2
  snapshotState := (kernel.snapshotStore.save
    (advanceSnapshot state.snapshot block) state.snapshotState).2
  snapshot := advanceSnapshot state.snapshot block
  pendingTransactions := []

/-- The validator and the stores accept the blocks one after the other, as far
as no lookup of a committed block throws. -/
def AcceptsAll (kernel : Kernel BlockState SnapshotState) :
    List Block → KernelState BlockState SnapshotState → Prop
  | [], _ => True
  | block :: blocks, state =>
      AcceptsBlock kernel block state ∧
        ∀ found, kernel.head (acceptedState kernel block state) = .ok found →
          AcceptsAll kernel blocks (acceptedState kernel block state)

theorem commitBlock_accepted (kernel : Kernel BlockState SnapshotState)
    {block : Block} {state : KernelState BlockState SnapshotState}
    (accepts : AcceptsBlock kernel block state)
    (taken : block.transactions = state.pendingTransactions) :
    kernel.commitBlock block state =
      (.success "", acceptedState kernel block state) := by
  obtain ⟨validated, stored, saved⟩ := accepts
  rcases kernel.commitBlock_cases block state with
    ⟨refused, -⟩ | ⟨-, failed, -⟩ | ⟨-, -, result⟩
  · rw [validated] at refused
    cases refused
  · rw [stored] at failed
    cases failed
  · rw [result, saved, eraseCommitted_self taken]
    rfl

/-- A block that is not accepted makes the commit fail; then the snapshot has
advanced, or the pending transactions still wait. -/
theorem commitBlock_refused_count (kernel : Kernel BlockState SnapshotState)
    {block : Block} {state : KernelState BlockState SnapshotState}
    (refuses : ¬ AcceptsBlock kernel block state) :
    (kernel.commitBlock block state).1.isOk = false ∧
      ((kernel.commitBlock block state).2.snapshot.blockCount =
          state.snapshot.blockCount + 1 ∨
        ((kernel.commitBlock block state).2.snapshot = state.snapshot ∧
          (kernel.commitBlock block state).2.pendingTransactions =
            state.pendingTransactions)) := by
  rcases kernel.commitBlock_cases block state with
    ⟨refused, result⟩ | ⟨-, failed, result⟩ | ⟨validated, stored, result⟩
  · rw [result]
    exact ⟨refused, Or.inr ⟨rfl, rfl⟩⟩
  · rw [result]
    exact ⟨failed, Or.inr ⟨rfl, rfl⟩⟩
  · have notSaved : (kernel.snapshotStore.save
        (advanceSnapshot state.snapshot block) state.snapshotState).1.isOk =
          false := by
      rw [← Bool.not_eq_true]
      exact fun saved => refuses ⟨validated, stored, saved⟩
    rw [result, notSaved]
    exact ⟨notSaved, Or.inl rfl⟩

/-- The transaction of a header does not wait in the node. -/
def HeaderIsNew (options : Options) (header : Header)
    (node : Node.NodeState BlockState SnapshotState) : Prop :=
  (headerTransaction options header).id ∉
    node.kernelState.pendingTransactions.map fun waiting => waiting.id

/-- The block that a header becomes. -/
def headerBlock (options : Options) (now : Int64) (header : Header)
    (node : Node.NodeState BlockState SnapshotState) : Block :=
  pendingBlock node.kernelState.snapshot
    (node.kernelState.pendingTransactions ++ [headerTransaction options header])
      (headerSource options) now

/-- The kernel state once the transaction of a header waits. -/
def withHeader (options : Options) (header : Header)
    (node : Node.NodeState BlockState SnapshotState) :
    KernelState BlockState SnapshotState :=
  { node.kernelState with
    pendingTransactions := node.kernelState.pendingTransactions ++
      [headerTransaction options header] }

theorem headerTransaction_complete (options : Options) (header : Header) :
    (headerTransaction options header).type ≠ [] ∧
      (headerTransaction options header).payload ≠ [] := by
  have height : ascii "height=" ≠ [] := by decide
  refine ⟨by simp only [headerTransaction, Transaction.fromText]; decide, ?_⟩
  simp [headerTransaction, Transaction.fromText, headerPayload, height]

/-- Submitting the transaction of a new header and committing it is committing
the header's block. -/
theorem commit_header (kernel : Kernel BlockState SnapshotState)
    (options : Options) (now : Int64) (header : Header)
    {node : Node.NodeState BlockState SnapshotState}
    (running : node.running = true) (new : HeaderIsNew options header node) :
    (Node.submitTransaction (headerTransaction options header) node).1.isOk =
        true ∧
      (Node.submitTransaction (headerTransaction options header) node).2.running =
        true ∧
      kernel.commitPending (headerSource options) now
          (Node.submitTransaction (headerTransaction options header)
            node).2.kernelState =
        kernel.commitBlock (headerBlock options now header node)
          (withHeader options header node) := by
  obtain ⟨typed, carries⟩ := headerTransaction_complete options header
  obtain ⟨accepted, stillRunning, waits⟩ :=
    Node.submitTransaction_accepted running typed carries new
  refine ⟨accepted, stillRunning, ?_⟩
  rw [waits]
  simp [Kernel.commitPending, headerBlock, withHeader]

/-- An accepted header is passed over, unless the lookup of its block
throws. -/
theorem importHeaders_cons_accepted (kernel : Kernel BlockState SnapshotState)
    (options : Options) (clock : Nat → Int64) (header : Header)
    (headers : List Header) (imported : List UInt32)
    {node : Node.NodeState BlockState SnapshotState}
    (running : node.running = true) (new : HeaderIsNew options header node)
    (accepts : AcceptsBlock kernel
      (headerBlock options (clock imported.length) header node)
      node.kernelState) :
    let after := acceptedState kernel
      (headerBlock options (clock imported.length) header node) node.kernelState
    (∃ fault, kernel.head after = .error fault ∧
      (importHeaders kernel options clock (header :: headers) imported node).1 =
        .error fault) ∨
    (∃ found next, kernel.head after = .ok found ∧ next.running = true ∧
      next.kernelState = after ∧
      importHeaders kernel options clock (header :: headers) imported node =
        importHeaders kernel options clock headers (imported ++ [header.height])
          next) := by
  intro after
  obtain ⟨submitted, stillRunning, commits⟩ :=
    commit_header kernel options (clock imported.length) header running new
  have accepted : kernel.commitBlock
      (headerBlock options (clock imported.length) header node)
        (withHeader options header node) = (.success "", after) :=
    commitBlock_accepted kernel accepts rfl
  rw [accepted] at commits
  obtain ⟨runningAfter, stateAfter, -, success⟩ := Node.commitPending_running
    kernel (headerSource options) (clock imported.length) stillRunning
  rw [commits] at stateAfter success
  have result := success rfl
  cases found : kernel.head after with
  | error fault =>
      left
      rw [found] at result
      refine ⟨fault, rfl, ?_⟩
      simp [importHeaders, submitted, result, Except.map]
  | ok head =>
      right
      rw [found] at result
      refine ⟨head, _, rfl, runningAfter, stateAfter, ?_⟩
      simp [importHeaders, submitted, result, Except.map]

/-- A refused header stops the import; then the snapshot has advanced, or the
header's transaction still waits. -/
theorem importHeaders_cons_refused (kernel : Kernel BlockState SnapshotState)
    (options : Options) (clock : Nat → Int64) (header : Header)
    (headers : List Header) (imported : List UInt32)
    {node : Node.NodeState BlockState SnapshotState}
    (running : node.running = true) (new : HeaderIsNew options header node)
    (refuses : ¬ AcceptsBlock kernel
      (headerBlock options (clock imported.length) header node)
      node.kernelState) :
    ∃ status next,
      importHeaders kernel options clock (header :: headers) imported node =
        (.ok (status, imported), next) ∧ status.isOk = false ∧
      (next.kernelState.snapshot.blockCount =
          node.kernelState.snapshot.blockCount + 1 ∨
        (next.kernelState.snapshot = node.kernelState.snapshot ∧
          next.kernelState.pendingTransactions =
            node.kernelState.pendingTransactions ++
              [headerTransaction options header])) := by
  obtain ⟨submitted, stillRunning, commits⟩ :=
    commit_header kernel options (clock imported.length) header running new
  have refused : ¬ AcceptsBlock kernel
      (headerBlock options (clock imported.length) header node)
        (withHeader options header node) := refuses
  obtain ⟨failed, changed⟩ := commitBlock_refused_count kernel refused
  rw [← commits] at failed changed
  obtain ⟨-, stateAfter, failure, -⟩ := Node.commitPending_running
    kernel (headerSource options) (clock imported.length) stillRunning
  have result := failure failed
  rw [← stateAfter] at changed
  refine ⟨_, _, ?_, failed, changed⟩
  simp [importHeaders, submitted, result, failed]

/-- No transaction waits after the first header, so every later header is
new. -/
theorem headerIsNew_of_none_waits (options : Options) (header : Header)
    {node : Node.NodeState BlockState SnapshotState}
    (none : node.kernelState.pendingTransactions = []) :
    HeaderIsNew options header node := by
  simp [HeaderIsNew, none]

/-- The first header of a batch, if there is one, is new. -/
def FirstIsNew (options : Options) (headers : List Header)
    (node : Node.NodeState BlockState SnapshotState) : Prop :=
  ∀ first ∈ headers.head?, HeaderIsNew options first node

theorem firstIsNew_of_accepted (kernel : Kernel BlockState SnapshotState)
    (options : Options) (headers : List Header) {block : Block}
    {node next : Node.NodeState BlockState SnapshotState}
    (nextState : next.kernelState = acceptedState kernel block node.kernelState) :
    FirstIsNew options headers next := by
  have noneWaits : next.kernelState.pendingTransactions = [] := by
    rw [nextState]
    rfl
  exact fun first _ => headerIsNew_of_none_waits options first noneWaits

/-- When every block is accepted, every header is imported, unless a lookup
throws. -/
theorem importHeaders_accepted (kernel : Kernel BlockState SnapshotState)
    (options : Options) (clock : Nat → Int64) (headers : List Header)
    (imported : List UInt32) {node : Node.NodeState BlockState SnapshotState}
    (running : node.running = true) (new : FirstIsNew options headers node)
    (accepts : AcceptsAll kernel
      (headerBlocks options clock imported.length headers
        node.kernelState.snapshot node.kernelState.pendingTransactions)
      node.kernelState) :
    (∃ fault,
      (importHeaders kernel options clock headers imported node).1 =
        .error fault) ∨
    ∃ heights,
      (importHeaders kernel options clock headers imported node).1 =
        .ok (.success "", heights) := by
  induction headers generalizing imported node with
  | nil => exact Or.inr ⟨imported, rfl⟩
  | cons header headers ih =>
      obtain ⟨acceptsBlock, acceptsRest⟩ := accepts
      rcases importHeaders_cons_accepted kernel options clock header headers
          imported running (new header rfl) acceptsBlock with
        ⟨fault, -, thrown⟩ | ⟨found, next, isFound, nextRuns, nextState, passed⟩
      · exact Or.inl ⟨fault, thrown⟩
      · rw [passed]
        apply ih (imported ++ [header.height]) nextRuns
        · exact firstIsNew_of_accepted kernel options headers nextState
        · have rest := acceptsRest found isFound
          rw [nextState, List.length_append]
          exact rest

/-- A failed import: some of the headers are in blocks of their own, and when none is,
the first header's transaction waits. -/
structure FailedImport (headers : List Header)
    (node next : Node.NodeState BlockState SnapshotState) (status : Status)
    (commits : Nat) : Prop where
  failed : status.isOk = false
  within : commits ≤ headers.length
  count : next.kernelState.snapshot.blockCount =
    node.kernelState.snapshot.blockCount + UInt64.ofNat commits
  waits : commits = 0 → next.kernelState.pendingTransactions.length =
    node.kernelState.pendingTransactions.length + 1

theorem FailedImport.cons {headers : List Header} {status : Status} {commits : Nat}
    {node next last : Node.NodeState BlockState SnapshotState}
    (failed : FailedImport headers next last status commits) (header : Header)
    (advanced : next.kernelState.snapshot.blockCount =
      node.kernelState.snapshot.blockCount + 1) :
    FailedImport (header :: headers) node last status (commits + 1) where
  failed := failed.failed
  within := Nat.succ_le_succ failed.within
  count := by
    rw [failed.count, advanced, UInt64.ofNat_add, UInt64.ofNat_one]
    ac_rfl
  waits zero := absurd zero (Nat.succ_ne_zero _)

theorem importHeaders_fails (kernel : Kernel BlockState SnapshotState)
    (options : Options) (clock : Nat → Int64) (header : Header)
    (headers : List Header) (imported : List UInt32)
    {node : Node.NodeState BlockState SnapshotState}
    (running : node.running = true) (new : HeaderIsNew options header node)
    (refuses : ¬ AcceptsBlock kernel
      (headerBlock options (clock imported.length) header node)
      node.kernelState) :
    ∃ status next commits,
      importHeaders kernel options clock (header :: headers) imported node =
        (.ok (status, imported), next) ∧
      FailedImport (header :: headers) node next status commits := by
  obtain ⟨status, next, stops, failed, advanced | ⟨sameSnapshot, waits⟩⟩ :=
    importHeaders_cons_refused kernel options clock header headers imported
      running new refuses
  · refine ⟨status, next, 1, stops, failed, by simp, ?_, fun one => by cases one⟩
    rw [advanced, UInt64.ofNat_one]
  · refine ⟨status, next, 0, stops, failed, by simp, ?_, fun _ => ?_⟩
    · rw [sameSnapshot]
      simp
    · rw [waits]
      simp

/-- When some block is refused, the import fails, and either some blocks were
committed or the first transaction still waits. -/
theorem importHeaders_refused (kernel : Kernel BlockState SnapshotState)
    (options : Options) (clock : Nat → Int64) (headers : List Header)
    (imported : List UInt32) {node : Node.NodeState BlockState SnapshotState}
    (running : node.running = true) (new : FirstIsNew options headers node)
    (refuses : ¬ AcceptsAll kernel
      (headerBlocks options clock imported.length headers
        node.kernelState.snapshot node.kernelState.pendingTransactions)
      node.kernelState) :
    ∃ status heights next commits,
      importHeaders kernel options clock headers imported node =
        (.ok (status, heights), next) ∧
      FailedImport headers node next status commits := by
  induction headers generalizing imported node with
  | nil => exact (refuses trivial).elim
  | cons header headers ih =>
      have isNew := new header rfl
      by_cases acceptsBlock : AcceptsBlock kernel
          (headerBlock options (clock imported.length) header node)
          node.kernelState
      · have refusesRest : ¬ ∀ found, kernel.head (acceptedState kernel
            (headerBlock options (clock imported.length) header node)
              node.kernelState) = .ok found → _ :=
          fun acceptsRest => refuses ⟨acceptsBlock, acceptsRest⟩
        rcases importHeaders_cons_accepted kernel options clock header headers
            imported running isNew acceptsBlock with
          ⟨fault, thrown, -⟩ |
            ⟨found, next, isFound, nextRuns, nextState, passed⟩
        · exfalso
          apply refusesRest
          intro found isFound
          rw [thrown] at isFound
          cases isFound
        · have refusesNext : ¬ AcceptsAll kernel
              (headerBlocks options clock (imported ++ [header.height]).length
                headers next.kernelState.snapshot
                next.kernelState.pendingTransactions) next.kernelState := by
            rw [nextState, List.length_append]
            exact fun accepts => refusesRest fun _ _ => accepts
          have advanced : next.kernelState.snapshot.blockCount =
              node.kernelState.snapshot.blockCount + 1 := by
            rw [nextState]
            rfl
          obtain ⟨status, heights, last, commits, stops, failed⟩ :=
            ih (imported ++ [header.height]) nextRuns
              (firstIsNew_of_accepted kernel options headers nextState) refusesNext
          exact ⟨status, heights, last, commits + 1, passed.trans stops,
            failed.cons header advanced⟩
      · obtain ⟨status, next, commits, stops, failed⟩ :=
          importHeaders_fails kernel options clock header headers imported
            running isNew acceptsBlock
        exact ⟨status, imported, next, commits, stops, failed⟩

/-- A successful import makes one block for every header, in order. -/
theorem importHeaders_records (kernel : Kernel BlockState SnapshotState)
    (options : Options) (clock : Nat → Int64) (headers : List Header)
    (imported : List UInt32)
    {node : Node.NodeState (BlockState × List Block) SnapshotState}
    (running : node.running = true) (new : FirstIsNew options headers node)
    {status : Status} {heights : List UInt32}
    (returned : (importHeaders (recorded kernel) options clock headers imported
      node).1 = .ok (status, heights)) (succeeded : status.isOk = true) :
    ∃ blocks,
      (importHeaders (recorded kernel) options clock headers imported
          node).2.kernelState.blockState.2 =
        node.kernelState.blockState.2 ++ blocks ∧
      List.Forall₂ (fun header block =>
        headerTransaction options header ∈ block.transactions) headers blocks := by
  induction headers generalizing imported node with
  | nil => exact ⟨[], by simp [importHeaders], List.Forall₂.nil⟩
  | cons header headers ih =>
      have isNew := new header rfl
      by_cases acceptsBlock : AcceptsBlock (recorded kernel)
          (headerBlock options (clock imported.length) header node)
          node.kernelState
      · rcases importHeaders_cons_accepted (recorded kernel) options clock header
            headers imported running isNew acceptsBlock with
          ⟨fault, -, thrown⟩ | ⟨found, next, -, nextRuns, nextState, passed⟩
        · rw [thrown] at returned
          cases returned
        · have logged : next.kernelState.blockState.2 =
              node.kernelState.blockState.2 ++
                [headerBlock options (clock imported.length) header node] := by
            rw [nextState]
            exact if_pos acceptsBlock.2.1
          rw [passed] at returned ⊢
          obtain ⟨blocks, records, carried⟩ :=
            ih (imported ++ [header.height]) nextRuns
              (firstIsNew_of_accepted (recorded kernel) options headers nextState)
              returned
          refine ⟨headerBlock options (clock imported.length) header node ::
            blocks, ?_, ?_⟩
          · rw [records, logged]
            simp
          · apply List.Forall₂.cons _ carried
            simp [headerBlock, pendingBlock, Block.makeNext]
      · obtain ⟨failedStatus, next, stops, failed, -⟩ :=
          importHeaders_cons_refused (recorded kernel) options clock header
            headers imported running isNew acceptsBlock
        rw [stops] at returned
        cases returned
        rw [failed] at succeeded
        cases succeeded

/-- A batch that fails leaves the chain, the snapshot, the pending transactions
and the adapter as they were; a batch that succeeds commits exactly one block
for each header, in order. -/
def ImportsAtomically (kernel : Kernel BlockState SnapshotState)
    (clock : Nat → Int64) (headers : Span Header) (adapter : HeaderSyncAdapter)
    (node : Node.NodeState (BlockState × List Block) SnapshotState) : Prop :=
  let outcome := HeaderSyncAdapter.submitHeaders (recorded kernel) clock headers
    adapter node
  ∀ status, outcome.1 = .ok status →
    (status.isOk = false →
      (recorded kernel).chain outcome.2.2.kernelState =
          (recorded kernel).chain node.kernelState ∧
        outcome.2.2.kernelState.snapshot = node.kernelState.snapshot ∧
        outcome.2.2.kernelState.pendingTransactions =
          node.kernelState.pendingTransactions ∧
        outcome.2.1.importedHeights = adapter.importedHeights ∧
        outcome.2.1.lastHeader = adapter.lastHeader) ∧
    (status.isOk = true → ∃ blocks,
      outcome.2.2.kernelState.blockState.2 =
          node.kernelState.blockState.2 ++ blocks ∧
        List.Forall₂ (fun header block =>
          headerTransaction adapter.options header ∈ block.transactions)
          headers.items blocks)

/-- The batch is turned down before its first transaction is accepted. -/
def DeclinesBatch (headers : Span Header) (adapter : HeaderSyncAdapter)
    (node : Node.NodeState BlockState SnapshotState) : Prop :=
  adapter.bound = false ∨ headers.items = [] ∨
    (validateHeaders adapter.lastHeader headers.items).isOk = false ∨
    node.running = false ∨ ¬ FirstIsNew adapter.options headers.items node

/-- Without an accepted transaction nothing is imported. -/
theorem importHeaders_declined (kernel : Kernel BlockState SnapshotState)
    (options : Options) (clock : Nat → Int64) (headers : List Header)
    (node : Node.NodeState BlockState SnapshotState)
    (nonempty : headers ≠ [])
    (declines : node.running = false ∨ ¬ FirstIsNew options headers node) :
    ∃ status next,
      importHeaders kernel options clock headers [] node =
        (.ok (status, []), next) ∧ status.isOk = false ∧
          next.kernelState = node.kernelState := by
  obtain ⟨header, rest, rfl⟩ := List.exists_cons_of_ne_nil nonempty
  have turnedDown :
      (Node.submitTransaction (headerTransaction options header) node).1.isOk =
          false ∧
        (Node.submitTransaction (headerTransaction options header)
          node).2.kernelState = node.kernelState := by
    rcases declines with stopped | notNew
    · simp [Node.submitTransaction, stopped]
    · apply Node.submitTransaction_waiting
      by_contra new
      apply notNew
      rintro first ⟨⟩
      exact new
  refine ⟨_, _, ?_, turnedDown.1, turnedDown.2⟩
  simp [importHeaders, turnedDown.1]

theorem submitHeaders_declined (kernel : Kernel BlockState SnapshotState)
    (clock : Nat → Int64) (headers : Span Header) (adapter : HeaderSyncAdapter)
    (node : Node.NodeState BlockState SnapshotState)
    (declines : DeclinesBatch headers adapter node) :
    ∃ status next,
      HeaderSyncAdapter.submitHeaders kernel clock headers adapter node =
        (.ok status, adapter, next) ∧ status.isOk = false ∧
          next.kernelState = node.kernelState := by
  by_cases unbound : adapter.bound = false
  · exact ⟨_, node, if_pos (by simp [unbound]), rfl, rfl⟩
  by_cases empty : headers.items = []
  · refine ⟨.failure .invalidArgument "at least one header is required", node,
      ?_, rfl, rfl⟩
    simp [HeaderSyncAdapter.submitHeaders, unbound, empty]
  by_cases invalid :
      (validateHeaders adapter.lastHeader headers.items).isOk = false
  · refine ⟨_, node, ?_, invalid, rfl⟩
    simp [HeaderSyncAdapter.submitHeaders, unbound, empty, invalid]
  have declinesFirst : node.running = false ∨
      ¬ FirstIsNew adapter.options headers.items node := by
    simpa [DeclinesBatch, unbound, empty, invalid] using declines
  obtain ⟨status, next, stops, failed, unchanged⟩ := importHeaders_declined
    kernel adapter.options clock headers.items node empty declinesFirst
  refine ⟨status, next, ?_, failed, unchanged⟩
  simp [HeaderSyncAdapter.submitHeaders, unbound, empty, invalid, stops, failed]

/-- A batch that is not turned down goes through the import. -/
theorem submitHeaders_imports (kernel : Kernel BlockState SnapshotState)
    (clock : Nat → Int64) {headers : Span Header} {adapter : HeaderSyncAdapter}
    {node : Node.NodeState BlockState SnapshotState}
    (goesOn : ¬ DeclinesBatch headers adapter node) :
    node.running = true ∧ FirstIsNew adapter.options headers.items node ∧
      (∀ {fault next},
        importHeaders kernel adapter.options clock headers.items [] node =
            (.error fault, next) →
          HeaderSyncAdapter.submitHeaders kernel clock headers adapter node =
            (.error fault, adapter, next)) ∧
      (∀ {status heights next},
        importHeaders kernel adapter.options clock headers.items [] node =
            (.ok (status, heights), next) → status.isOk = false →
          HeaderSyncAdapter.submitHeaders kernel clock headers adapter node =
            (.ok status, adapter, next)) ∧
      (∀ {status heights next},
        importHeaders kernel adapter.options clock headers.items [] node =
            (.ok (status, heights), next) → status.isOk = true →
          ∃ imported,
            HeaderSyncAdapter.submitHeaders kernel clock headers adapter node =
              (.ok (.success ""), imported, next)) := by
  unfold DeclinesBatch at goesOn
  push Not at goesOn
  obtain ⟨bound, nonempty, valid, running, new⟩ := goesOn
  simp only [ne_eq, Bool.not_eq_false] at bound valid running
  refine ⟨running, new, ?_, ?_, ?_⟩
  · intro fault next throws
    simp [HeaderSyncAdapter.submitHeaders, bound, nonempty, valid, throws]
  · intro status heights next stops failed
    simp [HeaderSyncAdapter.submitHeaders, bound, nonempty, valid, stops, failed]
  · intro status heights next finishes succeeded
    refine ⟨{ adapter with
      importedHeights := adapter.importedHeights ++ heights
      lastHeader := headers.items.getLast? }, ?_⟩
    simp [HeaderSyncAdapter.submitHeaders, bound, nonempty, valid, finishes,
      succeeded]

/-- A count of commits that fits a batch shows in the block count. -/
theorem blockCount_ne {count : UInt64} {commits : Nat}
    (fits : commits < 2 ^ 63) (some : commits ≠ 0) :
    count + UInt64.ofNat commits ≠ count := by
  intro same
  have values := congrArg UInt64.toNat same
  have bounded := count.toNat_lt
  rw [UInt64.toNat_add, UInt64.toNat_ofNat'] at values
  omega

/-- A batch is imported atomically exactly when it is turned down before its
first transaction is accepted, or the validator and the stores accept all of
its blocks. -/
theorem importsAtomically_iff (kernel : Kernel BlockState SnapshotState)
    (clock : Nat → Int64) (headers : Span Header) (adapter : HeaderSyncAdapter)
    (node : Node.NodeState (BlockState × List Block) SnapshotState) :
    ImportsAtomically kernel clock headers adapter node ↔
      DeclinesBatch headers adapter node ∨
        AcceptsAll (recorded kernel)
          (headerBlocks adapter.options clock 0 headers.items
            node.kernelState.snapshot node.kernelState.pendingTransactions)
          node.kernelState := by
  by_cases declines : DeclinesBatch headers adapter node
  · obtain ⟨status, next, returned, failed, unchanged⟩ :=
      submitHeaders_declined (recorded kernel) clock headers adapter node declines
    simp [ImportsAtomically, returned, failed, unchanged, declines]
  obtain ⟨running, new, throws, stops, finishes⟩ :=
    submitHeaders_imports (recorded kernel) clock declines
  by_cases accepts : AcceptsAll (recorded kernel)
      (headerBlocks adapter.options clock 0 headers.items
        node.kernelState.snapshot node.kernelState.pendingTransactions)
      node.kernelState
  · refine iff_of_true ?_ (Or.inr accepts)
    rcases importHeaders_accepted (recorded kernel) adapter.options clock
        headers.items [] running new accepts with
      ⟨fault, thrown⟩ | ⟨heights, imported⟩
    · have result := throws (Prod.ext thrown rfl)
      simp [ImportsAtomically, result]
    · obtain ⟨blocks, records, carried⟩ := importHeaders_records kernel
        adapter.options clock headers.items [] running new imported rfl
      obtain ⟨adapterAfter, result⟩ := finishes (Prod.ext imported rfl) rfl
      intro status returned
      rw [result] at returned ⊢
      cases returned
      refine ⟨?_, fun _ => ⟨blocks, records, carried⟩⟩
      intro failed
      cases failed
  · refine iff_of_false ?_ (not_or.mpr ⟨declines, accepts⟩)
    obtain ⟨status, heights, next, commits, stopped, failed, within, count, waits⟩ :=
      importHeaders_refused (recorded kernel) adapter.options clock headers.items []
        running new accepts
    intro atomic
    have result := stops stopped failed
    have unchanged := (atomic status (by rw [result])).1 failed
    rw [result] at unchanged
    obtain ⟨-, sameSnapshot, samePending, -⟩ := unchanged
    rcases Nat.eq_zero_or_pos commits with none | some
    · have longer := waits none
      rw [samePending] at longer
      omega
    · have fits : commits < 2 ^ 63 := Nat.lt_of_le_of_lt within headers.length_lt
      apply blockCount_ne fits (Nat.pos_iff_ne_zero.mp some)
      rw [← count, sameSnapshot]

/-- A snapshot store that saves a number of snapshots and no more. -/
def countdownSnapshotStore : SnapshotStore Nat where
  save := fun _ remaining =>
    if remaining = 0 then
      (.failure .ioError "failed to open snapshot file for writing", 0)
    else (.success "", remaining - 1)
  load := fun _ => .ok none

/-- Two linked headers without a proof of work. -/
def linkedHeaders : Span Header where
  items :=
    [{ height := 1, hashHex := ascii "a", previousHashHex := ascii "0" },
      { height := 2, hashHex := ascii "b", previousHashHex := ascii "a" }]
  length_lt := by decide

/-- When the second snapshot cannot be saved, the batch fails and the block of
the first header stays. -/
theorem submitHeaders_not_atomic :
    ¬ ∀ (kernel : Kernel Storage.MemoryBlocks Nat) (clock : Nat → Int64)
        (headers : Span Header) (adapter : HeaderSyncAdapter)
        (node : Node.NodeState (Storage.MemoryBlocks × List Block) Nat),
      ImportsAtomically kernel clock headers adapter node := by
  intro always
  have atomic := always
    (Kernel.make {} Storage.inMemoryBlockStore countdownSnapshotStore none)
    (fun _ => 0) linkedHeaders { bound := true }
    { running := true, kernelState := { blockState := ({}, []), snapshotState := 1 } }
  have unchanged := ((atomic
    (.failure .ioError "failed to open snapshot file for writing")
    (by decide +kernel)).1 rfl).2.1
  revert unchanged
  decide +kernel

end Bitcoin

end Blocxxi
