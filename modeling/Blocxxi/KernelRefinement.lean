import Blocxxi.ChainLedger

/-!
# The kernel refines the ledger

A pair of stores is described by two relations: which chain a block store
holds, and which snapshot a snapshot store loads.  Over stores that keep what
is put into them, every call to a kernel with the default validator does to
the ledger what the ledger machine does, as long as the block store turns down
or is never given a block whose identifier it already holds.
-/

namespace Blocxxi

namespace Chain

open Blocxxi.Core Cxx

variable {BlockState SnapshotState : Type}

/-- The stores keep what is put into them. -/
structure StoresKeep (blockStore : BlockStore BlockState)
    (snapshotStore : SnapshotStore SnapshotState)
    (holds : BlockState → List Block → Prop)
    (loads : SnapshotState → Option ChainSnapshot → Prop) : Prop where
  put_fresh : ∀ {state blocks block}, holds state blocks →
    Fresh blocks block →
      (blockStore.putBlock block state).1 = .success "" ∧
        holds (blockStore.putBlock block state).2 (blocks ++ [block])
  save : ∀ {state} {found} (snapshot : ChainSnapshot), loads state found →
    (snapshotStore.save snapshot state).1 = .success "" ∧
      loads (snapshotStore.save snapshot state).2 (some snapshot)
  load : ∀ {state} {found : Option ChainSnapshot}, loads state found →
    snapshotStore.load state = .ok found

/-- The block store turns down a block whose identifier it already holds. -/
def RejectsRepeated (blockStore : BlockStore BlockState)
    (holds : BlockState → List Block → Prop) : Prop :=
  ∀ {state blocks block}, holds state blocks → ¬ Fresh blocks block →
    (blockStore.putBlock block state).1.isOk = false ∧
      (blockStore.putBlock block state).2 = state

/-- A kernel state stands for a ledger with waiting transactions. -/
structure Represents (holds : BlockState → List Block → Prop)
    (loads : SnapshotState → Option ChainSnapshot → Prop)
    (state : KernelState BlockState SnapshotState) (abstract : LedgerState) :
    Prop where
  holdsBlocks : holds state.blockState abstract.ledger.blocks
  loadsSnapshot : loads state.snapshotState
    (if abstract.ledger.blocks = [] then none
      else some (snapshotOf abstract.ledger.blocks))
  snapshot_eq : state.snapshot = snapshotOf abstract.ledger.blocks
  pending_eq : state.pendingTransactions = abstract.pending

variable (kernel : Kernel BlockState SnapshotState)
variable {holds : BlockState → List Block → Prop}
variable {loads : SnapshotState → Option ChainSnapshot → Prop}

/-- A block that extends the ledger and is new is appended, whatever else
waits. -/
theorem commitBlock_refines_fresh
    (keeps : StoresKeep kernel.blockStore kernel.snapshotStore holds loads)
    (validates : kernel.validator = basicBlockValidator)
    {state : KernelState BlockState SnapshotState} {abstract : LedgerState}
    (represents : Represents holds loads state abstract) {block : Block}
    (extension : Extends abstract.ledger.blocks block)
    (fresh : Fresh abstract.ledger.blocks block) :
    (kernel.commitBlock block state).1 = .success "" ∧
      Represents holds loads (kernel.commitBlock block state).2
        (abstract.commit block) := by
  have accepts : (kernel.validator block state.snapshot).isOk = true := by
    rw [validates, represents.snapshot_eq]
    exact (basicBlockValidator_isOk_iff abstract.ledger.counted block).mpr
      extension
  obtain ⟨stored, holdsAfter⟩ := keeps.put_fresh represents.holdsBlocks fresh
  obtain ⟨saved, loadsAfter⟩ := keeps.save
    (advanceSnapshot state.snapshot block) represents.loadsSnapshot
  obtain ⟨blocksAfter, pendingAfter⟩ :=
    LedgerState.commit_admitted extension fresh
  have storedOk :
      (kernel.blockStore.putBlock block state.blockState).1.isOk = true := by
    rw [stored]
    rfl
  rcases kernel.commitBlock_cases block state with
    ⟨refused, -⟩ | ⟨-, failed, -⟩ | ⟨-, -, result⟩
  · rw [accepts] at refused
    cases refused
  · rw [storedOk] at failed
    cases failed
  · have nonempty : abstract.ledger.blocks ++ [block] ≠ [] := by simp
    have snapshotAfter : advanceSnapshot state.snapshot block =
        snapshotOf (abstract.ledger.blocks ++ [block]) := by
      rw [represents.snapshot_eq, advanceSnapshot_snapshotOf]
    rw [saved, Status.isOk_success] at result
    rw [result]
    refine ⟨rfl, ?_⟩
    constructor
    · rw [blocksAfter]
      exact holdsAfter
    · rw [blocksAfter, if_neg nonempty, ← snapshotAfter]
      exact loadsAfter
    · rw [blocksAfter, snapshotAfter]
    · rw [pendingAfter, ← represents.pending_eq]

/-- A block that does not extend the ledger leaves everything as it was. -/
theorem commitBlock_refused
    (validates : kernel.validator = basicBlockValidator)
    {state : KernelState BlockState SnapshotState} {abstract : LedgerState}
    (represents : Represents holds loads state abstract) {block : Block}
    (refused : ¬ Extends abstract.ledger.blocks block) :
    (kernel.commitBlock block state).1.isOk = false ∧
      (kernel.commitBlock block state).2 = state := by
  have rejects : (kernel.validator block state.snapshot).isOk = false := by
    rw [validates, represents.snapshot_eq, ← Bool.not_eq_true]
    rwa [basicBlockValidator_isOk_iff abstract.ledger.counted block]
  rcases kernel.commitBlock_cases block state with
    ⟨-, result⟩ | ⟨accepts, -⟩ | ⟨accepts, -⟩
  · rw [result]
    exact ⟨rejects, rfl⟩
  · rw [rejects] at accepts
    cases accepts
  · rw [rejects] at accepts
    cases accepts

/-- A store that turns a repeated identifier down leaves everything as it
was. -/
theorem commitBlock_repeated
    (rejects : RejectsRepeated kernel.blockStore holds)
    {state : KernelState BlockState SnapshotState} {abstract : LedgerState}
    (represents : Represents holds loads state abstract) {block : Block}
    (repeated : ¬ Fresh abstract.ledger.blocks block) :
    (kernel.commitBlock block state).1.isOk = false ∧
      (kernel.commitBlock block state).2 = state := by
  obtain ⟨failed, unchanged⟩ := rejects represents.holdsBlocks repeated
  rcases kernel.commitBlock_cases block state with
    ⟨refused, result⟩ | ⟨-, -, result⟩ | ⟨-, stored, -⟩
  · rw [result]
    exact ⟨refused, rfl⟩
  · rw [result, unchanged]
    exact ⟨failed, rfl⟩
  · rw [failed] at stored
    cases stored

/-- The commit of a block is new to the store, or turned down by it. -/
def CommitsNew (blockStore : BlockStore BlockState)
    (holds : BlockState → List Block → Prop) (abstract : LedgerState)
    (block : Block) : Prop :=
  Extends abstract.ledger.blocks block →
    Fresh abstract.ledger.blocks block ∨ RejectsRepeated blockStore holds

theorem commitBlock_refines
    (keeps : StoresKeep kernel.blockStore kernel.snapshotStore holds loads)
    (validates : kernel.validator = basicBlockValidator)
    {state : KernelState BlockState SnapshotState} {abstract : LedgerState}
    (represents : Represents holds loads state abstract) {block : Block}
    (commitsNew : CommitsNew kernel.blockStore holds abstract block) :
    Represents holds loads (kernel.commitBlock block state).2
      (abstract.commit block) := by
  by_cases extension : Extends abstract.ledger.blocks block
  · by_cases fresh : Fresh abstract.ledger.blocks block
    · exact (commitBlock_refines_fresh kernel keeps validates represents extension
        fresh).2
    · have rejects : RejectsRepeated kernel.blockStore holds :=
        (commitsNew extension).resolve_left fresh
      rw [(commitBlock_repeated kernel rejects represents fresh).2,
        LedgerState.commit_refused fun admitted => fresh admitted.2]
      exact represents
  · rw [(commitBlock_refused kernel validates represents extension).2,
      LedgerState.commit_refused fun admitted => extension admitted.1]
    exact represents

theorem submitTransaction_refines
    {state : KernelState BlockState SnapshotState} {abstract : LedgerState}
    (represents : Represents holds loads state abstract)
    (config : ChainConfig) (transaction : Transaction) :
    Represents holds loads (Kernel.submitTransaction transaction state).2
      (abstract.step config (.submitTransaction transaction)) := by
  rcases Kernel.submitTransaction_cases transaction state with
    ⟨turnedDown, -, unchanged⟩ | ⟨typed, carries, new, submitted⟩
  · rw [unchanged]
    have stays : abstract.step config (.submitTransaction transaction) =
        abstract := by
      rw [represents.pending_eq] at turnedDown
      unfold LedgerState.step LedgerState.submit
      rcases turnedDown with noType | noPayload | waits
      · simp [noType]
      · simp [noPayload]
      · simp only [dif_pos waits, ite_self]
    rwa [stays]
  · rw [represents.pending_eq] at new
    have appends : abstract.step config (.submitTransaction transaction) =
        abstract.submit transaction := by
      simp [LedgerState.step, typed, carries]
    rw [submitted, appends]
    unfold LedgerState.submit
    rw [dif_neg new]
    exact
      { holdsBlocks := represents.holdsBlocks
        loadsSnapshot := represents.loadsSnapshot
        snapshot_eq := represents.snapshot_eq
        pending_eq := congrArg (· ++ [transaction]) represents.pending_eq }

/-- The kernel and the ledger propose the same block. -/
theorem proposal_eq
    (keeps : StoresKeep kernel.blockStore kernel.snapshotStore holds loads)
    (input : KernelCall) {state : KernelState BlockState SnapshotState}
    {abstract : LedgerState}
    (represents : Represents holds loads state abstract) :
    kernel.proposal input state = abstract.proposal kernel.config input := by
  cases input with
  | bootstrap now =>
      have loaded := keeps.load represents.loadsSnapshot
      simp only [Kernel.proposal, LedgerState.proposal, loaded]
      by_cases empty : abstract.ledger.blocks = []
      · simp [empty]
      · simp [empty]
  | submitTransaction transaction => rfl
  | commitBlock block => rfl
  | commitPending source now =>
      simp only [Kernel.proposal, LedgerState.proposal, pendingBlock]
      rw [represents.pending_eq, represents.snapshot_eq,
        snapshotOf_next_height abstract.ledger.counted, snapshotOf_headId]

/-- A call that proposes no block and submits nothing changes nothing. -/
theorem step_idle
    (keeps : StoresKeep kernel.blockStore kernel.snapshotStore holds loads)
    {input : KernelCall} {state : KernelState BlockState SnapshotState}
    {abstract : LedgerState} (represents : Represents holds loads state abstract)
    (noSubmission : ∀ transaction, input ≠ .submitTransaction transaction)
    (none : kernel.proposal input state = none) :
    kernel.step input state = state := by
  cases input with
  | bootstrap now =>
      have loaded := keeps.load represents.loadsSnapshot
      by_cases empty : abstract.ledger.blocks = []
      · have skips : kernel.config.createGenesis = false := by
          rw [if_pos empty] at loaded
          simpa [Kernel.proposal, loaded] using none
        simp [Kernel.step, Kernel.call, Kernel.bootstrap, loaded, empty, skips]
      · rw [if_neg empty, ← represents.snapshot_eq] at loaded
        simp [Kernel.step, Kernel.call, Kernel.bootstrap, loaded]
  | submitTransaction transaction => exact (noSubmission transaction rfl).elim
  | commitBlock block => cases none
  | commitPending source now =>
      have noneWaits : state.pendingTransactions = [] := by
        simpa [Kernel.proposal] using none
      simp [Kernel.step, Kernel.call, Kernel.commitPending, noneWaits]

/-- Every call does to the ledger what the ledger machine does. -/
theorem step_refines
    (keeps : StoresKeep kernel.blockStore kernel.snapshotStore holds loads)
    (validates : kernel.validator = basicBlockValidator)
    (input : KernelCall) {state : KernelState BlockState SnapshotState}
    {abstract : LedgerState} (represents : Represents holds loads state abstract)
    (appendsNew : abstract.AppendsNew kernel.config input ∨
      RejectsRepeated kernel.blockStore holds) :
    Represents holds loads (kernel.step input state)
      (abstract.step kernel.config input) := by
  have same := proposal_eq kernel keeps input represents
  cases proposed : abstract.proposal kernel.config input with
  | some block =>
      rw [Kernel.step, kernel.step_of_proposal (same.trans proposed),
        LedgerState.step_proposed proposed]
      apply commitBlock_refines kernel keeps validates represents
      exact fun extension =>
        appendsNew.imp_left fun new => new block proposed extension
  | none =>
      by_cases submission :
          ∃ transaction, input = .submitTransaction transaction
      · obtain ⟨transaction, rfl⟩ := submission
        exact submitTransaction_refines represents kernel.config transaction
      · have noSubmission := not_exists.mp submission
        rw [step_idle kernel keeps represents noSubmission (same.trans proposed)]
        rwa [LedgerState.step_idle noSubmission proposed]

/-- A block store finds exactly the blocks of a chain with distinct
identifiers. -/
def FindsBlocks (blockStore : BlockStore BlockState)
    (holds : BlockState → List Block → Prop) : Prop :=
  ∀ {state blocks}, holds state blocks → (blockIds blocks).Nodup →
    ∀ id, blockStore.getBlock id state = .ok (findBlock blocks id)

/-- Nothing is stored yet under the identifier of the block that the call
proposes and the validator accepts. -/
def StoresNew (kernel : Kernel BlockState SnapshotState) (input : KernelCall)
    (state : KernelState BlockState SnapshotState) : Prop :=
  ∀ block ∈ kernel.proposal input state,
    (kernel.validator block state.snapshot).isOk = true →
      kernel.blockStore.getBlock block.header.id state.blockState = .ok none

instance (kernel : Kernel BlockState SnapshotState) (input : KernelCall)
    (state : KernelState BlockState SnapshotState) :
    Decidable (StoresNew kernel input state) :=
  inferInstanceAs (Decidable (∀ _ ∈ _, _ → _))

theorem validator_isOk_iff (validates : kernel.validator = basicBlockValidator)
    {state : KernelState BlockState SnapshotState} {abstract : LedgerState}
    (represents : Represents holds loads state abstract) (block : Block) :
    (kernel.validator block state.snapshot).isOk = true ↔
      Extends abstract.ledger.blocks block := by
  rw [validates, represents.snapshot_eq]
  exact basicBlockValidator_isOk_iff abstract.ledger.counted block

theorem appendsNew_of_storesNew
    (keeps : StoresKeep kernel.blockStore kernel.snapshotStore holds loads)
    (finds : FindsBlocks kernel.blockStore holds)
    (validates : kernel.validator = basicBlockValidator)
    {input : KernelCall} {state : KernelState BlockState SnapshotState}
    {abstract : LedgerState} (represents : Represents holds loads state abstract)
    (storesNew : StoresNew kernel input state) :
    abstract.AppendsNew kernel.config input := by
  intro block proposed extension
  rw [← proposal_eq kernel keeps input represents] at proposed
  have found := storesNew block proposed
    ((validator_isOk_iff kernel validates represents block).mpr extension)
  rw [finds represents.holdsBlocks abstract.ledger.distinct] at found
  intro member
  have := (findBlock_isSome_iff _ _).mpr member
  rw [Except.ok.inj found] at this
  cases this

/-- After the commit the block is the head, and every block that was found
before is still found. -/
def CommitVisible (kernel : Kernel BlockState SnapshotState) (block : Block)
    (state : KernelState BlockState SnapshotState) : Prop :=
  kernel.head (kernel.commitBlock block state).2 = .ok (some block) ∧
    ∀ id stored,
      kernel.blockStore.getBlock id state.blockState = .ok (some stored) →
        kernel.blockStore.getBlock id
          (kernel.commitBlock block state).2.blockState = .ok (some stored)

theorem commitVisible_of_fresh
    (keeps : StoresKeep kernel.blockStore kernel.snapshotStore holds loads)
    (finds : FindsBlocks kernel.blockStore holds)
    (validates : kernel.validator = basicBlockValidator)
    {state : KernelState BlockState SnapshotState} {abstract : LedgerState}
    (represents : Represents holds loads state abstract) {block : Block}
    (extension : Extends abstract.ledger.blocks block)
    (fresh : Fresh abstract.ledger.blocks block) :
    CommitVisible kernel block state := by
  have after :=
    (commitBlock_refines_fresh kernel keeps validates represents extension fresh).2
  have blocksAfter := (LedgerState.commit_admitted extension fresh).1
  have distinctAfter := (abstract.commit block).ledger.distinct
  have foundAfter := finds after.holdsBlocks distinctAfter
  rw [blocksAfter] at distinctAfter foundAfter
  constructor
  · unfold Kernel.head
    rw [after.snapshot_eq, blocksAfter, snapshotOf_bootstrapped,
      snapshotOf_headId, LinkScheme.tip_append_singleton]
    have nonempty : (!!(abstract.ledger.blocks ++ [block]).isEmpty) = false := by
      simp
    rw [nonempty]
    simp only [Bool.false_eq_true, if_false]
    change kernel.blockStore.getBlock block.header.id _ = _
    rw [foundAfter, findBlock_of_mem distinctAfter (by simp)]
  · intro id stored found
    rw [finds represents.holdsBlocks abstract.ledger.distinct] at found
    rw [foundAfter, findBlock_append_singleton, Except.ok.inj found]
    rfl

end Chain

end Blocxxi
