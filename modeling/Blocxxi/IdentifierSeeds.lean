import Blocxxi.ChainKernel
import Blocxxi.DelimitedText

/-!
# What identifiers commit to

The identifier of a transaction or a block is made from a seed in which the fields
stand one behind the other with a bar in between.  The fields may contain bars
themselves, so different fields can have one seed, and then one identifier, whatever
the function is that makes identifiers from seeds.
-/

namespace Blocxxi

namespace Core

open Cxx ByteText DelimitedText

/-- The separator of the seeds. -/
abbrev bar : UInt8 := 124

/-- Identifiers are made in a way that tells the two seeds apart. -/
def TellsApart (first second : ByteString) : Prop :=
  makeId first = makeId second → first = second

theorem tellsApart_of_eq {first second : ByteString} (same : first = second) :
    TellsApart first second :=
  fun _ => same

structure TextInput where
  type : ByteString
  payload : ByteString
  metadata : ByteString
  deriving DecidableEq

namespace TextInput

def transaction (input : TextInput) : Transaction :=
  Transaction.fromText input.type input.payload input.metadata

def seed (input : TextInput) : ByteString :=
  input.type ++ bar :: (input.payload ++ bar :: input.metadata)

theorem transaction_id (input : TextInput) : input.transaction.id = makeId input.seed := by
  simp only [transaction, Transaction.fromText, seed, List.append_assoc]
  rfl

/-- No field contains a bar. -/
structure Unbarred (input : TextInput) : Prop where
  type : bar ∉ input.type
  payload : bar ∉ input.payload
  metadata : bar ∉ input.metadata

/-- No other input has its identifier. -/
def Committed (input : TextInput) : Prop :=
  ∀ other : TextInput, TellsApart input.seed other.seed →
    input.transaction.id = other.transaction.id → input = other

/-- The bars of a seed are the two separators and those of the fields. -/
theorem count_seed (input : TextInput) :
    input.seed.count bar = input.type.count bar + input.payload.count bar +
      input.metadata.count bar + 2 := by
  simp only [seed, List.count_append, List.count_cons_self]
  omega

theorem unbarred_of_seed {first second : TextInput} (unbarred : first.Unbarred)
    (same : first.seed = second.seed) : second.Unbarred := by
  have counts := congrArg (List.count bar) same
  rw [count_seed, count_seed, List.count_eq_zero.mpr unbarred.type,
    List.count_eq_zero.mpr unbarred.payload,
    List.count_eq_zero.mpr unbarred.metadata] at counts
  constructor <;> apply List.count_eq_zero.mp <;> omega

theorem eq_of_seed {first second : TextInput} (unbarred : first.Unbarred)
    (same : first.seed = second.seed) : first = second := by
  have others := unbarred_of_seed unbarred same
  obtain ⟨types, rest⟩ := append_first_inj unbarred.type others.type same
  obtain ⟨payloads, metadata⟩ := append_first_inj unbarred.payload others.payload rest
  cases first
  cases second
  cases types
  cases payloads
  cases metadata
  rfl

theorem committed_of_unbarred {input : TextInput} (unbarred : input.Unbarred) :
    input.Committed := by
  intro other apart same
  rw [transaction_id, transaction_id] at same
  exact eq_of_seed unbarred (apart same)

/-- An input with the same seed as a committed one is that input. -/
theorem Committed.eq_of_seed {input other : TextInput} (committed : input.Committed)
    (same : input.seed = other.seed) : input = other := by
  refine committed other (tellsApart_of_eq same) ?_
  rw [transaction_id, transaction_id, same]

/-- A bar in a field could as well be the separator behind another one. -/
theorem unbarred_of_committed {input : TextInput} (committed : input.Committed) :
    input.Unbarred := by
  obtain ⟨type, payload, metadata⟩ := input
  refine ⟨fun inType => ?_, fun inPayload => ?_, fun inMetadata => ?_⟩
  · obtain ⟨front, behind, isType⟩ := List.append_of_mem inType
    change type = front ++ bar :: behind at isType
    have same : seed ⟨type, payload, metadata⟩ =
        seed ⟨front, behind ++ bar :: payload, metadata⟩ := by
      simp [seed, isType]
    have lengths := congrArg (fun input => input.type.length) (committed.eq_of_seed same)
    simp [isType] at lengths
  · obtain ⟨front, behind, isPayload⟩ := List.append_of_mem inPayload
    change payload = front ++ bar :: behind at isPayload
    have same : seed ⟨type, payload, metadata⟩ =
        seed ⟨type ++ bar :: front, behind, metadata⟩ := by
      simp [seed, isPayload]
    have lengths := congrArg (fun input => input.type.length) (committed.eq_of_seed same)
    simp at lengths
  · obtain ⟨front, behind, isMetadata⟩ := List.append_of_mem inMetadata
    change metadata = front ++ bar :: behind at isMetadata
    have same : seed ⟨type, payload, metadata⟩ =
        seed ⟨type ++ bar :: payload, front, behind⟩ := by
      simp [seed, isMetadata]
    have lengths := congrArg (fun input => input.type.length) (committed.eq_of_seed same)
    simp at lengths

end TextInput

structure BlockInput where
  previousId : BlockId
  height : Height
  transactions : List Transaction
  source : ByteString

/-- The identifiers of transactions, a bar in front of each. -/
def idsText (ids : List TransactionId) : ByteString :=
  ids.flatMap fun id => bar :: id.toHex

theorem idsText_append (first second : List TransactionId) :
    idsText (first ++ second) = idsText first ++ idsText second :=
  List.flatMap_append

theorem idsText_length (ids : List TransactionId) :
    (idsText ids).length = 65 * ids.length := by
  induction ids with
  | nil => rfl
  | cons id ids ih =>
      have width : id.toHex.length = 64 := Hash.toHex_length id
      rw [idsText, List.flatMap_cons, List.length_append, List.length_cons, width]
      change 64 + 1 + (idsText ids).length = _
      rw [ih, List.length_cons]
      omega

theorem idsText_injective : Function.Injective idsText := by
  intro first second same
  induction first generalizing second with
  | nil =>
      cases second with
      | nil => rfl
      | cons id ids => cases same
  | cons id ids ih =>
      cases second with
      | nil => cases same
      | cons other others =>
          simp only [idsText, List.flatMap_cons, List.cons_append] at same
          obtain ⟨heads, rest⟩ := List.append_inj (List.cons.inj same).2 (by
            rw [Hash.toHex_length, Hash.toHex_length])
          rw [Hash.toHex_injective heads, ih rest]

namespace BlockInput

def ids (input : BlockInput) : List TransactionId :=
  input.transactions.map Transaction.id

def block (input : BlockInput) (now : Int64) : Block :=
  Block.makeNext input.previousId input.height input.transactions input.source now

def seed (input : BlockInput) : ByteString :=
  input.previousId.toHex ++ (bar :: (decimal input.height.toNat ++
    bar :: (input.source ++ idsText input.ids)))

theorem block_id (input : BlockInput) (now : Int64) :
    (input.block now).header.id = makeId input.seed := by
  have idsEq : idsText input.ids = input.transactions.flatMap fun transaction =>
      ascii "|" ++ transaction.id.toHex := by
    rw [idsText, ids, List.flatMap_map]
    rfl
  simp only [block, Block.makeNext, seed, idsEq, List.append_assoc]
  rfl

/-- The fields that an identifier is made from agree. -/
structure Agree (first second : BlockInput) : Prop where
  previousId : first.previousId = second.previousId
  height : first.height = second.height
  source : first.source = second.source
  ids : first.ids = second.ids

/-- The source of the second block goes on with identifiers that are transactions of
the first. -/
def Swallowed (first second : BlockInput) : Prop :=
  first.previousId = second.previousId ∧ first.height = second.height ∧
    ∃ swallowed, swallowed ≠ [] ∧ second.source = first.source ++ idsText swallowed ∧
      first.ids = swallowed ++ second.ids

/-- Equal identifiers, on seeds that are told apart, mean equal fields. -/
def Committed (first second : BlockInput) : Prop :=
  TellsApart first.seed second.seed →
    ∀ now later, (first.block now).header.id = (second.block later).header.id →
      Agree first second

theorem fields_of_seed {first second : BlockInput} (same : first.seed = second.seed) :
    first.previousId = second.previousId ∧ first.height = second.height ∧
      first.source ++ idsText first.ids = second.source ++ idsText second.ids := by
  obtain ⟨previous, rest⟩ := List.append_inj same (by
    rw [Hash.toHex_length, Hash.toHex_length])
  obtain ⟨heights, tails⟩ := append_first_inj (notMem_decimal (by decide))
    (notMem_decimal (by decide)) (List.cons.inj rest).2
  exact ⟨Hash.toHex_injective previous, UInt64.toNat_inj.mp (decimal_injective heights),
    tails⟩

/-- What is too long in the list of one block is in the source of the other. -/
theorem swallowed_of_tails {source other : ByteString} {ids others : List TransactionId}
    (more : others.length ≤ ids.length)
    (tails : source ++ idsText ids = other ++ idsText others) :
    ∃ swallowed, other = source ++ idsText swallowed ∧ ids = swallowed ++ others := by
  have split := List.take_append_drop (ids.length - others.length) ids
  rw [← split, idsText_append, ← List.append_assoc] at tails
  obtain ⟨sources, rest⟩ := List.append_inj' tails (by
    rw [idsText_length, idsText_length, List.length_drop]
    omega)
  refine ⟨ids.take (ids.length - others.length), sources.symm, ?_⟩
  have behind := idsText_injective rest
  exact split.symm.trans (congrArg (ids.take (ids.length - others.length) ++ ·) behind)

theorem agree_or_swallowed {first second : BlockInput}
    (same : first.seed = second.seed) :
    Agree first second ∨ Swallowed first second ∨ Swallowed second first := by
  obtain ⟨previous, heights, tails⟩ := fields_of_seed same
  rcases Nat.le_total second.ids.length first.ids.length with more | fewer
  · obtain ⟨swallowed, source, ids⟩ := swallowed_of_tails more tails
    cases swallowed with
    | nil => exact .inl ⟨previous, heights, by simpa [idsText] using source.symm, ids⟩
    | cons id rest =>
        exact .inr (.inl ⟨previous, heights, _, List.cons_ne_nil id rest, source, ids⟩)
  · obtain ⟨swallowed, source, ids⟩ := swallowed_of_tails fewer tails.symm
    cases swallowed with
    | nil => exact .inl ⟨previous, heights, by simpa [idsText] using source, ids.symm⟩
    | cons id rest =>
        exact .inr (.inr ⟨previous.symm, heights.symm, _, List.cons_ne_nil id rest,
          source, ids⟩)

theorem seed_of_swallowed {first second : BlockInput}
    (swallowed : Swallowed first second) : first.seed = second.seed := by
  obtain ⟨previous, heights, ids, -, source, isIds⟩ := swallowed
  rw [seed, seed, previous, heights, source, isIds, idsText_append, List.append_assoc]

theorem not_agree_of_swallowed {first second : BlockInput}
    (swallowed : Swallowed first second) : ¬ Agree first second := by
  obtain ⟨-, -, ids, nonempty, -, isIds⟩ := swallowed
  intro agree
  rw [agree.ids] at isIds
  exact nonempty (List.self_eq_append_left.mp isIds)

theorem Agree.symm {first second : BlockInput} (agree : Agree first second) :
    Agree second first :=
  ⟨agree.previousId.symm, agree.height.symm, agree.source.symm, agree.ids.symm⟩

theorem committed_iff (first second : BlockInput) :
    Committed first second ↔ ¬ Swallowed first second ∧ ¬ Swallowed second first := by
  constructor
  · intro committed
    have agree (same : first.seed = second.seed) : Agree first second :=
      committed (tellsApart_of_eq same) 0 0 (by rw [block_id, block_id, same])
    exact ⟨fun swallowed =>
        not_agree_of_swallowed swallowed (agree (seed_of_swallowed swallowed)),
      fun swallowed => not_agree_of_swallowed swallowed
        (agree (seed_of_swallowed swallowed).symm).symm⟩
  · rintro ⟨notFirst, notSecond⟩ apart now later same
    rw [block_id, block_id] at same
    rcases agree_or_swallowed (apart same) with agree | isFirst | isSecond
    · exact agree
    · exact absurd isFirst notFirst
    · exact absurd isSecond notSecond

end BlockInput

open Chain

/-- A submission is turned down as a repetition although no pending transaction is
made from the same fields. -/
def RejectsGenuine {BlockState SnapshotState : Type} (pending : List TextInput)
    (input : TextInput) (state : KernelState BlockState SnapshotState) : Prop :=
  state.pendingTransactions = pending.map TextInput.transaction ∧ input ∉ pending ∧
    (Kernel.submitTransaction input.transaction state).1.code = .duplicate

theorem rejected_of_code {BlockState SnapshotState : Type} {input : TextInput}
    {state : KernelState BlockState SnapshotState}
    (rejected : (Kernel.submitTransaction input.transaction state).1.code = .duplicate) :
    input.transaction.id ∈ state.pendingTransactions.map fun waiting => waiting.id := by
  unfold Kernel.submitTransaction at rejected
  split at rejected
  · cases rejected
  split at rejected
  · cases rejected
  split at rejected
  · rename_i waits
    exact (Kernel.any_pending_iff _ _).mp waits
  · cases rejected

/-- An input without bars is not turned down for another one. -/
theorem not_rejectsGenuine {BlockState SnapshotState : Type} {pending : List TextInput}
    {input : TextInput} (unbarred : input.Unbarred)
    (apart : ∀ waiting ∈ pending, TellsApart input.seed waiting.seed)
    (state : KernelState BlockState SnapshotState) :
    ¬ RejectsGenuine pending input state := by
  rintro ⟨isPending, fresh, rejected⟩
  have waits := rejected_of_code rejected
  rw [isPending, List.map_map, List.mem_map] at waits
  obtain ⟨waiting, member, same⟩ := waits
  have isInput := TextInput.committed_of_unbarred unbarred waiting (apart waiting member)
    same.symm
  exact fresh (isInput ▸ member)

/-- The identifier of a transaction belongs to one triple of texts exactly if no text
contains a bar, and such a transaction is only turned down as a repetition of itself;
that of a block belongs to two inputs exactly if the source of one goes on with
transactions of the other. -/
theorem identifiers_commit_iff (input : TextInput) (first second : BlockInput) :
    (input.Committed ↔ input.Unbarred) ∧
    (∀ (BlockState SnapshotState : Type) (pending : List TextInput)
      (state : KernelState BlockState SnapshotState), input.Unbarred →
        (∀ waiting ∈ pending, TellsApart input.seed waiting.seed) →
          ¬ RejectsGenuine pending input state) ∧
    (BlockInput.Committed first second ↔
      ¬ BlockInput.Swallowed first second ∧ ¬ BlockInput.Swallowed second first) :=
  ⟨⟨TextInput.unbarred_of_committed, TextInput.committed_of_unbarred⟩,
    fun _ _ _ state unbarred apart => not_rejectsGenuine unbarred apart state,
    BlockInput.committed_iff first second⟩

/-- A transaction without bars, beside the first block of a chain. -/
theorem identifiers_commit_iff_plain :
    TextInput.Committed ⟨ascii "demo.tx", ascii "payload", ascii "kind=demo"⟩ := by
  apply (identifiers_commit_iff _ ⟨Hash.zero, 0, [], ascii "local"⟩
    ⟨Hash.zero, 0, [], ascii "local"⟩).1.mpr
  constructor <;> decide

/-- A transaction of the type `a|b` and the payload `c`, and then one of the type `a`
and the payload `b|c`: the second is turned down. -/
theorem identifiers_not_committed :
    ¬ ((∀ input : TextInput, input.Committed) ∧
      ∀ first second : BlockInput, BlockInput.Committed first second) := by
  intro committed
  have same : TextInput.seed ⟨ascii "a|b", ascii "c", []⟩ =
      TextInput.seed ⟨ascii "a", ascii "b|c", []⟩ := by
    decide
  have merged := (committed.1 ⟨ascii "a|b", ascii "c", []⟩).eq_of_seed same
  exact absurd merged (by decide)

end Core

end Blocxxi
