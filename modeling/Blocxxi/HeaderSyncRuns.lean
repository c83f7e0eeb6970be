import Blocxxi.HeaderSync
import Blocxxi.StepMachineRuns
import Mathlib.Data.List.Chain

/-!
# Runs of the header sync adapter

Batches are submitted one after the other, and every call meets the node in a
state of its own.  The headers of the batches that went through form one chain,
of which the adapter holds the heights and the last header.
-/

namespace Blocxxi

namespace Bitcoin

open Blocxxi.Core Cxx Chain StepMachine

/-- The second header continues the first. -/
def Follows (first second : Header) : Prop :=
  second.height = first.height + 1 ∧ second.previousHashHex = first.hashHex

theorem validateHeader_accepted {header : Header} {previous : Option Header}
    (accepted : (validateHeader header previous).isOk = true) :
    header.hashHex ≠ [] ∧ ∀ last ∈ previous, Follows last header := by
  unfold validateHeader at accepted
  split at accepted
  · cases accepted
  rename_i hashed
  split at accepted
  · cases accepted
  split at accepted
  · cases accepted
  rename_i heights
  split at accepted
  · cases accepted
  rename_i hashes
  refine ⟨hashed, ?_⟩
  rintro last ⟨⟩
  exact ⟨by simpa using heights, by simpa using hashes⟩

/-- A validated batch is a chain that continues the previous header. -/
theorem validateHeaders_accepted {headers : List Header}
    {previous : Option Header}
    (accepted : (validateHeaders previous headers).isOk = true) :
    (∀ header ∈ headers, header.hashHex ≠ []) ∧
      headers.IsChain Follows ∧
      ∀ last ∈ previous, ∀ first ∈ headers.head?, Follows last first := by
  induction headers generalizing previous with
  | nil => simp
  | cons header headers induction =>
      unfold validateHeaders at accepted
      dsimp only at accepted
      split at accepted
      · rename_i rejected
        rw [accepted] at rejected
        cases rejected
      rename_i valid
      obtain ⟨hashed, follows⟩ := validateHeader_accepted
        (show (validateHeader header previous).isOk = true by simpa using valid)
      obtain ⟨allHashed, chain, continues⟩ := induction accepted
      refine ⟨List.forall_mem_cons.mpr ⟨hashed, allHashed⟩, ?_, ?_⟩
      · rw [List.isChain_cons]
        exact ⟨fun next isNext => continues header rfl next isNext, chain⟩
      · rintro last isLast first ⟨⟩
        exact follows last isLast

variable {BlockState SnapshotState : Type}

theorem importHeaders_heights (kernel : Kernel BlockState SnapshotState)
    (options : Options) (clock : Nat → Int64) (headers : List Header)
    {before imported : List UInt32} {status : Status}
    {node next : Node.NodeState BlockState SnapshotState}
    (finishes : importHeaders kernel options clock headers before node =
      (.ok (status, imported), next)) (succeeds : status.isOk = true) :
    imported = before ++ headers.map Header.height := by
  induction headers generalizing before node with
  | nil =>
      cases finishes
      exact (List.append_nil imported).symm
  | cons header headers induction =>
      unfold importHeaders at finishes
      dsimp only at finishes
      split at finishes
      · rename_i rejected
        cases finishes
        rw [succeeds] at rejected
        cases rejected
      split at finishes
      · cases finishes
      split at finishes
      · rename_i rejected
        cases finishes
        rw [succeeds] at rejected
        cases rejected
      · rw [induction finishes, List.map_cons, List.append_assoc,
          List.singleton_append]

/-- A call fails and leaves the adapter as it was, or the batch continues what
was imported and all of it is imported. -/
theorem submitHeaders_cases (kernel : Kernel BlockState SnapshotState)
    (clock : Nat → Int64) (headers : Span Header) {adapter after : HeaderSyncAdapter}
    {node next : Node.NodeState BlockState SnapshotState}
    {outcome : Except Fault Status}
    (returns : HeaderSyncAdapter.submitHeaders kernel clock headers adapter node =
      (outcome, after, next)) :
    (after = adapter ∧ ∀ status, outcome = .ok status → status.isOk = false) ∨
    (outcome = .ok (.success "") ∧
      (validateHeaders adapter.lastHeader headers.items).isOk = true ∧
      headers.items ≠ [] ∧
      after = { adapter with
        importedHeights :=
          adapter.importedHeights ++ headers.items.map Header.height
        lastHeader := headers.items.getLast? }) := by
  unfold HeaderSyncAdapter.submitHeaders at returns
  split at returns
  · cases returns
    exact Or.inl ⟨rfl, by rintro _ ⟨⟩; rfl⟩
  split at returns
  · cases returns
    exact Or.inl ⟨rfl, by rintro _ ⟨⟩; rfl⟩
  rename_i nonempty
  dsimp only at returns
  split at returns
  · rename_i rejected
    cases returns
    refine Or.inl ⟨rfl, ?_⟩
    rintro _ ⟨⟩
    simpa using rejected
  rename_i valid
  split at returns
  · cases returns
    exact Or.inl ⟨rfl, by rintro _ ⟨⟩⟩
  rename_i status imported finishes
  split at returns
  · rename_i failed
    cases returns
    refine Or.inl ⟨rfl, ?_⟩
    rintro _ ⟨⟩
    simpa using failed
  · rename_i succeeded
    cases returns
    have heights := importHeaders_heights kernel adapter.options clock
      headers.items (Prod.ext finishes rfl) (by simpa using succeeded)
    rw [List.nil_append] at heights
    refine Or.inr ⟨rfl, by simpa using valid, nonempty, ?_⟩
    rw [heights]

/-- A call of one of the two entry points, with the node that it meets. -/
inductive Submission
  | header (header : Header)
  | headers (headers : Span Header)

structure Call (BlockState SnapshotState : Type) where
  submission : Submission
  kernel : Kernel BlockState SnapshotState
  clock : Nat → Int64
  node : Node.NodeState BlockState SnapshotState

def Submission.batch : Submission → Span Header
  | .header one => ⟨[one], Nat.one_lt_two_pow (by decide)⟩
  | .headers many => many

namespace Call

/-- What the call returns, and the adapter behind it. -/
def perform (call : Call BlockState SnapshotState) (adapter : HeaderSyncAdapter) :
    Except Fault Status × HeaderSyncAdapter :=
  let (outcome, after, _) :=
    match call.submission with
    | .header header =>
        adapter.submitHeader call.kernel call.clock header call.node
    | .headers headers =>
        adapter.submitHeaders call.kernel call.clock headers call.node
  (outcome, after)

def succeeds (call : Call BlockState SnapshotState) (adapter : HeaderSyncAdapter) :
    Bool :=
  match (call.perform adapter).1 with
  | .ok status => status.isOk
  | .error _ => false

end Call

/-- The adapter, and the headers of all batches whose call succeeded. -/
structure Progress where
  adapter : HeaderSyncAdapter
  accepted : List Header := []

def submit (call : Call BlockState SnapshotState) (progress : Progress) :
    Progress where
  adapter := (call.perform progress.adapter).2
  accepted :=
    if call.succeeds progress.adapter then
      progress.accepted ++ call.submission.batch.items
    else progress.accepted

/-- The accepted headers form a chain, and the adapter holds their heights and
the last of them. -/
structure Progress.Linked (progress : Progress) : Prop where
  heights : progress.adapter.importedHeights =
    progress.accepted.map Header.height
  last : progress.adapter.lastHeader = progress.accepted.getLast?
  hashed : ∀ header ∈ progress.accepted, header.hashHex ≠ []
  chain : progress.accepted.IsChain Follows

theorem perform_cases (call : Call BlockState SnapshotState)
    (adapter : HeaderSyncAdapter) :
    (call.succeeds adapter = false ∧ (call.perform adapter).2 = adapter) ∨
    (call.succeeds adapter = true ∧
      (validateHeaders adapter.lastHeader call.submission.batch.items).isOk =
        true ∧
      call.submission.batch.items ≠ [] ∧
      (call.perform adapter).2 = { adapter with
        importedHeights := adapter.importedHeights ++
          call.submission.batch.items.map Header.height
        lastHeader := call.submission.batch.items.getLast? }) := by
  rcases returns : adapter.submitHeaders call.kernel call.clock
    call.submission.batch call.node with ⟨outcome, after, next⟩
  have performed : call.perform adapter = (outcome, after) := by
    obtain ⟨submission, kernel, clock, node⟩ := call
    unfold Call.perform
    cases submission with
    | header header =>
        change adapter.submitHeader kernel clock header node = _ at returns
        dsimp only
        rw [returns]
    | headers headers =>
        change adapter.submitHeaders kernel clock headers node = _ at returns
        dsimp only
        rw [returns]
  unfold Call.succeeds
  rw [performed]
  rcases submitHeaders_cases call.kernel call.clock call.submission.batch returns
    with ⟨unchanged, fails⟩ | ⟨succeeded, valid, nonempty, imported⟩
  · refine Or.inl ⟨?_, unchanged⟩
    split
    · rename_i status returned
      exact fails status returned
    · rfl
  · refine Or.inr ⟨?_, valid, nonempty, imported⟩
    rw [succeeded]
    rfl

/-- Every call keeps the headers linked. -/
theorem submit_linked (call : Call BlockState SnapshotState) (progress : Progress)
    (linked : progress.Linked) : (submit call progress).Linked := by
  rcases perform_cases call progress.adapter with
    ⟨failed, unchanged⟩ | ⟨succeeded, valid, nonempty, imported⟩
  · have same : submit call progress = progress := by
      rw [submit, unchanged, failed]
      rfl
    rwa [same]
  · obtain ⟨hashed, chain, continues⟩ := validateHeaders_accepted valid
    rw [submit, imported, succeeded, if_pos rfl]
    constructor
    · rw [List.map_append, linked.heights]
    · rw [List.getLast?_append_of_ne_nil _ nonempty]
    · intro header member
      rcases List.mem_append.mp member with earlier | new
      · exact linked.hashed header earlier
      · exact hashed header new
    · rw [List.isChain_append]
      refine ⟨linked.chain, chain, ?_⟩
      intro last isLast first isFirst
      apply continues last _ first isFirst
      rwa [linked.last]

/-- In every run of calls on a bound adapter the headers of the batches that
went through form one chain, which the adapter's state stands for; a call that
fails leaves that state alone. -/
theorem run_linked (options : Options)
    (calls : List (Call BlockState SnapshotState)) :
    let reached := run submit calls { adapter := { options, bound := true } }
    reached.Linked ∧
      ∀ call : Call BlockState SnapshotState,
        call.succeeds reached.adapter = false →
          (call.perform reached.adapter).2.importedHeights =
              reached.adapter.importedHeights ∧
            (call.perform reached.adapter).2.lastHeader =
              reached.adapter.lastHeader := by
  intro reached
  constructor
  · apply invariant_run submit_linked
    exact ⟨rfl, rfl, by simp, List.isChain_nil⟩
  · intro call failed
    rcases perform_cases call reached.adapter with
      ⟨-, unchanged⟩ | ⟨succeeded, -⟩
    · rw [unchanged]
      exact ⟨rfl, rfl⟩
    · rw [failed] at succeeded
      cases succeeded

end Bitcoin

end Blocxxi
