import Blocxxi.HeaderSyncRuns
import Blocxxi.HeadersImport
import Blocxxi.InMemoryStore

/-!
# Resuming an import

Imports over one state root follow each other, and between two of them the
process may be restarted.  The adapter compares the first header of an import
with the last one it has imported, but a new adapter has imported none: then
only the height is taken from the state file, and the header links to the
persisted hash when the peer chooses so.
-/

namespace Blocxxi

namespace Bitcoin

open Blocxxi.Core Cxx ByteText Chain StepMachine

variable {BlockState SnapshotState : Type}
variable {doubleSha256 : ByteString → Hash256}

theorem newline_notMem_toHex (bytes : ByteString) : 10 ∉ toHex bytes :=
  Hex.notMem_encode (by decide)

theorem parseHeadersFrom_parses {payload : Span UInt8} {locatorHeight : UInt32}
    (count : Nat) {index : UInt32} {offset : Nat}
    {before result : SignetHeadersResult} {status : Status}
    (parsed : parseHeadersFrom doubleSha256 payload locatorHeight count index
      offset before = (status, result)) (isOk : status.isOk = true) :
    ∃ new, result.headers = before.headers ++ new ∧
      (∀ header ∈ new, 10 ∉ header.hashHex) ∧
      (count ≠ 0 → new.head? = some (wireHeader doubleSha256 payload offset
        (locatorHeight + index + 1))) := by
  induction count generalizing index offset before with
  | zero =>
      cases parsed
      exact ⟨[], (List.append_nil _).symm, by simp, fun none => absurd rfl none⟩
  | succ count induction =>
      unfold parseHeadersFrom at parsed
      split at parsed
      · cases parsed
        cases isOk
      dsimp only at parsed
      split at parsed
      · cases parsed
        cases isOk
      obtain ⟨new, headers, oneLine, -⟩ := induction parsed
      refine ⟨wireHeader doubleSha256 payload offset (locatorHeight + index + 1) ::
        new, ?_, ?_, fun _ => rfl⟩
      · rw [headers, List.append_assoc, List.singleton_append]
      · exact List.forall_mem_cons.mpr ⟨newline_notMem_toHex _, oneLine⟩

/-- The hash in front of the first header of a payload. -/
def firstPreviousHash (payload : Span UInt8) : ByteString :=
  wireHashToHex (bytesAt payload ((compactSizeAt payload 0).2 + 4) 32)

theorem parseHeadersPayload_parses {payload : Span UInt8} {locatorHeight : UInt32}
    {before result : SignetHeadersResult} {status : Status}
    (parsed : parseHeadersPayload doubleSha256 payload locatorHeight before =
      (status, result)) (isOk : status.isOk = true)
    (fresh : before.headers = []) :
    (∀ header ∈ result.headers, 10 ∉ header.hashHex) ∧
      ∃ first, result.headers.head? = some first ∧
        first.previousHashHex = firstPreviousHash payload ∧
        first.height = locatorHeight + 1 := by
  unfold parseHeadersPayload at parsed
  split at parsed
  · cases parsed
    cases isOk
  rename_i count offset counted
  split at parsed
  · cases parsed
    cases isOk
  rename_i positive
  obtain ⟨new, headers, oneLine, isFirst⟩ :=
    parseHeadersFrom_parses count.toNat parsed isOk
  rw [fresh, List.nil_append] at headers
  rw [headers]
  refine ⟨oneLine, _, isFirst ?_, ?_, ?_⟩
  · intro zero
    exact positive (UInt64.toNat_inj.mp zero)
  · rw [firstPreviousHash, counted]
    rfl
  · simp [wireHeader]

theorem requestHeaders_fresh (getHeaders : ByteString) (port : UInt16)
    (now : UInt64) (endpoint : Endpoint) {result : SignetHeadersResult}
    (fresh : result.headers = []) :
    (requestHeaders getHeaders port now endpoint result).2.headers = [] := by
  unfold requestHeaders
  split
  · exact fresh
  dsimp only
  split
  · rfl
  split <;> rfl

theorem receiveHeaders_fresh (getHeaders : ByteString) (port : UInt16)
    (now : UInt64) (endpoints : List Endpoint) {result : SignetHeadersResult}
    (fresh : result.headers = []) :
    (receiveHeaders getHeaders port now endpoints result).2.headers = [] := by
  induction endpoints generalizing result with
  | nil => exact fresh
  | cons endpoint endpoints induction =>
      have asked := requestHeaders_fresh getHeaders port now endpoint fresh
      unfold receiveHeaders
      split
      · rename_i received
        rwa [received] at asked
      · rename_i received
        rw [received] at asked
        exact induction asked

/-- What is written into the state file is read again. -/
theorem loadImportState_importStateText {height : UInt32} {hashHex : ByteString}
    (oneLine : 10 ∉ hashHex) :
    loadImportState (some (importStateText height hashHex)) true =
      .ok (some (height, hashHex)) := by
  have linesEq : lines (importStateText height hashHex) =
      [ascii "height=" ++ decimal height.toNat, ascii "hash=" ++ hashHex] := by
    apply lines_unlines
    intro line member
    simp only [List.mem_cons, List.not_mem_nil, or_false] at member
    rcases member with rfl | rfl
    · rw [List.mem_append, not_or]
      exact ⟨by decide, notMem_decimal (by decide)⟩
    · rw [List.mem_append, not_or]
      exact ⟨by decide, oneLine⟩
  have number : stoull (decimal height.toNat) = .ok height.toUInt64 :=
    stoull_decimal height.toUInt64
  simp only [loadImportState, linesEq]
  simp [number, Bind.bind, Except.bind]

/-- The persisted height and hash: where the next import starts. -/
abbrev Locator := UInt32 × ByteString

/-- An import, with the node that it meets and what the world does.  The process
may be restarted in front of it; then there is a new adapter. -/
structure ImportCall (BlockState SnapshotState : Type) where
  restart : Option Options := none
  options : SignetLiveOptions := {}
  nodeOptions : NodeOptions := {}
  world : ImportWorld
  kernel : Kernel BlockState SnapshotState
  clock : Nat → Int64
  node : Node.NodeState BlockState SnapshotState

/-- The adapter, the content of the state file, and the locator that the
preceding import has persisted. -/
structure ImportState where
  adapter : HeaderSyncAdapter
  file : Option ByteString := none
  persisted : Option Locator := none

namespace ImportCall

/-- The adapter that is used: a new one after a restart. -/
def adapter (call : ImportCall BlockState SnapshotState) (state : ImportState) :
    HeaderSyncAdapter :=
  match call.restart with
  | some options => { options, bound := true }
  | none => state.adapter

def perform (doubleSha256 : ByteString → Hash256)
    (call : ImportCall BlockState SnapshotState) (state : ImportState) :
    ImportResult BlockState SnapshotState :=
  importLiveSignetHeaders doubleSha256 call.kernel call.clock call.options
    call.nodeOptions call.world (call.adapter state) call.node state.file

def Succeeds (doubleSha256 : ByteString → Hash256)
    (call : ImportCall BlockState SnapshotState) (state : ImportState) : Prop :=
  (call.perform doubleSha256 state).outcome = .ok (.success "")

/-- The locator that a successful import has written. -/
def persists (call : ImportCall BlockState SnapshotState)
    (fetched : SignetHeadersResult) : Option Locator :=
  if call.world.created ∧ call.world.writable then
    fetched.headers.getLast?.map fun last => (last.height, last.hashHex)
  else none

end ImportCall

def importStep (doubleSha256 : ByteString → Hash256)
    (call : ImportCall BlockState SnapshotState) (state : ImportState) :
    ImportState where
  adapter := (call.perform doubleSha256 state).adapter
  file := (call.perform doubleSha256 state).file
  persisted :=
    match (call.perform doubleSha256 state).liveResult with
    | some fetched => call.persists fetched
    | none => state.persisted

theorem fetchHeaders_fetches {options : SignetLiveOptions} {world : ImportWorld}
    {result : SignetHeadersResult} {status : Status}
    (fetches : fetchHeaders doubleSha256 options world = (status, result))
    (isOk : status.isOk = true) :
    ∃ endpoints getHeaders payload address,
      world.endpoints = some endpoints ∧
      encodeGetHeadersPayload options.locatorHashHex = some getHeaders ∧
      (receiveHeaders getHeaders options.port world.now endpoints {}).1 =
        some (payload, address) ∧
      (∀ header ∈ result.headers, 10 ∉ header.hashHex) ∧
      ∃ first, result.headers.head? = some first ∧
        first.previousHashHex = firstPreviousHash payload ∧
        first.height = options.locatorHeight + 1 := by
  unfold fetchHeaders at fetches
  split at fetches
  · cases fetches
    cases isOk
  rename_i endpoints isHost
  split at fetches
  · cases fetches
    cases isOk
  rename_i getHeaders isRequest
  have fresh := receiveHeaders_fresh getHeaders options.port world.now endpoints
    (show ({} : SignetHeadersResult).headers = [] from rfl)
  split at fetches
  · cases fetches
    cases isOk
  rename_i payload address before received
  rw [received] at fresh
  rcases parsed : parseHeadersPayload doubleSha256 payload options.locatorHeight
    before with ⟨parsedStatus, parsedResult⟩
  rw [parsed] at fetches
  dsimp only at fetches
  split at fetches
  · rename_i failed
    cases fetches
    rw [isOk] at failed
    cases failed
  · rename_i succeeded
    cases fetches
    have parses := parseHeadersPayload_parses parsed
      (by simpa using succeeded) fresh
    exact ⟨endpoints, getHeaders, payload, address, isHost, isRequest,
      by rw [received], parses⟩

/-- What a successful import has done. -/
structure Imports (doubleSha256 : ByteString → Hash256)
    (call : ImportCall BlockState SnapshotState) (state : ImportState)
    (resolved : SignetLiveOptions) (fetched : SignetHeadersResult) : Prop where
  resolves : resolveImportOptions call.options call.nodeOptions state.file
    call.world.readable = .ok resolved
  fetches : ∃ status, fetchHeaders doubleSha256 resolved call.world =
    (status, fetched) ∧ status.isOk = true
  result : (call.perform doubleSha256 state).liveResult = some fetched
  valid : (validateHeaders (call.adapter state).lastHeader
    fetched.headers).isOk = true
  last : (call.perform doubleSha256 state).adapter.lastHeader =
    fetched.headers.getLast?
  file : (call.perform doubleSha256 state).file =
    persistImportProgress resolved fetched call.world state.file

theorem submitFetched_imports {kernel : Kernel BlockState SnapshotState}
    {clock : Nat → Int64} {options : SignetLiveOptions}
    {fetched : SignetHeadersResult} {world : ImportWorld}
    {adapter : HeaderSyncAdapter}
    {node : Node.NodeState BlockState SnapshotState} {file : Option ByteString}
    (succeeds : (submitFetched kernel clock options fetched world adapter node
      file).outcome = .ok (.success "")) :
    let result := submitFetched kernel clock options fetched world adapter node file
    result.liveResult = some fetched ∧
      (validateHeaders adapter.lastHeader fetched.headers).isOk = true ∧
      result.adapter.lastHeader = fetched.headers.getLast? ∧
      result.file = persistImportProgress options fetched world file := by
  intro result
  subst result
  unfold submitFetched at succeeds ⊢
  split
  · rename_i fits
    rw [dif_pos fits] at succeeds
    split
    · rename_i submitted
      rw [submitted] at succeeds
      cases succeeds
    · rename_i status after next submitted
      rw [submitted] at succeeds
      dsimp only at succeeds
      rcases submitHeaders_cases kernel clock _ submitted with
        ⟨-, fails⟩ | ⟨-, valid, -, imported⟩
      · have notOk := fails status rfl
        rw [notOk] at succeeds
        cases succeeds
        cases notOk
      · split
        · exact ⟨rfl, valid, by rw [imported], rfl⟩
        · rename_i failed
          rw [if_neg failed] at succeeds
          cases succeeds
          exact absurd rfl failed
  · rename_i tooLong
    rw [dif_neg tooLong] at succeeds
    cases succeeds

theorem perform_imports {call : ImportCall BlockState SnapshotState}
    {state : ImportState} (succeeds : call.Succeeds doubleSha256 state) :
    ∃ resolved fetched, Imports doubleSha256 call state resolved fetched := by
  unfold ImportCall.Succeeds at succeeds
  have performs : call.perform doubleSha256 state = importLiveSignetHeaders
    doubleSha256 call.kernel call.clock call.options call.nodeOptions call.world
      (call.adapter state) call.node state.file := rfl
  unfold importLiveSignetHeaders at performs
  split at performs
  · rw [performs] at succeeds
    cases succeeds
  split at performs
  · rw [performs] at succeeds
    cases succeeds
  rename_i resolved resolves
  rcases fetches : fetchHeaders doubleSha256 resolved call.world with
    ⟨status, fetched⟩
  rw [fetches] at performs
  dsimp only at performs
  split at performs
  · rename_i failed
    rw [performs] at succeeds
    cases succeeds
    cases failed
  rename_i fetchedOk
  split at performs
  · rw [performs] at succeeds
    cases succeeds
  rw [performs] at succeeds
  obtain ⟨result, valid, last, file⟩ := submitFetched_imports succeeds
  refine ⟨resolved, fetched, resolves, ⟨status, fetches, by simpa using fetchedOk⟩,
    ?_, valid, ?_, ?_⟩
  · rw [performs, result]
  · rw [performs, last]
  · rw [performs, file]

namespace ImportCall

/-- Where an import starts when the given locator has been persisted: there, if
the state file can be opened, else at the locator that it is called with. -/
def locator (call : ImportCall BlockState SnapshotState) (persisted : Locator) :
    Locator :=
  if call.world.readable then persisted
  else (call.options.locatorHeight, call.options.locatorHashHex)

/-- The headers message with which the peers answer. -/
def reply (call : ImportCall BlockState SnapshotState) (persisted : Locator) :
    Option (Span UInt8) :=
  match call.world.endpoints,
    encodeGetHeadersPayload (call.locator persisted).2 with
  | some endpoints, some getHeaders =>
      (receiveHeaders getHeaders call.options.port call.world.now endpoints
        {}).1.map Prod.fst
  | _, _ => none

/-- The first header that is imported continues what was persisted. -/
def Continues (doubleSha256 : ByteString → Hash256)
    (call : ImportCall BlockState SnapshotState) (state : ImportState) : Prop :=
  ∀ persisted ∈ state.persisted,
    ∀ fetched ∈ (call.perform doubleSha256 state).liveResult,
      ∀ first ∈ fetched.headers.head?,
        first.previousHashHex = persisted.2 ∧ first.height = persisted.1 + 1

/-- The adapter still has the last header, or the import starts at the persisted
height and the peers answer with headers behind the persisted hash. -/
def IsAnsweredBehind (call : ImportCall BlockState SnapshotState)
    (state : ImportState) : Prop :=
  (call.adapter state).lastHeader = none →
    ∀ persisted ∈ state.persisted,
      (call.locator persisted).1 = persisted.1 ∧
        ∀ payload ∈ call.reply persisted,
          firstPreviousHash payload = persisted.2

end ImportCall

/-- What was persisted is in the state file, and is the last header of the
adapter, if it has one. -/
def ImportState.Resumable (state : ImportState) : Prop :=
  ∀ persisted ∈ state.persisted,
    state.file = some (importStateText persisted.1 persisted.2) ∧
      10 ∉ persisted.2 ∧
      ∀ last ∈ state.adapter.lastHeader,
        last.height = persisted.1 ∧ last.hashHex = persisted.2

theorem resolveImportOptions_keeps {options resolved : SignetLiveOptions}
    {nodeOptions : NodeOptions} {file : Option ByteString} {readable : Bool}
    (resolves : resolveImportOptions options nodeOptions file readable =
      .ok resolved) :
    resolved.stateRoot = resolveStateRoot options nodeOptions ∧
      resolved.port = options.port := by
  unfold resolveImportOptions at resolves
  dsimp only at resolves
  split at resolves
  · cases resolves
    exact ⟨rfl, rfl⟩
  · cases loaded : loadImportState file readable with
    | error fault =>
        rw [loaded] at resolves
        cases resolves
    | ok found =>
        rw [loaded] at resolves
        cases found with
        | none =>
            cases resolves
            exact ⟨rfl, rfl⟩
        | some locator =>
            cases resolves
            exact ⟨rfl, rfl⟩

/-- An import over a state file starts at the locator in the file. -/
theorem resolveImportOptions_resumes {options resolved : SignetLiveOptions}
    {nodeOptions : NodeOptions} {persisted : Locator} {readable : Bool}
    (rootGiven : resolveStateRoot options nodeOptions ≠ [])
    (oneLine : 10 ∉ persisted.2)
    (resolves : resolveImportOptions options nodeOptions
      (some (importStateText persisted.1 persisted.2)) readable = .ok resolved) :
    (resolved.locatorHeight, resolved.locatorHashHex) =
      if readable then persisted
      else (options.locatorHeight, options.locatorHashHex) := by
  unfold resolveImportOptions at resolves
  dsimp only at resolves
  rw [if_neg rootGiven] at resolves
  cases readable with
  | true =>
      rw [loadImportState_importStateText oneLine] at resolves
      cases resolves
      rfl
  | false =>
      cases resolves
      rfl

section Steps

variable {call : ImportCall BlockState SnapshotState} {state : ImportState}

/-- A successful import leaves what the next one resumes from. -/
theorem importStep_resumable
    (rootGiven : resolveStateRoot call.options call.nodeOptions ≠ [])
    (succeeds : call.Succeeds doubleSha256 state) :
    (importStep doubleSha256 call state).Resumable := by
  obtain ⟨resolved, fetched, imports⟩ := perform_imports succeeds
  obtain ⟨status, fetches, fetchedOk⟩ := imports.fetches
  obtain ⟨-, -, -, -, -, -, -, oneLine, -⟩ :=
    fetchHeaders_fetches fetches fetchedOk
  intro persisted member
  simp only [importStep, imports.result, ImportCall.persists] at member
  split at member
  · rename_i written
    obtain ⟨last, isLast, rfl⟩ := Option.map_eq_some_iff.mp member
    refine ⟨?_, oneLine last (List.mem_of_getLast? isLast), ?_⟩
    · have rootKept := (resolveImportOptions_keeps imports.resolves).1
      have stays : ¬ (resolved.stateRoot = [] ∨ ¬ call.world.created ∨
          ¬ call.world.writable) := by
        rw [rootKept]
        simp [rootGiven, written]
      simp only [importStep]
      rw [imports.file, persistImportProgress, isLast]
      exact if_neg stays
    · intro header isHeader
      simp only [importStep] at isHeader
      rw [imports.last, isLast] at isHeader
      cases isHeader
      exact ⟨rfl, rfl⟩
  · cases member

/-- An adapter with a last header is the one from before. -/
theorem adapter_of_last {last : Header}
    (hasLast : (call.adapter state).lastHeader = some last) :
    call.adapter state = state.adapter := by
  unfold ImportCall.adapter at hasLast ⊢
  cases restarted : call.restart with
  | none => rfl
  | some options =>
      rw [restarted] at hasLast
      cases hasLast

/-- What continuing means for the first header that was fetched. -/
theorem continues_of_result {fetched : SignetHeadersResult} {first : Header}
    (result : (call.perform doubleSha256 state).liveResult = some fetched)
    (isFirst : fetched.headers.head? = some first) :
    call.Continues doubleSha256 state ↔ ∀ persisted ∈ state.persisted,
      first.previousHashHex = persisted.2 ∧ first.height = persisted.1 + 1 := by
  constructor
  · intro continues persisted member
    exact continues persisted member fetched result first isFirst
  · intro behind persisted member other isFetched header isHeader
    rw [result] at isFetched
    cases isFetched
    rw [isFirst] at isHeader
    cases isHeader
    exact behind persisted member

/-- The adapter has compared the first header with its last one, which is what
was persisted. -/
theorem continues_of_last (resumable : state.Resumable) {last first : Header}
    (hasLast : (call.adapter state).lastHeader = some last)
    (follows : Follows last first) : ∀ persisted ∈ state.persisted,
      first.previousHashHex = persisted.2 ∧ first.height = persisted.1 + 1 := by
  intro persisted member
  rw [adapter_of_last hasLast] at hasLast
  obtain ⟨sameHeight, sameHash⟩ := (resumable persisted member).2.2 last hasLast
  rw [← sameHeight, ← sameHash]
  exact ⟨follows.2, follows.1⟩

/-- A successful import continues what was persisted exactly when the adapter
was not restarted or the peers answer so. -/
theorem continues_iff (resumable : state.Resumable)
    (rootGiven : resolveStateRoot call.options call.nodeOptions ≠ [])
    (succeeds : call.Succeeds doubleSha256 state) :
    call.Continues doubleSha256 state ↔ call.IsAnsweredBehind state := by
  obtain ⟨resolved, fetched, imports⟩ := perform_imports succeeds
  obtain ⟨status, fetches, fetchedOk⟩ := imports.fetches
  obtain ⟨endpoints, getHeaders, payload, address, isHost, isRequest, received, -,
    first, isFirst, previous, height⟩ := fetchHeaders_fetches fetches fetchedOk
  rw [continues_of_result imports.result isFirst]
  cases hasLast : (call.adapter state).lastHeader with
  | some last =>
      have follows : Follows last first :=
        (validateHeaders_accepted imports.valid).2.2 last hasLast first isFirst
      apply iff_of_true (continues_of_last resumable hasLast follows)
      intro restarted
      rw [hasLast] at restarted
      cases restarted
  | none =>
      have starts : ∀ persisted ∈ state.persisted,
          (resolved.locatorHeight, resolved.locatorHashHex) =
            call.locator persisted := by
        intro persisted member
        obtain ⟨isFile, oneLine, -⟩ := resumable persisted member
        have resolves := imports.resolves
        rw [isFile] at resolves
        exact resolveImportOptions_resumes rootGiven oneLine resolves
      have replies : ∀ persisted ∈ state.persisted,
          call.reply persisted = some payload := by
        intro persisted member
        have hash := congrArg Prod.snd (starts persisted member)
        have port := (resolveImportOptions_keeps imports.resolves).2
        rw [port] at received
        unfold ImportCall.reply
        rw [isHost, ← hash, isRequest]
        dsimp only
        rw [received]
        rfl
      constructor
      · intro continues _ persisted member
        obtain ⟨sameHash, sameHeight⟩ := continues persisted member
        rw [height] at sameHeight
        refine ⟨?_, ?_⟩
        · rw [← starts persisted member]
          exact (UInt32.add_left_inj 1).mp sameHeight
        · intro answer isAnswer
          rw [replies persisted member] at isAnswer
          cases isAnswer
          rw [← previous, sameHash]
      · intro answered persisted member
        obtain ⟨sameHeight, behind⟩ := answered hasLast persisted member
        rw [← starts persisted member] at sameHeight
        refine ⟨?_, ?_⟩
        · rw [previous, behind payload (replies persisted member)]
        · rw [height]
          exact congrArg (· + 1) sameHeight

end Steps

/-- A successful import over the given state root. -/
def ImportCall.SucceedsAt (doubleSha256 : ByteString → Hash256)
    (root : ByteString) (call : ImportCall BlockState SnapshotState)
    (state : ImportState) : Prop :=
  resolveStateRoot call.options call.nodeOptions = root ∧
    call.Succeeds doubleSha256 state

/-- A run of successful imports over one state root, from any state file on,
continues the chain at every import exactly when every import behind a restart
starts at the persisted height and is answered with headers behind the
persisted hash. -/
theorem imports_continue_iff (doubleSha256 : ByteString → Hash256)
    {root : ByteString} (rootGiven : root ≠ []) (options : Options)
    (file : Option ByteString) (calls : List (ImportCall BlockState SnapshotState))
    (succeed : RunsWithin (importStep doubleSha256)
      (ImportCall.SucceedsAt doubleSha256 root) calls
      { adapter := { options, bound := true }, file }) :
    RunsWithin (importStep doubleSha256) (ImportCall.Continues doubleSha256) calls
        { adapter := { options, bound := true }, file } ↔
      RunsWithin (importStep doubleSha256) ImportCall.IsAnsweredBehind calls
        { adapter := { options, bound := true }, file } := by
  have kept (call : ImportCall BlockState SnapshotState) (state : ImportState)
      (_ : state.Resumable) (succeeds : call.SucceedsAt doubleSha256 root state)
      (_ : call.Continues doubleSha256 state) :
      (importStep doubleSha256 call state).Resumable := by
    obtain ⟨sameRoot, succeeds⟩ := succeeds
    apply importStep_resumable _ succeeds
    rwa [sameRoot]
  apply runsWithin_iff_within kept _ calls _ _ succeed
  · rintro call state resumable ⟨sameRoot, succeeds⟩
    apply continues_iff resumable _ succeeds
    rwa [sameRoot]
  · intro persisted none
    cases none

instance (doubleSha256 : ByteString → Hash256) (root : ByteString)
    (call : ImportCall BlockState SnapshotState) (state : ImportState) :
    Decidable (call.SucceedsAt doubleSha256 root state) :=
  inferInstanceAs (Decidable (_ ∧ _ = _))

instance (doubleSha256 : ByteString → Hash256)
    (call : ImportCall BlockState SnapshotState) (state : ImportState) :
    Decidable (call.Continues doubleSha256 state) := by
  unfold ImportCall.Continues
  infer_instance

instance (call : ImportCall BlockState SnapshotState) (state : ImportState) :
    Decidable (call.IsAnsweredBehind state) := by
  unfold ImportCall.IsAnsweredBehind
  infer_instance

/-- A payload with one header, which claims the given previous hash. -/
def oneHeader (previous : UInt8) : Span UInt8 where
  items := [1] ++ List.replicate 4 0 ++ List.replicate 32 previous ++
    List.replicate 44 0 ++ [0]
  length_lt := by simp

/-- A peer that greets and sends one header, whatever it is asked for. -/
def headerPeer (previous : UInt8) : Endpoint where
  socket :=
    { incoming :=
        [⟨ascii "version", ⟨[], by decide⟩⟩, ⟨ascii "verack", ⟨[], by decide⟩⟩,
          ⟨ascii "headers", oneHeader previous⟩]
      sends := [true, true, true] }

/-- An import from that peer into a new node. -/
def importFrom (previous : UInt8) (restart : Option Options) :
    ImportCall Storage.MemoryBlocks (Option ChainSnapshot) where
  restart := restart
  options := { stateRoot := ascii "root" }
  world := { endpoints := some [headerPeer previous] }
  kernel := Storage.inMemoryKernel {}
  clock := fun _ => 0
  node := { running := true, kernelState := Storage.inMemoryStart }

/-- After a restart the peers answer with a header behind the persisted one, and
the import continues. -/
theorem imports_continue_answered :
    RunsWithin (importStep fun _ => Hash.zero)
      (ImportCall.Continues fun _ => Hash.zero)
      [importFrom 7 none, importFrom 0 (some {})] { adapter := { bound := true } } := by
  have answered : RunsWithin (importStep fun _ => Hash.zero)
      ImportCall.IsAnsweredBehind [importFrom 7 none, importFrom 0 (some {})]
      { adapter := { bound := true } } := by
    decide +kernel
  exact (imports_continue_iff (fun _ => Hash.zero)
    (show ascii "root" ≠ [] by decide) {} none _ (by decide +kernel)).mpr answered

/-- After a restart the peers answer with a header that claims another previous
hash, and it is imported. -/
theorem imports_not_continued :
    ¬ ∀ (doubleSha256 : ByteString → Hash256) (root : ByteString)
        (options : Options) (file : Option ByteString)
        (calls : List (ImportCall Storage.MemoryBlocks (Option ChainSnapshot))),
      root ≠ [] →
      RunsWithin (importStep doubleSha256)
        (ImportCall.SucceedsAt doubleSha256 root) calls
        { adapter := { options, bound := true }, file } →
      RunsWithin (importStep doubleSha256) (ImportCall.Continues doubleSha256)
        calls { adapter := { options, bound := true }, file } := by
  intro always
  have continued := always (fun _ => Hash.zero) (ascii "root") {} none
    [importFrom 7 none, importFrom 7 (some {})] (by decide) (by decide +kernel)
  revert continued
  decide +kernel
end Bitcoin

end Blocxxi
