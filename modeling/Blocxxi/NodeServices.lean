import Blocxxi.NodeFacade
import Mathlib.Logic.Function.Basic

/-!
# The services of a node

A node keeps its services in the order of their registration and polls those
that are due, one pass after the other.  The services are outside of the node:
what they answer is an argument of the calls.  Integers are exact, and the steady
clock counts nanoseconds.
-/

namespace Blocxxi

namespace Node

open Blocxxi.Core Cxx Chain

inductive StorageMode
  | inMemory
  | fileSystem
  deriving DecidableEq, Repr

structure NodeOptions where
  chain : ChainConfig := {}
  storageMode : StorageMode := .inMemory
  storageRoot : ByteString := []
  startDiscovery : Bool := false
  discoveryName : ByteString := ascii "blocxxi.p2p"

/-- Durations are in milliseconds. -/
structure ServicePolicy where
  interval : Int := 1000
  retryBackoff : Int := 250
  maxRetries : Nat := 3

structure ServiceState where
  name : ByteString := []
  started : Bool := false
  runCount : Nat := 0
  failureCount : Nat := 0
  lastSuccessUtc : Int := 0
  lastError : String := ""
  checkpoint : ByteString := []
  nextRunUtc : Int := 0

/-- One call of `Poll`: the reading of its pass, its status and the text that
`Checkpoint` returns behind it. -/
structure PollRecord where
  now : Int
  status : Status
  checkpoint : ByteString

/-- A registered service, with the calls of `Poll` that it has seen. -/
structure ManagedService where
  policy : ServicePolicy := {}
  state : ServiceState := {}
  nextDue : Int
  polls : List PollRecord := []

def setStarted (started : Bool) (entry : ManagedService) : ManagedService :=
  { entry with state := { entry.state with started := started } }

/-- What a service answers in one pass, and the clock reading in UTC. -/
structure ServiceOutcome where
  start : Status := .success ""
  poll : Status := .success ""
  checkpoint : ByteString := []
  utc : Int := 0

/-- A duration in milliseconds, as one of the steady clock. -/
def steadyDuration (milliseconds : Int) : Int := 1000000 * milliseconds

/-- A duration in milliseconds, cast to seconds. -/
def secondsOf (milliseconds : Int) : Int := milliseconds.tdiv 1000

/-- The files under the storage root, by their paths. -/
abbrev Files := ByteString → Option ByteString

/-- A path extended by a relative one. -/
def pathAppend (left right : ByteString) : ByteString :=
  if left = [] ∨ left.getLast? = some 47 then left ++ right
  else left ++ 47 :: right

def resolveServiceRoot (options : NodeOptions) : ByteString :=
  let root :=
    if options.storageRoot = [] then
      if options.chain.dataDirectory = [] then ascii ".blocxxi"
      else options.chain.dataDirectory
    else options.storageRoot
  pathAppend root (ascii "services")

def sanitizeCharacter (character : UInt8) : UInt8 :=
  let safe := (97 ≤ character && character ≤ 122) ||
    (65 ≤ character && character ≤ 90) || (48 ≤ character && character ≤ 57) ||
      character == 45 || character == 95
  if safe then character else 45

def sanitizeServiceName (name : ByteString) : ByteString :=
  name.map sanitizeCharacter

def checkpointPath (options : NodeOptions) (serviceName : ByteString) : ByteString :=
  pathAppend (resolveServiceRoot options)
    (sanitizeServiceName serviceName ++ ascii ".checkpoint")

def persistCheckpoint (options : NodeOptions) (entry : ManagedService)
    (files : Files) : Files :=
  if options.storageMode ≠ .fileSystem then files
  else Function.update files (checkpointPath options entry.state.name)
    (some entry.state.checkpoint)

/-- The text that a service of this name is restored with. -/
def storedCheckpoint (options : NodeOptions) (serviceName : ByteString)
    (files : Files) : Option ByteString :=
  if options.storageMode ≠ .fileSystem then none
  else files (checkpointPath options serviceName)

/-- Hand the stored text to the service, which answers with a status. -/
def restoreCheckpoint (options : NodeOptions) (restore : Status) (files : Files)
    (entry : ManagedService) : ManagedService :=
  match storedCheckpoint options entry.state.name files with
  | none => entry
  | some data =>
      { entry with
        state := { entry.state with
          checkpoint := data
          lastError :=
            if restore.isOk then entry.state.lastError else restore.message } }

structure ServiceHost (BlockState SnapshotState : Type) where
  node : NodeState BlockState SnapshotState
  services : List ManagedService := []
  files : Files := fun _ => none

/-- A service as it is registered: its name, its policy, the clock readings and its
answer to a restored checkpoint. -/
structure Registration where
  name : ByteString
  policy : ServicePolicy := {}
  steady : Int := 0
  utc : Int := 0
  restore : Status := .success ""

variable {BlockState SnapshotState : Type}

def emitService (type : EventType) (message : ByteString)
    (node : NodeState BlockState SnapshotState) :
    NodeState BlockState SnapshotState :=
  emit { type := type, message := message, snapshot := snapshotNow node } node

/-- The entry of a service that is registered over the stored files. -/
def registeredEntry (options : NodeOptions) (service : Registration)
    (files : Files) : ManagedService :=
  restoreCheckpoint options service.restore files
    { policy := service.policy
      state := { name := service.name, nextRunUtc := service.utc }
      nextDue := service.steady }

def registerService (options : NodeOptions) (service : Registration)
    (host : ServiceHost BlockState SnapshotState) :
    ServiceHost BlockState SnapshotState :=
  { host with
    services := host.services ++ [registeredEntry options service host.files]
    node := emitService .serviceRegistered service.name host.node }

def failureText (entry : ManagedService) (status : Status) : ByteString :=
  entry.state.name ++ ascii ": " ++ ascii status.message

/-- The entry behind a poll that succeeded. -/
def completePoll (now : Int) (outcome : ServiceOutcome) (entry : ManagedService) :
    ManagedService :=
  { entry with
    state := { entry.state with
      runCount := entry.state.runCount + 1
      failureCount := 0
      lastSuccessUtc := outcome.utc
      lastError := ""
      checkpoint := outcome.checkpoint
      nextRunUtc := outcome.utc + secondsOf entry.policy.interval }
    nextDue := now + steadyDuration entry.policy.interval
    polls := entry.polls ++ [⟨now, outcome.poll, outcome.checkpoint⟩] }

/-- The entry behind a poll that failed. -/
def failPoll (now : Int) (outcome : ServiceOutcome) (entry : ManagedService) :
    ManagedService :=
  let failureCount := entry.state.failureCount + 1
  let backoff := entry.policy.retryBackoff * failureCount
  { entry with
    state := { entry.state with
      failureCount := failureCount
      lastError := outcome.poll.message
      nextRunUtc := outcome.utc + secondsOf backoff }
    nextDue := now + steadyDuration backoff
    polls := entry.polls ++ [⟨now, outcome.poll, outcome.checkpoint⟩] }

/-- A service that has been started is polled if it is due. -/
def pollService (options : NodeOptions) (now : Int) (outcome : ServiceOutcome)
    (entry : ManagedService) (node : NodeState BlockState SnapshotState)
    (files : Files) :
    Status × ManagedService × NodeState BlockState SnapshotState × Files :=
  if now < entry.nextDue then (.success "", entry, node, files)
  else if outcome.poll.isOk then
    let entry := completePoll now outcome entry
    let files := persistCheckpoint options entry files
    (.success "", entry, emitService .serviceCompleted entry.state.name node, files)
  else
    let entry := failPoll now outcome entry
    let node := emitService .serviceFailed (failureText entry outcome.poll) node
    if entry.policy.maxRetries < entry.state.failureCount then
      (outcome.poll, entry, node, files)
    else (.success "", entry, node, files)

def runManagedServiceOnce (options : NodeOptions) (now : Int)
    (outcome : ServiceOutcome) (entry : ManagedService)
    (node : NodeState BlockState SnapshotState) (files : Files) :
    Status × ManagedService × NodeState BlockState SnapshotState × Files :=
  if !entry.state.started then
    if !outcome.start.isOk then
      let entry :=
        { entry with
          state := { entry.state with lastError := outcome.start.message } }
      (outcome.start, entry,
        emitService .serviceFailed (failureText entry outcome.start) node, files)
    else
      let entry := setStarted true entry
      pollService options now outcome entry
        (emitService .serviceStarted entry.state.name node) files
  else pollService options now outcome entry node files

/-- The loop of a pass over the services; `index` counts them, and the status is
the last one that failed. -/
def runServices (options : NodeOptions) (now : Int)
    (outcomes : Nat → ServiceOutcome) (index : Nat) (overall : Status) :
    List ManagedService → NodeState BlockState SnapshotState → Files →
      Status × List ManagedService × NodeState BlockState SnapshotState × Files
  | [], node, files => (overall, [], node, files)
  | entry :: entries, node, files =>
      let (status, entry, node, files) :=
        runManagedServiceOnce options now (outcomes index) entry node files
      let overall := if !status.isOk then status else overall
      let (overall, entries, node, files) :=
        runServices options now outcomes (index + 1) overall entries node files
      (overall, entry :: entries, node, files)

variable (kernel : Kernel BlockState SnapshotState)

def runServicesOnce (options : NodeOptions) (now : Int)
    (outcomes : Nat → ServiceOutcome)
    (host : ServiceHost BlockState SnapshotState) :
    Status × ServiceHost BlockState SnapshotState :=
  if !host.node.running then
    (.failure .rejected "node must be started before running services", host)
  else
    let (overall, services, node, files) :=
      runServices options now outcomes 0 (.success "") host.services host.node
        host.files
    (overall, { node := node, services := services, files := files })

/-- Start the node; `utc` is the clock reading of a genesis block.  The node is
running from before discovery is attached. -/
def start (options : NodeOptions) (utc : Int64)
    (host : ServiceHost BlockState SnapshotState) :
    Except Fault Status × ServiceHost BlockState SnapshotState :=
  if host.node.running then (.ok (.success "node already running"), host)
  else
    let node := emitService .nodeStarting (ascii "starting node") host.node
    let (bootstrapped, kernelState) := kernel.bootstrap utc node.kernelState
    let node := { node with kernelState := kernelState }
    match bootstrapped with
    | .error fault => (.error fault, { host with node := node })
    | .ok status =>
        if !status.isOk then (.ok status, { host with node := node })
        else
          let node := { node with running := true }
          let (discoveryStatus, node) :=
            if options.startDiscovery then
              attachDiscovery options.discoveryName node
            else (.success "", node)
          if !discoveryStatus.isOk then
            (.ok discoveryStatus, { host with node := node })
          else
            (.ok (.success ""), { host with
              node := emitService .nodeStarted (ascii "node running") node })

def stopService (status : Status) (entry : ManagedService)
    (node : NodeState BlockState SnapshotState) :
    ManagedService × NodeState BlockState SnapshotState :=
  if !entry.state.started then (entry, node)
  else if !status.isOk then
    (setStarted false entry,
      emitService .serviceFailed (failureText entry status) node)
  else (setStarted false entry, node)

/-- The loop of `Stop` over the services. -/
def stopServices (outcomes : Nat → Status) (index : Nat) :
    List ManagedService → NodeState BlockState SnapshotState →
      List ManagedService × NodeState BlockState SnapshotState
  | [], node => ([], node)
  | entry :: entries, node =>
      let (entry, node) := stopService (outcomes index) entry node
      let (entries, node) := stopServices outcomes (index + 1) entries node
      (entry :: entries, node)

def stop (outcomes : Nat → Status) (host : ServiceHost BlockState SnapshotState) :
    Status × ServiceHost BlockState SnapshotState :=
  if !host.node.running then (.success "node already stopped", host)
  else
    let (services, node) := stopServices outcomes 0 host.services host.node
    let node := { node with running := false }
    (.success "", { host with
      services := services
      node := emitService .nodeStopped (ascii "node stopped") node })

def submitBlock (block : Block) (node : NodeState BlockState SnapshotState) :
    Status × NodeState BlockState SnapshotState :=
  if !node.running then
    (.failure .rejected "node must be started before submitting blocks", node)
  else
    let (status, kernelState) := kernel.commitBlock block node.kernelState
    let node := { node with kernelState := kernelState }
    if status.isOk then
      (status, emit
        { type := .blockCommitted
          message := ascii "block committed"
          snapshot := snapshotNow node
          block := some block } node)
    else (status, node)

/-- A call of a node with services, with what the clocks and the services answer
to it. -/
inductive HostCall
  | start (utc : Int64)
  | stop (outcomes : Nat → Status)
  | runServicesOnce (now : Int) (outcomes : Nat → ServiceOutcome)

/-- The result of a call and the state it leaves. -/
def hostCall (options : NodeOptions) (call : HostCall)
    (host : ServiceHost BlockState SnapshotState) :
    Except Fault Status × ServiceHost BlockState SnapshotState :=
  match call with
  | .start utc => start kernel options utc host
  | .stop outcomes => (.ok (stop outcomes host).1, (stop outcomes host).2)
  | .runServicesOnce now outcomes =>
      (.ok (runServicesOnce options now outcomes host).1,
        (runServicesOnce options now outcomes host).2)

def hostStep (options : NodeOptions) (call : HostCall)
    (host : ServiceHost BlockState SnapshotState) :
    ServiceHost BlockState SnapshotState :=
  (hostCall kernel options call host).2

/-- Register services one after the other. -/
def registerServices (options : NodeOptions) (services : List Registration)
    (host : ServiceHost BlockState SnapshotState) :
    ServiceHost BlockState SnapshotState :=
  services.foldl (fun host service => registerService options service host) host

/-- A node before its first start, with its services registered. -/
def stoppedHost (options : NodeOptions)
    (kernelState : KernelState BlockState SnapshotState)
    (services : List Registration) (files : Files) :
    ServiceHost BlockState SnapshotState :=
  registerServices options services
    { node := { kernelState := kernelState }, files := files }

/-- The service is polled: it has been started, now or before, and is due. -/
def IsPolled (now : Int) (outcome : ServiceOutcome) (entry : ManagedService) : Prop :=
  (entry.state.started = true ∨ outcome.start.isOk = true) ∧ entry.nextDue ≤ now

instance (now : Int) (outcome : ServiceOutcome) (entry : ManagedService) :
    Decidable (IsPolled now outcome entry) :=
  inferInstanceAs (Decidable (_ ∧ _))

/-- The service fails the pass: it cannot be started, or its poll fails more often
in a row than it may be retried. -/
def FailsPass (now : Int) (outcome : ServiceOutcome) (entry : ManagedService) : Prop :=
  (entry.state.started = false ∧ outcome.start.isOk = false) ∨
    (IsPolled now outcome entry ∧ outcome.poll.isOk = false ∧
      entry.policy.maxRetries < entry.state.failureCount + 1)

/-- The entry behind a pass. -/
def entryAfterPass (now : Int) (outcome : ServiceOutcome) (entry : ManagedService) :
    ManagedService :=
  if entry.state.started = false ∧ outcome.start.isOk = false then
    { entry with state := { entry.state with lastError := outcome.start.message } }
  else
    if now < entry.nextDue then setStarted true entry
    else if outcome.poll.isOk then completePoll now outcome (setStarted true entry)
    else failPoll now outcome (setStarted true entry)

section Fields

variable (started : Bool) (entry : ManagedService)

@[simp]
theorem setStarted_policy : (setStarted started entry).policy = entry.policy := rfl

@[simp]
theorem setStarted_nextDue : (setStarted started entry).nextDue = entry.nextDue := rfl

@[simp]
theorem setStarted_polls : (setStarted started entry).polls = entry.polls := rfl

@[simp]
theorem setStarted_started : (setStarted started entry).state.started = started := rfl

@[simp]
theorem setStarted_name : (setStarted started entry).state.name = entry.state.name := rfl

@[simp]
theorem setStarted_runCount :
    (setStarted started entry).state.runCount = entry.state.runCount := rfl

@[simp]
theorem setStarted_failureCount :
    (setStarted started entry).state.failureCount = entry.state.failureCount := rfl

@[simp]
theorem setStarted_checkpoint :
    (setStarted started entry).state.checkpoint = entry.state.checkpoint := rfl

end Fields

theorem setStarted_eq {entry : ManagedService} {started : Bool}
    (already : entry.state.started = started) : setStarted started entry = entry := by
  subst already
  rfl

section Pass

variable (options : NodeOptions) (now : Int) (outcome : ServiceOutcome)
variable (entry : ManagedService) (node : NodeState BlockState SnapshotState)
variable (files : Files)

/-- A pass starts the service, if that succeeds, and goes on to poll it. -/
theorem runManagedServiceOnce_started
    (starts : entry.state.started = true ∨ outcome.start.isOk = true) :
    ∃ startedNode, runManagedServiceOnce options now outcome entry node files =
      pollService options now outcome (setStarted true entry) startedNode files ∧
      startedNode = if entry.state.started then node
        else emitService .serviceStarted entry.state.name node := by
  cases started : entry.state.started with
  | true =>
      refine ⟨node, ?_, by simp⟩
      rw [setStarted_eq started]
      simp [runManagedServiceOnce, started]
  | false =>
      have startOk : outcome.start.isOk = true := by simpa [started] using starts
      refine ⟨emitService .serviceStarted entry.state.name node, ?_, by simp⟩
      simp only [runManagedServiceOnce, started, startOk]
      rfl

theorem pollService_early (early : now < entry.nextDue) :
    pollService options now outcome entry node files =
      (.success "", entry, node, files) := by
  rw [pollService, if_pos early]

theorem pollService_completed (due : ¬ now < entry.nextDue)
    (completed : outcome.poll.isOk = true) :
    pollService options now outcome entry node files =
      (.success "", completePoll now outcome entry,
        emitService .serviceCompleted entry.state.name node,
        persistCheckpoint options (completePoll now outcome entry) files) := by
  rw [pollService, if_neg due, if_pos completed]
  rfl

theorem pollService_failed (due : ¬ now < entry.nextDue)
    (failed : outcome.poll.isOk = false) :
    pollService options now outcome entry node files =
      (if entry.policy.maxRetries < entry.state.failureCount + 1 then outcome.poll
        else .success "",
        failPoll now outcome entry,
        emitService .serviceFailed (failureText entry outcome.poll) node, files) := by
  rw [pollService, if_neg due, if_neg (by simp [failed])]
  change (if entry.policy.maxRetries < entry.state.failureCount + 1 then _ else _) = _
  split <;> rfl

/-- The four ways in which a pass treats a service. -/
theorem runManagedServiceOnce_cases :
    (entry.state.started = false ∧ outcome.start.isOk = false ∧
      runManagedServiceOnce options now outcome entry node files =
        (outcome.start,
          { entry with
            state := { entry.state with lastError := outcome.start.message } },
          emitService .serviceFailed (failureText entry outcome.start) node, files)) ∨
    (entry.state.started = true ∨ outcome.start.isOk = true) ∧
      ∃ startedNode,
        (startedNode = if entry.state.started then node
          else emitService .serviceStarted entry.state.name node) ∧
        ((now < entry.nextDue ∧
            runManagedServiceOnce options now outcome entry node files =
              (.success "", setStarted true entry, startedNode, files)) ∨
          (entry.nextDue ≤ now ∧ outcome.poll.isOk = true ∧
            runManagedServiceOnce options now outcome entry node files =
              (.success "", completePoll now outcome (setStarted true entry),
                emitService .serviceCompleted entry.state.name startedNode,
                persistCheckpoint options
                  (completePoll now outcome (setStarted true entry)) files)) ∨
          (entry.nextDue ≤ now ∧ outcome.poll.isOk = false ∧
            runManagedServiceOnce options now outcome entry node files =
              (if entry.policy.maxRetries < entry.state.failureCount + 1 then
                  outcome.poll
                else .success "",
                failPoll now outcome (setStarted true entry),
                emitService .serviceFailed (failureText entry outcome.poll)
                  startedNode, files))) := by
  by_cases starts : entry.state.started = true ∨ outcome.start.isOk = true
  · right
    obtain ⟨startedNode, isPoll, isStarted⟩ :=
      runManagedServiceOnce_started options now outcome entry node files starts
    refine ⟨starts, startedNode, isStarted, ?_⟩
    rw [isPoll]
    by_cases early : now < entry.nextDue
    · exact Or.inl ⟨early, pollService_early _ _ _ _ _ _ early⟩
    · right
      cases polled : outcome.poll.isOk with
      | true =>
          exact Or.inl ⟨not_lt.mp early, rfl,
            pollService_completed _ _ _ _ _ _ early polled⟩
      | false =>
          exact Or.inr ⟨not_lt.mp early, rfl,
            pollService_failed _ _ _ _ _ _ early polled⟩
  · left
    simp only [not_or, Bool.not_eq_true] at starts
    refine ⟨starts.1, starts.2, ?_⟩
    simp only [runManagedServiceOnce, starts]
    rfl

theorem runManagedServiceOnce_entry :
    (runManagedServiceOnce options now outcome entry node files).2.1 =
      entryAfterPass now outcome entry := by
  rcases runManagedServiceOnce_cases options now outcome entry node files with
    ⟨notStarted, startFailed, isPass⟩ | ⟨starts, startedNode, -, polled⟩
  · rw [isPass, entryAfterPass, if_pos ⟨notStarted, startFailed⟩]
  · have notFailed :
        ¬ (entry.state.started = false ∧ outcome.start.isOk = false) := by
      rintro ⟨notStarted, startFailed⟩
      simp [notStarted, startFailed] at starts
    rw [entryAfterPass, if_neg notFailed]
    rcases polled with ⟨early, isPass⟩ | ⟨due, pollOk, isPass⟩ | ⟨due, pollFailed, isPass⟩
    · rw [if_pos early, isPass]
    · rw [if_neg (not_lt.mpr due), if_pos pollOk, isPass]
    · rw [if_neg (not_lt.mpr due), if_neg (Bool.not_eq_true _ ▸ pollFailed), isPass]

theorem runManagedServiceOnce_status :
    (runManagedServiceOnce options now outcome entry node files).1.isOk = false ↔
      FailsPass now outcome entry := by
  rcases runManagedServiceOnce_cases options now outcome entry node files with
    ⟨notStarted, startFailed, isPass⟩ | ⟨starts, startedNode, -, polled⟩
  · simp [isPass, FailsPass, notStarted, startFailed]
  · have notFailed :
        ¬ (entry.state.started = false ∧ outcome.start.isOk = false) := by
      rintro ⟨notStarted, startFailed⟩
      simp [notStarted, startFailed] at starts
    rw [FailsPass, IsPolled]
    rcases polled with ⟨early, isPass⟩ | ⟨due, pollOk, isPass⟩ | ⟨due, pollFailed, isPass⟩
    · simp [isPass, notFailed, not_le.mpr early]
    · simp [isPass, notFailed, pollOk]
    · by_cases exhausted : entry.policy.maxRetries < entry.state.failureCount + 1
      · simp [isPass, notFailed, starts, due, pollFailed, exhausted]
      · simp [isPass, notFailed, exhausted]

/-- Only a poll that succeeds writes a checkpoint. -/
theorem runManagedServiceOnce_files :
    (runManagedServiceOnce options now outcome entry node files).2.2.2 =
      if IsPolled now outcome entry ∧ outcome.poll.isOk = true then
        persistCheckpoint options (completePoll now outcome (setStarted true entry)) files
      else files := by
  rcases runManagedServiceOnce_cases options now outcome entry node files with
    ⟨notStarted, startFailed, isPass⟩ | ⟨starts, startedNode, -, polled⟩
  · rw [isPass, if_neg]
    rintro ⟨⟨starts, -⟩, -⟩
    simp [notStarted, startFailed] at starts
  · rcases polled with ⟨early, isPass⟩ | ⟨due, pollOk, isPass⟩ | ⟨due, pollFailed, isPass⟩
    · rw [isPass, if_neg]
      rintro ⟨⟨-, due⟩, -⟩
      omega
    · rw [isPass, if_pos ⟨⟨starts, due⟩, pollOk⟩]
    · have notCompleted : ¬ (IsPolled now outcome entry ∧ outcome.poll.isOk = true) := by
        rintro ⟨-, pollOk⟩
        simp [pollFailed] at pollOk
      rw [if_neg notCompleted, isPass]

/-- A pass changes the node only by service events. -/
theorem runManagedServiceOnce_node (kept : NodeState BlockState SnapshotState → Prop)
    (emitted : ∀ type message node,
      type ∈ [EventType.serviceStarted, .serviceCompleted, .serviceFailed] →
        kept node → kept (emitService type message node))
    (holds : kept node) :
    kept (runManagedServiceOnce options now outcome entry node files).2.2.1 := by
  rcases runManagedServiceOnce_cases options now outcome entry node files with
    ⟨-, -, isPass⟩ | ⟨-, startedNode, isStarted, polled⟩
  · rw [isPass]
    exact emitted _ _ _ (by simp) holds
  · have startedHolds : kept startedNode := by
      rw [isStarted]
      split
      · exact holds
      · exact emitted _ _ _ (by simp) holds
    rcases polled with ⟨-, isPass⟩ | ⟨-, -, isPass⟩ | ⟨-, -, isPass⟩
    · rw [isPass]
      exact startedHolds
    · rw [isPass]
      exact emitted _ _ _ (by simp) startedHolds
    · rw [isPass]
      exact emitted _ _ _ (by simp) startedHolds

end Pass

section Passes

variable (options : NodeOptions) (now : Int) (outcomes : Nat → ServiceOutcome)

/-- Every service is run once, whatever the others do. -/
theorem runServices_getElem? (entries : List ManagedService) (position : Nat)
    (index : Nat) (overall : Status) (node : NodeState BlockState SnapshotState)
    (files : Files) :
    (runServices options now outcomes index overall entries node files).2.1[position]? =
      entries[position]?.map
        (entryAfterPass now (outcomes (index + position))) := by
  induction entries generalizing position index overall node files with
  | nil => rfl
  | cons entry entries ih =>
      cases position with
      | zero =>
          simp [runServices, runManagedServiceOnce_entry]
      | succ position =>
          simp only [runServices, List.getElem?_cons_succ]
          rw [ih, Nat.add_right_comm]
          rfl

/-- A pass fails exactly if one of the services fails it. -/
theorem runServices_status (entries : List ManagedService) (index : Nat)
    (overall : Status) (node : NodeState BlockState SnapshotState) (files : Files) :
    (runServices options now outcomes index overall entries node files).1.isOk = false ↔
      overall.isOk = false ∨ ∃ position entry, entries[position]? = some entry ∧
        FailsPass now (outcomes (index + position)) entry := by
  induction entries generalizing index overall node files with
  | nil => simp [runServices]
  | cons entry entries ih =>
      have failed :=
        runManagedServiceOnce_status options now (outcomes index) entry node files
      simp only [runServices]
      rw [ih]
      constructor
      · rintro (overallFailed | ⟨position, other, isOther, fails⟩)
        · split at overallFailed
          · right
            exact ⟨0, entry, rfl, failed.mp overallFailed⟩
          · exact Or.inl overallFailed
        · right
          refine ⟨position + 1, other, isOther, ?_⟩
          rwa [← Nat.add_assoc, Nat.add_right_comm]
      · rintro (overallFailed | ⟨position, other, isOther, fails⟩)
        · left
          split
          · rename_i entryFailed
            simpa using entryFailed
          · exact overallFailed
        · cases position with
          | zero =>
              cases isOther
              left
              rw [if_pos (by simpa using failed.mpr fails)]
              exact failed.mpr fails
          | succ position =>
              right
              refine ⟨position, other, isOther, ?_⟩
              rwa [Nat.add_right_comm, Nat.add_assoc]

/-- What service events do not change is not changed by a pass. -/
theorem runServices_node (kept : NodeState BlockState SnapshotState → Prop)
    (emitted : ∀ type message node,
      type ∈ [EventType.serviceStarted, .serviceCompleted, .serviceFailed] →
        kept node → kept (emitService type message node))
    (entries : List ManagedService) (index : Nat) (overall : Status)
    (node : NodeState BlockState SnapshotState) (files : Files)
    (starts : kept node) :
    kept (runServices options now outcomes index overall entries node files).2.2.1 := by
  induction entries generalizing index overall node files with
  | nil => exact starts
  | cons entry entries ih =>
      apply ih
      exact runManagedServiceOnce_node _ _ _ _ _ _ kept emitted starts

end Passes

/-- The node behind the bootstrap of its kernel. -/
def bootstrappedNode (utc : Int64) (node : NodeState BlockState SnapshotState) :
    NodeState BlockState SnapshotState :=
  { emitService .nodeStarting (ascii "starting node") node with
    kernelState := (kernel.bootstrap utc node.kernelState).2 }

/-- A node that runs, with its discovery attached. -/
def attachedNode (options : NodeOptions) (node : NodeState BlockState SnapshotState) :
    NodeState BlockState SnapshotState :=
  if options.startDiscovery then
    (attachDiscovery options.discoveryName { node with running := true }).2
  else { node with running := true }

/-- The four ways in which a stopped node is started: the stores throw, the kernel
fails, discovery has no name, or the node starts. -/
theorem start_cases (options : NodeOptions) (utc : Int64)
    {host : ServiceHost BlockState SnapshotState}
    (stopped : host.node.running = false) :
    (∃ fault, (kernel.bootstrap utc host.node.kernelState).1 = .error fault ∧
      start kernel options utc host =
        (.error fault, { host with node := bootstrappedNode kernel utc host.node })) ∨
    ∃ status, (kernel.bootstrap utc host.node.kernelState).1 = .ok status ∧
      ((status.isOk = false ∧
          start kernel options utc host =
            (.ok status,
              { host with node := bootstrappedNode kernel utc host.node })) ∨
        (status.isOk = true ∧ options.startDiscovery = true ∧
          options.discoveryName = [] ∧
          start kernel options utc host =
            (.ok (.failure .invalidArgument "discovery service name is required"),
              { host with
                node := { bootstrappedNode kernel utc host.node with
                  running := true } })) ∨
        (status.isOk = true ∧
          ¬ (options.startDiscovery = true ∧ options.discoveryName = []) ∧
          start kernel options utc host =
            (.ok (.success ""), { host with
              node := emitService .nodeStarted (ascii "node running")
                (attachedNode options (bootstrappedNode kernel utc host.node)) }))) := by
  cases bootstrapped : (kernel.bootstrap utc host.node.kernelState).1 with
  | error fault =>
      left
      refine ⟨fault, rfl, ?_⟩
      simp [start, stopped, emitService, emit, bootstrapped, bootstrappedNode, snapshotNow]
  | ok status =>
      right
      refine ⟨status, rfl, ?_⟩
      cases succeeded : status.isOk with
      | false =>
          left
          simp [start, stopped, emitService, emit, bootstrapped, bootstrappedNode,
            snapshotNow, succeeded]
      | true =>
          right
          cases discovery : options.startDiscovery with
          | false =>
              right
              simp [start, stopped, emitService, emit, bootstrapped, bootstrappedNode,
                snapshotNow, succeeded, discovery, attachedNode]
          | true =>
              by_cases unnamed : options.discoveryName = []
              · left
                simp [start, stopped, emitService, emit, bootstrapped,
                  bootstrappedNode, snapshotNow, succeeded, discovery, unnamed,
                  attachDiscovery]
              · right
                simp [start, stopped, emitService, emit, bootstrapped,
                  bootstrappedNode, snapshotNow, succeeded, discovery, unnamed,
                  attachDiscovery, attachedNode]

/-- Starting the node does not touch the services. -/
theorem start_services (options : NodeOptions) (utc : Int64)
    (host : ServiceHost BlockState SnapshotState) :
    (start kernel options utc host).2.services = host.services ∧
      (start kernel options utc host).2.files = host.files := by
  cases running : host.node.running with
  | true => simp [start, running]
  | false =>
      rcases start_cases kernel options utc running with
        ⟨fault, -, started⟩ | ⟨status, -, ⟨-, started⟩ | ⟨-, -, -, started⟩ | ⟨-, -, started⟩⟩
      all_goals exact started ▸ ⟨rfl, rfl⟩

/-- Stopping marks every service as not started. -/
theorem stopServices_services (outcomes : Nat → Status) (index : Nat)
    (entries : List ManagedService) (node : NodeState BlockState SnapshotState) :
    (stopServices outcomes index entries node).1 =
      entries.map (setStarted false) := by
  induction entries generalizing index node with
  | nil => rfl
  | cons entry entries ih =>
      have stopped : (stopService (outcomes index) entry node).1 =
          setStarted false entry := by
        unfold stopService
        split
        · rename_i notStarted
          exact (setStarted_eq (by simpa using notStarted)).symm
        · split <;> rfl
      rw [stopServices, List.map_cons, ← stopped, ← ih]

theorem stopServices_node (outcomes : Nat → Status)
    (kept : NodeState BlockState SnapshotState → Prop)
    (emitted : ∀ message node,
      kept node → kept (emitService .serviceFailed message node))
    (index : Nat) (entries : List ManagedService)
    (node : NodeState BlockState SnapshotState) (holds : kept node) :
    kept (stopServices outcomes index entries node).2 := by
  induction entries generalizing index node with
  | nil => exact holds
  | cons entry entries ih =>
      have stopped : kept (stopService (outcomes index) entry node).2 := by
        unfold stopService
        split
        · exact holds
        · split
          · exact emitted _ _ holds
          · exact holds
      exact ih (index + 1) _ stopped

/-- Registration keeps the files and appends one entry for each service. -/
theorem registerServices_services (options : NodeOptions)
    (services : List Registration) (host : ServiceHost BlockState SnapshotState) :
    (registerServices options services host).files = host.files ∧
      (registerServices options services host).services =
        host.services ++ services.map fun service =>
          registeredEntry options service host.files := by
  unfold registerServices
  induction services generalizing host with
  | nil => simp
  | cons service services ih =>
      obtain ⟨files, entries⟩ := ih (registerService options service host)
      rw [List.foldl_cons]
      refine ⟨files, ?_⟩
      rw [entries]
      simp [registerService]

/-- Registration neither starts the node nor touches its kernel. -/
theorem registerServices_kernel (options : NodeOptions)
    (services : List Registration) (host : ServiceHost BlockState SnapshotState) :
    (registerServices options services host).node.running = host.node.running ∧
      (registerServices options services host).node.kernelState =
        host.node.kernelState := by
  unfold registerServices
  induction services generalizing host with
  | nil => exact ⟨rfl, rfl⟩
  | cons service services ih => exact ih (registerService options service host)

end Node

end Blocxxi
