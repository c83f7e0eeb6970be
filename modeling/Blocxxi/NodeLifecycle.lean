import Blocxxi.InMemoryStore
import Blocxxi.NodeServices

/-!
# Starting and stopping the node

A run of starts, stops and passes is recorded call by call.  The running flag, the
returned statuses and the lifecycle events agree in every run in which no start
gets past its bootstrap only to find that discovery has no name.
-/

namespace Blocxxi

namespace Node

open Blocxxi.Core Cxx Chain StepMachine

variable {BlockState SnapshotState : Type}
variable (kernel : Kernel BlockState SnapshotState) (options : NodeOptions)

def isLifecycle (type : EventType) : Bool :=
  type == .nodeStarted || type == .nodeStopped

/-- The types of the lifecycle events that a node has emitted. -/
def lifecycleEvents (node : NodeState BlockState SnapshotState) : List EventType :=
  (node.events.map ChainEvent.type).filter isLifecycle

/-- Starts and stops in turn, beginning with a start. -/
def alternating (count : Nat) : List EventType :=
  (List.range count).map fun index =>
    if index % 2 = 0 then .nodeStarted else .nodeStopped

theorem lifecycleEvents_emitService (type : EventType) (message : ByteString)
    (node : NodeState BlockState SnapshotState) :
    lifecycleEvents (emitService type message node) =
      lifecycleEvents node ++ if isLifecycle type then [type] else [] := by
  cases lifecycle : isLifecycle type <;>
    simp [lifecycleEvents, emitService, emit, lifecycle]

theorem alternating_succ (count : Nat) :
    alternating (count + 1) = alternating count ++
      [if count % 2 = 0 then EventType.nodeStarted else .nodeStopped] := by
  simp [alternating, List.range_succ]

/-- Neither the running flag nor the lifecycle events change. -/
def SameLifecycle (before after : NodeState BlockState SnapshotState) : Prop :=
  after.running = before.running ∧ lifecycleEvents after = lifecycleEvents before

theorem sameLifecycle_emitService {type : EventType}
    (notLifecycle : isLifecycle type = false) (message : ByteString)
    {before node : NodeState BlockState SnapshotState}
    (same : SameLifecycle before node) :
    SameLifecycle before (emitService type message node) := by
  refine ⟨same.1, ?_⟩
  rw [lifecycleEvents_emitService, notLifecycle, same.2]
  simp

theorem sameLifecycle_bootstrapped (utc : Int64)
    (node : NodeState BlockState SnapshotState) :
    SameLifecycle node (bootstrappedNode kernel utc node) := by
  have starting : SameLifecycle node
      (emitService .nodeStarting (ascii "starting node") node) :=
    sameLifecycle_emitService rfl _ ⟨rfl, rfl⟩
  exact ⟨starting.1, starting.2⟩

theorem lifecycle_attachedNode (node : NodeState BlockState SnapshotState) :
    (attachedNode options node).running = true ∧
      lifecycleEvents (attachedNode options node) = lifecycleEvents node := by
  unfold attachedNode
  split
  · unfold attachDiscovery
    split
    · exact ⟨rfl, rfl⟩
    · refine ⟨rfl, ?_⟩
      simp [lifecycleEvents, emit, isLifecycle]
  · exact ⟨rfl, rfl⟩

theorem sameLifecycle_stopServices (outcomes : Nat → Status) (index : Nat)
    (entries : List ManagedService) (node : NodeState BlockState SnapshotState) :
    SameLifecycle node (stopServices outcomes index entries node).2 :=
  stopServices_node outcomes (SameLifecycle node)
    (fun message _ => sameLifecycle_emitService rfl message)
    index entries node ⟨rfl, rfl⟩

theorem sameLifecycle_pass (now : Int) (outcomes : Nat → ServiceOutcome)
    (host : ServiceHost BlockState SnapshotState) :
    SameLifecycle host.node (runServicesOnce options now outcomes host).2.node := by
  unfold runServicesOnce
  split
  · exact ⟨rfl, rfl⟩
  · apply runServices_node options now outcomes (SameLifecycle host.node)
    · intro type message node isService
      apply sameLifecycle_emitService
      simp only [List.mem_cons, List.not_mem_nil, or_false] at isService
      rcases isService with rfl | rfl | rfl <;> rfl
    · exact ⟨rfl, rfl⟩

/-- Registering services emits no lifecycle event. -/
theorem sameLifecycle_registered (services : List Registration)
    (host : ServiceHost BlockState SnapshotState) :
    SameLifecycle host.node (registerServices options services host).node := by
  unfold registerServices
  induction services generalizing host with
  | nil => exact ⟨rfl, rfl⟩
  | cons service services ih =>
      have first : SameLifecycle host.node (registerService options service host).node :=
        sameLifecycle_emitService rfl service.name ⟨rfl, rfl⟩
      have rest := ih (registerService options service host)
      exact ⟨rest.1.trans first.1, rest.2.trans first.2⟩

/-- Transactions, blocks and passes are all turned down, and change nothing. -/
structure Refuses (host : ServiceHost BlockState SnapshotState) : Prop where
  transactions : ∀ transaction,
    (submitTransaction transaction host.node).1.isOk = false ∧
      (submitTransaction transaction host.node).2 = host.node
  commits : ∀ source now, ∃ status, status.isOk = false ∧
    commitPending kernel source now host.node = (.ok status, host.node)
  blocks : ∀ block, (submitBlock kernel block host.node).1.isOk = false ∧
    (submitBlock kernel block host.node).2 = host.node
  passes : ∀ now outcomes, (runServicesOnce options now outcomes host).1.isOk = false ∧
    (runServicesOnce options now outcomes host).2 = host

theorem refuses_of_stopped {host : ServiceHost BlockState SnapshotState}
    (stopped : host.node.running = false) : Refuses kernel options host where
  transactions := by simp [submitTransaction, stopped]
  commits := by
    intro source now
    exact ⟨.failure .rejected "node must be started before committing blocks", rfl,
      by simp [commitPending, stopped]⟩
  blocks := by simp [submitBlock, stopped]
  passes := by simp [runServicesOnce, stopped]

/-- The answer of a call is a success, not a failure and no exception. -/
def succeeds : Except Fault Status → Bool
  | .ok status => status.isOk
  | .error _ => false

/-- A start or a stop, with the state it found and whether it succeeded. -/
structure CallRecord where
  isStart : Bool
  foundRunning : Bool
  succeeded : Bool
  deriving DecidableEq

def callRecord (call : HostCall) (host : ServiceHost BlockState SnapshotState) :
    Option CallRecord :=
  let succeeded := succeeds (hostCall kernel options call host).1
  match call with
  | .start _ => some ⟨true, host.node.running, succeeded⟩
  | .stop _ => some ⟨false, host.node.running, succeeded⟩
  | .runServicesOnce _ _ => none

/-- A host with the records of the calls that led to it. -/
structure Tracked (BlockState SnapshotState : Type) where
  host : ServiceHost BlockState SnapshotState
  records : List CallRecord := []

def trackedStep (call : HostCall) (tracked : Tracked BlockState SnapshotState) :
    Tracked BlockState SnapshotState where
  host := hostStep kernel options call tracked.host
  records := tracked.records ++ (callRecord kernel options call tracked.host).toList

/-- The last call that found the node in the state opposite to the one it brings. -/
def lastOpposite (records : List CallRecord) : Option CallRecord :=
  (records.filter fun record => record.isStart != record.foundRunning).getLast?

/-- That call was a start that succeeded. -/
def StartedLast (records : List CallRecord) : Prop :=
  ∃ record, lastOpposite records = some record ∧ record.isStart = true ∧
    record.succeeded = true

theorem startedLast_append (records : List CallRecord) (record : CallRecord) :
    StartedLast (records ++ [record]) ↔
      if record.isStart != record.foundRunning then
        record.isStart = true ∧ record.succeeded = true
      else StartedLast records := by
  cases opposite : record.isStart != record.foundRunning <;>
    simp [StartedLast, lastOpposite, opposite]

/-- The running flag is that of the last start or stop, and of the events. -/
structure Agrees (tracked : Tracked BlockState SnapshotState) : Prop where
  started : tracked.host.node.running = true ↔ StartedLast tracked.records
  events : ∃ count, lifecycleEvents tracked.host.node = alternating count ∧
    (tracked.host.node.running = true ↔ count % 2 = 1)

/-- A start that gets past the bootstrap and then finds no discovery name. -/
def LosesDiscovery (call : HostCall)
    (host : ServiceHost BlockState SnapshotState) : Prop :=
  ∃ utc, call = .start utc ∧ host.node.running = false ∧
    succeeds (kernel.bootstrap utc host.node.kernelState).1 = true ∧
    options.startDiscovery = true ∧ options.discoveryName = []

section Steps

variable {tracked : Tracked BlockState SnapshotState}

/-- A call that keeps the flag and the events, and does not count as the last. -/
theorem Agrees.keep (agrees : Agrees tracked)
    {host : ServiceHost BlockState SnapshotState} {records : List CallRecord}
    (same : SameLifecycle tracked.host.node host.node)
    (sameRecords : StartedLast records ↔ StartedLast tracked.records) :
    Agrees ⟨host, records⟩ where
  started := by rw [sameRecords, ← agrees.started, same.1]
  events := by
    obtain ⟨count, events, flag⟩ := agrees.events
    exact ⟨count, same.2.trans events, by rw [← flag, same.1]⟩

/-- A call that turns the flag emits the next lifecycle event. -/
theorem Agrees.turn (agrees : Agrees tracked)
    {host : ServiceHost BlockState SnapshotState} {records : List CallRecord}
    (turned : host.node.running = !tracked.host.node.running)
    (started : host.node.running = true ↔ StartedLast records)
    (emitted : lifecycleEvents host.node = lifecycleEvents tracked.host.node ++
      [if host.node.running then .nodeStarted else .nodeStopped]) :
    Agrees ⟨host, records⟩ where
  started := started
  events := by
    obtain ⟨count, events, flag⟩ := agrees.events
    refine ⟨count + 1, ?_, ?_⟩
    · rw [emitted, events, alternating_succ, turned]
      cases running : tracked.host.node.running with
      | false =>
          have even : count % 2 = 0 := by
            rw [running] at flag
            simp only [Bool.false_eq_true, false_iff] at flag
            omega
          simp [even]
      | true =>
          have odd : count % 2 = 1 := flag.mp running
          simp [odd]
    · change host.node.running = true ↔ _
      rw [turned]
      cases running : tracked.host.node.running with
      | false =>
          rw [running] at flag
          simp only [Bool.false_eq_true, false_iff] at flag
          simp only [Bool.not_false, true_iff]
          omega
      | true =>
          have odd : count % 2 = 1 := flag.mp running
          simp only [Bool.not_true, Bool.false_eq_true, false_iff]
          omega

theorem agrees_start (agrees : Agrees tracked) (utc : Int64)
    (allowed : ¬ LosesDiscovery kernel options (.start utc) tracked.host) :
    Agrees (trackedStep kernel options (.start utc) tracked) := by
  cases running : tracked.host.node.running with
  | true =>
      have unchanged : start kernel options utc tracked.host =
          (.ok (.success "node already running"), tracked.host) := by
        simp [start, running]
      apply agrees.keep
      · simp [hostStep, hostCall, unchanged, SameLifecycle]
      · simp [callRecord, startedLast_append, running]
  | false =>
      have bootstrap := sameLifecycle_bootstrapped kernel utc tracked.host.node
      rcases start_cases kernel options utc running with
        ⟨fault, -, started⟩ | ⟨status, isStatus, ⟨failed, started⟩ |
          ⟨succeeded, discovers, unnamed, -⟩ | ⟨succeeded, -, started⟩⟩
      · apply agrees.keep
        · simpa [hostStep, hostCall, started] using bootstrap
        · rw [← agrees.started]
          simp [callRecord, hostCall, startedLast_append, running, started, succeeds]
      · apply agrees.keep
        · simpa [hostStep, hostCall, started] using bootstrap
        · rw [← agrees.started]
          simp [callRecord, hostCall, startedLast_append, running, started, succeeds,
            failed]
      · refine absurd ⟨utc, rfl, running, ?_, discovers, unnamed⟩ allowed
        rw [isStatus]
        exact succeeded
      · have attached := lifecycle_attachedNode options
          (bootstrappedNode kernel utc tracked.host.node)
        apply agrees.turn
        · simpa [hostStep, hostCall, started, emitService, emit, running] using attached.1
        · simp [hostStep, hostCall, callRecord, startedLast_append, running, started,
            succeeds, emitService, emit, attached.1]
        · have isRunning : (hostStep kernel options (.start utc)
              tracked.host).node.running = true := by
            simpa [hostStep, hostCall, started, emitService, emit] using attached.1
          rw [isRunning]
          simp only [hostStep, hostCall, started]
          rw [lifecycleEvents_emitService, attached.2, bootstrap.2]
          rfl

theorem agrees_stop (agrees : Agrees tracked) (outcomes : Nat → Status) :
    Agrees (trackedStep kernel options (.stop outcomes) tracked) := by
  cases running : tracked.host.node.running with
  | false =>
      have unchanged : stop outcomes tracked.host =
          (.success "node already stopped", tracked.host) := by
        simp [stop, running]
      apply agrees.keep
      · simp [hostStep, hostCall, unchanged, SameLifecycle]
      · simp [callRecord, startedLast_append, running]
  | true =>
      have services := sameLifecycle_stopServices outcomes 0 tracked.host.services
        tracked.host.node
      apply agrees.turn
      · simp [hostStep, hostCall, stop, running, emitService, emit]
      · simp [hostStep, hostCall, callRecord, startedLast_append, stop, running,
          emitService, emit]
      · have isStopped : (hostStep kernel options (.stop outcomes)
            tracked.host).node.running = false := by
          simp [hostStep, hostCall, stop, running, emitService, emit]
        rw [isStopped, ← services.2]
        simp only [hostStep, hostCall, stop, running, Bool.not_true, Bool.false_eq_true,
          if_false]
        rw [lifecycleEvents_emitService]
        rfl

theorem agrees_step (agrees : Agrees tracked) {call : HostCall}
    (allowed : ¬ LosesDiscovery kernel options call tracked.host) :
    Agrees (trackedStep kernel options call tracked) := by
  cases call with
  | start utc => exact agrees_start kernel options agrees utc allowed
  | stop outcomes => exact agrees_stop kernel options agrees outcomes
  | runServicesOnce now outcomes =>
      apply agrees.keep
      · exact sameLifecycle_pass options now outcomes tracked.host
      · simp [callRecord]

end Steps

theorem agrees_stoppedHost (kernelState : KernelState BlockState SnapshotState)
    (services : List Registration) (files : Files) :
    Agrees ⟨stoppedHost options kernelState services files, []⟩ := by
  have same := sameLifecycle_registered options services
    { node := { kernelState := kernelState }, files := files }
  refine ⟨?_, 0, same.2, ?_⟩
  · rw [stoppedHost, same.1]
    simp [StartedLast, lastOpposite]
  · rw [stoppedHost, same.1]
    simp

/-- A start of a stopped node that does not succeed leaves it stopped, and refusing
its calls. -/
def FailedStartStops (call : HostCall)
    (host : ServiceHost BlockState SnapshotState) : Prop :=
  ∀ utc, call = .start utc → host.node.running = false →
    succeeds (start kernel options utc host).1 = false →
      (start kernel options utc host).2.node.running = false ∧
        Refuses kernel options (start kernel options utc host).2

theorem failedStartStops_iff (call : HostCall)
    (host : ServiceHost BlockState SnapshotState) :
    FailedStartStops kernel options call host ↔
      ¬ LosesDiscovery kernel options call host := by
  constructor
  · rintro stops ⟨utc, rfl, stopped, bootstrapped, discovers, unnamed⟩
    rcases start_cases kernel options utc stopped with
      ⟨fault, failed, -⟩ | ⟨status, isStatus, ⟨failed, -⟩ | ⟨-, -, -, started⟩ |
        ⟨-, named, -⟩⟩
    · rw [failed] at bootstrapped
      cases bootstrapped
    · rw [isStatus] at bootstrapped
      exact absurd bootstrapped (by simp [succeeds, failed])
    · have leaves := (stops utc rfl stopped (by rw [started]; rfl)).1
      rw [started] at leaves
      cases leaves
    · exact named ⟨discovers, unnamed⟩
  · rintro keeps utc rfl stopped failed
    have leaves : (start kernel options utc host).2.node.running = false := by
      rcases start_cases kernel options utc stopped with
        ⟨fault, -, started⟩ | ⟨status, isStatus, ⟨-, started⟩ |
          ⟨succeeded, discovers, unnamed, -⟩ | ⟨-, -, started⟩⟩
      · rw [started]
        exact stopped
      · rw [started]
        exact stopped
      · refine absurd ⟨utc, rfl, stopped, ?_, discovers, unnamed⟩ keeps
        rw [isStatus]
        exact succeeded
      · rw [started] at failed
        cases failed
    exact ⟨leaves, refuses_of_stopped kernel options leaves⟩

/-- In every state of the run the flag is that of the last call which found the
node in the opposite state, starts and stops alternate among the events, and a
start that fails leaves the node stopped. -/
def LifecycleHolds (calls : List HostCall)
    (tracked : Tracked BlockState SnapshotState) : Prop :=
  ∀ before after, calls = before ++ after →
    let reached := run (trackedStep kernel options) before tracked
    (reached.host.node.running = true ↔ StartedLast reached.records) ∧
    (∃ count, lifecycleEvents reached.host.node = alternating count) ∧
    ∀ call ∈ after.head?, FailedStartStops kernel options call reached.host

/-- The lifecycle is kept in exactly the runs in which no start gets past its
bootstrap only to find that discovery has no name. -/
theorem lifecycleHolds_iff (kernelState : KernelState BlockState SnapshotState)
    (services : List Registration) (files : Files) (calls : List HostCall) :
    LifecycleHolds kernel options calls
        ⟨stoppedHost options kernelState services files, []⟩ ↔
      RunsWithin (trackedStep kernel options)
        (fun call tracked => ¬ LosesDiscovery kernel options call tracked.host) calls
        ⟨stoppedHost options kernelState services files, []⟩ := by
  constructor
  · intro holds
    rw [runsWithin_iff_forall]
    intro before call after split
    exact (failedStartStops_iff kernel options call _).mp
      ((holds before (call :: after) split).2.2 call rfl)
  · rintro within before after rfl
    rw [runsWithin_append] at within
    have kept (call : HostCall) (tracked : Tracked BlockState SnapshotState)
        (agrees : Agrees tracked)
        (allowed : ¬ LosesDiscovery kernel options call tracked.host) :
        Agrees (trackedStep kernel options call tracked) :=
      agrees_step kernel options agrees allowed
    have agrees := invariant_run_within kept before _
      (agrees_stoppedHost options kernelState services files) within.1
    obtain ⟨count, events, -⟩ := agrees.events
    refine ⟨agrees.started, ⟨count, events⟩, ?_⟩
    intro call isNext
    rw [failedStartStops_iff]
    cases after with
    | nil => cases isNext
    | cons next after =>
        cases isNext
        exact within.2.1

/-- Options that ask for discovery and give it no name. -/
def unnamedDiscovery : NodeOptions where
  chain := { createGenesis := false }
  startDiscovery := true
  discoveryName := []

/-- A start fails for want of a discovery name and leaves the node running; the stop
behind it is the only lifecycle event. -/
theorem lifecycleHolds_unnamedDiscovery :
    ¬ ∀ (options : NodeOptions)
      (kernel : Kernel Storage.MemoryBlocks (Option ChainSnapshot))
      (kernelState : KernelState Storage.MemoryBlocks (Option ChainSnapshot))
      (calls : List HostCall),
      LifecycleHolds kernel options calls
        ⟨stoppedHost options kernelState [] fun _ => none, []⟩ := by
  intro always
  obtain ⟨-, ⟨count, events⟩, -⟩ :=
    always unnamedDiscovery (Storage.inMemoryKernel unnamedDiscovery.chain)
      Storage.inMemoryStart [.start 0, .stop fun _ => .success ""]
      [.start 0, .stop fun _ => .success ""] [] rfl
  have emitted : [EventType.nodeStopped] = alternating count := events
  cases count with
  | zero => cases emitted
  | succ count =>
      have first := congrArg List.head? emitted
      simp [alternating, List.range_succ_eq_map] at first

end Node

end Blocxxi
