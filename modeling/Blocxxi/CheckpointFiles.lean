import Blocxxi.FileStore
import Blocxxi.NodeLifecycle
import Blocxxi.ServiceScheduling

/-!
# Checkpoints across restarts

Every completed poll writes the checkpoint of its service to a file whose name is
the service's name with all unsafe characters replaced.  A restart hands each
service its own checkpoint exactly if no two names become equal that way.
-/

namespace Blocxxi

namespace Node

open Blocxxi.Core Cxx Chain StepMachine

theorem pathAppend_right_inj (left : ByteString) {first second : ByteString} :
    pathAppend left first = pathAppend left second ↔ first = second := by
  unfold pathAppend
  split <;> simp

/-- Two services share a file exactly if their sanitized names are the same. -/
theorem checkpointPath_eq_iff (options : NodeOptions) {first second : ByteString} :
    checkpointPath options first = checkpointPath options second ↔
      sanitizeServiceName first = sanitizeServiceName second := by
  rw [checkpointPath, checkpointPath, pathAppend_right_inj]
  simp

theorem storedCheckpoint_onDisk {options : NodeOptions}
    (onDisk : options.storageMode = .fileSystem) (serviceName : ByteString)
    (files : Files) :
    storedCheckpoint options serviceName files =
      files (checkpointPath options serviceName) := by
  rw [storedCheckpoint, if_neg (not_not_intro onDisk)]

/-- The service completes a poll in the pass. -/
def Completes (now : Int) (outcome : ServiceOutcome) (entry : ManagedService) : Prop :=
  IsPolled now outcome entry ∧ outcome.poll.isOk = true

section Pass

variable {BlockState SnapshotState : Type}
variable {options : NodeOptions} (now : Int) (outcomes : Nat → ServiceOutcome)
variable (index : Nat) (overall : Status) (node : NodeState BlockState SnapshotState)

/-- A completed poll writes its checkpoint to the file of the service. -/
theorem runManagedServiceOnce_writes (onDisk : options.storageMode = .fileSystem)
    {outcome : ServiceOutcome} {entry : ManagedService} (files : Files)
    (completes : Completes now outcome entry) :
    (runManagedServiceOnce options now outcome entry node files).2.2.2 =
      Function.update files (checkpointPath options entry.state.name)
        (some outcome.checkpoint) := by
  rw [runManagedServiceOnce_files, if_pos (And.intro completes.1 completes.2),
    persistCheckpoint, if_neg (not_not_intro onDisk)]
  rfl

/-- A file is kept by a pass in which no service completes a poll over it. -/
theorem runServices_keeps (path : ByteString) (entries : List ManagedService)
    (files : Files)
    (others : ∀ (position : Nat) entry, entries[position]? = some entry →
      Completes now (outcomes (index + position)) entry →
        checkpointPath options entry.state.name ≠ path) :
    (runServices options now outcomes index overall entries node files).2.2.2 path =
      files path := by
  induction entries generalizing index overall node files with
  | nil => rfl
  | cons entry entries ih =>
      have first :
          (runManagedServiceOnce options now (outcomes index) entry node files).2.2.2
              path = files path := by
        rw [runManagedServiceOnce_files]
        split
        · rename_i completes
          have otherPath := others 0 entry rfl completes
          unfold persistCheckpoint
          split
          · rfl
          · exact Function.update_of_ne otherPath.symm _ _
        · rfl
      rw [runServices, ← first]
      apply ih
      intro position other isOther completes
      apply others (position + 1) other isOther
      rwa [← Nat.add_assoc, Nat.add_right_comm]

/-- The checkpoint of a completed poll is in the file of its service behind the pass,
if no other service completes a poll over that file. -/
theorem runServices_writes (onDisk : options.storageMode = .fileSystem)
    {entries : List ManagedService} {position : Nat} {entry : ManagedService}
    (files : Files) (isEntry : entries[position]? = some entry)
    (completes : Completes now (outcomes (index + position)) entry)
    (others : ∀ (other : Nat) otherEntry, other ≠ position →
      entries[other]? = some otherEntry →
        Completes now (outcomes (index + other)) otherEntry →
          checkpointPath options otherEntry.state.name ≠
            checkpointPath options entry.state.name) :
    (runServices options now outcomes index overall entries node files).2.2.2
        (checkpointPath options entry.state.name) =
      some (outcomes (index + position)).checkpoint := by
  induction entries generalizing index overall node files position with
  | nil => simp at isEntry
  | cons head entries ih =>
      rw [runServices]
      cases position with
      | zero =>
          cases isEntry
          have written :=
            runManagedServiceOnce_writes now node onDisk files completes
          dsimp only
          rw [runServices_keeps]
          · rw [Nat.add_zero] at written ⊢
            rw [written, Function.update_self]
          · intro other otherEntry isOther otherCompletes
            apply others (other + 1) otherEntry (Nat.succ_ne_zero other) isOther
            rwa [← Nat.add_assoc, Nat.add_right_comm]
      | succ position =>
          rw [Nat.add_comm position 1, ← Nat.add_assoc] at completes ⊢
          apply ih (index + 1) _ _ _ isEntry completes
          intro other otherEntry notSame isOther otherCompletes
          apply others (other + 1) otherEntry (by omega) isOther
          rwa [← Nat.add_assoc, Nat.add_right_comm]

theorem runServicesOnce_files {host : ServiceHost BlockState SnapshotState}
    (running : host.node.running = true) :
    (runServicesOnce options now outcomes host).2.files =
      (runServices options now outcomes 0 (.success "") host.services host.node
        host.files).2.2.2 := by
  simp [runServicesOnce, running]

end Pass

/-- The checkpoint of the last completed poll, if there is one. -/
def lastCheckpoint (polls : List PollRecord) : Option ByteString :=
  (completedPolls polls).getLast?.map PollRecord.checkpoint

/-- A pass of a running host polls every service, or not, and changes the last
checkpoint of those that complete. -/
theorem lastCheckpoint_entryAfterPass (now : Int) (outcome : ServiceOutcome)
    (entry : ManagedService) :
    (Completes now outcome entry →
      lastCheckpoint (entryAfterPass now outcome entry).polls =
        some outcome.checkpoint) ∧
    (¬ Completes now outcome entry →
      lastCheckpoint (entryAfterPass now outcome entry).polls =
        lastCheckpoint entry.polls) := by
  rw [polls_entryAfterPass]
  constructor
  · rintro ⟨polled, completed⟩
    simp [polled, lastCheckpoint, completed]
  · intro notCompletes
    by_cases polled : IsPolled now outcome entry
    · have failed : outcome.poll.isOk = false := by
        simpa [Completes, polled] using notCompletes
      simp [polled, lastCheckpoint, failed]
    · simp [polled]

section Runs

variable {BlockState SnapshotState : Type}

/-- Every service would be restored with the checkpoint of its own last completed
poll. -/
def Isolated (options : NodeOptions) (services : List Registration)
    (host : ServiceHost BlockState SnapshotState) : Prop :=
  ∀ (index : Nat) service entry, services[index]? = some service →
    host.services[index]? = some entry →
      storedCheckpoint options service.name host.files = lastCheckpoint entry.polls

variable (kernel : Kernel BlockState SnapshotState) {options : NodeOptions}

/-- The names of the entries are those of the registered services. -/
def Named (services : List Registration)
    (host : ServiceHost BlockState SnapshotState) : Prop :=
  ∀ (index : Nat) entry, host.services[index]? = some entry →
    ∃ service, services[index]? = some service ∧ entry.state.name = service.name

theorem name_entryAfterPass (now : Int) (outcome : ServiceOutcome)
    (entry : ManagedService) :
    (entryAfterPass now outcome entry).state.name = entry.state.name := by
  unfold entryAfterPass
  split
  · rfl
  · split
    · rfl
    · split <;> rfl

theorem named_step {services : List Registration} {call : HostCall}
    {host : ServiceHost BlockState SnapshotState} (named : Named services host) :
    Named services (hostStep kernel options call host) := by
  intro index entry isEntry
  obtain ⟨before, isBefore, changed⟩ := hostStep_getElem? kernel options isEntry
  obtain ⟨service, isService, name⟩ := named index before isBefore
  refine ⟨service, isService, ?_⟩
  rw [← name]
  rcases changed with rfl | rfl | ⟨now, outcomes, -, -, rfl⟩
  · rfl
  · rfl
  · exact name_entryAfterPass now (outcomes index) before

/-- A call other than a pass of a running host writes no file. -/
theorem hostStep_files (options : NodeOptions) (call : HostCall)
    (host : ServiceHost BlockState SnapshotState) :
    (∃ now outcomes, call = .runServicesOnce now outcomes ∧ host.node.running = true) ∨
      (hostStep kernel options call host).files = host.files ∧
        ∀ (index : Nat) entry,
          (hostStep kernel options call host).services[index]? = some entry →
            ∃ before, host.services[index]? = some before ∧
              entry.polls = before.polls := by
  by_cases isPass : ∃ now outcomes, call = .runServicesOnce now outcomes ∧
      host.node.running = true
  · exact Or.inl isPass
  · right
    constructor
    · cases call with
      | start utc => exact (start_services kernel options utc host).2
      | stop outcomes =>
          change (stop outcomes host).2.files = _
          unfold stop
          split <;> rfl
      | runServicesOnce now outcomes =>
          have stopped : host.node.running = false := by simpa using isPass
          simp [hostStep, hostCall, runServicesOnce, stopped]
    · intro index entry isEntry
      obtain ⟨before, isBefore, changed⟩ := hostStep_getElem? kernel options isEntry
      refine ⟨before, isBefore, ?_⟩
      rcases changed with rfl | rfl | ⟨now, outcomes, isCall, running, -⟩
      · rfl
      · rfl
      · exact absurd ⟨now, outcomes, isCall, running⟩ isPass

/-- Services with distinct sanitized names have files of their own. -/
theorem eq_of_samePath {services : List Registration}
    (distinct : (services.map fun service => sanitizeServiceName service.name).Nodup)
    {host : ServiceHost BlockState SnapshotState} (named : Named services host)
    {index position : Nat} {service : Registration} {entry : ManagedService}
    (isService : services[index]? = some service)
    (isEntry : host.services[position]? = some entry)
    (samePath : checkpointPath options entry.state.name =
      checkpointPath options service.name) : position = index := by
  obtain ⟨other, isOther, name⟩ := named position entry isEntry
  rw [checkpointPath_eq_iff, name] at samePath
  have inside := (List.getElem?_eq_some_iff.mp isOther).1
  refine (List.getElem?_inj (by simpa using inside) distinct).mp ?_
  rw [List.getElem?_map, List.getElem?_map, isOther, isService]
  exact congrArg some samePath

/-- Services with different files do not overwrite each other's checkpoints. -/
theorem isolated_step (onDisk : options.storageMode = .fileSystem)
    {services : List Registration}
    (distinct : (services.map fun service => sanitizeServiceName service.name).Nodup)
    {call : HostCall} {host : ServiceHost BlockState SnapshotState}
    (named : Named services host) (isolated : Isolated options services host) :
    Isolated options services (hostStep kernel options call host) := by
  intro index service entry isService isEntry
  rcases hostStep_files kernel options call host with
    ⟨now, outcomes, rfl, running⟩ | ⟨sameFiles, samePolls⟩
  · have atIndex := runServicesOnce_getElem? options now outcomes running index
    change (runServicesOnce options now outcomes host).2.services[index]? = _ at isEntry
    rw [atIndex, Option.map_eq_some_iff] at isEntry
    obtain ⟨before, isBefore, rfl⟩ := isEntry
    have restored := isolated index service before isService isBefore
    have ownName : before.state.name = service.name := by
      obtain ⟨other, isOther, name⟩ := named index before isBefore
      rw [isService, Option.some.injEq] at isOther
      rw [name, isOther]
    rw [storedCheckpoint_onDisk onDisk] at restored ⊢
    change (runServicesOnce options now outcomes host).2.files _ = _
    rw [runServicesOnce_files now outcomes running]
    by_cases completes : Completes now (outcomes index) before
    · rw [(lastCheckpoint_entryAfterPass now (outcomes index) before).1 completes,
        ← ownName]
      rw [← Nat.zero_add index] at completes ⊢
      apply runServices_writes now outcomes 0 _ _ onDisk _ (by simpa using isBefore)
        completes
      intro other otherEntry notSame isOther _ samePath
      rw [ownName] at samePath
      have same := eq_of_samePath distinct named isService isOther samePath
      exact notSame (by simpa using same)
    · rw [(lastCheckpoint_entryAfterPass now (outcomes index) before).2 completes,
        ← restored]
      apply runServices_keeps
      intro position other isOther otherCompletes samePath
      have same := eq_of_samePath distinct named isService isOther samePath
      subst same
      rw [isBefore, Option.some.injEq] at isOther
      subst isOther
      rw [Nat.zero_add] at otherCompletes
      exact completes otherCompletes
  · obtain ⟨before, isBefore, polls⟩ := samePolls index entry isEntry
    rw [sameFiles, polls]
    exact isolated index service before isService isBefore

theorem registered_getElem? {services : List Registration}
    {kernelState : KernelState BlockState SnapshotState} {files : Files} {index : Nat} :
    (stoppedHost options kernelState services files).services[index]? =
      services[index]?.map fun service => registeredEntry options service files := by
  rw [stoppedHost, (registerServices_services options services _).2]
  simp

theorem stoppedHost_files (kernelState : KernelState BlockState SnapshotState)
    (services : List Registration) (files : Files) :
    (stoppedHost options kernelState services files).files = files :=
  (registerServices_services options services _).1

/-- A service registered over an empty directory is handed nothing. -/
theorem registeredEntry_fresh (service : Registration) :
    registeredEntry options service (fun _ => none) =
      { policy := service.policy
        state := { name := service.name, nextRunUtc := service.utc }
        nextDue := service.steady } := by
  unfold registeredEntry restoreCheckpoint storedCheckpoint
  split
  · rfl
  · rename_i data stored
    split at stored <;> cases stored

theorem isolated_registered (kernelState : KernelState BlockState SnapshotState)
    (services : List Registration) :
    Named services (stoppedHost options kernelState services fun _ => none) ∧
      Isolated options services
        (stoppedHost options kernelState services fun _ => none) := by
  constructor
  · intro index entry isEntry
    rw [registered_getElem?, Option.map_eq_some_iff] at isEntry
    obtain ⟨service, isService, rfl⟩ := isEntry
    exact ⟨service, isService, by rw [registeredEntry_fresh]⟩
  · intro index service entry _ isEntry
    rw [registered_getElem?, Option.map_eq_some_iff] at isEntry
    obtain ⟨other, -, rfl⟩ := isEntry
    rw [stoppedHost_files, registeredEntry_fresh, storedCheckpoint]
    split <;> rfl

theorem isolated_run (onDisk : options.storageMode = .fileSystem)
    {services : List Registration}
    (distinct : (services.map fun service => sanitizeServiceName service.name).Nodup)
    (calls : List HostCall) (kernelState : KernelState BlockState SnapshotState) :
    Isolated options services (run (hostStep kernel options) calls
      (stoppedHost options kernelState services fun _ => none)) := by
  have kept (call : HostCall) (host : ServiceHost BlockState SnapshotState)
      (holds : Named services host ∧ Isolated options services host) :
      Named services (hostStep kernel options call host) ∧
        Isolated options services (hostStep kernel options call host) :=
    ⟨named_step kernel holds.1, isolated_step kernel onDisk distinct holds.1 holds.2⟩
  exact (invariant_run kept calls _ (isolated_registered kernelState services)).2

end Runs

/-- Over an empty storage directory, every run leaves every service with its own
checkpoint to be restored from. -/
def CheckpointsIsolated (services : List Registration) : Prop :=
  ∀ (BlockState SnapshotState : Type) (kernel : Kernel BlockState SnapshotState)
    (kernelState : KernelState BlockState SnapshotState) (options : NodeOptions),
    options.storageMode = .fileSystem → ∀ calls : List HostCall,
      Isolated options services (run (hostStep kernel options) calls
        (stoppedHost options kernelState services fun _ => none))

def diskOptions : NodeOptions where
  chain := { createGenesis := false }
  storageMode := .fileSystem

/-- The kernel of a node with these options. -/
def diskKernel : Kernel Storage.BlocksDirectory Storage.SnapshotFile :=
  Storage.fileKernel diskOptions.chain .asStored

/-- A pass in which one service completes its poll and all others fail theirs. -/
def onlyCompletes (position : Nat) (index : Nat) : ServiceOutcome where
  poll := if index = position then .success "" else .failure .ioError "down"
  checkpoint := ascii "x"

theorem start_onDisk (services : List Registration) :
    (hostStep diskKernel diskOptions (.start 0)
      (stoppedHost diskOptions Storage.fileStart services fun _ => none)).node.running =
        true := by
  have same := registerServices_kernel diskOptions services
    { node := { kernelState := Storage.fileStart } }
  have stopped : (stoppedHost diskOptions Storage.fileStart services
      fun _ => none).node.running = false := same.1
  have bootstrap : (diskKernel.bootstrap 0 (stoppedHost diskOptions Storage.fileStart
      services fun _ => none).node.kernelState).1 =
        .ok (.success "bootstrap skipped without genesis creation") := by
    rw [stoppedHost, same.2]
    rfl
  rcases start_cases diskKernel diskOptions 0 stopped with
    ⟨fault, failed, -⟩ | ⟨status, isStatus, ⟨failed, -⟩ | ⟨-, discovers, -⟩ | ⟨-, -, started⟩⟩
  · rw [bootstrap] at failed
    cases failed
  · rw [bootstrap] at isStatus
    cases isStatus
    cases failed
  · cases discovers
  · rw [hostStep, hostCall, started]
    rfl

/-- The entries of a node that was started over an empty directory. -/
theorem start_onDisk_getElem? {services : List Registration} {index : Nat}
    {service : Registration} (isService : services[index]? = some service) :
    (hostStep diskKernel diskOptions (.start 0)
      (stoppedHost diskOptions Storage.fileStart services fun _ => none)).services[index]? =
        some
          { policy := service.policy
            state := { name := service.name, nextRunUtc := service.utc }
            nextDue := service.steady } := by
  change (start diskKernel diskOptions 0 _).2.services[index]? = _
  rw [(start_services diskKernel diskOptions 0 _).1, registered_getElem?, isService,
    Option.map_some, registeredEntry_fresh]

theorem not_completes_other {now : Int} {position index : Nat} (other : index ≠ position)
    (entry : ManagedService) : ¬ Completes now (onlyCompletes position index) entry := by
  rintro ⟨-, completed⟩
  simp [onlyCompletes, other] at completed

/-- If two services share a file, the checkpoint of one is restored to the other,
which never completed a poll. -/
theorem not_isolated_of_shared {services : List Registration}
    {first second : Nat} {firstService secondService : Registration}
    (different : first ≠ second) (isFirst : services[first]? = some firstService)
    (isSecond : services[second]? = some secondService)
    (shared : sanitizeServiceName firstService.name =
      sanitizeServiceName secondService.name) :
    ¬ CheckpointsIsolated services := by
  intro always
  let started := hostStep diskKernel diskOptions (.start 0)
    (stoppedHost diskOptions Storage.fileStart services fun _ => none)
  have running : started.node.running = true := start_onDisk services
  have firstEntry := start_onDisk_getElem? isFirst
  have isolated := always _ _ diskKernel Storage.fileStart diskOptions rfl
    [.start 0, .runServicesOnce firstService.steady (onlyCompletes first)]
  -- the second service has not completed a poll
  have secondAfter := runServicesOnce_getElem? diskOptions firstService.steady
    (onlyCompletes first) running second
  rw [start_onDisk_getElem? isSecond, Option.map_some] at secondAfter
  have restored := isolated second secondService _ isSecond secondAfter
  rw [(lastCheckpoint_entryAfterPass _ _ _).2
    (not_completes_other different.symm _)] at restored
  -- but the first one has, and wrote the file of both
  have onDisk : diskOptions.storageMode = .fileSystem := rfl
  have written := runServices_writes firstService.steady (onlyCompletes first) 0
    (.success "") started.node onDisk started.files firstEntry
    (by simp [Completes, IsPolled, onlyCompletes])
    (fun other otherEntry notFirst _ completes => by
      rw [Nat.zero_add] at completes
      exact absurd completes (not_completes_other notFirst otherEntry))
  have samePath : checkpointPath diskOptions firstService.name =
      checkpointPath diskOptions secondService.name :=
    (checkpointPath_eq_iff diskOptions).mpr shared
  rw [storedCheckpoint_onDisk onDisk, ← samePath] at restored
  change (runServicesOnce diskOptions firstService.steady (onlyCompletes first)
    started).2.files _ = _ at restored
  rw [runServicesOnce_files _ _ running, written] at restored
  cases restored

/-- Restarts hand every service its own checkpoint exactly if the sanitized names of
the services are distinct. -/
theorem checkpointsIsolated_iff (services : List Registration) :
    CheckpointsIsolated services ↔
      (services.map fun service => sanitizeServiceName service.name).Nodup := by
  constructor
  · intro isolated
    by_contra shared
    rw [List.nodup_iff_getElem?_ne_getElem?] at shared
    push Not at shared
    obtain ⟨first, second, before, inside, same⟩ := shared
    rw [List.length_map] at inside
    rw [List.getElem?_map, List.getElem?_map, List.getElem?_eq_getElem (by omega),
      List.getElem?_eq_getElem inside, Option.map_some, Option.map_some,
      Option.some.injEq] at same
    exact not_isolated_of_shared (by omega) (List.getElem?_eq_getElem (by omega))
      (List.getElem?_eq_getElem inside) same isolated
  · intro distinct BlockState SnapshotState kernel kernelState options onDisk calls
    exact isolated_run kernel onDisk distinct calls kernelState

/-- The services "a b" and "a-b" have different names and one file. -/
theorem checkpointsIsolated_blank :
    ¬ ∀ services : List Registration,
      (services.map Registration.name).Nodup → CheckpointsIsolated services := by
  intro always
  have isolated := always [{ name := ascii "a b" }, { name := ascii "a-b" }] (by decide)
  have different : 0 ≠ 1 := by decide
  exact not_isolated_of_shared different rfl rfl (by decide) isolated

end Node

end Blocxxi
