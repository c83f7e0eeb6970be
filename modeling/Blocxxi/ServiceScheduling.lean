import Blocxxi.InMemoryStore
import Blocxxi.NodeServices

/-!
# When services are polled

The counters of a service are read off the polls it has seen, and so is the time
from which it is due again: the interval behind a poll that succeeded, and a
back-off that grows with every failure in a row.
-/

namespace Blocxxi

namespace Node

open Blocxxi.Core Cxx Chain StepMachine

def completedPolls (polls : List PollRecord) : List PollRecord :=
  polls.filter fun poll => poll.status.isOk

/-- The number of failed polls since the last one that succeeded. -/
def failuresInARow (polls : List PollRecord) : Nat :=
  (polls.reverse.takeWhile fun poll => !poll.status.isOk).length

/-- The time from which a service is due again, once it has been polled. -/
def dueAgain (policy : ServicePolicy) (polls : List PollRecord) : Option Int :=
  polls.getLast?.map fun last =>
    last.now +
      if last.status.isOk then steadyDuration policy.interval
      else steadyDuration (policy.retryBackoff * failuresInARow polls)

/-- A service is due if it has never been polled, or its interval or back-off has
passed since its last poll. -/
def Due (policy : ServicePolicy) (polls : List PollRecord) (now : Int) : Prop :=
  ∀ time ∈ dueAgain policy polls, time ≤ now

instance (policy : ServicePolicy) (polls : List PollRecord) (now : Int) :
    Decidable (Due policy polls now) :=
  inferInstanceAs (Decidable (∀ time ∈ dueAgain policy polls, time ≤ now))

@[simp]
theorem completedPolls_append (polls : List PollRecord) (poll : PollRecord) :
    completedPolls (polls ++ [poll]) =
      completedPolls polls ++ if poll.status.isOk then [poll] else [] := by
  cases completed : poll.status.isOk <;> simp [completedPolls, completed]

@[simp]
theorem failuresInARow_append (polls : List PollRecord) (poll : PollRecord) :
    failuresInARow (polls ++ [poll]) =
      if poll.status.isOk then 0 else failuresInARow polls + 1 := by
  cases completed : poll.status.isOk <;> simp [failuresInARow, completed]

@[simp]
theorem dueAgain_append (policy : ServicePolicy) (polls : List PollRecord)
    (poll : PollRecord) :
    dueAgain policy (polls ++ [poll]) = some (poll.now +
      if poll.status.isOk then steadyDuration policy.interval
      else steadyDuration (policy.retryBackoff * (failuresInARow polls + 1 : Nat))) := by
  cases completed : poll.status.isOk <;> simp [dueAgain, completed]

/-- Every poll was made when the service was due. -/
def Spaced (policy : ServicePolicy) (polls : List PollRecord) : Prop :=
  ∀ before poll after, polls = before ++ poll :: after → Due policy before poll.now

theorem spaced_append {policy : ServicePolicy} {polls : List PollRecord}
    {poll : PollRecord} (spaced : Spaced policy polls)
    (due : Due policy polls poll.now) : Spaced policy (polls ++ [poll]) := by
  intro before other after split
  rcases List.eq_nil_or_concat after with rfl | ⟨front, last, rfl⟩
  · obtain ⟨rfl, same⟩ := List.append_inj' split rfl
    cases same
    exact due
  · rw [List.concat_eq_append, ← List.cons_append, ← List.append_assoc] at split
    obtain ⟨splitFront, -⟩ := List.append_inj' split rfl
    exact spaced before other front splitFront

/-- What the entry of a registered service holds is read off its polls. -/
structure Accounts (service : Registration) (restored : ByteString)
    (entry : ManagedService) : Prop where
  name : entry.state.name = service.name
  policy : entry.policy = service.policy
  runCount : entry.state.runCount = (completedPolls entry.polls).length
  failureCount : entry.state.failureCount = failuresInARow entry.polls
  checkpoint : entry.state.checkpoint =
    ((completedPolls entry.polls).getLast?.map PollRecord.checkpoint).getD restored
  nextDue : entry.nextDue = (dueAgain service.policy entry.polls).getD service.steady
  spaced : Spaced service.policy entry.polls

section Service

variable {service : Registration} {restored : ByteString} {entry : ManagedService}

/-- A service accounts for its polls when it is registered. -/
theorem accounts_registered (options : NodeOptions) (service : Registration)
    (files : Files) :
    Accounts service ((storedCheckpoint options service.name files).getD [])
      (registeredEntry options service files) := by
  have spaced : Spaced service.policy [] := by
    intro before poll after split
    simp at split
  unfold registeredEntry restoreCheckpoint
  split
  · rename_i notStored
    exact ⟨rfl, rfl, rfl, rfl, by simp_all [completedPolls], rfl, spaced⟩
  · rename_i data stored
    exact ⟨rfl, rfl, rfl, rfl, by simp_all [completedPolls], rfl, spaced⟩

/-- A service that has not been polled is due from its registration on. -/
theorem Accounts.due_iff (accounts : Accounts service restored entry) {now : Int}
    (registered : service.steady ≤ now) :
    entry.nextDue ≤ now ↔ Due service.policy entry.polls now := by
  rw [accounts.nextDue, Due]
  cases again : dueAgain service.policy entry.polls with
  | none => simpa [again] using registered
  | some time => simp

theorem Accounts.setStarted (accounts : Accounts service restored entry)
    (started : Bool) : Accounts service restored (setStarted started entry) :=
  ⟨accounts.name, accounts.policy, accounts.runCount, accounts.failureCount,
    accounts.checkpoint, accounts.nextDue, accounts.spaced⟩

theorem Accounts.completePoll (accounts : Accounts service restored entry) {now : Int}
    {outcome : ServiceOutcome} (registered : service.steady ≤ now)
    (due : entry.nextDue ≤ now) (completed : outcome.poll.isOk = true) :
    Accounts service restored (completePoll now outcome entry) where
  name := accounts.name
  policy := accounts.policy
  runCount := by simp [Node.completePoll, completed, accounts.runCount]
  failureCount := by simp [Node.completePoll, completed]
  checkpoint := by simp [Node.completePoll, completed]
  nextDue := by simp [Node.completePoll, completed, accounts.policy]
  spaced := spaced_append accounts.spaced ((accounts.due_iff registered).mp due)

theorem Accounts.failPoll (accounts : Accounts service restored entry) {now : Int}
    {outcome : ServiceOutcome} (registered : service.steady ≤ now)
    (due : entry.nextDue ≤ now) (failed : outcome.poll.isOk = false) :
    Accounts service restored (failPoll now outcome entry) where
  name := accounts.name
  policy := accounts.policy
  runCount := by simp [Node.failPoll, failed, accounts.runCount]
  failureCount := by simp [Node.failPoll, failed, accounts.failureCount]
  checkpoint := by simp [Node.failPoll, failed, accounts.checkpoint]
  nextDue := by
    simp [Node.failPoll, failed, accounts.policy, accounts.failureCount]
  spaced := spaced_append accounts.spaced ((accounts.due_iff registered).mp due)

theorem Accounts.entryAfterPass (accounts : Accounts service restored entry) {now : Int}
    (outcome : ServiceOutcome) (registered : service.steady ≤ now) :
    Accounts service restored (entryAfterPass now outcome entry) := by
  unfold Node.entryAfterPass
  split
  · exact ⟨accounts.name, accounts.policy, accounts.runCount, accounts.failureCount,
      accounts.checkpoint, accounts.nextDue, accounts.spaced⟩
  · have started := accounts.setStarted true
    split
    · exact started
    · rename_i notEarly
      have due : (Node.setStarted true entry).nextDue ≤ now := not_lt.mp notEarly
      cases polled : outcome.poll.isOk with
      | true => exact started.completePoll registered due polled
      | false =>
          rw [if_neg Bool.false_ne_true]
          exact started.failPoll registered due polled

/-- A pass polls a service once if it is started and due, and not at all otherwise. -/
theorem polls_entryAfterPass (now : Int) (outcome : ServiceOutcome)
    (entry : ManagedService) :
    (entryAfterPass now outcome entry).polls = entry.polls ++
      if IsPolled now outcome entry then
        [⟨now, outcome.poll, outcome.checkpoint⟩]
      else [] := by
  by_cases failed : entry.state.started = false ∧ outcome.start.isOk = false
  · have notPolled : ¬ IsPolled now outcome entry := by
      rintro ⟨starts, -⟩
      simp [failed] at starts
    rw [entryAfterPass, if_pos failed, if_neg notPolled, List.append_nil]
  · have starts : entry.state.started = true ∨ outcome.start.isOk = true := by
      simpa [or_iff_not_imp_left] using failed
    rw [entryAfterPass, if_neg failed]
    by_cases early : now < entry.nextDue
    · have notPolled : ¬ IsPolled now outcome entry := by
        rintro ⟨-, due⟩
        omega
      rw [if_pos early, if_neg notPolled, List.append_nil]
      rfl
    · have polled : IsPolled now outcome entry := ⟨starts, not_lt.mp early⟩
      rw [if_neg early, if_pos polled]
      split <;> rfl

end Service

/-- The clock reading of a pass. -/
def HostCall.reading? : HostCall → Option Int
  | .runServicesOnce now _ => some now
  | _ => none

/-- There is an entry for each service, and it accounts for the polls of its service. -/
structure HostAccounts {BlockState SnapshotState : Type} (options : NodeOptions)
    (services : List Registration) (files : Files)
    (host : ServiceHost BlockState SnapshotState) : Prop where
  size : host.services.length = services.length
  entries : ∀ (index : Nat) entry, host.services[index]? = some entry →
    ∃ service, services[index]? = some service ∧
      Accounts service ((storedCheckpoint options service.name files).getD []) entry

section Runs

variable {BlockState SnapshotState : Type}
variable (kernel : Kernel BlockState SnapshotState) (options : NodeOptions)

theorem hostAccounts_registered (services : List Registration)
    {host : ServiceHost BlockState SnapshotState} (empty : host.services = []) :
    HostAccounts options services host.files
      (registerServices options services host) := by
  have registered := (registerServices_services options services host).2
  rw [empty, List.nil_append] at registered
  refine ⟨by rw [registered, List.length_map], fun index entry isEntry => ?_⟩
  rw [registered, List.getElem?_map, Option.map_eq_some_iff] at isEntry
  obtain ⟨service, isService, rfl⟩ := isEntry
  exact ⟨service, isService, accounts_registered options service host.files⟩

/-- What a pass does to the entry at a position. -/
theorem runServicesOnce_getElem? (now : Int) (outcomes : Nat → ServiceOutcome)
    {host : ServiceHost BlockState SnapshotState} (running : host.node.running = true)
    (index : Nat) :
    (runServicesOnce options now outcomes host).2.services[index]? =
      host.services[index]?.map (entryAfterPass now (outcomes index)) := by
  have entries := runServices_getElem? options now outcomes host.services index 0
    (.success "") host.node host.files
  rw [Nat.zero_add] at entries
  simp [runServicesOnce, running, entries]

theorem runServicesOnce_status (now : Int) (outcomes : Nat → ServiceOutcome)
    {host : ServiceHost BlockState SnapshotState}
    (running : host.node.running = true) :
    (runServicesOnce options now outcomes host).1.isOk = false ↔
      ∃ (index : Nat) (entry : ManagedService), host.services[index]? = some entry ∧
        FailsPass now (outcomes index) entry := by
  have status := runServices_status options now outcomes host.services 0
    (.success "") host.node host.files
  simpa [runServicesOnce, running] using status

/-- The calls other than passes of a running node do not poll. -/
theorem stop_services (outcomes : Nat → Status)
    (host : ServiceHost BlockState SnapshotState) :
    (stop outcomes host).2.services = host.services ∨
      (stop outcomes host).2.services = host.services.map (setStarted false) := by
  unfold stop
  split
  · exact Or.inl rfl
  · exact Or.inr (stopServices_services _ _ _ _)

/-- What a call can do to the entry at a position: nothing, marking it as not
started, or what a pass does to it. -/
theorem hostStep_getElem? {call : HostCall} {host : ServiceHost BlockState SnapshotState}
    {index : Nat} {entry : ManagedService}
    (isEntry : (hostStep kernel options call host).services[index]? = some entry) :
    ∃ before, host.services[index]? = some before ∧
      (entry = before ∨ entry = setStarted false before ∨
        ∃ now outcomes, call = .runServicesOnce now outcomes ∧
          host.node.running = true ∧
          entry = entryAfterPass now (outcomes index) before) := by
  cases call with
  | start utc =>
      change (start kernel options utc host).2.services[index]? = _ at isEntry
      rw [(start_services kernel options utc host).1] at isEntry
      exact ⟨entry, isEntry, Or.inl rfl⟩
  | stop outcomes =>
      change (stop outcomes host).2.services[index]? = _ at isEntry
      rcases stop_services outcomes host with same | stopped
      · rw [same] at isEntry
        exact ⟨entry, isEntry, Or.inl rfl⟩
      · rw [stopped, List.getElem?_map, Option.map_eq_some_iff] at isEntry
        obtain ⟨before, isBefore, rfl⟩ := isEntry
        exact ⟨before, isBefore, Or.inr (Or.inl rfl)⟩
  | runServicesOnce now outcomes =>
      change (runServicesOnce options now outcomes host).2.services[index]? = _ at isEntry
      cases running : host.node.running with
      | false => exact ⟨entry, by simpa [runServicesOnce, running] using isEntry, Or.inl rfl⟩
      | true =>
          rw [runServicesOnce_getElem? options now outcomes running,
            Option.map_eq_some_iff] at isEntry
          obtain ⟨before, isBefore, rfl⟩ := isEntry
          exact ⟨before, isBefore, Or.inr (Or.inr ⟨now, outcomes, rfl, rfl, rfl⟩)⟩

/-- No call adds an entry or removes one. -/
theorem hostStep_length (call : HostCall) (host : ServiceHost BlockState SnapshotState) :
    (hostStep kernel options call host).services.length = host.services.length := by
  cases call with
  | start utc =>
      change (start kernel options utc host).2.services.length = _
      rw [(start_services kernel options utc host).1]
  | stop outcomes =>
      change (stop outcomes host).2.services.length = _
      rcases stop_services outcomes host with same | stopped
      · rw [same]
      · rw [stopped, List.length_map]
  | runServicesOnce now outcomes =>
      change (runServicesOnce options now outcomes host).2.services.length = _
      cases running : host.node.running with
      | false => simp [runServicesOnce, running]
      | true =>
          have entries := runServicesOnce_getElem? options now outcomes running
          apply Nat.le_antisymm
          · rw [← List.getElem?_eq_none_iff, entries, List.getElem?_eq_none (Nat.le_refl _),
              Option.map_none]
          · rw [← List.getElem?_eq_none_iff, ← Option.map_eq_none_iff, ← entries,
              List.getElem?_eq_none (Nat.le_refl _)]

theorem hostAccounts_step {services : List Registration} {files : Files}
    {call : HostCall} {host : ServiceHost BlockState SnapshotState}
    (accounts : HostAccounts options services files host)
    (registered : ∀ now ∈ call.reading?, ∀ service ∈ services, service.steady ≤ now) :
    HostAccounts options services files (hostStep kernel options call host) := by
  refine ⟨(hostStep_length kernel options call host).trans accounts.size,
    fun index entry isEntry => ?_⟩
  obtain ⟨before, isBefore, changed⟩ := hostStep_getElem? kernel options isEntry
  obtain ⟨service, isService, accountsBefore⟩ := accounts.entries index before isBefore
  refine ⟨service, isService, ?_⟩
  rcases changed with rfl | rfl | ⟨now, outcomes, rfl, -, rfl⟩
  · exact accountsBefore
  · exact accountsBefore.setStarted false
  · exact accountsBefore.entryAfterPass (outcomes index)
      (registered now rfl service (List.mem_of_getElem? isService))

/-- Every reachable host accounts for the polls of its services. -/
theorem hostAccounts_run {services : List Registration} {calls : List HostCall}
    {host : ServiceHost BlockState SnapshotState} (empty : host.services = [])
    (registered : ∀ call ∈ calls, ∀ now ∈ call.reading?, ∀ service ∈ services,
      service.steady ≤ now) :
    HostAccounts options services host.files
      (run (hostStep kernel options) calls (registerServices options services host)) :=
  invariant_run_of_mem calls
    (fun call member _ accounts =>
      hostAccounts_step kernel options accounts (registered call member))
    _ (hostAccounts_registered options services empty)

/-- A call that is no pass of a running node polls nothing. -/
theorem polls_unchanged {call : HostCall} {host : ServiceHost BlockState SnapshotState}
    (noPass : call.reading? = none ∨ host.node.running = false) :
    (hostStep kernel options call host).services.map ManagedService.polls =
      host.services.map ManagedService.polls := by
  cases call with
  | start utc =>
      change (start kernel options utc host).2.services.map _ = _
      rw [(start_services kernel options utc host).1]
  | stop outcomes =>
      change (stop outcomes host).2.services.map _ = _
      rcases stop_services outcomes host with same | stopped
      · rw [same]
      · rw [stopped, List.map_map]
        rfl
  | runServicesOnce now outcomes =>
      have stopped : host.node.running = false := by simpa [HostCall.reading?] using noPass
      simp [hostStep, hostCall, runServicesOnce, stopped]

section Accounted

variable {services : List Registration} {files : Files}
variable {host : ServiceHost BlockState SnapshotState}
variable {now : Int} {index : Nat} {entry : ManagedService}

/-- A service that accounts for its polls is polled if it is started and due. -/
theorem HostAccounts.isPolled_iff (accounts : HostAccounts options services files host)
    (registered : ∀ service ∈ services, service.steady ≤ now)
    (isEntry : host.services[index]? = some entry) (outcome : ServiceOutcome) :
    IsPolled now outcome entry ↔
      (entry.state.started = true ∨ outcome.start.isOk = true) ∧
        Due entry.policy entry.polls now := by
  obtain ⟨service, isService, accounted⟩ := accounts.entries index entry isEntry
  have isRegistered := registered service (List.mem_of_getElem? isService)
  rw [IsPolled, accounted.due_iff isRegistered, accounted.policy]

theorem HostAccounts.failsPass_iff (accounts : HostAccounts options services files host)
    (registered : ∀ service ∈ services, service.steady ≤ now)
    (isEntry : host.services[index]? = some entry) (outcome : ServiceOutcome) :
    FailsPass now outcome entry ↔
      (entry.state.started = false ∧ outcome.start.isOk = false) ∨
        ((entry.state.started = true ∨ outcome.start.isOk = true) ∧
          Due entry.policy entry.polls now ∧ outcome.poll.isOk = false ∧
          entry.policy.maxRetries < failuresInARow entry.polls + 1) := by
  obtain ⟨service, -, accounted⟩ := accounts.entries index entry isEntry
  rw [FailsPass, accounts.isPolled_iff options registered isEntry,
    accounted.failureCount, and_assoc]

end Accounted

/-- In every reachable state the counters and checkpoints account for the polls,
which were all made when due; a pass polls exactly the services that are started
and due, once each, and fails exactly if one of them fails it. -/
theorem services_scheduled (services : List Registration)
    (host : ServiceHost BlockState SnapshotState) (calls : List HostCall)
    (empty : host.services = [])
    (registered : ∀ call ∈ calls, ∀ now ∈ call.reading?, ∀ service ∈ services,
      service.steady ≤ now) :
    let reached :=
      run (hostStep kernel options) calls (registerServices options services host)
    HostAccounts options services host.files reached ∧
    (∀ call, call.reading? = none ∨ reached.node.running = false →
      (hostStep kernel options call reached).services.map ManagedService.polls =
        reached.services.map ManagedService.polls) ∧
    ∀ now outcomes, (∀ service ∈ services, service.steady ≤ now) →
      reached.node.running = true →
        (∀ (index : Nat) entry, reached.services[index]? = some entry →
          ∃ after,
            (runServicesOnce options now outcomes reached).2.services[index]? =
              some after ∧
            after.polls = entry.polls ++
              if (entry.state.started = true ∨ (outcomes index).start.isOk = true) ∧
                  Due entry.policy entry.polls now then
                [⟨now, (outcomes index).poll, (outcomes index).checkpoint⟩]
              else []) ∧
        ((runServicesOnce options now outcomes reached).1.isOk = false ↔
          ∃ (index : Nat) (entry : ManagedService), reached.services[index]? = some entry ∧
            ((entry.state.started = false ∧ (outcomes index).start.isOk = false) ∨
              ((entry.state.started = true ∨ (outcomes index).start.isOk = true) ∧
                Due entry.policy entry.polls now ∧
                (outcomes index).poll.isOk = false ∧
                entry.policy.maxRetries < failuresInARow entry.polls + 1))) := by
  intro reached
  have accounts : HostAccounts options services host.files reached :=
    hostAccounts_run kernel options empty registered
  refine ⟨accounts, fun call => polls_unchanged kernel options, ?_⟩
  intro now outcomes isRegistered running
  constructor
  · intro index entry isEntry
    refine ⟨entryAfterPass now (outcomes index) entry, ?_, ?_⟩
    · rw [runServicesOnce_getElem? options now outcomes running, isEntry]
      rfl
    · rw [polls_entryAfterPass]
      simp only [accounts.isPolled_iff options isRegistered isEntry]
  · rw [runServicesOnce_status options now outcomes running]
    refine exists_congr fun index => exists_congr fun entry => ?_
    refine and_congr_right fun isEntry => ?_
    exact accounts.failsPass_iff options isRegistered isEntry (outcomes index)

end Runs

def idleKernel : Kernel Storage.MemoryBlocks (Option ChainSnapshot) :=
  Storage.inMemoryKernel { createGenesis := false }

def idleHost : ServiceHost Storage.MemoryBlocks (Option ChainSnapshot) where
  node := { kernelState := Storage.inMemoryStart }

def twoServices : List Registration := [{ name := ascii "a" }, { name := ascii "b" }]

/-- A pass in which the poll of the first service fails and that of the second one
succeeds. -/
def mixedCalls : List HostCall :=
  [.start 0, .runServicesOnce 0 fun index =>
    if index = 0 then { poll := .failure .ioError "down" } else {}]

/-- Behind its first failure a service is polled again after 250 milliseconds and not
before, and the other one only after a second. -/
theorem services_scheduled_backoff :
    let reached := run (hostStep idleKernel {}) mixedCalls
      (registerServices {} twoServices idleHost)
    let polls (now : Int) (index : Nat) :=
      (runServicesOnce {} now (fun _ => {}) reached).2.services[index]?.map
        fun entry => entry.polls.length
    polls 249999999 0 = some 1 ∧ polls 250000000 0 = some 2 ∧
      polls 250000000 1 = some 1 ∧ polls 1000000000 1 = some 2 := by
  intro reached polls
  have scheduled := services_scheduled idleKernel {} twoServices idleHost mixedCalls rfl
    (by decide)
  have polled (now : Int) (later : 0 ≤ now) (index : Nat) (entry : ManagedService)
      (isEntry : reached.services[index]? = some entry) :
      polls now index =
        some (entry.polls.length + if Due entry.policy entry.polls now then 1 else 0) := by
    have isRegistered : ∀ service ∈ twoServices, service.steady ≤ now :=
      List.forall_mem_cons.mpr ⟨later, List.forall_mem_singleton.mpr later⟩
    obtain ⟨after, isAfter, isPolled⟩ :=
      (scheduled.2.2 now (fun _ => {}) isRegistered rfl).1 index entry isEntry
    have starts : ({} : ServiceOutcome).start.isOk = true := rfl
    simp only [starts, or_true, true_and] at isPolled
    change (runServicesOnce {} now (fun _ => {}) reached).2.services[index]?.map _ = _
    rw [isAfter, Option.map_some, isPolled, List.length_append]
    split <;> rfl
  refine ⟨?_, ?_, ?_, ?_⟩
  · rw [polled 249999999 (by decide) 0 _ rfl]
    rfl
  · rw [polled 250000000 (by decide) 0 _ rfl]
    rfl
  · rw [polled 250000000 (by decide) 1 _ rfl]
    rfl
  · rw [polled 1000000000 (by decide) 1 _ rfl]
    rfl

end Node

end Blocxxi
