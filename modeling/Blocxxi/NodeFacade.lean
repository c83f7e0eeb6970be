import Blocxxi.ChainKernel

/-!
# The node

A node drives one kernel while it is running, and tells its subscribers what
happened.  Subscribers only observe, so the node keeps the events it emitted.
-/

namespace Blocxxi

namespace Node

open Blocxxi.Core Cxx Chain

structure NodeState (BlockState SnapshotState : Type) where
  running : Bool := false
  kernelState : KernelState BlockState SnapshotState
  attachedServices : List ByteString := []
  events : List ChainEvent := []

variable {BlockState SnapshotState : Type}
variable (kernel : Kernel BlockState SnapshotState)

def emit (event : ChainEvent) (node : NodeState BlockState SnapshotState) :
    NodeState BlockState SnapshotState :=
  { node with events := node.events ++ [event] }

def snapshotNow (node : NodeState BlockState SnapshotState) : ChainSnapshot :=
  node.kernelState.snapshot

def submitTransaction (transaction : Transaction)
    (node : NodeState BlockState SnapshotState) :
    Status × NodeState BlockState SnapshotState :=
  if !node.running then
    (.failure .rejected
      "node must be started before submitting transactions", node)
  else
    let (status, kernelState) :=
      Kernel.submitTransaction transaction node.kernelState
    let node := { node with kernelState := kernelState }
    if status.isOk then
      (status, emit
        { type := .transactionAccepted
          message := ascii "transaction accepted"
          snapshot := snapshotNow node
          transaction := some transaction } node)
    else (status, node)

/-- Commit the pending transactions and look the new head up, which may throw
after the commit has succeeded. -/
def commitPending (source : ByteString) (now : Int64)
    (node : NodeState BlockState SnapshotState) :
    Except Fault Status × NodeState BlockState SnapshotState :=
  if !node.running then
    (.ok (.failure .rejected "node must be started before committing blocks"),
      node)
  else
    let (status, kernelState) := kernel.commitPending source now node.kernelState
    let node := { node with kernelState := kernelState }
    if status.isOk then
      match kernel.head kernelState with
      | .error fault => (.error fault, node)
      | .ok head =>
          (.ok status, emit
            { type := .blockCommitted
              message := ascii "pending transactions committed"
              snapshot := snapshotNow node
              block := head } node)
    else (.ok status, node)

def attachDiscovery (serviceName : ByteString)
    (node : NodeState BlockState SnapshotState) :
    Status × NodeState BlockState SnapshotState :=
  if serviceName = [] then
    (.failure .invalidArgument "discovery service name is required", node)
  else
    let node :=
      { node with attachedServices := node.attachedServices ++ [serviceName] }
    (.success "", emit
      { type := .discoveryAttached
        message := serviceName
        snapshot := snapshotNow node } node)

def attachAdapter (adapterName : ByteString)
    (node : NodeState BlockState SnapshotState) :
    Status × NodeState BlockState SnapshotState :=
  if adapterName = [] then
    (.failure .invalidArgument "adapter name is required", node)
  else
    (.success "", emit
      { type := .adapterAttached
        message := adapterName
        snapshot := snapshotNow node } node)

/-- A running node accepts a complete transaction that does not wait yet. -/
theorem submitTransaction_accepted {transaction : Transaction}
    {node : NodeState BlockState SnapshotState} (running : node.running = true)
    (typed : transaction.type ≠ []) (carries : transaction.payload ≠ [])
    (new : transaction.id ∉ node.kernelState.pendingTransactions.map
      fun waiting => waiting.id) :
    (submitTransaction transaction node).1.isOk = true ∧
      (submitTransaction transaction node).2.running = true ∧
      (submitTransaction transaction node).2.kernelState =
        { node.kernelState with
          pendingTransactions :=
            node.kernelState.pendingTransactions ++ [transaction] } := by
  rcases Kernel.submitTransaction_cases transaction node.kernelState with
    ⟨noType | noPayload | waits, -⟩ | ⟨-, -, -, submitted⟩
  · exact (typed noType).elim
  · exact (carries noPayload).elim
  · exact (new waits).elim
  · simp [submitTransaction, running, submitted, emit]

/-- A transaction that already waits is turned down. -/
theorem submitTransaction_waiting {transaction : Transaction}
    {node : NodeState BlockState SnapshotState}
    (waits : transaction.id ∈ node.kernelState.pendingTransactions.map
      fun waiting => waiting.id) :
    (submitTransaction transaction node).1.isOk = false ∧
      (submitTransaction transaction node).2.kernelState = node.kernelState := by
  cases running : node.running with
  | false => simp [submitTransaction, running]
  | true =>
      rcases Kernel.submitTransaction_cases transaction node.kernelState with
        ⟨-, failed, unchanged⟩ | ⟨-, -, new, -⟩
      · simp [submitTransaction, running, failed, unchanged]
      · exact (new waits).elim

/-- What committing does to the kernel, and to the status. -/
theorem commitPending_running (source : ByteString) (now : Int64)
    {node : NodeState BlockState SnapshotState} (running : node.running = true) :
    (commitPending kernel source now node).2.running = true ∧
      (commitPending kernel source now node).2.kernelState =
        (kernel.commitPending source now node.kernelState).2 ∧
      ((kernel.commitPending source now node.kernelState).1.isOk = false →
        (commitPending kernel source now node).1 =
          .ok (kernel.commitPending source now node.kernelState).1) ∧
      ((kernel.commitPending source now node.kernelState).1.isOk = true →
        (commitPending kernel source now node).1 =
          (kernel.head (kernel.commitPending source now node.kernelState).2).map
            fun _ => (kernel.commitPending source now node.kernelState).1) := by
  cases committed :
      (kernel.commitPending source now node.kernelState).1.isOk with
  | false => simp [commitPending, running, committed]
  | true =>
      cases found : kernel.head
          (kernel.commitPending source now node.kernelState).2 with
      | error fault => simp [commitPending, running, committed, found, Except.map]
      | ok head =>
          simp [commitPending, running, committed, found, Except.map, emit]

end Node

end Blocxxi
