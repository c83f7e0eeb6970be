import Blocxxi.NodeUrls
import Blocxxi.StepMachineRuns

/-!
# Cached node URLs

A node keeps its URL from the first time it is asked for.  Copies take the URL along
and moves leave none behind, but the accessors that hand out the id and the endpoint
for writing know nothing of it.  The nodes of a program are a list, and a program is
a run of calls that make them, show them and change them.
-/

namespace Blocxxi

namespace Kademlia

open Cxx StepMachine

variable {Address : Type}

namespace NodeObject

/-- `Node(const Node &other)`. -/
def copyConstruct (other : NodeObject Address) : NodeObject Address where
  nodeId := other.nodeId
  endpoint := other.endpoint
  url := other.url
  failedRequestsCount := other.failedRequestsCount
  lastSeenTime := other.lastSeenTime

/-- `Node(Node &&other)`, with what is left of the other. -/
def moveConstruct (other : NodeObject Address) : NodeObject Address × NodeObject Address :=
  ({ nodeId := other.nodeId
     endpoint := other.endpoint
     url := other.url
     failedRequestsCount := other.failedRequestsCount
     lastSeenTime := other.lastSeenTime },
    { other with url := none })

/-- `operator=(Node &&rhs)` between two objects, with what is left of `rhs`. -/
def moveAssign (node rhs : NodeObject Address) : NodeObject Address × NodeObject Address :=
  ({ node with
     nodeId := rhs.nodeId
     endpoint := rhs.endpoint
     url := rhs.url
     failedRequestsCount := rhs.failedRequestsCount
     lastSeenTime := rhs.lastSeenTime },
    { rhs with url := none })

/-- `std::swap`, by one construction and two assignments. -/
def swap (first second : NodeObject Address) : NodeObject Address × NodeObject Address :=
  let (temporary, first) := first.moveConstruct
  let (first, second) := first.moveAssign second
  let (second, _) := second.moveAssign temporary
  (first, second)

/-- `operator=(Node const &rhs)`: a copy is swapped in. -/
def copyAssign (node rhs : NodeObject Address) : NodeObject Address :=
  let tmp := rhs.copyConstruct
  (node.swap tmp).1

/-- A write through `Id()`. -/
def writeId (node : NodeObject Address) (nodeId : Hash160) : NodeObject Address :=
  { node with nodeId := nodeId }

/-- A write through `Endpoint()`. -/
def writeEndpoint (node : NodeObject Address) (endpoint : Endpoint Address) :
    NodeObject Address :=
  { node with endpoint := endpoint }

@[simp]
theorem copyConstruct_eq (other : NodeObject Address) : other.copyConstruct = other := rfl

@[simp]
theorem moveConstruct_fst (other : NodeObject Address) : other.moveConstruct.1 = other := rfl

@[simp]
theorem moveAssign_fst (node rhs : NodeObject Address) : (node.moveAssign rhs).1 = rhs := rfl

@[simp]
theorem copyAssign_eq (node rhs : NodeObject Address) : node.copyAssign rhs = rhs := rfl

end NodeObject

/-- The calls a program makes; objects are named by the order of their construction. -/
inductive NodeCall (Address : Type)
  | byDefault
  | ofText (nodeId : Hash160) (ipAddress : ByteString) (portNumber : UInt16)
  | ofEndpoint (nodeId : Hash160) (endpoint : Endpoint Address)
  | fromUrlString (url : ByteString)
  | copyConstruct (other : Nat)
  | moveConstruct (other : Nat)
  | copyAssign (target rhs : Nat)
  | moveAssign (target rhs : Nat)
  | toString (object : Nat)
  | writeId (object : Nat) (nodeId : Hash160)
  | writeEndpoint (object : Nat) (endpoint : Endpoint Address)

/-- A constructor that throws leaves no object. -/
def constructed (objects : List (NodeObject Address))
    (result : Except Fault (NodeObject Address)) : List (NodeObject Address) :=
  match result with
  | .ok node => objects ++ [node]
  | .error _ => objects

/-- What an object becomes by a call that changes only it. -/
def changed (objects : List (NodeObject Address)) (object : Nat)
    (change : NodeObject Address → NodeObject Address) : List (NodeObject Address) :=
  match objects[object]? with
  | some node => objects.set object (change node)
  | none => objects

/-- The objects after a call.  There is no call of an object that was not constructed. -/
def nodeStep [Inhabited Address] (asio : AddressText Address) :
    NodeCall Address → List (NodeObject Address) → List (NodeObject Address)
  | .byDefault, objects => objects ++ [.byDefault]
  | .ofText nodeId ipAddress portNumber, objects =>
      constructed objects (NodeObject.ofText asio nodeId ipAddress portNumber)
  | .ofEndpoint nodeId endpoint, objects => objects ++ [.ofEndpoint nodeId endpoint]
  | .fromUrlString url, objects => constructed objects (fromUrlString asio url)
  | .copyConstruct other, objects =>
      match objects[other]? with
      | some node => objects ++ [node.copyConstruct]
      | none => objects
  | .moveConstruct other, objects =>
      match objects[other]? with
      | some node => objects.set other node.moveConstruct.2 ++ [node.moveConstruct.1]
      | none => objects
  | .copyAssign target rhs, objects =>
      match objects[rhs]? with
      | some node => changed objects target fun object => object.copyAssign node
      | none => objects
  | .moveAssign target rhs, objects =>
      if target = rhs then objects
      else
        match objects[target]?, objects[rhs]? with
        | some object, some node =>
            (objects.set target (object.moveAssign node).1).set rhs
              (object.moveAssign node).2
        | _, _ => objects
  | .toString object, objects => changed objects object fun node => (node.toString asio).2
  | .writeId object nodeId, objects =>
      changed objects object fun node => node.writeId nodeId
  | .writeEndpoint object endpoint, objects =>
      changed objects object fun node => node.writeEndpoint endpoint

/-- The object shows the URL of its id and endpoint. -/
def Fresh (asio : AddressText Address) (node : NodeObject Address) : Prop :=
  (node.toString asio).1 = node.currentUrl asio

/-- A `ToString` call returns the URL of the object's id and endpoint. -/
def ShowsCurrent (asio : AddressText Address) :
    NodeCall Address → List (NodeObject Address) → Prop
  | .toString object, objects => ∀ node ∈ objects[object]?, Fresh asio node
  | _, _ => True

/-- An object whose URL is kept is not written, unless its URL stays the same. -/
def KeepsUrls (asio : AddressText Address) :
    NodeCall Address → List (NodeObject Address) → Prop
  | .writeId object nodeId, objects =>
      ∀ node ∈ objects[object]?, node.url = none ∨
        (node.writeId nodeId).currentUrl asio = node.currentUrl asio
  | .writeEndpoint object endpoint, objects =>
      ∀ node ∈ objects[object]?, node.url = none ∨
        (node.writeEndpoint endpoint).currentUrl asio = node.currentUrl asio
  | _, _ => True

def AllFresh (asio : AddressText Address) (objects : List (NodeObject Address)) : Prop :=
  ∀ node ∈ objects, Fresh asio node

theorem fresh_iff {asio : AddressText Address} {node : NodeObject Address} :
    Fresh asio node ↔ ∀ url ∈ node.url, url = node.currentUrl asio := by
  rw [Fresh, NodeObject.toString]
  cases node.url with
  | none => simp
  | some url => simp

theorem fresh_of_none {asio : AddressText Address} {node : NodeObject Address}
    (uncached : node.url = none) : Fresh asio node := by
  rw [fresh_iff, uncached]
  simp

/-- A write that leaves the kept URL alone is harmless exactly if there is none or it is
still the right one. -/
theorem fresh_written_iff {asio : AddressText Address} {node : NodeObject Address}
    (fresh : Fresh asio node) (written : NodeObject Address) (sameUrl : written.url = node.url) :
    Fresh asio written ↔
      node.url = none ∨ written.currentUrl asio = node.currentUrl asio := by
  rw [fresh_iff] at fresh
  rw [fresh_iff, sameUrl]
  cases kept : node.url with
  | none => simp
  | some url =>
      have isCurrent := fresh url kept
      simp [isCurrent, eq_comm]

theorem fresh_toString {asio : AddressText Address} {node : NodeObject Address}
    (fresh : Fresh asio node) : Fresh asio (node.toString asio).2 := by
  rw [NodeObject.toString]
  cases kept : node.url with
  | none =>
      rw [fresh_iff]
      rintro url ⟨⟩
      rfl
  | some url => exact fresh

theorem fresh_of_constructor {asio : AddressText Address} {nodeId : Hash160}
    {ipAddress : ByteString} {port : UInt16} {node : NodeObject Address}
    (isOk : NodeObject.ofText asio nodeId ipAddress port = .ok node) : Fresh asio node := by
  obtain ⟨found, -, rfl⟩ := ofText_ok_iff.mp isOk
  exact fresh_of_none rfl

theorem fresh_of_fromUrlString {asio : AddressText Address} {url : ByteString}
    {node : NodeObject Address} (isOk : fromUrlString asio url = .ok node) :
    Fresh asio node := by
  obtain ⟨_, _, _, _, _, _, _, _, _, _, _, _, _, rfl⟩ := fromUrlString_ok_iff.mp isOk
  exact fresh_of_none rfl

section Objects

variable {asio : AddressText Address} {objects : List (NodeObject Address)}

theorem AllFresh.append (all : AllFresh asio objects) {node : NodeObject Address}
    (fresh : Fresh asio node) : AllFresh asio (objects ++ [node]) := by
  intro other member
  obtain old | new := List.mem_append.mp member
  · exact all other old
  · rwa [List.mem_singleton.mp new]

theorem AllFresh.set (all : AllFresh asio objects) (object : Nat) {node : NodeObject Address}
    (fresh : Fresh asio node) : AllFresh asio (objects.set object node) := by
  intro other member
  obtain old | rfl := List.mem_or_eq_of_mem_set member
  · exact all other old
  · exact fresh

theorem AllFresh.get (all : AllFresh asio objects) {object : Nat} {node : NodeObject Address}
    (isObject : objects[object]? = some node) : Fresh asio node :=
  all node (List.mem_of_getElem? isObject)

theorem AllFresh.constructed (all : AllFresh asio objects)
    {result : Except Fault (NodeObject Address)}
    (fresh : ∀ node, result = .ok node → Fresh asio node) :
    AllFresh asio (constructed objects result) := by
  cases result with
  | ok node => exact all.append (fresh node rfl)
  | error fault => exact all

theorem AllFresh.changed (all : AllFresh asio objects) {object : Nat}
    {change : NodeObject Address → NodeObject Address}
    (fresh : ∀ node, objects[object]? = some node → Fresh asio (change node)) :
    AllFresh asio (changed objects object change) := by
  unfold Kademlia.changed
  split
  · rename_i node isObject
    exact all.set object (fresh node isObject)
  · exact all

/-- A changed object is among the objects afterwards. -/
theorem mem_changed {object : Nat} {node : NodeObject Address}
    (isObject : objects[object]? = some node)
    (change : NodeObject Address → NodeObject Address) :
    change node ∈ changed objects object change := by
  obtain ⟨inside, -⟩ := List.getElem?_eq_some_iff.mp isObject
  unfold changed
  rw [isObject]
  exact List.mem_set inside (change node)

variable {call : NodeCall Address}

theorem showsCurrent_of_fresh (all : AllFresh asio objects) :
    ShowsCurrent asio call objects := by
  cases call with
  | toString object => exact fun node isObject => all.get isObject
  | _ => trivial

variable [Inhabited Address]

theorem nodeStep_fresh (all : AllFresh asio objects) (keeps : KeepsUrls asio call objects) :
    AllFresh asio (nodeStep asio call objects) := by
  cases call with
  | byDefault => exact all.append (fresh_of_none rfl)
  | ofText nodeId ipAddress portNumber =>
      exact all.constructed fun node isOk => fresh_of_constructor isOk
  | ofEndpoint nodeId endpoint => exact all.append (fresh_of_none rfl)
  | fromUrlString url => exact all.constructed fun node isOk => fresh_of_fromUrlString isOk
  | copyConstruct other =>
      simp only [nodeStep, NodeObject.copyConstruct_eq]
      cases isObject : objects[other]? with
      | none => exact all
      | some node => exact all.append (all.get isObject)
  | moveConstruct other =>
      simp only [nodeStep, NodeObject.moveConstruct_fst]
      cases isObject : objects[other]? with
      | none => exact all
      | some node => exact (all.set other (fresh_of_none rfl)).append (all.get isObject)
  | copyAssign target rhs =>
      simp only [nodeStep, NodeObject.copyAssign_eq]
      cases isObject : objects[rhs]? with
      | none => exact all
      | some node => exact all.changed fun object isTarget => all.get isObject
  | moveAssign target rhs =>
      simp only [nodeStep, NodeObject.moveAssign_fst]
      by_cases same : target = rhs
      · rwa [if_pos same]
      · rw [if_neg same]
        cases objects[target]? with
        | none => exact all
        | some object =>
            cases isObject : objects[rhs]? with
            | none => exact all
            | some node => exact (all.set target (all.get isObject)).set rhs (fresh_of_none rfl)
  | toString object =>
      exact all.changed fun node isObject => fresh_toString (all.get isObject)
  | writeId object nodeId =>
      exact all.changed fun node isObject =>
        (fresh_written_iff (all.get isObject) (node.writeId nodeId) rfl).mpr (keeps node isObject)
  | writeEndpoint object endpoint =>
      exact all.changed fun node isObject =>
        (fresh_written_iff (all.get isObject) (node.writeEndpoint endpoint) rfl).mpr
          (keeps node isObject)

theorem keepsUrls_of_nodeStep_fresh (all : AllFresh asio objects)
    (after : AllFresh asio (nodeStep asio call objects)) : KeepsUrls asio call objects := by
  cases call with
  | writeId object nodeId =>
      intro node isObject
      have isWritten := mem_changed isObject fun node => node.writeId nodeId
      exact (fresh_written_iff (all.get isObject) (node.writeId nodeId) rfl).mp (after _ isWritten)
  | writeEndpoint object endpoint =>
      intro node isObject
      have isWritten := mem_changed isObject fun node => node.writeEndpoint endpoint
      exact (fresh_written_iff (all.get isObject) (node.writeEndpoint endpoint) rfl).mp
        (after _ isWritten)
  | _ => trivial

end Objects

/-- The URL that is shown is that of the id and the endpoint, in every state of a run,
exactly if no call of the run writes to an object whose URL is kept and would change. -/
theorem nodeUrls_fresh [Inhabited Address] (asio : AddressText Address)
    (calls : List (NodeCall Address)) :
    (RunsWithin (nodeStep asio) (KeepsUrls asio) calls [] →
      RunsWithin (nodeStep asio) (ShowsCurrent asio) calls []) ∧
    (RunsWithin (nodeStep asio) (KeepsUrls asio) calls [] ↔
      ∀ before after, calls = before ++ after →
        ∀ node ∈ run (nodeStep asio) before [],
          (node.toString asio).1 = node.currentUrl asio) := by
  have fresh_of_keeps : RunsWithin (nodeStep asio) (KeepsUrls asio) calls [] →
      ∀ before after, calls = before ++ after →
        AllFresh asio (run (nodeStep asio) before []) := by
    rintro within before after rfl
    rw [runsWithin_append] at within
    exact invariant_run_within (fun call objects => nodeStep_fresh) before []
      (by simp [AllFresh]) within.1
  refine ⟨fun within => ?_, fresh_of_keeps, fun always => ?_⟩
  · rw [runsWithin_iff_forall]
    intro before call after split
    exact showsCurrent_of_fresh (fresh_of_keeps within before (call :: after) split)
  · rw [runsWithin_iff_forall]
    intro before call after split
    have stepped : run (nodeStep asio) (before ++ [call]) [] =
        nodeStep asio call (run (nodeStep asio) before []) := run_append _ _ _ _
    have allAfter := always (before ++ [call]) after (by rw [split, List.append_assoc]; rfl)
    rw [stepped] at allAfter
    exact keepsUrls_of_nodeStep_fresh (always before (call :: after) split) allAfter

theorem otherId_size : (0x80 :: List.replicate 19 0 : ByteString).length = 160 / 8 := rfl

def otherId : Hash160 := ⟨0x80 :: List.replicate 19 0, otherId_size⟩

/-- A node is shown, moved away and written where no URL is kept any more. -/
def movedCalls : List (NodeCall ByteString) :=
  [.ofEndpoint Hash.zero ⟨[192, 168, 1, 35], 4242⟩, .toString 0, .moveConstruct 0,
    .writeId 0 otherId, .toString 0]

theorem movedCalls_fresh :
    RunsWithin (nodeStep oneAddress) (ShowsCurrent oneAddress) movedCalls [] := by
  refine (nodeUrls_fresh oneAddress movedCalls).1 ⟨trivial, trivial, trivial, ?_, trivial, trivial⟩
  intro node isNode
  cases isNode
  exact .inl rfl

/-- A node is shown, given another id and shown again. -/
def renamedCalls : List (NodeCall ByteString) :=
  [.ofEndpoint Hash.zero ⟨[192, 168, 1, 35], 4242⟩, .toString 0,
    .writeId 0 otherId, .toString 0]

theorem renamedCalls_stale :
    ¬ RunsWithin (nodeStep oneAddress) (ShowsCurrent oneAddress) renamedCalls [] := by
  rintro ⟨-, -, -, shows, -⟩
  have fresh := fresh_iff.mp (shows _ rfl) _ rfl
  exact absurd fresh (by decide)

end Kademlia

end Blocxxi
