import Blocxxi.ResourceHandle

/-!
# Resource tables

A table keeps its items tightly packed.  A handle names a slot of the sparse table, which
holds the position of the item; the slots without an item are linked to a list.  An access
outside of a vector and an assertion that fails are `none`.
-/

namespace Blocxxi

namespace Nova

open ResourceHandle

/-- The exceptions that an access throws. -/
inductive HandleError
  | invalidArgument (text : String)
  | outOfRange (text : String)
  deriving DecidableEq

structure ResourceTable (T : Type) where
  itemType : UInt8
  freelistFront : UInt32 := kInvalidIndex
  freelistBack : UInt32 := kInvalidIndex
  sparseTable : List ResourceHandle := []
  items : List T := []
  /-- `dense_to_sparse` of the items. -/
  metas : List UInt32 := []
  fragmented : Bool := false

/-- Changes an element of a vector. -/
def changeAt {Element : Type} (vector : List Element) (index : Nat)
    (change : Element → Element) : Option (List Element) :=
  vector[index]?.map fun element => vector.set index (change element)

/-- `std::swap` of an element with the last one. -/
def swapWithBack {Element : Type} (vector : List Element) (index : Nat) :
    Option (List Element) := do
  let element ← vector[index]?
  let back ← vector.getLast?
  return (vector.set index back).set (vector.length - 1) element

/-- `std::memmove` of the elements between two positions by one place. -/
def moveUp {Element : Type} (vector : List Element) (first last : Nat) : List Element :=
  vector.take (first + 1) ++ (vector.drop first).take (last - first) ++
    vector.drop (last + 1)

def newIndex {Element : Type} (set : List Element) : UInt32 := UInt32.ofNat set.length

namespace ResourceTable

variable {T : Type} (table : ResourceTable T)

def isFreeListEmpty : Bool := table.freelistFront == kIndexMax

def contains (handle : ResourceHandle) : Option Bool :=
  if table.sparseTable.length ≤ handle.index.toNat ∨ handle.resourceType ≠ table.itemType then
    some false
  else do
    let innerId ← table.sparseTable[handle.index.toNat]?
    if innerId.isFree then
      return false
    guard (innerId.index.toNat < table.items.length)
    return handle.generation == innerId.generation

def tryGet (handle : ResourceHandle) : Option (Option T) :=
  if table.sparseTable.length ≤ handle.index.toNat ∨ handle.resourceType ≠ table.itemType then
    some none
  else do
    let innerId ← table.sparseTable[handle.index.toNat]?
    if innerId.isFree then
      return none
    if handle.generation ≠ innerId.generation then
      return none
    let item ← table.items[innerId.index.toNat]?
    return some item

def getInnerIndex (handle : ResourceHandle) : Option (Except HandleError UInt32) :=
  if !handle.isValid then
    some (.error (.invalidArgument "invalid handle"))
  else if newIndex table.sparseTable ≤ handle.index then
    some (.error (.outOfRange "bad handle, index out of range"))
  else if handle.resourceType ≠ table.itemType then
    some (.error (.invalidArgument "item type mismatch, using wrong table?"))
  else do
    let innerHandle ← table.sparseTable[handle.index.toNat]?
    if innerHandle.isFree then
      return .error (.invalidArgument "bad handle, item already erased")
    if handle.generation ≠ innerHandle.generation then
      return .error (.invalidArgument "external handle is stale (obsolete generation)")
    guard (innerHandle.index < newIndex table.items)
    return .ok innerHandle.index

def itemAt (handle : ResourceHandle) : Option (Except HandleError T) := do
  match ← table.getInnerIndex handle with
  | .error error => return .error error
  | .ok index =>
      let item ← table.items[index.toNat]?
      return .ok item

/-- `InsertImpl` with `Insert` and `Emplace`. -/
def insert (item : T) : Option (ResourceTable T × ResourceHandle) := do
  guard (table.items.length < kIndexMax.toNat)
  let handle := ResourceHandle.make kInvalidIndex table.itemType
  if table.isFreeListEmpty then
    let handle := ((handle.setIndex (newIndex table.sparseTable)).setResourceType
      table.itemType).setFree false
    return ({ table with
      fragmented := true
      sparseTable := table.sparseTable ++ [handle]
      items := table.items ++ [item]
      metas := table.metas ++ [handle.index] }, handle)
  else
    let outerIndex := table.freelistFront
    let innerHandle ← table.sparseTable[outerIndex.toNat]?
    let front := innerHandle.index
    let innerHandle := (innerHandle.setFree false).setIndex (newIndex table.items)
    let handle := innerHandle.setIndex outerIndex
    return ({ table with
      freelistFront := front
      freelistBack := if front = kIndexMax then front else table.freelistBack
      fragmented := true
      sparseTable := table.sparseTable.set outerIndex.toNat innerHandle
      items := table.items ++ [item]
      metas := table.metas ++ [handle.index] }, handle)

/-- The slot at the back of the free list is linked to a new one. -/
def pushFree (sparseTable : List ResourceHandle) (index : UInt32) :
    Option (UInt32 × List ResourceHandle) :=
  if table.isFreeListEmpty then
    some (index, sparseTable)
  else do
    let sparseTable ←
      changeAt sparseTable table.freelistBack.toNat fun back => back.setIndex index
    return (table.freelistFront, sparseTable)

/-- The item at an index changes places with the last one. -/
def swapOut (sparseTable : List ResourceHandle) (innerIndex : UInt32) :
    Option (List ResourceHandle × List T × List UInt32) :=
  if innerIndex.toNat = table.items.length - 1 then
    some (sparseTable, table.items, table.metas)
  else do
    let items ← swapWithBack table.items innerIndex.toNat
    let metas ← swapWithBack table.metas innerIndex.toNat
    let denseToSparse ← metas[innerIndex.toNat]?
    let sparseTable ←
      changeAt sparseTable denseToSparse.toNat fun moved => moved.setIndex innerIndex
    return (sparseTable, items, metas)

def erase (handle : ResourceHandle) : Option (ResourceTable T × Nat) := do
  let found ← table.contains handle
  if !found then
    return (table, 0)
  let innerHandle ← table.sparseTable[handle.index.toNat]?
  let innerIndex := innerHandle.index
  let innerHandle := ((innerHandle.setFree true).newGeneration).setIndex kIndexMax
  let sparseTable := table.sparseTable.set handle.index.toNat innerHandle
  let (front, sparseTable) ← table.pushFree sparseTable handle.index
  let (sparseTable, items, metas) ← table.swapOut sparseTable innerIndex
  return ({ table with
    freelistFront := front
    freelistBack := handle.index
    fragmented := true
    sparseTable := sparseTable
    items := items.dropLast
    metas := metas.dropLast }, 1)

def eraseItems : List ResourceHandle → ResourceTable T → Option (ResourceTable T × Nat)
  | [], table => some (table, 0)
  | handle :: handles, table => do
      let (table, erased) ← table.erase handle
      let (table, count) ← eraseItems handles table
      return (table, erased + count)

/-- The loop of `Clear` over the slots. -/
def clearSlots (size : UInt32) (sparseTable : List ResourceHandle) : List ResourceHandle :=
  sparseTable.mapIdx fun index handle =>
    if index < size.toNat then
      ((handle.setFree true).newGeneration).setIndex (UInt32.ofNat index + 1)
    else
      handle

def clear : Option (ResourceTable T) :=
  let size := newIndex table.sparseTable
  if size = 0 then
    some table
  else do
    let sparseTable ← changeAt (clearSlots size table.sparseTable) (size - 1).toNat
      fun last => last.setIndex kInvalidIndex
    return { table with
      freelistFront := 0
      freelistBack := size - 1
      fragmented := false
      sparseTable := sparseTable
      items := []
      metas := [] }

def reset : ResourceTable T :=
  { table with
    freelistFront := kIndexMax
    freelistBack := kIndexMax
    fragmented := false
    sparseTable := []
    items := []
    metas := [] }

section Defragment

variable (comp : T → T → Bool) (maxSwaps : Nat)

/-- The inner loop of the implementation for trivially copyable items. -/
def findPlace (items : List T) (metas : List UInt32) (item : T) :
    Nat → List ResourceHandle → Option (Nat × List ResourceHandle)
  | 0, sparseTable => some (0, sparseTable)
  | place + 1, sparseTable => do
      let before ← items[place]?
      if comp before item then
        let denseToSparse ← metas[place]?
        let sparseTable ← changeAt sparseTable denseToSparse.toNat
          fun moved => moved.setIndex (UInt32.ofNat (place + 1))
        findPlace items metas item place sparseTable
      else
        return (place + 1, sparseTable)

/-- One round of the implementation for trivially copyable items. -/
def placeTrivial (index swaps : Nat) : Option (ResourceTable T × Nat) := do
  let item ← table.items[index]?
  let itemMeta ← table.metas[index]?
  let (place, sparseTable) ←
    findPlace comp table.items table.metas item index table.sparseTable
  if place = index then
    return ({ table with sparseTable := sparseTable }, swaps)
  let sparseTable ← changeAt sparseTable itemMeta.toNat
    fun moved => moved.setIndex (UInt32.ofNat place)
  return ({ table with
    sparseTable := sparseTable
    items := (moveUp table.items place index).set place item
    metas := (moveUp table.metas place index).set place itemMeta }, swaps + 1)

/-- The inner loop of the standard implementation. -/
def sink (item : T) : Nat → ResourceTable T → Nat → Option (Nat × ResourceTable T × Nat)
  | 0, table, swaps => some (0, table, swaps)
  | place + 1, table, swaps =>
      if maxSwaps = 0 ∨ swaps < maxSwaps then do
        let before ← table.items[place]?
        if comp before item then
          let denseToSparse ← table.metas[place]?
          let sparseTable ← changeAt table.sparseTable denseToSparse.toNat
            fun moved => moved.setIndex (UInt32.ofNat (place + 1))
          sink item place
            { table with
              sparseTable := sparseTable
              items := table.items.set (place + 1) before
              metas := table.metas.set (place + 1) denseToSparse }
            (swaps + 1)
        else
          return (place + 1, table, swaps)
      else
        some (place + 1, table, swaps)

/-- One round of the standard implementation. -/
def placeStandard (index swaps : Nat) : Option (ResourceTable T × Nat) := do
  let item ← table.items[index]?
  let itemMeta ← table.metas[index]?
  let (place, table, swaps) ← sink comp maxSwaps item index table swaps
  if place = index then
    return (table, swaps)
  let sparseTable ← changeAt table.sparseTable itemMeta.toNat
    fun moved => moved.setIndex (UInt32.ofNat place)
  return ({ table with
    sparseTable := sparseTable
    items := table.items.set place item
    metas := table.metas.set place itemMeta }, swaps)

def placeItem (trivial : Bool) (index swaps : Nat) : Option (ResourceTable T × Nat) :=
  if trivial then table.placeTrivial comp index swaps
  else table.placeStandard comp maxSwaps index swaps

/-- The outer loop, with the index that it ends at. -/
def defragmentLoop (trivial : Bool) :
    Nat → Nat → ResourceTable T → Nat → Option (ResourceTable T × Nat × Nat)
  | 0, index, table, swaps => some (table, index, swaps)
  | rounds + 1, index, table, swaps =>
      if maxSwaps = 0 ∨ swaps < maxSwaps then do
        let (table, swaps) ← table.placeItem comp maxSwaps trivial index swaps
        defragmentLoop trivial rounds (index + 1) table swaps
      else
        some (table, index, swaps)

/-- `Defragment`, for items that are trivially copyable or not.  From the index 1 the loop
has as many rounds as there are items behind the first one. -/
def defragment (trivial : Bool) : Option (ResourceTable T × Nat) :=
  if !table.fragmented then
    some (table, 0)
  else do
    let (table, index, swaps) ←
      defragmentLoop comp maxSwaps trivial (table.items.length - 1) 1 table 0
    return ({ table with
      fragmented := if index = table.items.length then false else table.fragmented }, swaps)

end Defragment

end ResourceTable

end Nova

end Blocxxi
