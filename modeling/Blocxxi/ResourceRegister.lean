import Blocxxi.AnsweringMachines
import Blocxxi.ResourceTable
import Mathlib.Data.List.Nodup

/-!
# Registers of slots

What a table is for: a register has slots, each with an age and perhaps an item, and a queue
of the slots without one.  An item goes into the slot at the front of the queue; the slot of
an item that is removed becomes older and goes to the back.
-/

namespace Blocxxi

namespace Nova

open ResourceHandle Function

structure Register (T : Type) where
  size : Nat
  age : Nat → Nat
  content : Nat → Option T
  queue : List Nat
  nodup : queue.Nodup
  inside : ∀ slot, size ≤ slot → content slot = none
  mem_queue : ∀ slot, slot ∈ queue ↔ slot < size ∧ content slot = none

namespace Register

variable {T : Type} (register : Register T)

def empty : Register T where
  size := 0
  age _ := 0
  content _ := none
  queue := []
  nodup := List.nodup_nil
  inside _ _ := rfl
  mem_queue _ := by simp

/-- The number of items. -/
def live : Nat := register.size - register.queue.length

/-- A new slot with an item. -/
def extend (isFull : register.queue = []) (item : T) : Register T where
  size := register.size + 1
  age := update register.age register.size 0
  content := update register.content register.size (some item)
  queue := []
  nodup := List.nodup_nil
  inside slot beyond := by
    rw [update_of_ne (by omega)]
    exact register.inside slot (by omega)
  mem_queue slot := by
    have noSlot := register.mem_queue slot
    rw [isFull] at noSlot
    by_cases isNew : slot = register.size
    · simp [isNew]
    · rw [update_of_ne isNew, show slot < register.size + 1 ↔ slot < register.size by omega]
      exact noSlot

/-- The slot at the front of the queue with an item. -/
def fill {slot : Nat} {rest : List Nat} (front : register.queue = slot :: rest) (item : T) :
    Register T where
  size := register.size
  age := register.age
  content := update register.content slot (some item)
  queue := rest
  nodup := (List.nodup_cons.mp (front ▸ register.nodup)).2
  inside other beyond := by
    have isSlot := (register.mem_queue slot).mp (front ▸ List.mem_cons_self)
    rw [update_of_ne (by omega)]
    exact register.inside other beyond
  mem_queue other := by
    have isMember := register.mem_queue other
    have notAgain := (List.nodup_cons.mp (front ▸ register.nodup)).1
    rw [front, List.mem_cons] at isMember
    by_cases isSlot : other = slot
    · subst isSlot
      simp [notAgain]
    · rw [update_of_ne isSlot, ← isMember]
      simp [isSlot]

/-- The slot without its item, one older. -/
def retire {slot : Nat} {item : T} (occupied : register.content slot = some item) :
    Register T where
  size := register.size
  age := update register.age slot (register.age slot + 1)
  content := update register.content slot none
  queue := register.queue ++ [slot]
  nodup := by
    have notWaiting : slot ∉ register.queue := fun member => by
      rw [((register.mem_queue slot).mp member).2] at occupied
      cases occupied
    exact List.nodup_append.mpr ⟨register.nodup, List.nodup_singleton slot, by
      rintro other member _ isSlot rfl
      rw [List.mem_singleton] at isSlot
      exact notWaiting (isSlot ▸ member)⟩
  inside other beyond := by
    by_cases isSlot : other = slot
    · rw [isSlot, update_self]
    · rw [update_of_ne isSlot]
      exact register.inside other beyond
  mem_queue other := by
    have small : slot < register.size := by
      by_contra beyond
      rw [register.inside slot (Nat.not_lt.mp beyond)] at occupied
      cases occupied
    by_cases isSlot : other = slot
    · simp [isSlot, small]
    · simp [isSlot, register.mem_queue]

/-- All slots without items, one older. -/
def clear : Register T where
  size := register.size
  age slot := register.age slot + 1
  content _ := none
  queue := List.range register.size
  nodup := List.nodup_range
  inside _ _ := rfl
  mem_queue slot := by simp

/-- The handle of a slot, whose generation is the age modulo the number of generations. -/
def handleOf (type : UInt8) (slot age : Nat) : ResourceHandle :=
  (ResourceHandle.make (UInt32.ofNat slot) type).setGeneration (UInt16.ofNat (age % 4096))

/-- What a handle stands for. -/
def found (type : UInt8) (handle : ResourceHandle) : Option T :=
  if handle.resourceType = type ∧
      handle.generation.toNat = register.age handle.index.toNat % 4096 then
    register.content handle.index.toNat
  else
    none

/-- What a handle stands for, or why it stands for nothing. -/
def itemAt (type : UInt8) (handle : ResourceHandle) : Except HandleError T :=
  if handle.index = kInvalidIndex then
    .error (.invalidArgument "invalid handle")
  else if register.size ≤ handle.index.toNat then
    .error (.outOfRange "bad handle, index out of range")
  else if handle.resourceType ≠ type then
    .error (.invalidArgument "item type mismatch, using wrong table?")
  else
    match register.content handle.index.toNat with
    | none => .error (.invalidArgument "bad handle, item already erased")
    | some item =>
        if handle.generation.toNat = register.age handle.index.toNat % 4096 then .ok item
        else .error (.invalidArgument "external handle is stale (obsolete generation)")

def insert (item : T) : Register T × Nat :=
  match front : register.queue with
  | [] => (register.extend front item, register.size)
  | slot :: _ => (register.fill front item, slot)

def erase (type : UInt8) (handle : ResourceHandle) : Register T × Nat :=
  match occupied : register.content handle.index.toNat with
  | none => (register, 0)
  | some _ =>
      if handle.resourceType = type ∧
          handle.generation.toNat = register.age handle.index.toNat % 4096 then
        (register.retire occupied, 1)
      else
        (register, 0)

def eraseItems (type : UInt8) : List ResourceHandle → Register T → Register T × Nat
  | [], register => (register, 0)
  | handle :: handles, register =>
      let (register, erased) := register.erase type handle
      let (register, count) := eraseItems type handles register
      (register, erased + count)

end Register

/-- The calls of a table.  Items are compared by `comp` when it is defragmented, and are
trivially copyable or not. -/
inductive TableCall (T : Type)
  | insert (item : T)
  | erase (handle : ResourceHandle)
  | eraseItems (handles : List ResourceHandle)
  | clear
  | reset
  | defragment (comp : T → T → Bool) (maxSwaps : Nat) (trivial : Bool)
  | contains (handle : ResourceHandle)
  | tryGet (handle : ResourceHandle)
  | itemAt (handle : ResourceHandle)
  | size

/-- What a call returns.  How many swaps a defragmentation makes is not told. -/
inductive TableAnswer (T : Type)
  | done
  | handle (handle : ResourceHandle)
  | count (number : Nat)
  | flag (found : Bool)
  | item (found : Option T)
  | result (result : Except HandleError T)

section Steps

variable {T : Type}

def ResourceTable.step (table : ResourceTable T) :
    TableCall T → Option (ResourceTable T × TableAnswer T)
  | .insert item => (table.insert item).map fun (table, handle) => (table, .handle handle)
  | .erase handle => (table.erase handle).map fun (table, count) => (table, .count count)
  | .eraseItems handles =>
      (ResourceTable.eraseItems handles table).map fun (table, count) => (table, .count count)
  | .clear => table.clear.map fun table => (table, .done)
  | .reset => some (table.reset, .done)
  | .defragment comp maxSwaps trivial =>
      (table.defragment comp maxSwaps trivial).map fun (table, _) => (table, .done)
  | .contains handle => (table.contains handle).map fun found => (table, .flag found)
  | .tryGet handle => (table.tryGet handle).map fun found => (table, .item found)
  | .itemAt handle => (table.itemAt handle).map fun result => (table, .result result)
  | .size => some (table, .count table.items.length)

/-- An item is inserted only if there are indices left. -/
def Register.step (type : UInt8) (register : Register T) :
    TableCall T → Option (Register T × TableAnswer T)
  | .insert item =>
      if register.live < kIndexMax.toNat then
        let (next, slot) := register.insert item
        some (next, .handle (handleOf type slot (next.age slot)))
      else
        none
  | .erase handle =>
      let (register, count) := register.erase type handle
      some (register, .count count)
  | .eraseItems handles =>
      let (register, count) := Register.eraseItems type handles register
      some (register, .count count)
  | .clear => some (register.clear, .done)
  | .reset => some (.empty, .done)
  | .defragment _ _ _ => some (register, .done)
  | .contains handle => some (register, .flag (register.found type handle).isSome)
  | .tryGet handle => some (register, .item (register.found type handle))
  | .itemAt handle => some (register, .result (register.itemAt type handle))
  | .size => some (register, .count register.live)

end Steps

end Nova

end Blocxxi
