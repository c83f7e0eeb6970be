import Blocxxi.LinkedSegments
import Blocxxi.ResourceVectors

/-!
# Tables are registers

A table represents a register: the slots have the ages and items of the register, the items
are paired with their slots in both directions, and the free list is the queue.  Every call
of the table is the call of the register.
-/

namespace Blocxxi

namespace Nova

open ResourceHandle LinkedSegments Function

theorem generation_eq_iff {generation : UInt16} {age : Nat} :
    generation = UInt16.ofNat (age % 4096) ↔ generation.toNat = age % 4096 := by
  rw [← UInt16.toNat_inj, UInt16.toNat_ofNat', Nat.mod_eq_of_lt (a := age % 4096) (by omega)]

structure ResourceTable.Represents {T : Type} (table : ResourceTable T)
    (register : Register T) : Prop where
  small : register.size ≤ kIndexMax.toNat
  size : table.sparseTable.length = register.size
  slots : Slots table.sparseTable table.itemType register
  paired : table.metas.length = table.items.length
  pairs : Pairs table.items table.metas register.content
  indexed : Indexed table.sparseTable table.metas
  chain : Segment (nextFree table.sparseTable) table.freelistFront
    (register.queue.map UInt32.ofNat) kIndexMax
  back : table.freelistBack = (register.queue.getLast?.map UInt32.ofNat).getD kIndexMax
  counted : table.items.length + register.queue.length = register.size

namespace ResourceTable

namespace Represents

variable {T : Type} {table : ResourceTable T} {register : Register T}

theorem live_eq (represents : table.Represents register) :
    register.live = table.items.length := by
  have counted := represents.counted
  rw [Register.live]
  omega

theorem lt_of_content (slot : Nat) {item : T} (isItem : register.content slot = some item) :
    slot < register.size := by
  by_contra beyond
  rw [register.inside slot (Nat.not_lt.mp beyond)] at isItem
  cases isItem

theorem slot_lt (represents : table.Represents register) {slot : Nat}
    (small : slot < register.size) :
    ∃ handle : ResourceHandle, table.sparseTable[slot]? = some handle ∧
      unindexed handle = register.slotFields table.itemType slot := by
  have within : slot < table.sparseTable.length := represents.size ▸ small
  have isSlot := List.getElem?_eq_getElem within
  exact ⟨_, isSlot, represents.slots _ _ isSlot⟩

/-- An item is where its slot says. -/
theorem occupied (represents : table.Represents register) {slot : Nat} {item : T}
    (isItem : register.content slot = some item) :
    ∃ handle : ResourceHandle, table.sparseTable[slot]? = some handle ∧
      table.items[handle.index.toNat]? = some item ∧
      table.metas[handle.index.toNat]? = some (UInt32.ofNat slot) := by
  obtain ⟨place, outer, atPlace, isOuter, rfl⟩ := (represents.pairs _ _).mp isItem
  obtain ⟨handle, isHandle, rfl⟩ := represents.indexed place outer isOuter
  rw [UInt32.ofNat_toNat]
  exact ⟨handle, isHandle, atPlace, isOuter⟩

/-- What a lookup reads of a slot. -/
theorem inner (represents : table.Represents register) {slot : Nat}
    (small : slot < register.size) :
    ∃ inner : ResourceHandle, table.sparseTable[slot]? = some inner ∧
      inner.isFree = (register.content slot).isNone ∧
      (∀ item, register.content slot = some item →
        table.items[inner.index.toNat]? = some item) ∧
      ∀ generation : UInt16, generation = inner.generation ↔
        generation.toNat = register.age slot % 4096 := by
  obtain ⟨inner, isInner, fields⟩ := represents.slot_lt small
  refine ⟨inner, isInner, congrArg Fields.isFree fields, fun item isItem => ?_,
    fun generation => ?_⟩
  · obtain ⟨_, isInner', atPlace, -⟩ := represents.occupied isItem
    cases isInner.symm.trans isInner'
    exact atPlace
  · have isGeneration : inner.generation = UInt16.ofNat (register.age slot % 4096) :=
      congrArg Fields.generation fields
    rw [isGeneration, generation_eq_iff]

theorem contains_eq (represents : table.Represents register) (handle : ResourceHandle) :
    table.contains handle = some (register.found table.itemType handle).isSome := by
  rw [ResourceTable.contains, represents.size, Register.found]
  by_cases isSlot : handle.index.toNat < register.size
  · by_cases isType : handle.resourceType = table.itemType
    · obtain ⟨inner, isInner, isFree, atPlace, generation⟩ := represents.inner isSlot
      rw [if_neg (by simp [isSlot, isType]), isInner, Option.bind_eq_bind, Option.bind_some,
        isFree]
      cases isItem : register.content handle.index.toNat with
      | none => simp
      | some item =>
          have within := (List.getElem?_eq_some_iff.mp (atPlace item isItem)).1
          by_cases same : handle.generation = inner.generation
          · have sameAge := (generation _).mp same
            simp [within, isType, ← same, sameAge]
          · have otherAge := mt (generation _).mpr same
            simp [within, same, otherAge]
    · simp [isType]
  · rw [if_pos (.inl (Nat.not_lt.mp isSlot)), register.inside _ (Nat.not_lt.mp isSlot),
      ite_self, Option.isSome_none]

theorem tryGet_eq (represents : table.Represents register) (handle : ResourceHandle) :
    table.tryGet handle = some (register.found table.itemType handle) := by
  rw [ResourceTable.tryGet, represents.size, Register.found]
  by_cases isSlot : handle.index.toNat < register.size
  · by_cases isType : handle.resourceType = table.itemType
    · obtain ⟨inner, isInner, isFree, atPlace, generation⟩ := represents.inner isSlot
      rw [if_neg (by simp [isSlot, isType]), isInner, Option.bind_eq_bind, Option.bind_some,
        isFree]
      cases isItem : register.content handle.index.toNat with
      | none => simp
      | some item =>
          by_cases same : handle.generation = inner.generation
          · have sameAge := (generation _).mp same
            simp [atPlace item isItem, isType, ← same, sameAge]
          · have otherAge := mt (generation _).mpr same
            simp [same, otherAge]
    · simp [isType]
  · rw [if_pos (.inl (Nat.not_lt.mp isSlot)), register.inside _ (Nat.not_lt.mp isSlot),
      ite_self]

theorem newIndex_toNat {Element : Type} {set : List Element}
    (small : set.length ≤ kIndexMax.toNat) : (newIndex set).toNat = set.length := by
  have bound : kIndexMax.toNat < 2 ^ 32 := kIndexMax.toNat_lt
  rw [newIndex, UInt32.toNat_ofNat', Nat.mod_eq_of_lt (by omega)]

theorem toNat_ofNat_index {slot : Nat} (small : slot ≤ kIndexMax.toNat) :
    (UInt32.ofNat slot).toNat = slot := by
  have bound : kIndexMax.toNat < 2 ^ 32 := kIndexMax.toNat_lt
  rw [UInt32.toNat_ofNat', Nat.mod_eq_of_lt (by omega)]

theorem items_le (represents : table.Represents register) :
    table.items.length ≤ kIndexMax.toNat := by
  have counted := represents.counted
  have small := represents.small
  omega

theorem toNat_newSlot (represents : table.Represents register) :
    (newIndex table.sparseTable).toNat = register.size := by
  rw [newIndex_toNat (represents.size ▸ represents.small), represents.size]

theorem itemAt_eq (represents : table.Represents register) (handle : ResourceHandle) :
    table.itemAt handle = some (register.itemAt table.itemType handle) := by
  have sparseSize := represents.toNat_newSlot
  have itemsSize := newIndex_toNat represents.items_le
  rw [ResourceTable.itemAt, ResourceTable.getInnerIndex, Register.itemAt, isValid]
  by_cases isIndex : handle.index = kInvalidIndex
  · simp [isIndex]
  have outside : newIndex table.sparseTable ≤ handle.index ↔
      register.size ≤ handle.index.toNat := by
    rw [UInt32.le_iff_toNat_le, sparseSize]
  rw [if_neg (by simp [isIndex]), if_neg isIndex]
  by_cases isSlot : handle.index.toNat < register.size
  · rw [if_neg (mt outside.mp (Nat.not_le.mpr isSlot)), if_neg (Nat.not_le.mpr isSlot)]
    by_cases isType : handle.resourceType = table.itemType
    · obtain ⟨inner, isInner, isFree, atPlace, generation⟩ := represents.inner isSlot
      rw [if_neg (not_not.mpr isType), if_neg (not_not.mpr isType), isInner]
      cases isItem : register.content handle.index.toNat with
      | none => simp [isFree, isItem]
      | some item =>
          obtain ⟨within, isAt⟩ := List.getElem?_eq_some_iff.mp (atPlace item isItem)
          by_cases same : handle.generation = inner.generation
          · have sameAge := (generation _).mp same
            simp [isFree, isItem, ← same, sameAge, UInt32.lt_iff_toNat_lt, itemsSize, within,
              isAt]
          · have otherAge := mt (generation _).mpr same
            simp [isFree, isItem, same, otherAge]
    · simp [isType]
  · simp [outside, Nat.not_lt.mp isSlot]

theorem toNat_slot (represents : table.Represents register) {slot : Nat}
    (small : slot < register.size) : (UInt32.ofNat slot).toNat = slot :=
  toNat_ofNat_index (small.le.trans represents.small)

theorem ofNat_slot_ne (represents : table.Represents register) {slot : Nat}
    (small : slot < register.size) : UInt32.ofNat slot ≠ kIndexMax := by
  intro same
  have isSlot := represents.toNat_slot small
  have most := represents.small
  rw [same] at isSlot
  omega

theorem isFreeListEmpty_eq (represents : table.Represents register) :
    table.isFreeListEmpty = register.queue.isEmpty := by
  have chain := represents.chain
  rw [ResourceTable.isFreeListEmpty]
  cases isQueue : register.queue with
  | nil =>
      rw [isQueue] at chain
      exact beq_iff_eq.mpr chain
  | cons slot rest =>
      rw [isQueue] at chain
      have small := ((register.mem_queue slot).mp (isQueue ▸ List.mem_cons_self)).1
      exact beq_false_of_ne (chain.1 ▸ represents.ofNat_slot_ne small)

theorem fields_handleOf (type : UInt8) (slot age : Nat) :
    (Register.handleOf type slot age).fields =
      ⟨UInt32.ofNat slot, UInt16.ofNat (age % 4096), 0, type, false, 0⟩ := by
  have small : UInt16.ofNat (age % 4096) ≤ kGenerationMax := by
    rw [UInt16.le_iff_toNat_le, UInt16.toNat_ofNat', Nat.mod_eq_of_lt (by omega)]
    exact Nat.le_of_lt_succ (Nat.mod_lt _ (by decide))
  rw [Register.handleOf, fields_setGeneration _ small, fields_make]

/-- The table with an item in a new slot. -/
def withExtended (table : ResourceTable T) (slot : Nat) (item : T) : ResourceTable T :=
  { table with
    fragmented := true
    sparseTable := table.sparseTable ++ [Register.handleOf table.itemType slot 0]
    items := table.items ++ [item]
    metas := table.metas ++ [UInt32.ofNat slot] }

theorem insert_extended (represents : table.Represents register)
    (isFull : register.queue = []) (small : register.size < kIndexMax.toNat) (item : T) :
    table.insert item = some (withExtended table register.size item,
      Register.handleOf table.itemType register.size 0) := by
  have counted := represents.counted
  rw [isFull, List.length_nil, Nat.add_zero] at counted
  have isEmpty : table.isFreeListEmpty = true := by
    rw [represents.isFreeListEmpty_eq, isFull]
    rfl
  have sparseIndex : newIndex table.sparseTable = UInt32.ofNat register.size := by
    rw [newIndex, represents.size]
  have isHandle : ((((ResourceHandle.make kInvalidIndex table.itemType).setIndex
      (newIndex table.sparseTable)).setResourceType table.itemType).setFree false) =
        Register.handleOf table.itemType register.size 0 := by
    apply eq_of_fields_eq
    rw [fields_setFree, fields_setResourceType, fields_setIndex, fields_make,
      fields_handleOf, sparseIndex]
    rfl
  have handleIndex : (Register.handleOf table.itemType register.size 0).index =
      UInt32.ofNat register.size :=
    congrArg Fields.index (fields_handleOf _ _ _)
  have room : table.items.length < kIndexMax.toNat := by rwa [counted]
  simp only [ResourceTable.insert, isHandle, handleIndex, isEmpty, room, guard, if_true,
    Option.pure_def, Option.bind_eq_bind, Option.bind_some, withExtended]

theorem slots_extended (represents : table.Represents register)
    (isFull : register.queue = []) (item : T) :
    Slots (table.sparseTable ++ [Register.handleOf table.itemType register.size 0])
      table.itemType (register.extend isFull item) := by
  intro slot handle isSlot
  rw [getElem?_concat_eq_some] at isSlot
  rcases isSlot with isOld | ⟨rfl, rfl⟩
  · have within := (List.getElem?_eq_some_iff.mp isOld).1
    rw [represents.size] at within
    rw [represents.slots slot handle isOld, Register.slotFields, Register.slotFields]
    simp [Register.extend, Nat.ne_of_lt within]
  · rw [unindexed, fields_handleOf, represents.size]
    simp [Register.slotFields, Register.extend]

theorem indexed_extended (represents : table.Represents register)
    (isFull : register.queue = []) :
    Indexed (table.sparseTable ++ [Register.handleOf table.itemType register.size 0])
      (table.metas ++ [UInt32.ofNat register.size]) := by
  have counted := represents.counted
  rw [isFull, List.length_nil, Nat.add_zero] at counted
  have toNat_size := toNat_ofNat_index represents.small
  have indexed : Indexed (table.sparseTable ++
      [Register.handleOf table.itemType register.size 0]) table.metas := by
    apply represents.indexed.congr
    intro outer isOuter
    obtain ⟨place, isPlace⟩ := List.mem_iff_getElem?.mp isOuter
    obtain ⟨handle, isHandle, -⟩ := represents.indexed place outer isPlace
    rw [isHandle]
    exact getElem?_concat_eq_some.mpr (.inl isHandle)
  refine indexed.concat (getElem?_concat_eq_some.mpr (.inr ⟨?_, rfl⟩)) ?_
  · rw [toNat_size, represents.size]
  · have handleIndex : (Register.handleOf table.itemType register.size 0).index =
        UInt32.ofNat register.size :=
      congrArg Fields.index (fields_handleOf _ _ _)
    rw [handleIndex, toNat_size, represents.paired, counted]

theorem insert_extend (represents : table.Represents register)
    (isFull : register.queue = []) (small : register.size < kIndexMax.toNat) (item : T) :
    ∃ next, table.insert item =
        some (next, Register.handleOf table.itemType register.size 0) ∧
      next.itemType = table.itemType ∧ next.Represents (register.extend isFull item) := by
  refine ⟨_, represents.insert_extended isFull small item, rfl, ?_⟩
  constructor
  · exact small
  · simp [withExtended, represents.size, Register.extend]
  · exact represents.slots_extended isFull item
  · simp [withExtended, represents.paired]
  · have toNat_size := toNat_ofNat_index small.le
    have vacant : register.content (UInt32.ofNat register.size).toNat = none := by
      rw [toNat_size]
      exact register.inside _ (Nat.le_refl _)
    have pairs := represents.pairs.concat represents.paired vacant item
    rw [toNat_size] at pairs
    exact pairs
  · exact represents.indexed_extended isFull
  · have chain := represents.chain
    rwa [isFull] at chain
  · have back := represents.back
    rwa [isFull] at back
  · have counted := represents.counted
    rw [isFull, List.length_nil, Nat.add_zero] at counted
    simp [withExtended, Register.extend, counted]

/-- An empty slot stands beside no item. -/
theorem outer_ne_of_vacant (represents : table.Represents register) {slot : Nat}
    (vacant : register.content slot = none) {outer : UInt32} (isOuter : outer ∈ table.metas) :
    slot ≠ outer.toNat := by
  rintro rfl
  obtain ⟨place, isPlace⟩ := List.mem_iff_getElem?.mp isOuter
  have inItems := (List.getElem?_eq_some_iff.mp isPlace).1
  rw [represents.paired] at inItems
  have isContent := (represents.pairs _ _).mpr
    ⟨place, outer, List.getElem?_eq_getElem inItems, isPlace, rfl⟩
  rw [vacant] at isContent
  cases isContent

/-- The slot in front of the queue heads the free list and names the slots behind it. -/
theorem front_slot (represents : table.Represents register) {slot : Nat} {rest : List Nat}
    (front : register.queue = slot :: rest) :
    table.freelistFront = UInt32.ofNat slot ∧ ∃ inner : ResourceHandle,
      table.sparseTable[slot]? = some inner ∧
      unindexed inner = register.slotFields table.itemType slot ∧
      Segment (nextFree table.sparseTable) inner.index (rest.map UInt32.ofNat) kIndexMax := by
  obtain ⟨small, -⟩ := (register.mem_queue slot).mp (front ▸ List.mem_cons_self)
  obtain ⟨inner, isInner, fields⟩ := represents.slot_lt small
  have chain := represents.chain
  rw [front, List.map_cons] at chain
  obtain ⟨isFront, link, isLink, behind⟩ := chain
  rw [nextFree, represents.toNat_slot small, isInner, Option.map_some,
    Option.some.injEq] at isLink
  exact ⟨isFront, inner, isInner, fields, isLink ▸ behind⟩

/-- The slot with the place behind the items. -/
def filledSlot (items : List T) (inner : ResourceHandle) : ResourceHandle :=
  (inner.setFree false).setIndex (newIndex items)

theorem fields_filledSlot {type : UInt8} {slot : Nat} {inner : ResourceHandle}
    (fields : unindexed inner = register.slotFields type slot) (items : List T) :
    (filledSlot items inner).fields =
      { register.slotFields type slot with isFree := false, index := newIndex items } := by
  rw [filledSlot, fields_setIndex, fields_setFree, ← fields, unindexed]

/-- The table whose first free slot has taken an item. -/
def withFilled (table : ResourceTable T) (slot : Nat) (inner : ResourceHandle) (item : T) :
    ResourceTable T :=
  { table with
    freelistFront := inner.index
    freelistBack := if inner.index = kIndexMax then inner.index else table.freelistBack
    fragmented := true
    sparseTable := table.sparseTable.set slot (filledSlot table.items inner)
    items := table.items ++ [item]
    metas := table.metas ++ [UInt32.ofNat slot] }

section Fill

variable {slot : Nat} {rest : List Nat} {inner : ResourceHandle}

theorem insert_filled (represents : table.Represents register)
    (front : register.queue = slot :: rest) (isInner : table.sparseTable[slot]? = some inner)
    (fields : unindexed inner = register.slotFields table.itemType slot) (item : T) :
    table.insert item = some (withFilled table slot inner item,
      Register.handleOf table.itemType slot (register.age slot)) := by
  have isEmpty : table.isFreeListEmpty = false := by
    rw [represents.isFreeListEmpty_eq, front]
    rfl
  obtain ⟨small, -⟩ := (register.mem_queue slot).mp (front ▸ List.mem_cons_self)
  obtain ⟨isFront, -⟩ := represents.front_slot front
  have frontSlot : table.freelistFront.toNat = slot := by
    rw [isFront, represents.toNat_slot small]
  have isHandle : (filledSlot table.items inner).setIndex table.freelistFront =
      Register.handleOf table.itemType slot (register.age slot) := by
    apply eq_of_fields_eq
    rw [fields_setIndex, fields_filledSlot fields, fields_handleOf, isFront]
    rfl
  have handleIndex : (Register.handleOf table.itemType slot (register.age slot)).index =
      UInt32.ofNat slot :=
    congrArg Fields.index (fields_handleOf _ _ _)
  have room : table.items.length < kIndexMax.toNat := by
    have counted := represents.counted
    have most := represents.small
    rw [front, List.length_cons] at counted
    omega
  rw [filledSlot] at isHandle
  simp only [ResourceTable.insert, isEmpty, room, guard, if_true, Bool.false_eq_true,
    if_false, Option.pure_def, Option.bind_eq_bind, Option.bind_some, frontSlot, isInner]
  rw [isHandle, handleIndex, withFilled, filledSlot]

theorem slots_filled (represents : table.Represents register)
    (front : register.queue = slot :: rest)
    (fields : unindexed inner = register.slotFields table.itemType slot) (item : T) :
    Slots (table.sparseTable.set slot (filledSlot table.items inner)) table.itemType
      (register.fill front item) := by
  intro other handle isOther
  by_cases isSlot : other = slot
  · subst isSlot
    have within := (List.getElem?_eq_some_iff.mp isOther).1
    rw [List.length_set] at within
    cases (List.getElem?_set_self within).symm.trans isOther
    rw [unindexed, fields_filledSlot fields]
    simp [Register.slotFields, Register.fill]
  · rw [List.getElem?_set_ne (Ne.symm isSlot)] at isOther
    rw [represents.slots other handle isOther, Register.slotFields, Register.slotFields]
    simp [Register.fill, isSlot]

theorem indexed_filled (represents : table.Represents register)
    (front : register.queue = slot :: rest)
    (fields : unindexed inner = register.slotFields table.itemType slot) :
    Indexed (table.sparseTable.set slot (filledSlot table.items inner))
      (table.metas ++ [UInt32.ofNat slot]) := by
  obtain ⟨small, vacant⟩ := (register.mem_queue slot).mp (front ▸ List.mem_cons_self)
  have within : slot < table.sparseTable.length := represents.size ▸ small
  have indexed : Indexed (table.sparseTable.set slot (filledSlot table.items inner))
      table.metas := represents.indexed.congr fun outer isOuter =>
    List.getElem?_set_ne (represents.outer_ne_of_vacant vacant isOuter)
  refine @Indexed.concat _ _ indexed (UInt32.ofNat slot) (filledSlot table.items inner) ?_ ?_
  · rw [represents.toNat_slot small]
    exact List.getElem?_set_self within
  · have index : (filledSlot table.items inner).index = newIndex table.items :=
      congrArg Fields.index (fields_filledSlot fields _)
    rw [index, newIndex_toNat represents.items_le, represents.paired]

/-- The slots behind the first one are still linked. -/
theorem chain_filled (represents : table.Represents register)
    (front : register.queue = slot :: rest)
    (behind : Segment (nextFree table.sparseTable) inner.index (rest.map UInt32.ofNat)
      kIndexMax) (changed : ResourceHandle) :
    Segment (nextFree (table.sparseTable.set slot changed)) inner.index
      (rest.map UInt32.ofNat) kIndexMax := by
  obtain ⟨notAgain, -⟩ := List.nodup_cons.mp (front ▸ register.nodup)
  apply behind.congr
  intro cell isCell
  obtain ⟨other, inRest, rfl⟩ := List.mem_map.mp isCell
  have otherSmall := ((register.mem_queue other).mp (front ▸ List.mem_cons_of_mem _ inRest)).1
  apply nextFree_set_of_ne
  rw [represents.toNat_slot otherSmall]
  rintro rfl
  exact notAgain inRest

/-- The back of the free list only changes when no slot is left. -/
theorem back_filled (represents : table.Represents register)
    (front : register.queue = slot :: rest)
    (behind : Segment (nextFree table.sparseTable) inner.index (rest.map UInt32.ofNat)
      kIndexMax) :
    (if inner.index = kIndexMax then inner.index else table.freelistBack) =
      (rest.getLast?.map UInt32.ofNat).getD kIndexMax := by
  have back := represents.back
  rw [front] at back
  cases isRest : rest with
  | nil =>
      rw [isRest] at behind
      have noSlot : inner.index = kIndexMax := behind
      rw [if_pos noSlot]
      exact noSlot
  | cons second others =>
      have isSecond : second ∈ register.queue := by simp [front, isRest]
      have notMax := represents.ofNat_slot_ne ((register.mem_queue second).mp isSecond).1
      rw [isRest] at behind back
      rw [if_neg (by rw [behind.1]; exact notMax), back, List.getLast?_cons_cons]

theorem insert_fill (represents : table.Represents register)
    (front : register.queue = slot :: rest) (item : T) :
    ∃ next, table.insert item =
        some (next, Register.handleOf table.itemType slot (register.age slot)) ∧
      next.itemType = table.itemType ∧ next.Represents (register.fill front item) := by
  obtain ⟨small, vacant⟩ := (register.mem_queue slot).mp (front ▸ List.mem_cons_self)
  obtain ⟨-, inner, isInner, fields, behind⟩ := represents.front_slot front
  refine ⟨_, represents.insert_filled front isInner fields item, rfl, ?_⟩
  constructor
  · exact represents.small
  · simp [withFilled, represents.size, Register.fill]
  · exact represents.slots_filled front fields item
  · simp [withFilled, represents.paired]
  · have vacantOuter : register.content (UInt32.ofNat slot).toNat = none := by
      rwa [represents.toNat_slot small]
    have pairs := represents.pairs.concat represents.paired vacantOuter item
    rwa [represents.toNat_slot small] at pairs
  · exact represents.indexed_filled front fields
  · exact represents.chain_filled front behind _
  · exact represents.back_filled front behind
  · have counted := represents.counted
    rw [front, List.length_cons] at counted
    simp only [withFilled, Register.fill, List.length_append, List.length_singleton]
    omega

end Fill

theorem insert_eq (represents : table.Represents register)
    (room : register.live < kIndexMax.toNat) (item : T) :
    ∃ next, table.insert item = some (next, Register.handleOf table.itemType
        (register.insert item).2 ((register.insert item).1.age (register.insert item).2)) ∧
      next.itemType = table.itemType ∧ next.Represents (register.insert item).1 := by
  have counted := represents.counted
  rw [represents.live_eq] at room
  rw [Register.insert]
  split
  next isFull =>
    rw [isFull, List.length_nil] at counted
    obtain ⟨next, inserted, type, isNext⟩ :=
      represents.insert_extend isFull (by omega) item
    have newAge : (register.extend isFull item).age register.size = 0 := update_self _ _ _
    exact ⟨next, by rw [inserted]; dsimp only; rw [newAge], type, isNext⟩
  next slot rest front =>
    exact represents.insert_fill front item

theorem insert_none (represents : table.Represents register)
    (noRoom : ¬ register.live < kIndexMax.toNat) (item : T) : table.insert item = none := by
  rw [represents.live_eq] at noRoom
  simp [ResourceTable.insert, guard, noRoom]

/-- The item at a place is moved out of the way, and nothing but the slot of the last item
learns of it. -/
theorem swapOut_eq (represents : table.Represents register) {place : Nat} {outer : UInt32}
    (isOuter : table.metas[place]? = some outer) {sparseTable : List ResourceHandle}
    (others : ∀ (index : Nat) (other : UInt32), index ≠ place →
      table.metas[index]? = some other → ∃ handle : ResourceHandle,
        sparseTable[other.toNat]? = some handle ∧ handle.index.toNat = index)
    {innerIndex : UInt32} (isPlace : innerIndex.toNat = place) :
    ∃ after items metas, table.swapOut sparseTable innerIndex = some (after, items, metas) ∧
      items.dropLast = swapRemove table.items place ∧
      metas.dropLast = swapRemove table.metas place ∧
      Reindexed sparseTable after ∧
      Indexed after (swapRemove table.metas place) ∧
      ∀ slot, (∀ other ∈ table.metas, other ≠ outer → other.toNat ≠ slot) →
        after[slot]? = sparseTable[slot]? := by
  have paired := represents.paired
  have inside := (List.getElem?_eq_some_iff.mp isOuter).1
  by_cases isLast : place = table.items.length - 1
  · refine ⟨sparseTable, table.items, table.metas, ?_, (swapRemove_last (by omega)).symm,
      (swapRemove_last (by omega)).symm, .refl _, ?_, fun slot _ => rfl⟩
    · rw [ResourceTable.swapOut, if_pos (isPlace.trans isLast)]
    · intro index other isOther
      rw [getElem?_swapRemove inside] at isOther
      split at isOther
      next within =>
        rw [if_neg (by omega)] at isOther
        exact others index other (by omega) isOther
      next => cases isOther
  · obtain ⟨items, swapItems, itemsLeft, -⟩ :=
      @swapWithBack_eq _ table.items place (by omega)
    obtain ⟨metas, swapMetas, metasLeft, atPlace⟩ :=
      @swapWithBack_eq _ table.metas place (by omega)
    obtain ⟨moved, isMoved⟩ : ∃ moved, table.metas[table.metas.length - 1]? = some moved :=
      ⟨_, List.getElem?_eq_getElem (by omega)⟩
    obtain ⟨handle, isHandle, -⟩ := others _ _ (by omega) isMoved
    obtain ⟨changed, reindexed⟩ := changeAt_setIndex isHandle innerIndex
    rw [isMoved] at atPlace
    refine ⟨_, items, metas, ?_, itemsLeft, metasLeft, reindexed, ?_, fun slot differs => ?_⟩
    · rw [ResourceTable.swapOut, if_neg (by omega), isPlace, swapItems, swapMetas]
      simp only [Option.bind_eq_bind, Option.bind_some, atPlace, changed, Option.pure_def]
    · intro index other isOther
      rw [getElem?_swapRemove inside] at isOther
      split at isOther
      next within =>
        by_cases isRemoved : index = place
        · rw [if_pos isRemoved, isMoved] at isOther
          cases isOther
          refine ⟨_, List.getElem?_set_self (List.getElem?_eq_some_iff.mp isHandle).1, ?_⟩
          rw [index_setIndex, isPlace, isRemoved]
        · rw [if_neg isRemoved] at isOther
          have differs : moved.toNat ≠ other.toNat := by
            intro same
            obtain rfl := UInt32.toNat_inj.mp same
            have isIndex := represents.indexed.injective isOther isMoved
            omega
          rw [List.getElem?_set_ne differs]
          exact others index other isRemoved isOther
      next => cases isOther
    · apply List.getElem?_set_ne
      apply differs moved (List.mem_of_getElem? isMoved)
      rintro rfl
      have isIndex := represents.indexed.injective isOuter isMoved
      omega

theorem notMem_queue {slot : Nat} {item : T} (occupied : register.content slot = some item) :
    slot ∉ register.queue := fun member => by
  rw [((register.mem_queue slot).mp member).2] at occupied
  cases occupied

/-- What the free list is when a slot that no longer holds an item was linked behind it. -/
def LinksBehind (table : ResourceTable T) (register : Register T) (slot : Nat)
    (freed : ResourceHandle) (front : UInt32) (after : List ResourceHandle) : Prop :=
  table.pushFree (table.sparseTable.set slot freed) (UInt32.ofNat slot) =
      some (front, after) ∧
    Reindexed (table.sparseTable.set slot freed) after ∧
    Segment (nextFree after) front ((register.queue ++ [slot]).map UInt32.ofNat) kIndexMax ∧
    ∀ other, other ∉ register.queue →
      after[other]? = (table.sparseTable.set slot freed)[other]?

section PushFree

variable {slot : Nat} {item : T} {freed : ResourceHandle}

theorem linksBehind_nil (represents : table.Represents register)
    (occupied : register.content slot = some item) (isEnd : freed.index = kIndexMax)
    (noSlot : register.queue = []) :
    LinksBehind table register slot freed (UInt32.ofNat slot)
      (table.sparseTable.set slot freed) := by
  have small := lt_of_content slot occupied
  refine ⟨?_, .refl _, ?_, fun other _ => rfl⟩
  · rw [ResourceTable.pushFree, represents.isFreeListEmpty_eq, noSlot]
    rfl
  · rw [noSlot]
    refine ⟨rfl, kIndexMax, ?_, rfl⟩
    rw [nextFree, represents.toNat_slot small,
      List.getElem?_set_self (represents.size ▸ small), Option.map_some, isEnd]

theorem linksBehind_concat (represents : table.Represents register)
    (occupied : register.content slot = some item) (isEnd : freed.index = kIndexMax)
    {waiting : List Nat} {last : Nat} (isQueue : register.queue = waiting ++ [last]) :
    ∃ after, LinksBehind table register slot freed table.freelistFront after := by
  have small := lt_of_content slot occupied
  have notWaiting := notMem_queue occupied
  have isLastMember : last ∈ register.queue := by simp [isQueue]
  have lastSmall := ((register.mem_queue last).mp isLastMember).1
  have lastDiffers : slot ≠ last := by
    rintro rfl
    exact notWaiting isLastMember
  obtain ⟨handle, isHandle, -⟩ := represents.slot_lt lastSmall
  have isBack : (table.sparseTable.set slot freed)[last]? = some handle := by
    rw [List.getElem?_set_ne lastDiffers, isHandle]
  obtain ⟨changed, reindexed⟩ := changeAt_setIndex isBack (UInt32.ofNat slot)
  have back := represents.back
  rw [isQueue, List.getLast?_concat] at back
  have nodup := register.nodup
  rw [isQueue] at nodup
  have chain := represents.chain
  rw [isQueue, List.map_append] at chain
  refine ⟨_, ?_, reindexed, ?_, fun other notMember => ?_⟩
  · rw [ResourceTable.pushFree, represents.isFreeListEmpty_eq, isQueue, back]
    simp only [Option.map_some, Option.getD_some, represents.toNat_slot lastSmall, changed]
    rw [if_neg (by simp)]
    rfl
  · rw [isQueue, List.append_assoc, List.map_append]
    refine Segment.concat chain ?_ ?_ ?_
    · intro cell isCell
      obtain ⟨other, isMember, rfl⟩ := List.mem_map.mp isCell
      have inQueue : other ∈ register.queue := by simp [isQueue, isMember]
      have toNat_other :=
        represents.toNat_slot ((register.mem_queue other).mp inQueue).1
      rw [nextFree_set_of_ne, nextFree_set_of_ne]
      · rw [toNat_other]
        rintro rfl
        exact notWaiting inQueue
      · rw [toNat_other]
        rintro rfl
        exact (List.nodup_append.mp nodup).2.2 _ isMember _ List.mem_cons_self rfl
    · rw [nextFree, represents.toNat_slot lastSmall,
        List.getElem?_set_self (List.getElem?_eq_some_iff.mp isBack).1, Option.map_some,
        index_setIndex]
    · rw [nextFree, represents.toNat_slot small, List.getElem?_set_ne lastDiffers.symm,
        List.getElem?_set_self (represents.size ▸ small), Option.map_some, isEnd]
  · apply List.getElem?_set_ne
    rintro rfl
    exact notMember isLastMember

/-- A slot that no longer holds an item is linked behind the free slots. -/
theorem pushFree_eq (represents : table.Represents register)
    (occupied : register.content slot = some item) (isEnd : freed.index = kIndexMax) :
    ∃ front after, LinksBehind table register slot freed front after := by
  rcases List.eq_nil_or_concat register.queue with noSlot | ⟨waiting, last, isQueue⟩
  · exact ⟨_, _, represents.linksBehind_nil occupied isEnd noSlot⟩
  · rw [List.concat_eq_append] at isQueue
    obtain ⟨after, links⟩ := represents.linksBehind_concat occupied isEnd isQueue
    exact ⟨_, after, links⟩

end PushFree

/-- The slots beside items have items. -/
theorem content_of_mem (represents : table.Represents register) {outer : UInt32}
    (isOuter : outer ∈ table.metas) : ∃ item, register.content outer.toNat = some item := by
  obtain ⟨place, isPlace⟩ := List.mem_iff_getElem?.mp isOuter
  have inItems := (List.getElem?_eq_some_iff.mp isPlace).1
  rw [represents.paired] at inItems
  exact ⟨_, (represents.pairs _ _).mpr
    ⟨place, outer, List.getElem?_eq_getElem inItems, isPlace, rfl⟩⟩

/-- The slot without its item, at the end of the free list. -/
def freedSlot (inner : ResourceHandle) : ResourceHandle :=
  ((inner.setFree true).newGeneration).setIndex kIndexMax

theorem unindexed_freedSlot {inner : ResourceHandle} {type : UInt8} {slot : Nat}
    (isSlot : unindexed inner = register.slotFields type slot) :
    unindexed (freedSlot inner) =
      { register.slotFields type slot with
        generation := UInt16.ofNat ((register.age slot + 1) % 4096), isFree := true } := by
  have generation : (inner.setFree true).generation =
      UInt16.ofNat (register.age slot % 4096) := by
    rw [show (inner.setFree true).generation = (unindexed inner).generation from
      congrArg Fields.generation (fields_setFree inner true), isSlot]
    rfl
  have toNat_generation := generation_eq_iff.mp generation
  rw [freedSlot, unindexed_setIndex, unindexed, fields_newGeneration, toNat_generation,
    Nat.mod_add_mod, fields_setFree, ← isSlot]
  rfl

section Retire

variable {outer : UInt32} {item : T} {inner : ResourceHandle}

theorem slots_retired (represents : table.Represents register)
    (occupied : register.content outer.toNat = some item)
    (isInner : table.sparseTable[outer.toNat]? = some inner) :
    Slots (table.sparseTable.set outer.toNat (freedSlot inner)) table.itemType
      (register.retire occupied) := by
  intro slot other isOther
  by_cases isSlot : slot = outer.toNat
  · subst isSlot
    rw [List.getElem?_set_self (List.getElem?_eq_some_iff.mp isInner).1] at isOther
    cases isOther
    rw [unindexed_freedSlot (represents.slots _ _ isInner)]
    simp [Register.slotFields, Register.retire]
  · rw [List.getElem?_set_ne (Ne.symm isSlot)] at isOther
    rw [represents.slots slot other isOther]
    simp [Register.slotFields, Register.retire, isSlot]

/-- The slots of the other items still name their places. -/
theorem others_retired (represents : table.Represents register) {place : Nat}
    (isOuter : table.metas[place]? = some outer) {freed : ResourceHandle}
    {after : List ResourceHandle}
    (sameSlots : ∀ other, other ∉ register.queue →
      after[other]? = (table.sparseTable.set outer.toNat freed)[other]?)
    (index : Nat) (other : UInt32) (differs : index ≠ place)
    (isOther : table.metas[index]? = some other) :
    ∃ handle : ResourceHandle, after[other.toNat]? = some handle ∧
      handle.index.toNat = index := by
  obtain ⟨content, isContent⟩ := represents.content_of_mem (List.mem_of_getElem? isOther)
  have otherSlot : outer.toNat ≠ other.toNat := by
    intro same
    obtain rfl := UInt32.toNat_inj.mp same
    exact differs (represents.indexed.injective isOther isOuter)
  rw [sameSlots _ (notMem_queue isContent), List.getElem?_set_ne otherSlot]
  exact represents.indexed index other isOther

/-- Moving the last item disturbs no link of the free list. -/
theorem chain_retired (represents : table.Represents register)
    (occupied : register.content outer.toNat = some item) {front : UInt32}
    {after last : List ResourceHandle}
    (chain : Segment (nextFree after) front ((register.queue ++ [outer.toNat]).map UInt32.ofNat)
      kIndexMax)
    (sameFree : ∀ slot, (∀ other ∈ table.metas, other ≠ outer → other.toNat ≠ slot) →
      last[slot]? = after[slot]?) :
    Segment (nextFree last) front ((register.queue ++ [outer.toNat]).map UInt32.ofNat)
      kIndexMax := by
  apply chain.congr
  intro cell isCell
  obtain ⟨slot, isSlot, rfl⟩ := List.mem_map.mp isCell
  have isFree := ((register.retire occupied).mem_queue slot).mp isSlot
  rw [nextFree, nextFree, sameFree]
  intro other isOther differs
  rw [represents.toNat_slot isFree.1]
  rintro rfl
  rcases List.mem_append.mp isSlot with waits | isRetired
  · obtain ⟨content, isContent⟩ := represents.content_of_mem isOther
    exact notMem_queue isContent waits
  · exact differs (UInt32.toNat_inj.mp (List.mem_singleton.mp isRetired))

end Retire

theorem erase_retire (represents : table.Represents register) {handle : ResourceHandle}
    {item : T} (occupied : register.content handle.index.toNat = some item)
    (isFound : (register.found table.itemType handle).isSome = true) :
    ∃ next, table.erase handle = some (next, 1) ∧ next.itemType = table.itemType ∧
      next.Represents (register.retire occupied) := by
  have paired := represents.paired
  obtain ⟨inner, isInner, atPlace, isOuter⟩ := represents.occupied occupied
  rw [UInt32.ofNat_toNat] at isOuter
  have inMetas := (List.getElem?_eq_some_iff.mp isOuter).1
  have inItems := (List.getElem?_eq_some_iff.mp atPlace).1
  obtain ⟨front, after, pushed, freeSlots, chain, sameSlots⟩ :=
    @pushFree_eq _ _ _ _ _ (freedSlot inner) represents occupied (index_setIndex _ _)
  rw [UInt32.ofNat_toNat] at pushed
  obtain ⟨last, items, metas, swapped, itemsLeft, metasLeft, reindexed, indexed, sameFree⟩ :=
    represents.swapOut_eq isOuter (represents.others_retired isOuter sameSlots) rfl
  have erased : table.erase handle = some ({ table with
      freelistFront := front
      freelistBack := handle.index
      fragmented := true
      sparseTable := last
      items := swapRemove table.items inner.index.toNat
      metas := swapRemove table.metas inner.index.toNat }, 1) := by
    rw [freedSlot] at pushed
    rw [ResourceTable.erase, represents.contains_eq, isFound, isInner]
    simp only [Option.bind_eq_bind, Option.bind_some, Bool.not_true, Bool.false_eq_true,
      if_false, pushed, swapped, itemsLeft, metasLeft, Option.pure_def]
  refine ⟨_, erased, rfl, ?_⟩
  constructor
  · exact represents.small
  · simp [Register.retire, reindexed.length_eq, freeSlots.length_eq, represents.size]
  · exact (represents.slots_retired occupied isInner).reindexed (freeSlots.trans reindexed)
  · rw [length_swapRemove inMetas, length_swapRemove inItems, paired]
  · exact represents.pairs.remove paired represents.indexed isOuter
  · exact indexed
  · exact represents.chain_retired occupied chain sameFree
  · simp [Register.retire]
  · have counted := represents.counted
    simp only [Register.retire, length_swapRemove inItems, List.length_append,
      List.length_singleton]
    omega

theorem erase_eq (represents : table.Represents register) (handle : ResourceHandle) :
    ∃ next, table.erase handle = some (next, (register.erase table.itemType handle).2) ∧
      next.itemType = table.itemType ∧
      next.Represents (register.erase table.itemType handle).1 := by
  have isContains := represents.contains_eq handle
  have notFound (isNone : register.found table.itemType handle = none) :
      table.erase handle = some (table, 0) := by
    rw [ResourceTable.erase, isContains, isNone]
    rfl
  rw [Register.erase]
  split
  next isNone =>
    exact ⟨table, notFound (by rw [Register.found, isNone, ite_self]), rfl, represents⟩
  next item occupied =>
    split
    next matching =>
      apply represents.erase_retire occupied
      rw [Register.found, if_pos matching, occupied]
      rfl
    next different =>
      exact ⟨table, notFound (if_neg different), rfl, represents⟩

theorem eraseItems_eq (represents : table.Represents register)
    (handles : List ResourceHandle) :
    ∃ next, eraseItems handles table =
        some (next, (Register.eraseItems table.itemType handles register).2) ∧
      next.itemType = table.itemType ∧
      next.Represents (Register.eraseItems table.itemType handles register).1 := by
  induction handles generalizing table register with
  | nil => exact ⟨table, rfl, rfl, represents⟩
  | cons handle handles ih =>
      obtain ⟨next, isErased, type, isNext⟩ := represents.erase_eq handle
      obtain ⟨last, areErased, lastType, isLast⟩ := ih isNext
      rw [type] at areErased isLast
      refine ⟨last, ?_, lastType.trans type, isLast⟩
      rw [eraseItems, isErased]
      simp only [Option.bind_eq_bind, Option.bind_some, areErased]
      rfl

theorem getElem?_clearSlots {size : UInt32} {sparseTable : List ResourceHandle}
    (isSize : size.toNat = sparseTable.length) (slot : Nat) :
    (clearSlots size sparseTable)[slot]? = (sparseTable[slot]?).map fun handle =>
      ((handle.setFree true).newGeneration).setIndex (UInt32.ofNat (slot + 1)) := by
  rw [clearSlots, List.getElem?_mapIdx]
  rcases Nat.lt_or_ge slot sparseTable.length with inside | beyond
  · rw [List.getElem?_eq_getElem inside, Option.map_some, Option.map_some,
      if_pos (isSize ▸ inside), UInt32.ofNat_add]
    rfl
  · rw [List.getElem?_eq_none beyond, Option.map_none, Option.map_none]

/-- The slots of a table that is cleared are those of the register, one older. -/
theorem slots_clearSlots (represents : table.Represents register) {size : UInt32}
    (isSize : size.toNat = table.sparseTable.length) :
    Slots (clearSlots size table.sparseTable) table.itemType register.clear := by
  intro slot handle isHandle
  rw [getElem?_clearSlots isSize] at isHandle
  obtain ⟨old, isOld, rfl⟩ := Option.map_eq_some_iff.mp isHandle
  have isSlot := unindexed_freedSlot (represents.slots slot old isOld)
  rw [freedSlot, unindexed_setIndex] at isSlot
  rw [unindexed_setIndex]
  rw [isSlot]
  simp [Register.slotFields, Register.clear]

theorem clear_nil (represents : table.Represents register) (isEmpty : register.size = 0) :
    table.clear = some table ∧ table.Represents register.clear := by
  have counted := represents.counted
  have noItems : table.items = [] := List.eq_nil_of_length_eq_zero (by omega)
  have noMetas : table.metas = [] :=
    List.eq_nil_of_length_eq_zero (by rw [represents.paired, noItems, List.length_nil])
  have noQueue : register.queue = [] := List.eq_nil_of_length_eq_zero (by omega)
  have noSlots : table.sparseTable = [] :=
    List.eq_nil_of_length_eq_zero (represents.size.trans isEmpty)
  have isCleared : register.clear.queue = register.queue := by
    simp [Register.clear, isEmpty, noQueue]
  constructor
  · rw [ResourceTable.clear, noSlots]
    rfl
  · constructor
    · exact represents.small
    · exact represents.size
    · intro slot handle isHandle
      simp [noSlots] at isHandle
    · exact represents.paired
    · intro slot item
      simp [Register.clear, noItems]
    · exact represents.indexed
    · rw [isCleared]
      exact represents.chain
    · rw [isCleared]
      exact represents.back
    · rw [isCleared]
      exact represents.counted

/-- The slots of a table that is cleared are linked in their order. -/
theorem chain_clearSlots (represents : table.Represents register)
    (hasSlots : register.size ≠ 0) {size : UInt32}
    (isSize : size.toNat = table.sparseTable.length) (last : ResourceHandle) :
    Segment (nextFree ((clearSlots size table.sparseTable).set (register.size - 1)
        (last.setIndex kInvalidIndex))) 0
      ((List.range register.size).map UInt32.ofNat) kIndexMax := by
  have length_cleared : (clearSlots size table.sparseTable).length = register.size := by
    simp [clearSlots, represents.size]
  have isFront : ((List.range register.size).map UInt32.ofNat).head?.getD kIndexMax = 0 := by
    simp [List.head?_range, hasSlots]
  rw [← isFront]
  apply segment_of_forall
  intro slot cell isSlot
  rw [List.getElem?_map] at isSlot
  obtain ⟨index, inRange, rfl⟩ := Option.map_eq_some_iff.mp isSlot
  obtain ⟨within, rfl⟩ := List.getElem?_eq_some_iff.mp inRange
  rw [List.length_range] at within
  rw [List.getElem_range, nextFree, represents.toNat_slot within]
  by_cases atEnd : slot = register.size - 1
  · rw [← atEnd, List.getElem?_set_self (by omega), List.getElem?_eq_none (by simp; omega)]
    simp [kInvalidIndex]
  · obtain ⟨handle, isHandle, -⟩ := represents.slot_lt within
    rw [List.getElem?_set_ne (Ne.symm atEnd), getElem?_clearSlots isSize, isHandle]
    simp [show slot + 1 < register.size by omega]

theorem toNat_lastSlot (represents : table.Represents register)
    (hasSlots : register.size ≠ 0) :
    (newIndex table.sparseTable - 1).toNat = register.size - 1 := by
  have atLeastOne : 1 ≤ newIndex table.sparseTable := by
    rw [UInt32.le_iff_toNat_le, represents.toNat_newSlot]
    exact Nat.one_le_iff_ne_zero.mpr hasSlots
  rw [UInt32.toNat_sub_of_le _ _ atLeastOne, represents.toNat_newSlot]
  rfl

theorem clear_slots (represents : table.Represents register) (hasSlots : register.size ≠ 0) :
    ∃ next, table.clear = some next ∧ next.itemType = table.itemType ∧
      next.Represents register.clear := by
  have toNat_last := represents.toNat_lastSlot hasSlots
  have isSize := represents.toNat_newSlot.trans represents.size.symm
  have length_cleared :
      (clearSlots (newIndex table.sparseTable) table.sparseTable).length =
        register.size := by
    simp [clearSlots, represents.size]
  have isLastIndex : newIndex table.sparseTable - 1 = UInt32.ofNat (register.size - 1) := by
    rw [← UInt32.toNat_inj, toNat_last, represents.toNat_slot (by omega)]
  obtain ⟨last, isLast⟩ : ∃ last,
      (clearSlots (newIndex table.sparseTable) table.sparseTable)[register.size - 1]? =
        some last :=
    ⟨_, List.getElem?_eq_getElem (by omega)⟩
  obtain ⟨changed, reindexed⟩ := changeAt_setIndex isLast kInvalidIndex
  have notZero : newIndex table.sparseTable ≠ 0 := by
    intro isZero
    have isSlots := represents.toNat_newSlot
    rw [isZero] at isSlots
    exact hasSlots isSlots.symm
  have cleared : table.clear = some { table with
      freelistFront := 0
      freelistBack := newIndex table.sparseTable - 1
      fragmented := false
      sparseTable := (clearSlots (newIndex table.sparseTable) table.sparseTable).set
        (register.size - 1) (last.setIndex kInvalidIndex)
      items := []
      metas := [] } := by
    rw [ResourceTable.clear]
    simp only [notZero, if_false, toNat_last, changed, Option.bind_eq_bind, Option.bind_some,
      Option.pure_def]
  refine ⟨_, cleared, rfl, ?_⟩
  constructor
  · exact represents.small
  · simp [length_cleared, Register.clear]
  · exact (represents.slots_clearSlots isSize).reindexed reindexed
  · rfl
  · intro slot item
    simp [Register.clear]
  · intro place outer isOuter
    simp at isOuter
  · exact represents.chain_clearSlots hasSlots isSize last
  · simp [Register.clear, List.getLast?_range, hasSlots, isLastIndex]
  · simp [Register.clear]

theorem clear_eq (represents : table.Represents register) :
    ∃ next, table.clear = some next ∧ next.itemType = table.itemType ∧
      next.Represents register.clear := by
  by_cases isEmpty : register.size = 0
  · obtain ⟨isCleared, stays⟩ := represents.clear_nil isEmpty
    exact ⟨table, isCleared, rfl, stays⟩
  · exact represents.clear_slots isEmpty

theorem represents_empty (table : ResourceTable T) : table.reset.Represents Register.empty where
  small := Nat.zero_le _
  size := rfl
  slots slot handle isHandle := by simp [ResourceTable.reset] at isHandle
  paired := rfl
  pairs slot item := by simp [ResourceTable.reset, Register.empty]
  indexed place outer isOuter := by simp [ResourceTable.reset] at isOuter
  chain := rfl
  back := rfl
  counted := rfl

end Represents

end ResourceTable

end Nova

end Blocxxi
