import Blocxxi.LinkedSegments
import Blocxxi.ResourceRegister

/-!
# The vectors of a table

How the vectors of a table belong together: the items are paired with the slots beside
them, the slots name the places of their items, and every slot has the age of the register.
-/

namespace Blocxxi

namespace Nova

open ResourceHandle Function

/-- What a handle holds beside its index. -/
def unindexed (handle : ResourceHandle) : Fields := { handle.fields with index := 0 }

theorem unindexed_setIndex (handle : ResourceHandle) (index : UInt32) :
    unindexed (handle.setIndex index) = unindexed handle := by
  rw [unindexed, fields_setIndex, unindexed]

/-- What a slot holds beside its index. -/
def Register.slotFields {T : Type} (register : Register T) (type : UInt8) (slot : Nat) :
    Fields :=
  ⟨0, UInt16.ofNat (register.age slot % 4096), 0, type, (register.content slot).isNone, 0⟩

/-- The slot that a free slot is linked to. -/
def nextFree (sparseTable : List ResourceHandle) (slot : UInt32) : Option UInt32 :=
  (sparseTable[slot.toNat]?).map index

/-- Every slot is as the register has it, whatever its index. -/
def Slots {T : Type} (sparseTable : List ResourceHandle) (type : UInt8)
    (register : Register T) : Prop :=
  ∀ (slot : Nat) (handle : ResourceHandle), sparseTable[slot]? = some handle →
    unindexed handle = register.slotFields type slot

/-- Both have the same slots, whatever their indices. -/
def Reindexed (before after : List ResourceHandle) : Prop :=
  after.map unindexed = before.map unindexed

/-- The items are the contents of the slots that stand beside them. -/
def Pairs {T : Type} (items : List T) (metas : List UInt32) (content : Nat → Option T) : Prop :=
  ∀ slot item, content slot = some item ↔
    ∃ (place : Nat) (outer : UInt32), items[place]? = some item ∧
      metas[place]? = some outer ∧ outer.toNat = slot

/-- The slots that stand beside the items name the places of the items. -/
def Indexed (sparseTable : List ResourceHandle) (metas : List UInt32) : Prop :=
  ∀ (place : Nat) (outer : UInt32), metas[place]? = some outer →
    ∃ handle : ResourceHandle, sparseTable[outer.toNat]? = some handle ∧
      handle.index.toNat = place

theorem getElem?_concat_eq_some {Element : Type} {vector : List Element}
    {last element : Element} {index : Nat} :
    (vector ++ [last])[index]? = some element ↔
      vector[index]? = some element ∨ index = vector.length ∧ last = element := by
  rcases Nat.lt_trichotomy index vector.length with inside | rfl | beyond
  · simp [List.getElem?_append_left inside, Nat.ne_of_lt inside]
  · simp
  · have isNone : vector[index]? = none := List.getElem?_eq_none (by omega)
    rw [List.getElem?_eq_none (by simp; omega), isNone]
    simp [Nat.ne_of_gt beyond]

theorem Reindexed.refl (sparseTable : List ResourceHandle) :
    Reindexed sparseTable sparseTable := rfl

theorem Reindexed.trans {first second third : List ResourceHandle}
    (before : Reindexed first second) (after : Reindexed second third) :
    Reindexed first third :=
  Eq.trans after before

theorem Reindexed.length_eq {before after : List ResourceHandle}
    (reindexed : Reindexed before after) : after.length = before.length := by
  simpa using congrArg List.length reindexed

theorem Slots.reindexed {T : Type} {before after : List ResourceHandle} {type : UInt8}
    {register : Register T} (slots : Slots before type register)
    (reindexed : Reindexed before after) : Slots after type register := by
  intro slot handle isHandle
  have same := congrArg (fun vector => vector[slot]?) reindexed
  simp only [List.getElem?_map, isHandle, Option.map_some] at same
  obtain ⟨old, isOld, isSame⟩ := Option.map_eq_some_iff.mp same.symm
  rw [← isSame]
  exact slots slot old isOld

/-- The index of a slot is written. -/
theorem changeAt_setIndex {sparseTable : List ResourceHandle} {slot : Nat}
    {handle : ResourceHandle} (isHandle : sparseTable[slot]? = some handle) (index : UInt32) :
    changeAt sparseTable slot (fun moved => moved.setIndex index) =
        some (sparseTable.set slot (handle.setIndex index)) ∧
      Reindexed sparseTable (sparseTable.set slot (handle.setIndex index)) := by
  obtain ⟨within, isAt⟩ := List.getElem?_eq_some_iff.mp isHandle
  constructor
  · rw [changeAt, isHandle, Option.map_some]
  · rw [Reindexed, List.map_set, unindexed_setIndex, ← isAt, ← List.getElem_map unindexed,
      List.set_getElem_self]
    simpa using within

section Vectors

variable {T : Type} {items : List T} {metas : List UInt32} {content : Nat → Option T}
  {sparseTable : List ResourceHandle}

theorem Pairs.concat (pairs : Pairs items metas content)
    (paired : metas.length = items.length) {outer : UInt32}
    (vacant : content outer.toNat = none) (item : T) :
    Pairs (items ++ [item]) (metas ++ [outer])
      (update content outer.toNat (some item)) := by
  have noPlace : ∀ place other, items[place]? = some other → place ≠ items.length :=
    fun place other isItem => Nat.ne_of_lt (List.getElem?_eq_some_iff.mp isItem).1
  have noOuter : ∀ (place : Nat) (other : UInt32), metas[place]? = some other →
      place ≠ items.length :=
    fun place other isOuter => paired ▸ Nat.ne_of_lt (List.getElem?_eq_some_iff.mp isOuter).1
  intro slot other
  simp only [getElem?_concat_eq_some, paired]
  by_cases isNew : slot = outer.toNat
  · subst isNew
    rw [update_self]
    constructor
    · intro isItem
      exact ⟨items.length, outer, .inr ⟨rfl, Option.some.inj isItem⟩, .inr ⟨rfl, rfl⟩, rfl⟩
    · rintro ⟨place, slot, isItem | ⟨isLast, rfl⟩, isOuter | ⟨isLast', -⟩, isSlot⟩
      · have isContent := (pairs _ _).mpr ⟨place, slot, isItem, isOuter, isSlot⟩
        rw [vacant] at isContent
        cases isContent
      · exact absurd isLast' (noPlace _ _ isItem)
      · exact absurd isLast (noOuter _ _ isOuter)
      · rfl
  · rw [update_of_ne isNew, pairs]
    constructor
    · rintro ⟨place, slot, isItem, isOuter, isSlot⟩
      exact ⟨place, slot, .inl isItem, .inl isOuter, isSlot⟩
    · rintro ⟨place, slot, isItem | ⟨isLast, rfl⟩, isOuter | ⟨isLast', rfl⟩, isSlot⟩
      · exact ⟨place, slot, isItem, isOuter, isSlot⟩
      · exact absurd isLast' (noPlace _ _ isItem)
      · exact absurd isLast (noOuter _ _ isOuter)
      · exact absurd isSlot.symm isNew

/-- A slot that holds the place behind the items is put beside the next item. -/
theorem Indexed.concat (indexed : Indexed sparseTable metas) {outer : UInt32}
    {handle : ResourceHandle} (isHandle : sparseTable[outer.toNat]? = some handle)
    (isPlace : handle.index.toNat = metas.length) :
    Indexed sparseTable (metas ++ [outer]) := by
  intro place other isOuter
  rcases getElem?_concat_eq_some.mp isOuter with isOld | ⟨rfl, rfl⟩
  · exact indexed place other isOld
  · exact ⟨handle, isHandle, isPlace⟩

/-- Nothing but the slots beside the items matters. -/
theorem Indexed.congr (indexed : Indexed sparseTable metas)
    {otherTable : List ResourceHandle}
    (same : ∀ outer ∈ metas, otherTable[outer.toNat]? = sparseTable[outer.toNat]?) :
    Indexed otherTable metas := by
  intro place outer isOuter
  rw [same outer (List.mem_of_getElem? isOuter)]
  exact indexed place outer isOuter

/-- No slot stands beside two items. -/
theorem Indexed.injective (indexed : Indexed sparseTable metas) {first second : Nat}
    {outer : UInt32} (isFirst : metas[first]? = some outer)
    (isSecond : metas[second]? = some outer) : first = second := by
  obtain ⟨handle, isHandle, rfl⟩ := indexed first outer isFirst
  obtain ⟨other, isOther, rfl⟩ := indexed second outer isSecond
  cases isHandle.symm.trans isOther
  rfl

/-- A vector without an element, in whose place the last one is put. -/
def swapRemove {Element : Type} (vector : List Element) (place : Nat) : List Element :=
  match vector.getLast? with
  | none => vector
  | some back => (vector.set place back).dropLast

theorem getElem?_swapRemove {Element : Type} {vector : List Element} {place : Nat}
    (inside : place < vector.length) (index : Nat) :
    (swapRemove vector place)[index]? =
      if index + 1 < vector.length then
        vector[if index = place then vector.length - 1 else index]?
      else none := by
  obtain ⟨back, isBack⟩ : ∃ back, vector[vector.length - 1]? = some back :=
    ⟨_, List.getElem?_eq_getElem (by omega)⟩
  rw [swapRemove, List.getLast?_eq_getElem?, isBack]
  simp only [List.getElem?_dropLast, List.length_set, List.getElem?_set,
    show index < vector.length - 1 ↔ index + 1 < vector.length by omega, inside]
  by_cases isPlace : index = place
  · simp [isPlace, isBack]
  · simp [isPlace, Ne.symm isPlace]

/-- Every place but the removed one is some place afterwards. -/
theorem getElem?_swapRemove_eq_some {Element : Type} {vector : List Element} {place : Nat}
    (inside : place < vector.length) {index : Nat} (within : index < vector.length)
    (differs : index ≠ place) :
    ∃ moved, moved + 1 < vector.length ∧
      (if moved = place then vector.length - 1 else moved) = index := by
  by_cases isLast : index = vector.length - 1
  · exact ⟨place, by omega, by rw [if_pos rfl, isLast]⟩
  · exact ⟨index, by omega, if_neg differs⟩

theorem length_swapRemove {Element : Type} {vector : List Element} {place : Nat}
    (inside : place < vector.length) :
    (swapRemove vector place).length = vector.length - 1 := by
  obtain ⟨back, isBack⟩ : ∃ back, vector[vector.length - 1]? = some back :=
    ⟨_, List.getElem?_eq_getElem (by omega)⟩
  rw [swapRemove, List.getLast?_eq_getElem?, isBack]
  simp

theorem swapRemove_last {Element : Type} {vector : List Element} {place : Nat}
    (isLast : place + 1 = vector.length) : swapRemove vector place = vector.dropLast := by
  apply List.ext_getElem?
  intro index
  rw [getElem?_swapRemove (by omega), List.getElem?_dropLast]
  by_cases within : index + 1 < vector.length
  · have differs : index ≠ place := by omega
    rw [if_pos within, if_neg differs, if_pos (by omega)]
  · rw [if_neg within, if_neg (by omega)]

theorem swapWithBack_eq {Element : Type} {vector : List Element} {place : Nat}
    (inside : place + 1 < vector.length) :
    ∃ swapped, swapWithBack vector place = some swapped ∧
      swapped.dropLast = swapRemove vector place ∧
      swapped[place]? = vector[vector.length - 1]? := by
  obtain ⟨element, isElement⟩ : ∃ element, vector[place]? = some element :=
    ⟨_, List.getElem?_eq_getElem (by omega)⟩
  obtain ⟨back, isBack⟩ : ∃ back, vector[vector.length - 1]? = some back :=
    ⟨_, List.getElem?_eq_getElem (by omega)⟩
  refine ⟨_, by rw [swapWithBack, List.getLast?_eq_getElem?, isElement, isBack]; rfl, ?_, ?_⟩
  · apply List.ext_getElem?
    intro index
    rw [getElem?_swapRemove (by omega), List.getElem?_dropLast, List.length_set,
      List.length_set]
    by_cases within : index + 1 < vector.length
    · rw [if_pos within, if_pos (by omega), List.getElem?_set_ne (by omega)]
      by_cases isPlace : index = place
      · rw [if_pos isPlace, isPlace, List.getElem?_set_self (by omega), isBack]
      · rw [if_neg isPlace, List.getElem?_set_ne (Ne.symm isPlace)]
    · rw [if_neg within, if_neg (by omega)]
  · rw [List.getElem?_set_ne (by omega), List.getElem?_set_self (by omega), isBack]

theorem Pairs.remove (pairs : Pairs items metas content)
    (paired : metas.length = items.length) (indexed : Indexed sparseTable metas)
    {place : Nat} {outer : UInt32} (isOuter : metas[place]? = some outer) :
    Pairs (swapRemove items place) (swapRemove metas place)
      (update content outer.toNat none) := by
  have inMetas := (List.getElem?_eq_some_iff.mp isOuter).1
  have inItems : place < items.length := paired ▸ inMetas
  intro slot item
  simp only [getElem?_swapRemove inMetas, getElem?_swapRemove inItems, paired]
  by_cases isSlot : slot = outer.toNat
  · subst isSlot
    rw [update_self]
    refine ⟨nofun, ?_⟩
    rintro ⟨index, other, -, isOther, same⟩
    obtain rfl := UInt32.toNat_inj.mp same
    split at isOther
    next within =>
      have isIndex := indexed.injective isOther isOuter
      split at isIndex <;> omega
    next => cases isOther
  · rw [update_of_ne isSlot, pairs]
    constructor
    · rintro ⟨index, other, isItem, isOther, rfl⟩
      have differs : index ≠ place := by
        rintro rfl
        rw [isOuter] at isOther
        cases isOther
        exact isSlot rfl
      obtain ⟨moved, within, rfl⟩ := getElem?_swapRemove_eq_some inItems
        (List.getElem?_eq_some_iff.mp isItem).1 differs
      exact ⟨moved, other, by rwa [if_pos within], by rwa [if_pos within], rfl⟩
    · rintro ⟨index, other, isItem, isOther, isSlot⟩
      split at isItem
      next within =>
        rw [if_pos within] at isOther
        exact ⟨_, other, isItem, isOther, isSlot⟩
      next => cases isItem

end Vectors

theorem nextFree_set_of_ne {sparseTable : List ResourceHandle} {slot : UInt32} {index : Nat}
    (differs : slot.toNat ≠ index) (handle : ResourceHandle) :
    nextFree (sparseTable.set index handle) slot = nextFree sparseTable slot := by
  rw [nextFree, List.getElem?_set_ne (Ne.symm differs), nextFree]

end Nova

end Blocxxi
