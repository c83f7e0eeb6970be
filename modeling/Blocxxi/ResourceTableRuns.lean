import Blocxxi.ResourceDefragment

/-!
# Runs of tables

What holds of a table after any calls: its answers are those of a register, no access goes
outside of a vector, a handle stands for its item until it is erased, and is not found
afterwards as long as the generations do not come round.
-/

namespace Blocxxi

namespace Nova

open AnsweringMachine ResourceHandle Function

variable {T : Type}

/-- A table that was constructed. -/
def ResourceTable.new (T : Type) (type : UInt8) : ResourceTable T where
  itemType := type

/-- The calls of a table in turn, with the answers. -/
def ResourceTable.run (calls : List (TableCall T)) (table : ResourceTable T) :
    Option (ResourceTable T × List (TableAnswer T)) :=
  AnsweringMachine.run ResourceTable.step calls table

def Register.run (type : UInt8) (calls : List (TableCall T)) (register : Register T) :
    Option (Register T × List (TableAnswer T)) :=
  AnsweringMachine.run (Register.step type) calls register

/-- A table of a type represents a register. -/
def Refines (type : UInt8) (table : ResourceTable T) (register : Register T) : Prop :=
  table.itemType = type ∧ table.Represents register

theorem refines_new (type : UInt8) : Refines type (.new T type) Register.empty :=
  ⟨rfl, ResourceTable.Represents.represents_empty (.new T type)⟩

theorem agree_step {type : UInt8} (table : ResourceTable T) (register : Register T)
    (call : TableCall T) (refines : Refines type table register) :
    Agree (Refines type) (table.step call) (register.step type call) := by
  obtain ⟨rfl, represents⟩ := refines
  cases call with
  | insert item =>
      rw [ResourceTable.step, Register.step]
      by_cases room : register.live < kIndexMax.toNat
      · obtain ⟨next, inserted, type, isNext⟩ := represents.insert_eq room item
        rw [inserted, if_pos room]
        exact .some ⟨⟨type, isNext⟩, rfl⟩
      · rw [represents.insert_none room, if_neg room]
        exact .none
  | erase handle =>
      obtain ⟨next, erased, type, isNext⟩ := represents.erase_eq handle
      rw [ResourceTable.step, Register.step, erased]
      exact .some ⟨⟨type, isNext⟩, rfl⟩
  | eraseItems handles =>
      obtain ⟨next, erased, type, isNext⟩ := represents.eraseItems_eq handles
      rw [ResourceTable.step, Register.step, erased]
      exact .some ⟨⟨type, isNext⟩, rfl⟩
  | clear =>
      obtain ⟨next, cleared, type, isNext⟩ := represents.clear_eq
      rw [ResourceTable.step, Register.step, cleared]
      exact .some ⟨⟨type, isNext⟩, rfl⟩
  | reset => exact .some ⟨⟨rfl, ResourceTable.Represents.represents_empty table⟩, rfl⟩
  | defragment comp maxSwaps trivial =>
      obtain ⟨next, total, defragmented, type, isNext, -⟩ :=
        ResourceTable.defragment_eq represents comp maxSwaps trivial
      rw [ResourceTable.step, Register.step, defragmented]
      exact .some ⟨⟨type, isNext⟩, rfl⟩
  | contains handle =>
      rw [ResourceTable.step, Register.step, represents.contains_eq]
      exact .some ⟨⟨rfl, represents⟩, rfl⟩
  | tryGet handle =>
      rw [ResourceTable.step, Register.step, represents.tryGet_eq]
      exact .some ⟨⟨rfl, represents⟩, rfl⟩
  | itemAt handle =>
      rw [ResourceTable.step, Register.step, represents.itemAt_eq]
      exact .some ⟨⟨rfl, represents⟩, rfl⟩
  | size =>
      rw [ResourceTable.step, Register.step, represents.live_eq]
      exact .some ⟨⟨rfl, represents⟩, rfl⟩

theorem agree_run {type : UInt8} {table : ResourceTable T} {register : Register T}
    (refines : Refines type table register) (calls : List (TableCall T)) :
    Agree (Refines type) (table.run calls) (register.run type calls) :=
  run_related agree_step calls refines

/-- A table with an item. -/
def oneItem : ResourceTable Nat where
  itemType := 7
  sparseTable := [Register.handleOf 7 0 0]
  items := [5]
  metas := [0]
  fragmented := true

/-- The table with another item behind it. -/
def twoItems : ResourceTable Nat where
  itemType := 7
  sparseTable := [Register.handleOf 7 0 0, Register.handleOf 7 1 0]
  items := [5, 6]
  metas := [0, 1]
  fragmented := true

/-- A free slot at the end of the free list. -/
def freeSlot (slot age : Nat) : ResourceHandle :=
  ((Register.handleOf 7 slot age).setFree true).setIndex kIndexMax

/-- The table of which the other item is erased. -/
def oneItemLeft : ResourceTable Nat where
  itemType := 7
  freelistFront := 1
  freelistBack := 1
  sparseTable := [Register.handleOf 7 0 0, freeSlot 1 1]
  items := [5]
  metas := [0]
  fragmented := true

/-- The table of which its item is erased. -/
def noItem : ResourceTable Nat where
  itemType := 7
  freelistFront := 0
  freelistBack := 0
  sparseTable := [freeSlot 0 1]
  fragmented := true

/-- The table whose item is erased, with another one. -/
def otherItem : ResourceTable Nat where
  itemType := 7
  sparseTable := [Register.handleOf 7 0 1]
  items := [6]
  metas := [0]
  fragmented := true

def TableCall.inserts : TableCall T → Nat
  | .insert _ => 1
  | _ => 0

namespace Register

variable {register : Register T} {type : UInt8}

theorem live_insert_le (item : T) : (register.insert item).1.live ≤ register.live + 1 := by
  rw [insert]
  split
  next isFull => simp [live, extend, isFull]
  next slot rest front =>
    simp only [live, fill, front, List.length_cons]
    omega

theorem live_erase_le (handle : ResourceHandle) :
    (register.erase type handle).1.live ≤ register.live := by
  rw [erase]
  split
  next => exact Nat.le_refl _
  next item occupied =>
    split
    next =>
      simp only [live, retire, List.length_append]
      omega
    next => exact Nat.le_refl _

theorem live_eraseItems_le (handles : List ResourceHandle) :
    (eraseItems type handles register).1.live ≤ register.live := by
  induction handles generalizing register with
  | nil => exact Nat.le_refl _
  | cons handle handles ih => exact ih.trans (live_erase_le handle)

theorem step_of_room {call : TableCall T}
    (room : register.live + call.inserts ≤ kIndexMax.toNat) :
    ∃ next answer, register.step type call = some (next, answer) ∧
      next.live ≤ register.live + call.inserts := by
  cases call with
  | insert item =>
      rw [step, if_pos (Nat.lt_of_succ_le room)]
      exact ⟨_, _, rfl, live_insert_le item⟩
  | erase handle => exact ⟨_, _, rfl, live_erase_le handle⟩
  | eraseItems handles => exact ⟨_, _, rfl, live_eraseItems_le handles⟩
  | clear => exact ⟨_, _, rfl, by simp [live, clear]⟩
  | reset => exact ⟨_, _, rfl, by simp [live, empty]⟩
  | defragment comp maxSwaps trivial => exact ⟨_, _, rfl, Nat.le_refl _⟩
  | contains handle => exact ⟨_, _, rfl, Nat.le_refl _⟩
  | tryGet handle => exact ⟨_, _, rfl, Nat.le_refl _⟩
  | itemAt handle => exact ⟨_, _, rfl, Nat.le_refl _⟩
  | size => exact ⟨_, _, rfl, Nat.le_refl _⟩

theorem run_of_room {calls : List (TableCall T)}
    (room : register.live + (calls.map TableCall.inserts).sum ≤ kIndexMax.toNat) :
    ∃ last answers, register.run type calls = some (last, answers) := by
  induction calls generalizing register with
  | nil => exact ⟨register, [], rfl⟩
  | cons call calls ih =>
      rw [List.map_cons, List.sum_cons] at room
      obtain ⟨next, answer, isStep, live⟩ :=
        @step_of_room _ register type call (by omega)
      obtain ⟨last, answers, isRun⟩ := @ih next (by omega)
      exact ⟨last, answer :: answers, run_cons_eq_some.mpr
        ⟨next, answer, answers, isStep, isRun, rfl⟩⟩

end Register

/-- As long as no more items are inserted than there are indices, no call goes outside of a
vector and no assertion fails. -/
theorem run_never_fails (type : UInt8) (calls : List (TableCall T))
    (room : (calls.map TableCall.inserts).sum ≤ kIndexMax.toNat) :
    ((ResourceTable.new T type).run calls).isSome = true := by
  have agrees := agree_run (refines_new type) calls
  obtain ⟨last, answers, isRun⟩ := @Register.run_of_room _ .empty type calls
    (by rwa [show (Register.empty : Register T).live = 0 from rfl, Nat.zero_add])
  rw [isRun] at agrees
  generalize (ResourceTable.new T type).run calls = result at agrees ⊢
  cases agrees
  rfl

theorem run_never_fails_twice :
    ((ResourceTable.new Nat 7).run [.insert 5, .insert 6]).isSome = true :=
  run_never_fails 7 _ (by decide)

/-- The number of times that a call may make a slot older. -/
def TableCall.removals : TableCall T → Nat
  | .erase _ => 1
  | .eraseItems handles => handles.length
  | .clear => 1
  | _ => 0

/-- The call is no `Reset`. -/
def TableCall.Resets : TableCall T → Prop
  | .reset => True
  | _ => False

/-- A later state of a register: slots stay and grow older, by a number of years at most, and
a slot that is not older has its item. -/
structure Later (years : Nat) (before after : Register T) : Prop where
  size : before.size ≤ after.size
  age : ∀ slot < before.size, before.age slot ≤ after.age slot
  bound : ∀ slot < before.size, after.age slot ≤ before.age slot + years
  content : ∀ slot item, before.content slot = some item →
    after.age slot = before.age slot → after.content slot = some item

namespace Later

variable {first second third : Register T}

theorem refl (register : Register T) : Later 0 register register :=
  ⟨Nat.le_refl _, fun _ _ => Nat.le_refl _, fun _ _ => Nat.le_refl _,
    fun _ _ isItem _ => isItem⟩

theorem trans {years more : Nat} (before : Later years first second)
    (after : Later more second third) : Later (years + more) first third where
  size := before.size.trans after.size
  age slot small :=
    (before.age slot small).trans (after.age slot (small.trans_le before.size))
  bound slot small := by
    have firstBound := before.bound slot small
    have secondBound := after.bound slot (small.trans_le before.size)
    omega
  content slot item isItem same := by
    have small := ResourceTable.Represents.lt_of_content slot isItem
    have firstAge := before.age slot small
    have secondAge := after.age slot (small.trans_le before.size)
    exact after.content slot item (before.content slot item isItem (by omega)) (by omega)

theorem mono {years more : Nat} (later : Later years first second) (le : years ≤ more) :
    Later more first second :=
  ⟨later.size, later.age, fun slot small => (later.bound slot small).trans (by omega),
    later.content⟩

end Later

namespace Register

variable {register : Register T} {type : UInt8}

theorem later_extend (isFull : register.queue = []) (item : T) :
    Later 0 register (register.extend isFull item) := by
  have sameAge : ∀ slot < register.size,
      (register.extend isFull item).age slot = register.age slot :=
    fun slot small => update_of_ne (Nat.ne_of_lt small) _ _
  refine ⟨Nat.le_succ _, fun slot small => (sameAge slot small).ge,
    fun slot small => (sameAge slot small).le, fun slot other isItem _ => ?_⟩
  have small := ResourceTable.Represents.lt_of_content slot isItem
  exact (update_of_ne (Nat.ne_of_lt small) _ _).trans isItem

theorem later_fill {slot : Nat} {rest : List Nat} (front : register.queue = slot :: rest)
    (item : T) : Later 0 register (register.fill front item) := by
  have vacant := ((register.mem_queue slot).mp (front ▸ List.mem_cons_self)).2
  refine ⟨Nat.le_refl _, fun _ _ => Nat.le_refl _, fun _ _ => Nat.le_refl _,
    fun other content isItem _ => ?_⟩
  have differs : other ≠ slot := by
    rintro rfl
    rw [vacant] at isItem
    cases isItem
  exact (update_of_ne differs _ _).trans isItem

theorem later_insert (item : T) : Later 0 register (register.insert item).1 := by
  rw [insert]
  split
  next isFull => exact later_extend isFull item
  next slot rest front => exact later_fill front item

theorem later_retire {slot : Nat} {item : T} (occupied : register.content slot = some item) :
    Later 1 register (register.retire occupied) := by
  have retiredAge : (register.retire occupied).age slot = register.age slot + 1 :=
    update_self _ _ _
  have sameAge : ∀ other, other ≠ slot →
      (register.retire occupied).age other = register.age other :=
    fun other differs => update_of_ne differs _ _
  refine ⟨Nat.le_refl _, fun other _ => ?_, fun other _ => ?_,
    fun other content isItem same => ?_⟩
  · by_cases isSlot : other = slot
    · rw [isSlot, retiredAge]
      exact Nat.le_succ _
    · rw [sameAge other isSlot]
  · by_cases isSlot : other = slot
    · rw [isSlot, retiredAge]
    · rw [sameAge other isSlot]
      exact Nat.le_succ _
  · have differs : other ≠ slot := by
      rintro rfl
      rw [retiredAge] at same
      exact Nat.succ_ne_self _ same
    exact (update_of_ne differs _ _).trans isItem

theorem later_erase (handle : ResourceHandle) :
    Later 1 register (register.erase type handle).1 := by
  rw [erase]
  split
  next => exact (Later.refl register).mono (Nat.zero_le _)
  next item occupied =>
    split
    next => exact later_retire occupied
    next => exact (Later.refl register).mono (Nat.zero_le _)

theorem later_eraseItems (handles : List ResourceHandle) :
    Later handles.length register (eraseItems type handles register).1 := by
  induction handles generalizing register with
  | nil => exact .refl register
  | cons handle handles ih =>
      rw [List.length_cons, Nat.add_comm]
      exact (later_erase handle).trans ih

theorem later_clear : Later 1 register register.clear :=
  ⟨Nat.le_refl _, fun _ _ => Nat.le_succ _, fun _ _ => Nat.le_refl _,
    fun _ _ _ same => absurd same (Nat.succ_ne_self _)⟩

theorem later_step {call : TableCall T} (noReset : ¬ call.Resets) {next : Register T}
    {answer : TableAnswer T} (isStep : register.step type call = some (next, answer)) :
    Later call.removals register next := by
  cases call with
  | insert item =>
      rw [step] at isStep
      split at isStep
      · cases isStep
        exact later_insert item
      · cases isStep
  | erase handle =>
      cases isStep
      exact later_erase handle
  | eraseItems handles =>
      cases isStep
      exact later_eraseItems handles
  | clear =>
      cases isStep
      exact later_clear
  | reset => exact absurd trivial noReset
  | defragment comp maxSwaps isTrivial =>
      cases isStep
      exact .refl register
  | contains handle =>
      cases isStep
      exact .refl register
  | tryGet handle =>
      cases isStep
      exact .refl register
  | itemAt handle =>
      cases isStep
      exact .refl register
  | size =>
      cases isStep
      exact .refl register

theorem later_run {calls : List (TableCall T)} (noReset : ∀ call ∈ calls, ¬ call.Resets)
    {last : Register T} {answers : List (TableAnswer T)}
    (isRun : register.run type calls = some (last, answers)) :
    Later (calls.map TableCall.removals).sum register last := by
  induction calls generalizing register answers with
  | nil =>
      cases isRun
      exact .refl _
  | cons call calls ih =>
      obtain ⟨next, answer, rest, isStep, isRest, -⟩ := run_cons_eq_some.mp isRun
      obtain ⟨noReset, others⟩ := List.forall_mem_cons.mp noReset
      rw [List.map_cons, List.sum_cons]
      exact (later_step noReset isStep).trans (ih others isRest)

/-- What an insertion leaves in its slot, of which there is nothing before. -/
theorem insert_content (item : T) :
    (register.insert item).2 < (register.insert item).1.size ∧
      (register.insert item).1.content (register.insert item).2 = some item ∧
      register.content (register.insert item).2 = none := by
  rw [insert]
  split
  next isFull =>
    exact ⟨Nat.lt_succ_self _, update_self _ _ _, register.inside _ (Nat.le_refl _)⟩
  next slot rest front =>
    obtain ⟨small, vacant⟩ := (register.mem_queue slot).mp (front ▸ List.mem_cons_self)
    exact ⟨small, update_self _ _ _, vacant⟩

/-- The handle of a slot finds the item if the slot has its age, up to the number of
generations. -/
theorem found_handleOf {slot : Nat} (small : slot < 2 ^ 32) (age : Nat) :
    register.found type (handleOf type slot age) =
      if age % 4096 = register.age slot % 4096 then register.content slot else none := by
  have fields := ResourceTable.Represents.fields_handleOf type slot age
  have index : (handleOf type slot age).index.toNat = slot := by
    rw [show (handleOf type slot age).index = UInt32.ofNat slot from
      congrArg Fields.index fields, UInt32.toNat_ofNat', Nat.mod_eq_of_lt small]
  have isType : (handleOf type slot age).resourceType = type :=
    congrArg Fields.resourceType fields
  have generation : (handleOf type slot age).generation.toNat = age % 4096 :=
    generation_eq_iff.mp (congrArg Fields.generation fields)
  rw [found, index, isType, generation]
  simp

end Register

/-- The handle is looked up as another one. -/
def ResourceHandle.Aliases (handle other : ResourceHandle) : Prop :=
  other.index = handle.index ∧ other.generation = handle.generation ∧
    other.resourceType = handle.resourceType

/-- The call does not remove what the handle stands for. -/
def TableCall.Spares (handle : ResourceHandle) : TableCall T → Prop
  | .erase other => ¬ handle.Aliases other
  | .eraseItems others => ∀ other ∈ others, ¬ handle.Aliases other
  | .clear => False
  | .reset => False
  | _ => True

/-- A slot has an age and an item. -/
def Register.Holds (register : Register T) (slot age : Nat) (item : T) : Prop :=
  register.age slot = age ∧ register.content slot = some item

namespace Register

variable {register : Register T} {type : UInt8} {slot age : Nat} {item : T}

theorem aliases_handleOf_iff (small : slot < 2 ^ 32) (other : ResourceHandle) :
    (handleOf type slot age).Aliases other ↔
      other.index.toNat = slot ∧ other.generation.toNat = age % 4096 ∧
        other.resourceType = type := by
  have fields := ResourceTable.Represents.fields_handleOf type slot age
  rw [ResourceHandle.Aliases,
    show (handleOf type slot age).index = UInt32.ofNat slot from congrArg Fields.index fields,
    show (handleOf type slot age).generation = UInt16.ofNat (age % 4096) from
      congrArg Fields.generation fields,
    show (handleOf type slot age).resourceType = type from
      congrArg Fields.resourceType fields,
    generation_eq_iff, ← UInt32.toNat_inj, UInt32.toNat_ofNat', Nat.mod_eq_of_lt small]

/-- Equal handles are of one slot, with ages that the generations do not tell apart. -/
theorem eq_of_handleOf_eq {otherSlot otherAge : Nat} (small : slot < 2 ^ 32)
    (otherSmall : otherSlot < 2 ^ 32)
    (same : handleOf type slot age = handleOf type otherSlot otherAge) :
    slot = otherSlot ∧ age % 4096 = otherAge % 4096 := by
  have own : (handleOf type slot age).Aliases (handleOf type slot age) := ⟨rfl, rfl, rfl⟩
  obtain ⟨isSlot, isAge, -⟩ := (aliases_handleOf_iff small _).mp own
  rw [same] at own
  obtain ⟨isOther, isOtherAge, -⟩ := (aliases_handleOf_iff otherSmall _).mp own
  rw [← same] at isOther isOtherAge
  exact ⟨isSlot.symm.trans isOther, isAge.symm.trans isOtherAge⟩

theorem holds_insert (holds : register.Holds slot age item) (other : T) :
    (register.insert other).1.Holds slot age item := by
  obtain ⟨isAge, isItem⟩ := holds
  have small := ResourceTable.Represents.lt_of_content slot isItem
  have later := @later_insert _ register other
  have sameAge : (register.insert other).1.age slot = register.age slot :=
    le_antisymm (later.bound slot small) (later.age slot small)
  exact ⟨sameAge.trans isAge, later.content slot item isItem sameAge⟩

theorem holds_erase (small : slot < 2 ^ 32) (holds : register.Holds slot age item)
    {handle : ResourceHandle} (spares : ¬ (handleOf type slot age).Aliases handle) :
    (register.erase type handle).1.Holds slot age item := by
  rw [aliases_handleOf_iff small] at spares
  obtain ⟨rfl, isItem⟩ := holds
  rw [erase]
  split
  next => exact ⟨rfl, isItem⟩
  next other occupied =>
    split
    next matching =>
      have differs : slot ≠ handle.index.toNat := by
        rintro rfl
        exact spares ⟨rfl, matching.2, matching.1⟩
      exact ⟨update_of_ne differs _ _, (update_of_ne differs _ _).trans isItem⟩
    next => exact ⟨rfl, isItem⟩

theorem holds_eraseItems (small : slot < 2 ^ 32) (holds : register.Holds slot age item)
    {handles : List ResourceHandle}
    (spares : ∀ handle ∈ handles, ¬ (handleOf type slot age).Aliases handle) :
    (eraseItems type handles register).1.Holds slot age item := by
  induction handles generalizing register with
  | nil => exact holds
  | cons handle handles ih =>
      obtain ⟨first, others⟩ := List.forall_mem_cons.mp spares
      exact ih (holds_erase small holds first) others

theorem holds_step (small : slot < 2 ^ 32) (holds : register.Holds slot age item)
    {call : TableCall T} (spares : call.Spares (handleOf type slot age)) {next : Register T}
    {answer : TableAnswer T} (isStep : register.step type call = some (next, answer)) :
    next.Holds slot age item := by
  cases call with
  | insert other =>
      rw [step] at isStep
      split at isStep
      · cases isStep
        exact holds_insert holds other
      · cases isStep
  | erase handle =>
      cases isStep
      exact holds_erase small holds spares
  | eraseItems handles =>
      cases isStep
      exact holds_eraseItems small holds spares
  | clear => exact absurd spares not_false
  | reset => exact absurd spares not_false
  | defragment comp maxSwaps isTrivial =>
      cases isStep
      exact holds
  | contains handle =>
      cases isStep
      exact holds
  | tryGet handle =>
      cases isStep
      exact holds
  | itemAt handle =>
      cases isStep
      exact holds
  | size =>
      cases isStep
      exact holds

theorem holds_run (small : slot < 2 ^ 32) (holds : register.Holds slot age item)
    {calls : List (TableCall T)}
    (spare : ∀ call ∈ calls, call.Spares (handleOf type slot age)) {last : Register T}
    {answers : List (TableAnswer T)}
    (isRun : register.run type calls = some (last, answers)) : last.Holds slot age item :=
  invariant_run (fun call isCall _ _ _ held isStep =>
    holds_step small held (spare call isCall) isStep) holds isRun

end Register

section Handles

variable {type : UInt8} {calls more : List (TableCall T)}
  {table next gone last : ResourceTable T} {answers : List (TableAnswer T)} {item : T}
  {handle : ResourceHandle}

/-- The handle of an item that is inserted names its slot, with the age of the slot. -/
theorem insert_of_refines {register : Register T} (refines : Refines type table register)
    (inserted : table.insert item = some (next, handle)) :
    Refines type next (register.insert item).1 ∧ handle = Register.handleOf type
      (register.insert item).2 ((register.insert item).1.age (register.insert item).2) := by
  obtain ⟨rfl, represents⟩ := refines
  by_cases room : register.live < kIndexMax.toNat
  · obtain ⟨other, isInserted, sameType, isNext⟩ := represents.insert_eq room item
    cases inserted.symm.trans isInserted
    exact ⟨⟨sameType, isNext⟩, rfl⟩
  · rw [represents.insert_none room] at inserted
    cases inserted

/-- An item that is inserted into a table after any calls is in a slot of a register. -/
theorem insert_refines (isRun : (ResourceTable.new T type).run calls = some (table, answers))
    (inserted : table.insert item = some (next, handle)) :
    ∃ (register : Register T) (slot : Nat), Refines type next register ∧
      slot < register.size ∧ register.content slot = some item ∧
      handle = Register.handleOf type slot (register.age slot) := by
  have agrees := agree_run (refines_new type) calls
  rw [isRun] at agrees
  obtain ⟨register, -, refines⟩ := agrees.of_some
  obtain ⟨isNext, isHandle⟩ := insert_of_refines refines inserted
  obtain ⟨small, isContent, -⟩ := @Register.insert_content _ register item
  exact ⟨_, _, isNext, small, isContent, isHandle⟩

theorem run_refines {register : Register T} (refines : Refines type next register)
    (isRun : next.run calls = some (gone, answers)) :
    ∃ later, register.run type calls = some (later, answers) ∧ Refines type gone later := by
  have agrees := agree_run refines calls
  rw [isRun] at agrees
  exact agrees.of_some

theorem slot_lt_of_refines {register : Register T} (refines : Refines type table register)
    {slot : Nat} (small : slot < register.size) : slot < 2 ^ 32 := by
  have bound : kIndexMax.toNat < 2 ^ 32 := kIndexMax.toNat_lt
  have most := refines.2.small
  omega

theorem tryGet_of_refines {register : Register T} (refines : Refines type table register)
    (handle : ResourceHandle) : table.tryGet handle = some (register.found type handle) := by
  rw [refines.2.tryGet_eq, refines.1]

/-- Whatever is called, an item is found with its handle until it is removed. -/
theorem tryGet_inserted {before : List (TableCall T)} {first second : List (TableAnswer T)}
    (isRun : (ResourceTable.new T type).run before = some (table, first))
    (inserted : table.insert item = some (next, handle))
    (goes : next.run calls = some (last, second))
    (spare : ∀ call ∈ calls, call.Spares handle) :
    last.tryGet handle = some (some item) := by
  obtain ⟨register, slot, isNext, small, isItem, rfl⟩ := insert_refines isRun inserted
  obtain ⟨final, goesRegister, isLast⟩ := run_refines isNext goes
  have slotSmall := slot_lt_of_refines isNext small
  obtain ⟨isAge, isContent⟩ :=
    Register.holds_run slotSmall ⟨rfl, isItem⟩ spare goesRegister
  rw [tryGet_of_refines isLast, Register.found_handleOf slotSmall, isAge, if_pos rfl,
    isContent]

theorem tryGet_inserted_beside :
    oneItemLeft.tryGet (Register.handleOf 7 0 0) = some (some 5) :=
  have differs : ¬ (Register.handleOf 7 0 0).Aliases (Register.handleOf 7 1 0) :=
    fun same => absurd same.1 (by decide)
  @tryGet_inserted Nat 7 [.insert 6, .erase (Register.handleOf 7 1 0)] (.new Nat 7) oneItem
    oneItemLeft 5 (Register.handleOf 7 0 0) [] [] [.handle (Register.handleOf 7 1 0), .count 1]
    rfl rfl rfl (List.forall_mem_cons.mpr ⟨trivial, List.forall_mem_singleton.mpr differs⟩)

/-- A handle that finds nothing any more finds nothing later on, as long as fewer than 4096
removals follow the insertion that it comes from. -/
theorem tryGet_stale {before : List (TableCall T)} {first second : List (TableAnswer T)}
    (isRun : (ResourceTable.new T type).run before = some (table, answers))
    (inserted : table.insert item = some (next, handle))
    (goes : next.run calls = some (gone, first)) (notFound : gone.tryGet handle = some none)
    (goesOn : gone.run more = some (last, second))
    (noReset : ∀ call ∈ calls ++ more, ¬ call.Resets)
    (few : ((calls ++ more).map TableCall.removals).sum < 4096) :
    last.tryGet handle = some none := by
  obtain ⟨register, slot, isNext, small, isItem, rfl⟩ := insert_refines isRun inserted
  obtain ⟨middle, goesRegister, isGone⟩ := run_refines isNext goes
  obtain ⟨final, goesOnRegister, isLast⟩ := run_refines isGone goesOn
  obtain ⟨noReset, noResetMore⟩ := List.forall_mem_append.mp noReset
  have toMiddle := Register.later_run noReset goesRegister
  have toFinal := Register.later_run noResetMore goesOnRegister
  rw [List.map_append, List.sum_append] at few
  have slotSmall := slot_lt_of_refines isNext small
  rw [tryGet_of_refines isGone, Register.found_handleOf slotSmall] at notFound
  rw [tryGet_of_refines isLast, Register.found_handleOf slotSmall]
  have firstAge := toMiddle.age slot small
  have secondAge := toFinal.age slot (small.trans_le toMiddle.size)
  have bound := (toMiddle.trans toFinal).bound slot small
  split
  next same =>
    -- The slot has not become older, so its item would have been found.
    have unchanged : middle.age slot = register.age slot := by omega
    rw [unchanged, if_pos rfl, toMiddle.content slot item isItem unchanged] at notFound
    cases notFound
  next => rfl

theorem tryGet_stale_again : otherItem.tryGet (Register.handleOf 7 0 0) = some none :=
  @tryGet_stale Nat 7 [.erase (Register.handleOf 7 0 0)] [.insert 6] (.new Nat 7) oneItem
    noItem otherItem [] 5 (Register.handleOf 7 0 0) [] [.count 1]
    [.handle (Register.handleOf 7 0 1)] rfl rfl rfl rfl rfl
    (List.forall_mem_cons.mpr ⟨not_false, List.forall_mem_singleton.mpr not_false⟩)
    (by decide)

/-- A handle is not given to another item, as long as fewer than 4096 removals follow. -/
theorem insert_fresh {before : List (TableCall T)} {first second : List (TableAnswer T)}
    {other : T} {newHandle : ResourceHandle}
    (isRun : (ResourceTable.new T type).run before = some (table, first))
    (inserted : table.insert item = some (next, handle))
    (goes : next.run calls = some (gone, second))
    (insertedAgain : gone.insert other = some (last, newHandle))
    (noReset : ∀ call ∈ calls, ¬ call.Resets)
    (few : (calls.map TableCall.removals).sum < 4096) : newHandle ≠ handle := by
  obtain ⟨register, slot, isNext, small, isItem, rfl⟩ := insert_refines isRun inserted
  obtain ⟨middle, goesRegister, sameType, represents⟩ := run_refines isNext goes
  have slotSmall := slot_lt_of_refines isNext small
  have later := Register.later_run noReset goesRegister
  obtain ⟨isLast, rfl⟩ := insert_of_refines ⟨sameType, represents⟩ insertedAgain
  obtain ⟨newSmall, -, vacant⟩ := @Register.insert_content _ middle other
  have sameAge : (middle.insert other).1.age slot = middle.age slot :=
    have inserts := @Register.later_insert _ middle other
    le_antisymm (inserts.bound slot (small.trans_le later.size))
      (inserts.age slot (small.trans_le later.size))
  intro same
  -- The new handle would be the old one of the same slot, which is not older.
  obtain ⟨isSlot, generation⟩ :=
    Register.eq_of_handleOf_eq (slot_lt_of_refines isLast newSmall) slotSmall same
  rw [isSlot, sameAge] at generation
  have ages := later.age slot small
  have bound := later.bound slot small
  rw [isSlot, later.content slot item isItem (by omega)] at vacant
  cases vacant

theorem insert_fresh_again : Register.handleOf 7 0 1 ≠ Register.handleOf 7 0 0 :=
  @insert_fresh Nat 7 [.erase (Register.handleOf 7 0 0)] (.new Nat 7) oneItem noItem otherItem
    5 (Register.handleOf 7 0 0) [] [] [.count 1] 6 (Register.handleOf 7 0 1) rfl rfl rfl rfl
    (List.forall_mem_singleton.mpr not_false) (by decide)

/-- A table that is defragmented without a limit has the same items, in order, whichever
implementation does it, and the same item is found with every handle. -/
theorem defragment_sorts {comp : T → T → Bool}
    (isRun : (ResourceTable.new T type).run calls = some (table, answers))
    (isFragmented : table.fragmented = true) (orders : ResourceTable.Orders comp) :
    ∃ next, (table.defragment comp 0 true).map Prod.fst = some next ∧
      (table.defragment comp 0 false).map Prod.fst = some next ∧
      next.items.Perm table.items ∧
      (next.items.Pairwise fun first second => comp first second = false) ∧
      ∀ handle, next.tryGet handle = table.tryGet handle := by
  have agrees := agree_run (refines_new type) calls
  rw [isRun] at agrees
  obtain ⟨register, -, refines⟩ := agrees.of_some
  obtain ⟨next, total, defragmented, sameType, isNext, perm, sorted⟩ :=
    ResourceTable.defragment_eq refines.2 comp 0 false
  have isStandard : (table.defragment comp 0 false).map Prod.fst = some next := by
    rw [defragmented]
    rfl
  refine ⟨next, (ResourceTable.defragment_trivial_eq refines.2).trans isStandard, isStandard,
    perm, sorted rfl isFragmented orders, fun handle => ?_⟩
  rw [tryGet_of_refines refines, tryGet_of_refines ⟨sameType.trans refines.1, isNext⟩]

theorem lessThan_orders : ResourceTable.Orders fun first second : Nat => first < second where
  asymm first second less := by
    simp only [decide_eq_true_eq, decide_eq_false_iff_not] at less ⊢
    omega
  negTrans first second third before behind := by
    simp only [decide_eq_false_iff_not] at before behind ⊢
    omega

theorem defragment_sorts_two :
    ∃ next, (twoItems.defragment (fun first second => first < second) 0 true).map Prod.fst =
        some next ∧
      (twoItems.defragment (fun first second => first < second) 0 false).map Prod.fst =
        some next ∧
      next.items.Perm [5, 6] ∧
      (next.items.Pairwise fun first second => decide (first < second) = false) ∧
      ∀ handle, next.tryGet handle = twoItems.tryGet handle :=
  @defragment_sorts Nat 7 [.insert 5, .insert 6] twoItems
    [.handle (Register.handleOf 7 0 0), .handle (Register.handleOf 7 1 0)] _ rfl rfl
    lessThan_orders

end Handles

end Nova

end Blocxxi
