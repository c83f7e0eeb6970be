import Blocxxi.ResourceRefinement

/-!
# Defragmentation

Every round of a defragmentation moves one item down among the items in front of it, and
the slots learn their new places.  Both implementations make the same moves.
-/

namespace Blocxxi

namespace Nova

open ResourceHandle LinkedSegments Function

section Moves

variable {Element : Type} {vector : List Element}

theorem getElem?_moveUp {first last : Nat} (order : first ≤ last)
    (inside : last < vector.length) (index : Nat) :
    (moveUp vector first last)[index]? =
      vector[if first < index ∧ index ≤ last then index - 1 else index]? := by
  have lengthFront : (vector.take (first + 1)).length = first + 1 := by
    rw [List.length_take]
    omega
  have lengthMoved : ((vector.drop first).take (last - first)).length = last - first := by
    rw [List.length_take, List.length_drop]
    omega
  rw [moveUp, List.append_assoc]
  by_cases front : index < first + 1
  · rw [List.getElem?_append_left (by omega), List.getElem?_take_of_lt front,
      if_neg (by omega)]
  · rw [List.getElem?_append_right (by omega), lengthFront]
    by_cases moved : index ≤ last
    · rw [List.getElem?_append_left (by omega), List.getElem?_take_of_lt (by omega),
        List.getElem?_drop, if_pos (by omega)]
      congr 1
      omega
    · rw [List.getElem?_append_right (by omega), lengthMoved, List.getElem?_drop,
        if_neg (by omega)]
      congr 1
      omega

theorem length_moveUp {first last : Nat} (order : first ≤ last)
    (inside : last < vector.length) : (moveUp vector first last).length = vector.length := by
  simp only [moveUp, List.length_append, List.length_take, List.length_drop]
  omega

theorem moveUp_self {place : Nat} (inside : place < vector.length) :
    moveUp vector place place = vector := by
  apply List.ext_getElem?
  intro index
  rw [getElem?_moveUp (Nat.le_refl _) inside, if_neg (by omega)]

theorem moveUp_set {first last : Nat} (order : first ≤ last)
    (inside : last + 1 < vector.length) {element : Element}
    (isElement : vector[last]? = some element) :
    moveUp (vector.set (last + 1) element) first last = moveUp vector first (last + 1) := by
  apply List.ext_getElem?
  intro index
  rw [getElem?_moveUp order (by rw [List.length_set]; omega),
    getElem?_moveUp (by omega) inside]
  by_cases atLast : index = last + 1
  · subst atLast
    rw [if_neg (by omega), if_pos (by omega), List.getElem?_set_self inside,
      Nat.add_sub_cancel, isElement]
  · by_cases moved : first < index ∧ index ≤ last
    · rw [if_pos moved, if_pos (by omega), List.getElem?_set_ne (by omega)]
    · rw [if_neg moved, if_neg (by omega), List.getElem?_set_ne (Ne.symm atLast)]

/-- Where the element at an index comes from when one moves down to a place. -/
def cameFrom (place last index : Nat) : Nat :=
  if index = place then last
  else if place < index ∧ index ≤ last then index - 1 else index

/-- Where the element at an index goes to. -/
def goesTo (place last index : Nat) : Nat :=
  if index = last then place
  else if place ≤ index ∧ index < last then index + 1 else index

theorem goesTo_cameFrom {place last : Nat} (order : place ≤ last) (index : Nat) :
    goesTo place last (cameFrom place last index) = index := by
  unfold goesTo cameFrom
  split_ifs <;> omega

theorem cameFrom_goesTo {place last : Nat} (order : place ≤ last) (index : Nat) :
    cameFrom place last (goesTo place last index) = index := by
  unfold goesTo cameFrom
  split_ifs <;> omega

theorem getElem?_moveUp_set {place last : Nat} (order : place ≤ last)
    (inside : last < vector.length) {element : Element}
    (isElement : vector[last]? = some element) (index : Nat) :
    ((moveUp vector place last).set place element)[index]? =
      vector[cameFrom place last index]? := by
  by_cases isPlace : index = place
  · subst isPlace
    rw [List.getElem?_set_self (by rw [length_moveUp order inside]; omega), cameFrom,
      if_pos rfl, isElement]
  · rw [List.getElem?_set_ne (Ne.symm isPlace), getElem?_moveUp order inside, cameFrom,
      if_neg isPlace]

end Moves

/-- Pairs may be moved together. -/
theorem Pairs.permute {T : Type} {items others : List T} {metas otherMetas : List UInt32}
    {content : Nat → Option T} (pairs : Pairs items metas content) {came : Nat → Nat}
    (onto : ∀ index, ∃ moved, came moved = index)
    (isItem : ∀ index, others[index]? = items[came index]?)
    (isMeta : ∀ index, otherMetas[index]? = metas[came index]?) :
    Pairs others otherMetas content := by
  intro slot item
  rw [pairs]
  constructor
  · rintro ⟨index, outer, atIndex, beside, isSlot⟩
    obtain ⟨moved, rfl⟩ := onto index
    exact ⟨moved, outer, by rwa [isItem], by rwa [isMeta], isSlot⟩
  · rintro ⟨index, outer, atIndex, beside, isSlot⟩
    exact ⟨came index, outer, by rwa [← isItem], by rwa [← isMeta], isSlot⟩

/-- The slots that stand beside the items name some places. -/
def Placed (sparseTable : List ResourceHandle) (metas : List UInt32) (place : Nat → Nat) :
    Prop :=
  ∀ (index : Nat) (outer : UInt32), metas[index]? = some outer →
    ∃ handle : ResourceHandle, sparseTable[outer.toNat]? = some handle ∧
      handle.index.toNat = place index

theorem Placed.setIndex {sparseTable : List ResourceHandle} {metas : List UInt32}
    {place : Nat → Nat} (placed : Placed sparseTable metas place)
    (injective : ∀ (first second : Nat) (outer : UInt32), metas[first]? = some outer →
      metas[second]? = some outer → first = second)
    {index : Nat} {outer : UInt32} (isOuter : metas[index]? = some outer) {value : Nat}
    (small : value < 2 ^ 32) :
    ∃ after, (changeAt sparseTable outer.toNat fun moved =>
        moved.setIndex (UInt32.ofNat value)) = some after ∧
      Reindexed sparseTable after ∧ Placed after metas (update place index value) ∧
      ∀ slot, slot ≠ outer.toNat → after[slot]? = sparseTable[slot]? := by
  obtain ⟨handle, isHandle, -⟩ := placed index outer isOuter
  obtain ⟨changed, reindexed⟩ := changeAt_setIndex isHandle (UInt32.ofNat value)
  refine ⟨_, changed, reindexed, ?_, fun slot differs =>
    List.getElem?_set_ne (Ne.symm differs)⟩
  intro other otherOuter isOther
  by_cases isIndex : other = index
  · subst isIndex
    cases isOuter.symm.trans isOther
    refine ⟨_, List.getElem?_set_self (List.getElem?_eq_some_iff.mp isHandle).1, ?_⟩
    rw [index_setIndex, update_self, UInt32.toNat_ofNat', Nat.mod_eq_of_lt small]
  · have differs : outer.toNat ≠ otherOuter.toNat := by
      intro same
      obtain rfl := UInt32.toNat_inj.mp same
      exact isIndex (injective _ _ _ isOther isOuter)
    rw [List.getElem?_set_ne differs, update_of_ne isIndex]
    exact placed other otherOuter isOther

namespace ResourceTable

variable {T : Type} {table : ResourceTable T} {comp : T → T → Bool} {maxSwaps : Nat}
  {item : T}

theorem findPlace_congr {items others : List T} {metas otherMetas : List UInt32} {place : Nat}
    (sameItems : ∀ index < place, others[index]? = items[index]?)
    (sameMetas : ∀ index < place, otherMetas[index]? = metas[index]?)
    (sparseTable : List ResourceHandle) :
    findPlace comp others otherMetas item place sparseTable =
      findPlace comp items metas item place sparseTable := by
  induction place generalizing sparseTable with
  | zero => rfl
  | succ place ih =>
      have below := ih (fun index small => sameItems index (by omega))
        (fun index small => sameMetas index (by omega))
      simp only [findPlace, sameItems place (by omega), sameMetas place (by omega), below]

theorem findPlace_le {items : List T} {metas : List UInt32} {place first : Nat}
    {sparseTable after : List ResourceHandle}
    (isFound : findPlace comp items metas item place sparseTable = some (first, after)) :
    first ≤ place := by
  induction place generalizing sparseTable with
  | zero =>
      cases isFound
      exact Nat.le_refl _
  | succ place ih =>
      rw [findPlace] at isFound
      obtain ⟨before, -, isFound⟩ := Option.bind_eq_some_iff.mp isFound
      split at isFound
      · obtain ⟨outer, -, isFound⟩ := Option.bind_eq_some_iff.mp isFound
        obtain ⟨changed, -, isFound⟩ := Option.bind_eq_some_iff.mp isFound
        exact (ih isFound).trans (Nat.le_succ _)
      · cases isFound
        exact Nat.le_refl _

/-- Without a limit both implementations look for the same place. -/
theorem sink_eq_findPlace {place : Nat} (inItems : place < table.items.length)
    (inMetas : place < table.metas.length) (swaps : Nat) :
    sink comp 0 item place table swaps =
      (findPlace comp table.items table.metas item place table.sparseTable).map
        fun (first, sparseTable) => (first, { table with
          sparseTable := sparseTable
          items := moveUp table.items first place
          metas := moveUp table.metas first place }, swaps + (place - first)) := by
  induction place generalizing table swaps with
  | zero => simp [sink, findPlace, moveUp_self inItems, moveUp_self inMetas]
  | succ place ih =>
      have isBefore := List.getElem?_eq_getElem (show place < table.items.length by omega)
      have isMeta := List.getElem?_eq_getElem (show place < table.metas.length by omega)
      rw [sink, findPlace, if_pos (.inl rfl), isBefore, isMeta]
      simp only [Option.bind_eq_bind, Option.bind_some]
      by_cases moves : comp table.items[place] item = true
      · rw [if_pos moves, if_pos moves]
        cases changed : changeAt table.sparseTable table.metas[place].toNat
          fun moved => moved.setIndex (UInt32.ofNat (place + 1)) with
        | none => rfl
        | some sparseTable =>
            rw [Option.bind_some, Option.bind_some, ih (by simp; omega) (by simp; omega),
              findPlace_congr (fun index _ => List.getElem?_set_ne (by omega))
                (fun index _ => List.getElem?_set_ne (by omega))]
            cases isFound : findPlace comp table.items table.metas item place sparseTable with
            | none => rfl
            | some result =>
                obtain ⟨first, after⟩ := result
                have below := findPlace_le isFound
                simp only [Option.map_some, moveUp_set below inItems isBefore,
                  moveUp_set below inMetas isMeta, Option.some.injEq, Prod.mk.injEq, true_and]
                omega
      · rw [if_neg moves, if_neg moves]
        simp [moveUp_self inItems, moveUp_self inMetas]

/-- An item that was at a place has sunk to another one: the items between were moved, the
slots beside them know it, and without a limit it could not sink further. -/
structure Sunk (comp : T → T → Bool) (maxSwaps : Nat) (item : T) (table : ResourceTable T)
    (metas : List UInt32) (goes : Nat → Nat) (place first : Nat)
    (sparseTable : List ResourceHandle) : Prop where
  le : first ≤ place
  reindexed : Reindexed table.sparseTable sparseTable
  placed : Placed sparseTable metas fun index =>
    if first ≤ index ∧ index < place then index + 1 else goes index
  unchanged : ∀ slot, (∀ outer ∈ metas, outer.toNat ≠ slot) →
    sparseTable[slot]? = table.sparseTable[slot]?
  moved : ∀ index, first ≤ index → index < place → ∀ before,
    table.items[index]? = some before → comp before item = true
  stopped : maxSwaps = 0 → ∀ index, index + 1 = first → ∀ before,
    table.items[index]? = some before → comp before item = false

theorem Sunk.stays {metas : List UInt32} {place : Nat} {goes : Nat → Nat}
    (placed : Placed table.sparseTable metas goes)
    (stopped : maxSwaps = 0 → ∀ index, index + 1 = place → ∀ before,
      table.items[index]? = some before → comp before item = false) :
    Sunk comp maxSwaps item table metas goes place place table.sparseTable where
  le := Nat.le_refl _
  reindexed := .refl _
  placed := by
    have same : (fun index => if place ≤ index ∧ index < place then index + 1
        else goes index) = goes := by
      funext index
      exact if_neg (by omega)
    rwa [same]
  unchanged _ _ := rfl
  moved index _ _ := absurd ‹index < place› (by omega)
  stopped := stopped

/-- The table whose element at a place is also in the next place. -/
def copiedUp (table : ResourceTable T) (place : Nat) (before : T) (outer : UInt32)
    (changed : List ResourceHandle) : ResourceTable T :=
  { table with
    sparseTable := changed
    items := table.items.set (place + 1) before
    metas := table.metas.set (place + 1) outer }

theorem goes_succ {first place : Nat} (below : first ≤ place) (goes : Nat → Nat) :
    (fun index => if first ≤ index ∧ index < place then index + 1
        else update goes place (place + 1) index) =
      fun index => if first ≤ index ∧ index < place + 1 then index + 1 else goes index := by
  funext index
  by_cases isPlace : index = place
  · subst isPlace
    rw [if_neg (by omega), update_self, if_pos (by omega)]
  · rw [update_of_ne isPlace]
    congr 1
    simp only [eq_iff_iff]
    omega

/-- An item that passes one more element has sunk by one place more. -/
theorem Sunk.succ {metas : List UInt32} {goes : Nat → Nat} {place first : Nat} {before : T}
    {outer : UInt32} {changed sparseTable : List ResourceHandle}
    (isBefore : table.items[place]? = some before) (isOuter : metas[place]? = some outer)
    (moves : comp before item = true) (reindexed : Reindexed table.sparseTable changed)
    (unchanged : ∀ slot, slot ≠ outer.toNat → changed[slot]? = table.sparseTable[slot]?)
    (sunk : Sunk comp maxSwaps item (copiedUp table place before outer changed) metas
      (update goes place (place + 1)) place first sparseTable) :
    Sunk comp maxSwaps item table metas goes (place + 1) first sparseTable := by
  have stillThere : ∀ {index : Nat} {other : T}, index < place + 1 →
      table.items[index]? = some other →
        (copiedUp table place before outer changed).items[index]? = some other := by
    intro index other below isOther
    rw [← isOther]
    exact List.getElem?_set_ne (by omega)
  constructor
  · exact Nat.le_succ_of_le sunk.le
  · exact reindexed.trans sunk.reindexed
  · rw [← goes_succ sunk.le]
    exact sunk.placed
  · intro slot outside
    rw [sunk.unchanged slot outside]
    exact unchanged slot (outside _ (List.mem_of_getElem? isOuter)).symm
  · intro index from_ until_ other isOther
    by_cases isPlace : index = place
    · subst isPlace
      cases isBefore.symm.trans isOther
      exact moves
    · exact sunk.moved index from_ (by omega) other (stillThere until_ isOther)
  · intro noLimit index isFirst other isOther
    have below := sunk.le
    exact sunk.stopped noLimit index isFirst other (stillThere (by omega) isOther)

/-- The item stays where it is if it may not pass the element before it. -/
theorem sink_stays {place : Nat} {before : T} (inItems : place + 1 < table.items.length)
    (inMetas : place + 1 < table.metas.length) (isBefore : table.items[place]? = some before)
    {swaps : Nat}
    (stays : ¬ ((maxSwaps = 0 ∨ swaps < maxSwaps) ∧ comp before item = true)) :
    sink comp maxSwaps item (place + 1) table swaps = some (place + 1, { table with
      items := moveUp table.items (place + 1) (place + 1)
      metas := moveUp table.metas (place + 1) (place + 1) }, swaps) := by
  have isMeta := List.getElem?_eq_getElem (show place < table.metas.length by omega)
  rw [sink, isBefore, isMeta, moveUp_self inItems, moveUp_self inMetas]
  by_cases limit : maxSwaps = 0 ∨ swaps < maxSwaps
  · have stops : ¬ comp before item = true := fun moves => stays ⟨limit, moves⟩
    rw [if_pos limit, Option.bind_eq_bind, Option.bind_some, if_neg stops]
    rfl
  · rw [if_neg limit]

theorem sink_eq {metas : List UInt32} {place : Nat} {goes : Nat → Nat}
    (inItems : place < table.items.length) (inMetas : place < table.metas.length)
    (small : table.items.length ≤ 2 ^ 32)
    (same : ∀ index < place, table.metas[index]? = metas[index]?)
    (injective : ∀ (first second : Nat) (outer : UInt32), metas[first]? = some outer →
      metas[second]? = some outer → first = second)
    (placed : Placed table.sparseTable metas goes) (swaps : Nat) :
    ∃ first sparseTable total,
      sink comp maxSwaps item place table swaps = some (first, { table with
          sparseTable := sparseTable
          items := moveUp table.items first place
          metas := moveUp table.metas first place }, total) ∧
      Sunk comp maxSwaps item table metas goes place first sparseTable := by
  induction place generalizing table goes swaps with
  | zero =>
      refine ⟨0, table.sparseTable, swaps, ?_, .stays placed fun _ index isFirst =>
        absurd isFirst (Nat.succ_ne_zero _)⟩
      rw [sink, moveUp_self inItems, moveUp_self inMetas]
  | succ place ih =>
      have isBefore := List.getElem?_eq_getElem (show place < table.items.length by omega)
      have isMeta := List.getElem?_eq_getElem (show place < table.metas.length by omega)
      by_cases goesOn : (maxSwaps = 0 ∨ swaps < maxSwaps) ∧
          comp table.items[place] item = true
      · obtain ⟨limit, moves⟩ := goesOn
        have isOuter := (same place (Nat.lt_succ_self _)).symm.trans isMeta
        obtain ⟨changed, isChanged, reindexed, placedNext, unchanged⟩ :=
          placed.setIndex injective isOuter (show place + 1 < 2 ^ 32 by omega)
        let next := copiedUp table place table.items[place] table.metas[place] changed
        have sameNext : ∀ index < place, next.metas[index]? = metas[index]? := by
          intro index below
          rw [← same index (by omega)]
          exact List.getElem?_set_ne (by omega)
        obtain ⟨first, sparseTable, total, isSink, sunk⟩ := @ih next _
          (by simp [next, copiedUp]; omega) (by simp [next, copiedUp]; omega)
          (by simpa [next, copiedUp] using small) sameNext placedNext (swaps + 1)
        refine ⟨first, sparseTable, total, ?_,
          .succ isBefore isOuter moves reindexed unchanged sunk⟩
        rw [sink, if_pos limit, isBefore, isMeta]
        simp only [Option.bind_eq_bind, Option.bind_some, if_pos moves, isChanged]
        change sink comp maxSwaps item place next (swaps + 1) = _
        rw [isSink]
        simp only [next, copiedUp, moveUp_set sunk.le inItems isBefore,
          moveUp_set sunk.le inMetas isMeta]
      · refine ⟨place + 1, table.sparseTable, swaps,
          sink_stays inItems inMetas isBefore goesOn, .stays placed ?_⟩
        intro noLimit index isFirst before isItem
        obtain rfl : index = place := Nat.succ.inj isFirst
        cases isBefore.symm.trans isItem
        exact Bool.not_eq_true _ ▸ fun moves => goesOn ⟨.inl noLimit, moves⟩

/-- The comparison orders the items, up to items that it does not tell apart. -/
structure Orders (comp : T → T → Bool) : Prop where
  asymm : ∀ first second, comp first second = true → comp second first = false
  negTrans : ∀ first second third, comp first second = false →
    comp second third = false → comp first third = false

/-- In front of an index no item is less than one behind it. -/
def OrderedBelow (comp : T → T → Bool) (items : List T) (size : Nat) : Prop :=
  ∀ (first second : Nat) (a b : T), first < second → second < size →
    items[first]? = some a → items[second]? = some b → comp a b = false

theorem orderedBelow_length_iff {items : List T} :
    OrderedBelow comp items items.length ↔
      items.Pairwise fun first second => comp first second = false := by
  rw [List.pairwise_iff_getElem]
  constructor
  · intro ordered first second inFirst inSecond order
    exact ordered first second _ _ order inSecond (List.getElem?_eq_getElem inFirst)
      (List.getElem?_eq_getElem inSecond)
  · intro pairwise first second a b order _ isFirst isSecond
    obtain ⟨inFirst, rfl⟩ := List.getElem?_eq_some_iff.mp isFirst
    obtain ⟨inSecond, rfl⟩ := List.getElem?_eq_some_iff.mp isSecond
    exact pairwise first second inFirst inSecond order

/-- A round moves the item at an index to a place, and the slots know the new places. -/
structure Round (comp : T → T → Bool) (maxSwaps : Nat) (before after : ResourceTable T)
    (index place : Nat) : Prop where
  le : place ≤ index
  items : ∀ other, after.items[other]? = before.items[cameFrom place index other]?
  metas : ∀ other, after.metas[other]? = before.metas[cameFrom place index other]?
  lengthItems : after.items.length = before.items.length
  lengthMetas : after.metas.length = before.metas.length
  itemType : after.itemType = before.itemType
  front : after.freelistFront = before.freelistFront
  back : after.freelistBack = before.freelistBack
  reindexed : Reindexed before.sparseTable after.sparseTable
  unchanged : ∀ slot, (∀ outer ∈ before.metas, outer.toNat ≠ slot) →
    after.sparseTable[slot]? = before.sparseTable[slot]?
  indexed : Indexed after.sparseTable after.metas
  moved : ∀ other, place ≤ other → other < index → ∀ first second,
    before.items[other]? = some first → before.items[index]? = some second →
      comp first second = true
  stopped : maxSwaps = 0 → ∀ other, other + 1 = place → ∀ first second,
    before.items[other]? = some first → before.items[index]? = some second →
      comp first second = false

variable {register : Register T}

section Rounds

variable {index place : Nat} {sparseTable : List ResourceHandle}

theorem Sunk.passed (isItem : table.items[index]? = some item)
    (sunk : Sunk comp maxSwaps item table table.metas id index place sparseTable) :
    ∀ other, place ≤ other → other < index → ∀ first second,
      table.items[other]? = some first → table.items[index]? = some second →
        comp first second = true := by
  intro other from_ until_ first second isFirst isSecond
  cases isItem.symm.trans isSecond
  exact sunk.moved other from_ until_ first isFirst

theorem Sunk.halted (isItem : table.items[index]? = some item)
    (sunk : Sunk comp maxSwaps item table table.metas id index place sparseTable) :
    maxSwaps = 0 → ∀ other, other + 1 = place → ∀ first second,
      table.items[other]? = some first → table.items[index]? = some second →
        comp first second = false := by
  intro noLimit other isPlace first second isFirst isSecond
  cases isItem.symm.trans isSecond
  exact sunk.stopped noLimit other isPlace first isFirst

theorem Sunk.round_stays (isItem : table.items[index]? = some item)
    (sunk : Sunk comp maxSwaps item table table.metas id index index sparseTable) :
    Round comp maxSwaps table { table with sparseTable := sparseTable } index index := by
  have stays : ∀ other, cameFrom index index other = other := by
    intro other
    unfold cameFrom
    split_ifs <;> omega
  refine ⟨sunk.le, fun other => by rw [stays], fun other => by rw [stays], rfl, rfl, rfl, rfl,
    rfl, sunk.reindexed, sunk.unchanged, ?_, sunk.passed isItem, sunk.halted isItem⟩
  intro other outer isOuter
  obtain ⟨handle, isHandle, isIndex⟩ := sunk.placed other outer isOuter
  exact ⟨handle, isHandle, isIndex.trans (if_neg (by omega))⟩

/-- The item is put into its place when its slot has learned of it. -/
theorem Sunk.round_moves (inMetas : index < table.metas.length)
    (isItem : table.items[index]? = some item) {itemMeta : UInt32}
    (isMeta : table.metas[index]? = some itemMeta)
    (sunk : Sunk comp maxSwaps item table table.metas id index place sparseTable)
    {after : List ResourceHandle} (reindexed : Reindexed sparseTable after)
    (placed : Placed after table.metas (update (fun other =>
      if place ≤ other ∧ other < index then other + 1 else id other) index place))
    (unchanged : ∀ slot, slot ≠ itemMeta.toNat → after[slot]? = sparseTable[slot]?) :
    Round comp maxSwaps table { table with
      sparseTable := after
      items := (moveUp table.items place index).set place item
      metas := (moveUp table.metas place index).set place itemMeta } index place := by
  have below := sunk.le
  have inside := (List.getElem?_eq_some_iff.mp isItem).1
  refine ⟨below, getElem?_moveUp_set below inside isItem,
    getElem?_moveUp_set below inMetas isMeta, ?_, ?_, rfl, rfl, rfl,
    sunk.reindexed.trans reindexed, ?_, ?_, sunk.passed isItem, sunk.halted isItem⟩
  · rw [List.length_set, length_moveUp below inside]
  · rw [List.length_set, length_moveUp below inMetas]
  · intro slot outside
    rw [unchanged slot (outside _ (List.mem_of_getElem? isMeta)).symm,
      sunk.unchanged slot outside]
  · intro other outer isOuter
    rw [getElem?_moveUp_set below inMetas isMeta] at isOuter
    obtain ⟨handle, isHandle, isIndex⟩ := placed _ outer isOuter
    refine ⟨handle, isHandle, ?_⟩
    have comesBack := goesTo_cameFrom below other
    rw [isIndex]
    by_cases wasLast : cameFrom place index other = index
    · rw [goesTo, if_pos wasLast] at comesBack
      rw [wasLast, update_self, comesBack]
    · rw [goesTo, if_neg wasLast] at comesBack
      rw [update_of_ne wasLast]
      exact comesBack

end Rounds

theorem placeStandard_round (represents : table.Represents register) {index : Nat}
    (inside : index < table.items.length) (swaps : Nat) :
    ∃ after place total, table.placeStandard comp maxSwaps index swaps = some (after, total) ∧
      Round comp maxSwaps table after index place := by
  have inMetas : index < table.metas.length := represents.paired ▸ inside
  have bound : kIndexMax.toNat < 2 ^ 32 := kIndexMax.toNat_lt
  have most := represents.items_le
  have isItem := List.getElem?_eq_getElem inside
  have isMeta := List.getElem?_eq_getElem inMetas
  have injective := fun (first second : Nat) (outer : UInt32)
    (isFirst : table.metas[first]? = some outer)
    (isSecond : table.metas[second]? = some outer) =>
      represents.indexed.injective isFirst isSecond
  obtain ⟨place, sparseTable, total, isSink, sunk⟩ :=
    @sink_eq _ table comp maxSwaps table.items[index] table.metas index id inside inMetas
      (by omega) (fun _ _ => rfl) injective represents.indexed swaps
  have below := sunk.le
  by_cases isPlace : place = index
  · subst isPlace
    refine ⟨_, place, total, ?_, sunk.round_stays isItem⟩
    rw [placeStandard, isItem, isMeta]
    simp only [Option.bind_eq_bind, Option.bind_some, isSink, if_true, moveUp_self inside,
      moveUp_self inMetas, Option.pure_def]
  · obtain ⟨after, isAfter, reindexed, placed, unchanged⟩ :=
      sunk.placed.setIndex injective isMeta (show place < 2 ^ 32 by omega)
    refine ⟨_, place, total, ?_,
      sunk.round_moves inMetas isItem isMeta reindexed placed unchanged⟩
    rw [placeStandard, isItem, isMeta]
    simp only [Option.bind_eq_bind, Option.bind_some, isSink, if_neg isPlace, isAfter,
      Option.pure_def]

/-- Without a limit both implementations make the same move. -/
theorem placeTrivial_eq {index : Nat} (inItems : index < table.items.length)
    (inMetas : index < table.metas.length) (swaps others : Nat) :
    (table.placeTrivial comp index swaps).map Prod.fst =
      (table.placeStandard comp 0 index others).map Prod.fst := by
  have isItem := List.getElem?_eq_getElem inItems
  have isMeta := List.getElem?_eq_getElem inMetas
  rw [placeTrivial, placeStandard, isItem, isMeta]
  simp only [Option.bind_eq_bind, Option.bind_some, sink_eq_findPlace inItems inMetas]
  cases findPlace comp table.items table.metas table.items[index] index table.sparseTable with
  | none => rfl
  | some result =>
      obtain ⟨place, sparseTable⟩ := result
      simp only [Option.map_some, Option.bind_some]
      by_cases isPlace : place = index
      · subst isPlace
        simp [moveUp_self inItems, moveUp_self inMetas]
      · rw [if_neg isPlace, if_neg isPlace]
        cases changeAt sparseTable table.metas[index].toNat
          fun moved => moved.setIndex (UInt32.ofNat place) with
        | none => rfl
        | some after => rfl

theorem placeTrivial_round (represents : table.Represents register) {index : Nat}
    (inside : index < table.items.length) (swaps : Nat) :
    ∃ after place total, table.placeTrivial comp index swaps = some (after, total) ∧
      Round comp 0 table after index place := by
  obtain ⟨after, place, total, isStandard, round⟩ :=
    @placeStandard_round _ table comp 0 register represents index inside 0
  have isTrivial := @placeTrivial_eq _ table comp index inside (represents.paired ▸ inside)
    swaps 0
  rw [isStandard] at isTrivial
  obtain ⟨⟨other, count⟩, isOther, rfl⟩ := Option.map_eq_some_iff.mp isTrivial
  exact ⟨other, place, count, isOther, round⟩

namespace Round

variable {after : ResourceTable T} {index place : Nat}

theorem represents (round : Round comp maxSwaps table after index place)
    (isTable : table.Represents register) : after.Represents register := by
  constructor
  · exact isTable.small
  · rw [round.reindexed.length_eq, isTable.size]
  · rw [round.itemType]
    exact isTable.slots.reindexed round.reindexed
  · rw [round.lengthItems, round.lengthMetas, isTable.paired]
  · exact isTable.pairs.permute (fun other => ⟨_, cameFrom_goesTo round.le other⟩)
      round.items round.metas
  · exact round.indexed
  · rw [round.front]
    apply isTable.chain.congr
    intro cell isCell
    obtain ⟨slot, waits, rfl⟩ := List.mem_map.mp isCell
    rw [nextFree, nextFree, round.unchanged]
    intro outer isOuter same
    rw [isTable.toNat_slot ((register.mem_queue slot).mp waits).1] at same
    obtain ⟨item, isItem⟩ := isTable.content_of_mem isOuter
    exact Represents.notMem_queue isItem (same ▸ waits)
  · rw [round.back, isTable.back]
  · rw [round.lengthItems, isTable.counted]

theorem perm (round : Round comp maxSwaps table after index place)
    (inside : index < table.items.length) : after.items.Perm table.items := by
  have below := round.le
  have isItem := List.getElem?_eq_getElem inside
  have isAfter : after.items = (moveUp table.items place index).set place
      table.items[index] := by
    apply List.ext_getElem?
    intro other
    rw [round.items, getElem?_moveUp_set below inside isItem]
  have isSplit : after.items = table.items.take place ++ table.items[index] ::
      ((table.items.drop place).take (index - place) ++ table.items.drop (index + 1)) := by
    rw [isAfter, moveUp, List.take_add_one, List.append_assoc, List.append_assoc,
      List.set_append_right _ _ (by simp)]
    simp [List.length_take, Nat.min_eq_left (show place ≤ table.items.length by omega),
      List.getElem?_eq_getElem (show place < table.items.length by omega)]
  have isWhole : table.items = table.items.take place ++
      ((table.items.drop place).take (index - place) ++
        table.items[index] :: table.items.drop (index + 1)) := by
    have behind : (table.items.drop place).drop (index - place) =
        table.items[index] :: table.items.drop (index + 1) := by
      rw [List.drop_drop, Nat.add_sub_cancel' below, List.drop_eq_getElem_cons inside]
    rw [← behind, List.take_append_drop, List.take_append_drop]
  have isPerm := (@List.perm_middle _ table.items[index]
    ((table.items.drop place).take (index - place)) (table.items.drop (index + 1))).symm
  rw [isSplit]
  conv => rhs; rw [isWhole]
  exact isPerm.append_left _

/-- The items in front of the round's are put in order with it. -/
theorem ordered (round : Round comp 0 table after index place) (orders : Orders comp)
    (inside : index < table.items.length) (before : OrderedBelow comp table.items index) :
    OrderedBelow comp after.items (index + 1) := by
  have below := round.le
  intro first second a b order small isFirst isSecond
  rw [round.items] at isFirst isSecond
  by_cases atSecond : second = place
  · -- What is in front of the place does not go behind the item.
    subst atSecond
    rw [cameFrom, if_neg (by omega), if_neg (by omega)] at isFirst
    rw [cameFrom, if_pos rfl] at isSecond
    have isNext := List.getElem?_eq_getElem (show second - 1 < table.items.length by omega)
    have stops := round.stopped rfl (second - 1) (by omega) _ _ isNext isSecond
    by_cases adjacent : first = second - 1
    · subst adjacent
      cases isNext.symm.trans isFirst
      exact stops
    · exact orders.negTrans _ _ _
        (before first (second - 1) _ _ (by omega) (by omega) isFirst isNext) stops
  · by_cases atFirst : first = place
    · subst atFirst
      rw [cameFrom, if_pos rfl] at isFirst
      rw [cameFrom, if_neg atSecond, if_pos (by omega)] at isSecond
      exact orders.asymm _ _
        (round.moved (second - 1) (by omega) (by omega) _ _ isSecond isFirst)
    · refine before _ _ _ _ ?_ ?_ isFirst isSecond <;>
        simp only [cameFrom, if_neg atFirst, if_neg atSecond] <;> split_ifs <;> omega

end Round

theorem defragmentLoop_eq (trivial : Bool) {rounds index : Nat}
    (isLength : index + rounds = table.items.length) (represents : table.Represents register)
    (swaps : Nat) :
    ∃ after last total,
      defragmentLoop comp maxSwaps trivial rounds index table swaps =
        some (after, last, total) ∧
      after.itemType = table.itemType ∧ after.Represents register ∧
      after.items.Perm table.items ∧
      (maxSwaps = 0 → Orders comp → OrderedBelow comp table.items index →
        OrderedBelow comp after.items table.items.length) := by
  induction rounds generalizing table index swaps with
  | zero =>
      refine ⟨table, index, swaps, rfl, rfl, represents, .refl _, fun _ _ ordered => ?_⟩
      rwa [← isLength, Nat.add_zero]
  | succ rounds ih =>
      rw [defragmentLoop]
      by_cases limit : maxSwaps = 0 ∨ swaps < maxSwaps
      · have inside : index < table.items.length := by omega
        obtain ⟨next, place, count, isRound, round⟩ : ∃ next place count,
            table.placeItem comp maxSwaps trivial index swaps = some (next, count) ∧
            (maxSwaps = 0 → Round comp 0 table next index place) ∧
              ∃ limit, Round comp limit table next index place := by
          cases trivial with
          | true =>
              obtain ⟨next, place, count, isRound, round⟩ :=
                @placeTrivial_round _ table comp register represents index inside swaps
              exact ⟨next, place, count, isRound, fun _ => round, 0, round⟩
          | false =>
              obtain ⟨next, place, count, isRound, round⟩ :=
                @placeStandard_round _ table comp maxSwaps register represents index inside
                  swaps
              exact ⟨next, place, count, isRound, fun noLimit => noLimit ▸ round, _, round⟩
        obtain ⟨withoutLimit, _, isMove⟩ := round
        have length := isMove.lengthItems
        obtain ⟨after, last, total, isLoop, type, isAfter, perm, sorted⟩ :=
          @ih next (index + 1) (by omega) (isMove.represents represents)
            count
        refine ⟨after, last, total, ?_, type.trans isMove.itemType, isAfter,
          perm.trans (isMove.perm inside), fun noLimit orders before => ?_⟩
        · rw [if_pos limit, isRound]
          exact isLoop
        · rw [← length]
          exact sorted noLimit orders ((withoutLimit noLimit).ordered orders inside before)
      · rw [if_neg limit]
        refine ⟨table, index, swaps, rfl, rfl, represents, .refl _, fun noLimit => ?_⟩
        exact absurd (.inl noLimit) limit

theorem Represents.fragmented (represents : table.Represents register) (flag : Bool) :
    ({ table with fragmented := flag } : ResourceTable T).Represents register :=
  ⟨represents.small, represents.size, represents.slots, represents.paired, represents.pairs,
    represents.indexed, represents.chain, represents.back, represents.counted⟩

/-- A defragmentation keeps what the table represents, and its items, which it puts in order
if it is not limited. -/
theorem defragment_eq (represents : table.Represents register) (comp : T → T → Bool)
    (maxSwaps : Nat) (trivial : Bool) :
    ∃ next total, table.defragment comp maxSwaps trivial = some (next, total) ∧
      next.itemType = table.itemType ∧ next.Represents register ∧
      next.items.Perm table.items ∧
      (maxSwaps = 0 → table.fragmented = true → Orders comp →
        next.items.Pairwise fun first second => comp first second = false) := by
  rw [defragment]
  by_cases isFragmented : table.fragmented = true
  · rw [if_neg (by simp [isFragmented])]
    by_cases isEmpty : table.items = []
    · have noRounds : defragmentLoop comp maxSwaps trivial (table.items.length - 1) 1 table 0 =
          some (table, 1, 0) := by
        rw [isEmpty]
        rfl
      rw [noRounds]
      refine ⟨_, _, rfl, rfl, represents.fragmented _, .refl _, fun _ _ _ => ?_⟩
      simp [isEmpty]
    · have notEmpty := List.length_pos_of_ne_nil isEmpty
      obtain ⟨after, last, total, isLoop, type, isAfter, perm, sorted⟩ :=
        @defragmentLoop_eq _ table comp maxSwaps register trivial (table.items.length - 1) 1
          (by omega) represents 0
      rw [isLoop]
      refine ⟨_, _, rfl, type, isAfter.fragmented _, perm, fun noLimit _ orders => ?_⟩
      have ordered := sorted noLimit orders
        fun first second _ _ order small => absurd small (by omega)
      rw [← perm.length_eq] at ordered
      exact orderedBelow_length_iff.mp ordered
  · rw [Bool.not_eq_true] at isFragmented
    refine ⟨table, 0, by rw [isFragmented]; rfl, rfl, represents, .refl _, ?_⟩
    intro _ fragmented
    rw [isFragmented] at fragmented
    cases fragmented

theorem defragmentLoop_trivial_eq {rounds index : Nat}
    (isLength : index + rounds = table.items.length) (represents : table.Represents register)
    (swaps others : Nat) :
    (defragmentLoop comp 0 true rounds index table swaps).map
        (fun (after, last, _) => (after, last)) =
      (defragmentLoop comp 0 false rounds index table others).map
        fun (after, last, _) => (after, last) := by
  induction rounds generalizing table index swaps others with
  | zero => rfl
  | succ rounds ih =>
      have inside : index < table.items.length := by omega
      obtain ⟨next, place, total, isStandard, round⟩ :=
        @placeStandard_round _ table comp 0 register represents index inside others
      have isTrivial := @placeTrivial_eq _ table comp index inside (represents.paired ▸ inside)
        swaps others
      rw [isStandard] at isTrivial
      obtain ⟨⟨other, count⟩, isOther, rfl⟩ := Option.map_eq_some_iff.mp isTrivial
      have length : other.items.length = table.items.length := round.lengthItems
      have rest := @ih other (index + 1) (by omega)
        (round.represents represents) count total
      rw [defragmentLoop, defragmentLoop, if_pos (.inl rfl), if_pos (.inl rfl), placeItem,
        placeItem, if_pos rfl, if_neg Bool.false_ne_true, isOther, isStandard]
      exact rest

/-- Without a limit the implementation for trivially copyable items leaves the same table
behind as the standard one. -/
theorem defragment_trivial_eq (represents : table.Represents register) :
    (table.defragment comp 0 true).map Prod.fst =
      (table.defragment comp 0 false).map Prod.fst := by
  rw [defragment, defragment]
  by_cases isFragmented : (!table.fragmented) = true
  · rw [if_pos isFragmented, if_pos isFragmented]
  rw [if_neg isFragmented, if_neg isFragmented]
  by_cases isEmpty : table.items = []
  · rw [isEmpty]
    rfl
  · have notEmpty := List.length_pos_of_ne_nil isEmpty
    have same := @defragmentLoop_trivial_eq _ table comp register (table.items.length - 1) 1
      (by omega) represents 0 0
    generalize defragmentLoop comp 0 true _ 1 table 0 = first,
      defragmentLoop comp 0 false _ 1 table 0 = second at same ⊢
    cases first with
    | none =>
        cases second with
        | none => rfl
        | some result => cases same
    | some result =>
        cases second with
        | none => cases same
        | some other =>
            obtain ⟨next, last, total⟩ := result
            obtain ⟨otherNext, otherLast, count⟩ := other
            simp only [Option.map_some, Option.some.injEq, Prod.mk.injEq] at same
            obtain ⟨rfl, rfl⟩ := same
            rfl

end ResourceTable

end Nova

end Blocxxi
