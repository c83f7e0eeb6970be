import Mathlib.Data.List.Sort

/-!
# Sorting items by their keys

Items with distinct keys have one sorted arrangement, whatever arrangement the
sorting starts from.
-/

namespace KeySort

/-- Under an order that tells all items apart, two arrangements are sorted alike. -/
theorem insertionSort_eq_of_perm {Item : Type*} {before : Item → Item → Prop}
    [DecidableRel before] [Std.Total before] [IsTrans Item before]
    [Std.Antisymm before] {items others : List Item} (arranged : others.Perm items) :
    others.insertionSort before = items.insertionSort before := by
  have sortedPerm : (others.insertionSort before).Perm (items.insertionSort before) :=
    (List.perm_insertionSort _ others).trans
      (arranged.trans (List.perm_insertionSort _ items).symm)
  apply List.Perm.eq_of_pairwise _ (List.pairwise_insertionSort before others)
    (List.pairwise_insertionSort before items) sortedPerm
  intro first second _ _ ahead behind
  exact Std.Antisymm.antisymm first second ahead behind

variable {Item Other Key : Type*} [LE Key] [DecidableLE Key]

/-- Sort items by their keys. -/
def sortByKey (key : Item → Key) (items : List Item) : List Item :=
  items.insertionSort fun first second => key first ≤ key second

/-- The items stand in the order of their keys. -/
def Ascending (key : Item → Key) (items : List Item) : Prop :=
  items.Pairwise fun first second => key first ≤ key second

/-- Sorting by keys and renaming the items commute. -/
theorem map_sortByKey {key : Item → Key} {otherKey : Other → Key}
    {rename : Item → Other} (sameKey : ∀ item, otherKey (rename item) = key item)
    (items : List Item) :
    (sortByKey key items).map rename = sortByKey otherKey (items.map rename) := by
  apply List.map_insertionSort
  intro first _ second _
  rw [sameKey, sameKey]

variable [Std.Total (α := Key) (· ≤ ·)] [IsTrans Key (· ≤ ·)]

theorem ascending_sortByKey (key : Item → Key) (items : List Item) :
    Ascending key (sortByKey key items) := by
  have total : Std.Total fun first second : Item => key first ≤ key second :=
    ⟨fun first second => Std.Total.total (key first) (key second)⟩
  have transitive :
      IsTrans Item fun first second : Item => key first ≤ key second :=
    ⟨fun first second third before after =>
      IsTrans.trans (r := (· ≤ ·)) (key first) (key second) (key third)
        before after⟩
  exact List.pairwise_insertionSort _ items

/-- Sorting leaves the items alone exactly when their keys already ascend. -/
theorem sortByKey_eq_self_iff (key : Item → Key) (items : List Item) :
    sortByKey key items = items ↔ Ascending key items := by
  constructor
  · intro unchanged
    rw [← unchanged]
    exact ascending_sortByKey key items
  · intro ascending
    exact List.Pairwise.insertionSort_eq ascending

variable [Std.Antisymm (α := Key) (· ≤ ·)]

/-- Two arrangements of items with distinct keys are sorted alike. -/
theorem sortByKey_eq_of_perm {key : Item → Key} {items others : List Item}
    (distinct : (items.map key).Nodup) (arranged : others.Perm items) :
    sortByKey key others = sortByKey key items := by
  have sortedPerm : (sortByKey key others).Perm (sortByKey key items) :=
    (List.perm_insertionSort _ others).trans
      (arranged.trans (List.perm_insertionSort _ items).symm)
  apply List.Perm.eq_of_pairwise _ (ascending_sortByKey key others)
    (ascending_sortByKey key items) sortedPerm
  intro first second firstMem secondMem before after
  have firstItem : first ∈ items :=
    arranged.mem_iff.mp ((List.mem_insertionSort _).mp firstMem)
  have secondItem : second ∈ items := (List.mem_insertionSort _).mp secondMem
  exact List.inj_on_of_nodup_map distinct firstItem secondItem
    (Std.Antisymm.antisymm _ _ before after)

end KeySort
