import Mathlib.Data.List.Induction
import Mathlib.Data.List.Nodup

/-!
# Merging items by key

An item is merged into a list by replacing the first item with the same key, or
by appending it when there is none.  After any number of merges the list holds,
for each key, the last item offered with that key, at the place of the first.
-/

namespace MergeByKey

variable {Item Key : Type*} [DecidableEq Key] (key : Item → Key)

/-- Replace the first item with the same key, or append the item. -/
def merge (item : Item) : List Item → List Item
  | [] => [item]
  | first :: rest =>
      if key first = key item then item :: rest else first :: merge item rest

def mergeAll (items offered : List Item) : List Item :=
  offered.foldl (fun merged item => merge key item merged) items

omit [DecidableEq Key] in
/-- The item is offered, and no later item has its key. -/
def LastOfKey (offered : List Item) (item : Item) : Prop :=
  ∃ before after, offered = before ++ item :: after ∧
    ∀ other ∈ after, key other ≠ key item

variable {key}

omit [DecidableEq Key] in
theorem mem_of_lastOfKey {offered : List Item} {item : Item}
    (last : LastOfKey key offered item) : item ∈ offered := by
  obtain ⟨before, after, rfl, -⟩ := last
  exact List.mem_append_right _ List.mem_cons_self

theorem map_merge_of_mem {item : Item} {items : List Item}
    (present : key item ∈ items.map key) :
    (merge key item items).map key = items.map key := by
  induction items with
  | nil => cases present
  | cons first rest ih =>
      unfold merge
      split
      · rename_i same
        rw [List.map_cons, List.map_cons, same]
      · rename_i differs
        rcases List.mem_cons.mp present with same | inRest
        · exact (differs same.symm).elim
        · rw [List.map_cons, List.map_cons, ih inRest]

theorem merge_of_notMem {item : Item} {items : List Item}
    (fresh : key item ∉ items.map key) :
    merge key item items = items ++ [item] := by
  induction items with
  | nil => rfl
  | cons first rest ih =>
      rw [List.map_cons, List.mem_cons, not_or] at fresh
      rw [merge, if_neg (Ne.symm fresh.1), ih fresh.2, List.cons_append]

theorem nodup_merge {items : List Item} (distinct : (items.map key).Nodup)
    (item : Item) : ((merge key item items).map key).Nodup := by
  by_cases present : key item ∈ items.map key
  · rwa [map_merge_of_mem present]
  · rw [merge_of_notMem present, List.map_append, List.nodup_append]
    refine ⟨distinct, List.nodup_singleton _, ?_⟩
    intro first firstMember second secondMember same
    rw [List.map_singleton, List.mem_singleton] at secondMember
    rw [same, secondMember] at firstMember
    exact present firstMember

/-- One merge adds the item and drops the item with the same key. -/
theorem mem_merge {item other : Item} {items : List Item}
    (distinct : (items.map key).Nodup) :
    other ∈ merge key item items ↔
      other = item ∨ other ∈ items ∧ key other ≠ key item := by
  induction items with
  | nil => simp [merge]
  | cons first rest ih =>
      rw [List.map_cons, List.nodup_cons] at distinct
      unfold merge
      split
      · rename_i same
        have absent : ∀ otherItem ∈ rest, key otherItem ≠ key item := by
          intro otherItem member sameKey
          apply distinct.1
          rw [same, ← sameKey]
          exact List.mem_map_of_mem member
        constructor
        · intro member
          rcases List.mem_cons.mp member with rfl | inRest
          · exact Or.inl rfl
          · exact Or.inr ⟨List.mem_cons_of_mem _ inRest, absent other inRest⟩
        · rintro (rfl | ⟨member, differs⟩)
          · exact List.mem_cons_self
          · rcases List.mem_cons.mp member with rfl | inRest
            · exact (differs same).elim
            · exact List.mem_cons_of_mem _ inRest
      · rename_i differs
        rw [List.mem_cons, ih distinct.2, List.mem_cons]
        constructor
        · rintro (rfl | rfl | ⟨inRest, otherDiffers⟩)
          · exact Or.inr ⟨Or.inl rfl, differs⟩
          · exact Or.inl rfl
          · exact Or.inr ⟨Or.inr inRest, otherDiffers⟩
        · rintro (rfl | ⟨rfl | inRest, otherDiffers⟩)
          · exact Or.inr (Or.inl rfl)
          · exact Or.inl rfl
          · exact Or.inr (Or.inr ⟨inRest, otherDiffers⟩)

theorem mergeAll_append (items offered more : List Item) :
    mergeAll key items (offered ++ more) =
      mergeAll key (mergeAll key items offered) more :=
  List.foldl_append

/-- Items with distinct keys are merged to themselves. -/
theorem mergeAll_self {items : List Item} (distinct : (items.map key).Nodup) :
    mergeAll key [] items = items := by
  induction items using List.reverseRecOn with
  | nil => rfl
  | append_singleton items item ih =>
      rw [List.map_append, List.nodup_append] at distinct
      obtain ⟨before, -, apart⟩ := distinct
      rw [mergeAll_append, ih before]
      apply merge_of_notMem
      intro present
      exact apart _ present _ (List.mem_singleton_self _) rfl

/-- The keys of the merged items are the offered keys in the order of their
first appearance. -/
theorem map_mergeAll (offered : List Item) :
    (mergeAll key [] offered).map key = (offered.map key).eraseDups := by
  induction offered using List.reverseRecOn with
  | nil => rfl
  | append_singleton offered item ih =>
      have sameKeys : key item ∈ (mergeAll key [] offered).map key ↔
          key item ∈ offered.map key := by
        rw [ih, List.mem_eraseDups]
      rw [mergeAll_append, List.map_append, List.map_singleton,
        List.eraseDups_append, List.cons_removeAll, List.nil_removeAll,
        List.contains_eq_mem]
      change (merge key item (mergeAll key [] offered)).map key = _
      by_cases present : key item ∈ offered.map key
      · rw [map_merge_of_mem (sameKeys.mpr present), ih]
        simp [present]
      · rw [merge_of_notMem (fun member => present (sameKeys.mp member)),
          List.map_append, ih]
        simp only [present, decide_false]
        rfl

theorem nodup_mergeAll (offered : List Item) :
    ((mergeAll key [] offered).map key).Nodup := by
  induction offered using List.reverseRecOn with
  | nil => exact List.nodup_nil
  | append_singleton offered item ih =>
      rw [mergeAll_append]
      exact nodup_merge ih item

/-- The merged items are the last of their keys. -/
theorem mem_mergeAll {offered : List Item} {item : Item} :
    item ∈ mergeAll key [] offered ↔ LastOfKey key offered item := by
  induction offered using List.reverseRecOn with
  | nil => simp [mergeAll, LastOfKey]
  | append_singleton offered last ih =>
      rw [mergeAll_append]
      change item ∈ merge key last (mergeAll key [] offered) ↔ _
      rw [mem_merge (nodup_mergeAll offered), ih]
      constructor
      · rintro (rfl | ⟨⟨before, after, rfl, alone⟩, differs⟩)
        · exact ⟨offered, [], rfl, fun _ member => by cases member⟩
        · refine ⟨before, after ++ [last], by simp, ?_⟩
          intro other member
          rcases List.mem_append.mp member with inAfter | isLast
          · exact alone other inAfter
          · rw [List.mem_singleton.mp isLast]
            exact differs.symm
      · rintro ⟨before, after, whole, alone⟩
        rcases List.eq_nil_or_concat after with rfl | ⟨front, final, rfl⟩
        · left
          exact (List.append_inj_right' whole rfl |> List.cons.inj |>.1).symm
        · right
          rw [List.concat_eq_append, ← List.cons_append, ← List.append_assoc]
            at whole
          obtain ⟨rfl, sameLast⟩ := List.append_inj' whole rfl
          obtain ⟨rfl, -⟩ := List.cons.inj sameLast
          rw [List.concat_eq_append] at alone
          refine ⟨⟨before, front, rfl, fun other member =>
            alone other (List.mem_append_left _ member)⟩, ?_⟩
          exact (alone last (by simp)).symm

omit [DecidableEq Key] in
/-- Cutting a list with distinct keys keeps the items whose keys are kept. -/
theorem mem_take_iff {items : List Item} (distinct : (items.map key).Nodup)
    {limit : Nat} {item : Item} :
    item ∈ items.take limit ↔
      item ∈ items ∧ key item ∈ (items.map key).take limit := by
  rw [← List.map_take]
  constructor
  · exact fun member => ⟨List.mem_of_mem_take member, List.mem_map_of_mem member⟩
  · rintro ⟨member, keyMember⟩
    obtain ⟨other, otherMember, sameKey⟩ := List.mem_map.mp keyMember
    rwa [← List.inj_on_of_nodup_map distinct
      (List.mem_of_mem_take otherMember) member sameKey]

/-- The merged items that a limit leaves over: the last of their keys, for the
first keys that appear. -/
theorem mem_take_mergeAll {offered : List Item} {limit : Nat} {item : Item} :
    item ∈ (mergeAll key [] offered).take limit ↔
      LastOfKey key offered item ∧
        key item ∈ (offered.map key).eraseDups.take limit := by
  rw [mem_take_iff (nodup_mergeAll offered), mem_mergeAll, map_mergeAll]

end MergeByKey
