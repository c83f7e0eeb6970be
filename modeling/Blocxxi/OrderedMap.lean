import Mathlib.Data.List.Nodup
import Mathlib.Data.List.Pairwise

/-!
# Maps ordered by their keys

An ordered map lists its entries in the order of their keys, as a `std::map`
does.  The order is part of the map, so no key has two entries.
-/

variable {Key Value : Type*}

structure OrderedMap (Key Value : Type*) [LT Key] where
  entries : List (Key × Value)
  ascend : entries.Pairwise fun first second => first.1 < second.1

namespace OrderedMap

variable [LT Key]

def empty : OrderedMap Key Value where
  entries := []
  ascend := List.Pairwise.nil

instance : Inhabited (OrderedMap Key Value) := ⟨empty⟩

variable [DecidableEq Key]

def lookup (key : Key) (map : OrderedMap Key Value) : Option Value :=
  map.entries.lookup key

variable [DecidableLT Key]

/-- Change the value of a key, which may have none yet. -/
def alterEntries (key : Key) (change : Option Value → Value) :
    List (Key × Value) → List (Key × Value)
  | [] => [(key, change none)]
  | (other, stored) :: rest =>
      if key = other then (key, change (some stored)) :: rest
      else if key < other then (key, change none) :: (other, stored) :: rest
      else (other, stored) :: alterEntries key change rest

/-- Every key of the changed entries is the changed one or an old one. -/
theorem mem_keys_alterEntries {key : Key} {change : Option Value → Value}
    {entries : List (Key × Value)} {entry : Key × Value}
    (member : entry ∈ alterEntries key change entries) :
    entry.1 = key ∨ entry ∈ entries := by
  induction entries with
  | nil =>
      rw [alterEntries, List.mem_singleton] at member
      exact Or.inl (congrArg Prod.fst member)
  | cons first rest ih =>
      rw [alterEntries] at member
      split at member
      · rcases List.mem_cons.mp member with rfl | inRest
        · exact Or.inl rfl
        · exact Or.inr (List.mem_cons_of_mem _ inRest)
      split at member
      · rcases List.mem_cons.mp member with rfl | old
        · exact Or.inl rfl
        · exact Or.inr old
      · rcases List.mem_cons.mp member with rfl | inRest
        · exact Or.inr List.mem_cons_self
        · exact (ih inRest).imp_right (List.mem_cons_of_mem _)

theorem length_le_alterEntries (key : Key)
    (change : Option Value → Value) (entries : List (Key × Value)) :
    entries.length ≤ (alterEntries key change entries).length := by
  induction entries with
  | nil => exact Nat.zero_le _
  | cons first rest ih =>
      rw [alterEntries]
      split
      · exact Nat.le_refl _
      split
      · exact Nat.le_succ _
      · exact Nat.succ_le_succ ih

omit [DecidableEq Key] [DecidableLT Key] in
theorem keys_nodup [Std.Irrefl (α := Key) (· < ·)]
    {entries : List (Key × Value)}
    (ascend : entries.Pairwise fun first second => first.1 < second.1) :
    (entries.map Prod.fst).Nodup := by
  rw [List.Nodup, List.pairwise_map]
  apply ascend.imp
  intro first second before same
  rw [same] at before
  exact Std.Irrefl.irrefl (r := (· < ·)) _ before

section Changes

variable [IsTrans Key (· < ·)] [Std.Trichotomous (α := Key) (· < ·)]

theorem alterEntries_ascend {key : Key} {change : Option Value → Value}
    {entries : List (Key × Value)}
    (ascend : entries.Pairwise fun first second => first.1 < second.1) :
    (alterEntries key change entries).Pairwise fun first second =>
      first.1 < second.1 := by
  induction entries with
  | nil => exact List.pairwise_singleton _ _
  | cons first rest ih =>
      obtain ⟨firstLeast, restAscend⟩ := List.pairwise_cons.mp ascend
      rw [alterEntries]
      split
      · rename_i same
        refine List.pairwise_cons.mpr ⟨?_, restAscend⟩
        intro entry member
        rw [same]
        exact firstLeast entry member
      rename_i differs
      split
      · rename_i before
        refine List.pairwise_cons.mpr ⟨?_, ascend⟩
        intro entry member
        rcases List.mem_cons.mp member with rfl | inRest
        · exact before
        · exact IsTrans.trans (r := (· < ·)) _ _ _ before (firstLeast entry inRest)
      · rename_i notBefore
        refine List.pairwise_cons.mpr ⟨?_, ih restAscend⟩
        intro entry member
        rcases mem_keys_alterEntries member with isKey | inRest
        · rw [isKey]
          by_contra notBehind
          exact differs (Std.Trichotomous.trichotomous (r := (· < ·)) key first.1
            notBefore notBehind)
        · exact firstLeast entry inRest

/-- Change the value of a key, as an assignment through `operator[]` does. -/
def alter (key : Key) (change : Option Value → Value)
    (map : OrderedMap Key Value) : OrderedMap Key Value where
  entries := alterEntries key change map.entries
  ascend := alterEntries_ascend map.ascend

end Changes

omit [LT Key] [DecidableLT Key] in
theorem lookup_cons_entry (key : Key) (first : Key × Value)
    (rest : List (Key × Value)) :
    (first :: rest).lookup key =
      if key = first.1 then some first.2 else rest.lookup key := by
  rw [List.lookup_cons]
  by_cases same : key = first.1
  · rw [same, beq_self_eq_true, if_pos rfl]
  · rw [beq_eq_false_iff_ne.mpr same, if_neg same]

omit [LT Key] [DecidableLT Key] in
theorem lookup_entries_of_mem {entries : List (Key × Value)} {key : Key}
    {value : Value} (distinct : (entries.map Prod.fst).Nodup)
    (member : (key, value) ∈ entries) : entries.lookup key = some value := by
  induction entries with
  | nil => cases member
  | cons first rest ih =>
      rw [List.map_cons, List.nodup_cons] at distinct
      rw [lookup_cons_entry]
      rcases List.mem_cons.mp member with rfl | inRest
      · rw [if_pos rfl]
      · have differs : key ≠ first.1 := by
          rintro rfl
          exact distinct.1 (List.mem_map.mpr ⟨_, inRest, rfl⟩)
        rw [if_neg differs]
        exact ih distinct.2 inRest

omit [DecidableLT Key] in
theorem mem_iff_lookup [Std.Irrefl (α := Key) (· < ·)]
    {map : OrderedMap Key Value} {key : Key} {value : Value} :
    (key, value) ∈ map.entries ↔ map.lookup key = some value := by
  constructor
  · exact lookup_entries_of_mem (keys_nodup map.ascend)
  · intro found
    obtain ⟨before, after, isEntries, -⟩ := List.lookup_eq_some_iff.mp found
    rw [isEntries]
    exact List.mem_append_right before List.mem_cons_self

theorem lookup_alterEntries [IsTrans Key (· < ·)] [Std.Irrefl (α := Key) (· < ·)]
    {entries : List (Key × Value)}
    (ascend : entries.Pairwise fun first second => first.1 < second.1)
    (key other : Key) (change : Option Value → Value) :
    (alterEntries key change entries).lookup other =
      if other = key then some (change (entries.lookup key))
      else entries.lookup other := by
  induction entries with
  | nil => rw [alterEntries, lookup_cons_entry, List.lookup_nil, List.lookup_nil]
  | cons first rest ih =>
      obtain ⟨firstLeast, restAscend⟩ := List.pairwise_cons.mp ascend
      rw [alterEntries, lookup_cons_entry key, lookup_cons_entry other]
      split
      · rename_i isFirst
        rw [lookup_cons_entry]
        by_cases same : other = key
        · rw [if_pos same, if_pos same]
        · rw [if_neg same, if_neg same, if_neg fun isOther =>
            same (isOther.trans isFirst.symm)]
      rename_i differs
      split
      · rename_i before
        have absent : rest.lookup key = none := by
          rw [List.lookup_eq_none_iff]
          intro entry member
          rw [bne_iff_ne]
          rintro rfl
          exact Std.Irrefl.irrefl (r := (· < ·)) entry.1
            (IsTrans.trans (r := (· < ·)) _ _ _ before (firstLeast entry member))
        rw [lookup_cons_entry, lookup_cons_entry, absent]
      · rw [lookup_cons_entry, ih restAscend]
        by_cases same : other = key
        · rw [if_pos same, if_pos same, if_neg fun isFirst =>
            differs (same.symm.trans isFirst)]
        · rw [if_neg same, if_neg same]

variable [IsTrans Key (· < ·)] [Std.Irrefl (α := Key) (· < ·)]
  [Std.Trichotomous (α := Key) (· < ·)]

omit [Std.Trichotomous (α := Key) (· < ·)] in
theorem alterEntries_eq_self {entries : List (Key × Value)}
    (ascend : entries.Pairwise fun first second => first.1 < second.1) {key : Key}
    {value : Value} {change : Option Value → Value}
    (found : entries.lookup key = some value) (same : change (some value) = value) :
    alterEntries key change entries = entries := by
  induction entries with
  | nil => cases found
  | cons first rest ih =>
      obtain ⟨firstLeast, restAscend⟩ := List.pairwise_cons.mp ascend
      rw [lookup_cons_entry] at found
      rw [alterEntries]
      split
      · rename_i isFirst
        rw [if_pos isFirst] at found
        cases found
        rw [same, isFirst]
      rename_i differs
      rw [if_neg differs] at found
      split
      · rename_i before
        -- The key is in front of all entries, so it is not among them.
        obtain ⟨front, behind, isRest, -⟩ := List.lookup_eq_some_iff.mp found
        have member : (key, value) ∈ rest := by
          rw [isRest]
          exact List.mem_append_right front List.mem_cons_self
        have cycle := IsTrans.trans (r := (· < ·)) _ _ _ before
          (firstLeast _ member)
        exact (Std.Irrefl.irrefl (r := (· < ·)) _ cycle).elim
      · rw [ih restAscend found]

/-- A change that keeps the value of a key keeps the map. -/
theorem alter_eq_self {map : OrderedMap Key Value} {key : Key} {value : Value}
    {change : Option Value → Value} (found : map.lookup key = some value)
    (same : change (some value) = value) : map.alter key change = map := by
  obtain ⟨entries, ascend⟩ := map
  have unchanged := alterEntries_eq_self ascend found same
  simp only [alter, unchanged]

theorem lookup_alter (map : OrderedMap Key Value) (key other : Key)
    (change : Option Value → Value) :
    (map.alter key change).lookup other =
      if other = key then some (change (map.lookup key)) else map.lookup other :=
  lookup_alterEntries map.ascend key other change

end OrderedMap
