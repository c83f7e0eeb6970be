import Mathlib.Data.List.Nodup

/-!
# Append-only logs linked by keys

An entry of a linked log names the entry it extends by that entry's key; the
first entry names a fixed root.  Appending is the only way such a log grows,
so every fact about it is proved from what one appended entry satisfies.
-/

/-- How an entry is named and which name it extends. -/
structure LinkScheme (Entry Key : Type*) where
  key : Entry → Key
  parent : Entry → Key
  root : Key

namespace LinkScheme

variable {Entry Key : Type*} (scheme : LinkScheme Entry Key)

/-- The key that the next entry has to extend. -/
def tip (log : List Entry) : Key :=
  (log.getLast?.map scheme.key).getD scheme.root

@[simp]
theorem tip_nil : scheme.tip [] = scheme.root :=
  rfl

@[simp]
theorem tip_append_singleton (log : List Entry) (entry : Entry) :
    scheme.tip (log ++ [entry]) = scheme.key entry := by
  simp [tip]

/-- Every entry extends the entries in front of it. -/
def Linked (log : List Entry) : Prop :=
  ∀ (index : Nat) (within : index < log.length),
    scheme.parent log[index] = scheme.tip (log.take index)

/-- The entries carry the numbers that `numbering` gives to their positions. -/
def Numbered {Number : Type*} (number : Entry → Number)
    (numbering : Nat → Number) (log : List Entry) : Prop :=
  ∀ (index : Nat) (within : index < log.length),
    number log[index] = numbering index

variable {scheme}

theorem linked_nil : scheme.Linked [] :=
  fun index within => absurd within (Nat.not_lt_zero index)

theorem Linked.append_singleton {log : List Entry} (linked : scheme.Linked log)
    {entry : Entry} (extends_ : scheme.parent entry = scheme.tip log) :
    scheme.Linked (log ++ [entry]) := by
  intro index within
  rcases Nat.lt_or_ge index log.length with inside | outside
  · rw [List.getElem_append_left inside, linked index inside,
      List.take_append_of_le_length (Nat.le_of_lt inside)]
  · have atEnd : index = log.length := by
      simp only [List.length_append, List.length_singleton] at within
      omega
    subst atEnd
    simpa using extends_

/-- The first entry of a linked log extends the root. -/
theorem Linked.parent_first {log : List Entry} (linked : scheme.Linked log)
    (nonempty : 0 < log.length) : scheme.parent log[0] = scheme.root := by
  simpa using linked 0 nonempty

/-- Every later entry extends the key of the entry just in front of it. -/
theorem Linked.parent_succ {log : List Entry} (linked : scheme.Linked log)
    {index : Nat} (within : index + 1 < log.length) :
    scheme.parent log[index + 1] = scheme.key log[index] := by
  have front : log.take (index + 1) = log.take index ++ [log[index]] := by
    rw [List.take_succ_eq_append_getElem]
  rw [linked (index + 1) within, front, tip_append_singleton]

theorem numbered_nil {Number : Type*} {number : Entry → Number}
    {numbering : Nat → Number} : Numbered number numbering [] :=
  fun index within => absurd within (Nat.not_lt_zero index)

theorem Numbered.append_singleton {Number : Type*} {number : Entry → Number}
    {numbering : Nat → Number} {log : List Entry}
    (numbered : Numbered number numbering log) {entry : Entry}
    (next : number entry = numbering log.length) :
    Numbered number numbering (log ++ [entry]) := by
  intro index within
  rcases Nat.lt_or_ge index log.length with inside | outside
  · rw [List.getElem_append_left inside, numbered index inside]
  · have atEnd : index = log.length := by
      simp only [List.length_append, List.length_singleton] at within
      omega
    subst atEnd
    simpa using next

/-- Distinct keys stay distinct when an entry with a new key is appended. -/
theorem nodup_map_append_singleton {Number : Type*} {number : Entry → Number}
    {log : List Entry} (distinct : (log.map number).Nodup) {entry : Entry}
    (fresh : number entry ∉ log.map number) :
    ((log ++ [entry]).map number).Nodup := by
  rw [List.map_append, List.map_singleton]
  apply List.Nodup.append distinct (List.nodup_singleton _)
  simpa using fresh

end LinkScheme
