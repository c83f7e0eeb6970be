import Mathlib.Data.List.Basic

/-!
# Parts of a list

A part stands at a position of a list when the list is some symbols in front,
as many as the position says, then the part, then a rest.  A part made of two
stands at a position when its first half does and the second stands behind it,
which is how facts about a whole input reach the readers of its pieces.
-/

namespace ListParts

variable {Symbol : Type*}

/-- The part stands in the input, from the position on. -/
def PartAt (input : List Symbol) (position : Nat) (part : List Symbol) : Prop :=
  ∃ before after, input = before ++ (part ++ after) ∧ before.length = position

theorem partAt_middle (before part after : List Symbol) :
    PartAt (before ++ part ++ after) before.length part :=
  ⟨before, after, List.append_assoc .., rfl⟩

theorem partAt_all (input : List Symbol) : PartAt input 0 input :=
  ⟨[], [], by simp, rfl⟩

theorem partAt_append {input first second : List Symbol} {position : Nat} :
    PartAt input position (first ++ second) ↔
      PartAt input position first ∧
        PartAt input (position + first.length) second := by
  constructor
  · rintro ⟨before, after, split, rfl⟩
    refine ⟨⟨before, second ++ after, ?_, rfl⟩, ⟨before ++ first, after, ?_, ?_⟩⟩
    · rw [split, List.append_assoc]
    · rw [split, List.append_assoc, List.append_assoc]
    · rw [List.length_append]
  · rintro ⟨⟨before, after, split, rfl⟩, ⟨front, rest, again, length⟩⟩
    refine ⟨before, rest, ?_, rfl⟩
    have frontEq : front = before ++ first := by
      rw [split, ← List.append_assoc] at again
      exact (List.append_inj_left again (by simp [length])).symm
    rw [again, frontEq, List.append_assoc, List.append_assoc]

theorem partAt_cons {input rest : List Symbol} {position : Nat}
    {symbol : Symbol} :
    PartAt input position (symbol :: rest) ↔
      PartAt input position [symbol] ∧ PartAt input (position + 1) rest := by
  rw [← List.singleton_append, partAt_append, List.length_singleton]

namespace PartAt

variable {input part : List Symbol} {position : Nat}

theorem inside (stands : PartAt input position part) :
    position + part.length ≤ input.length := by
  obtain ⟨before, after, rfl, rfl⟩ := stands
  simp

theorem left {first second : List Symbol}
    (stands : PartAt input position (first ++ second)) :
    PartAt input position first :=
  (partAt_append.mp stands).1

theorem right {first second : List Symbol}
    (stands : PartAt input position (first ++ second)) :
    PartAt input (position + first.length) second :=
  (partAt_append.mp stands).2

theorem drop_eq (stands : PartAt input position part) :
    ∃ after, input.drop position = part ++ after := by
  obtain ⟨before, after, rfl, rfl⟩ := stands
  exact ⟨after, List.drop_left⟩

theorem take_drop (stands : PartAt input position part) :
    (input.drop position).take part.length = part := by
  obtain ⟨after, behind⟩ := stands.drop_eq
  rw [behind, List.take_left]

theorem getElem?_eq {symbol : Symbol} {rest : List Symbol}
    (stands : PartAt input position (symbol :: rest)) :
    input[position]? = some symbol := by
  obtain ⟨before, after, rfl, rfl⟩ := stands
  simp

end PartAt

/-- What lies between two positions of the input stands at the first. -/
theorem partAt_between {input : List Symbol} {first last : Nat}
    (ordered : first ≤ last) (inside : last ≤ input.length) :
    PartAt input first ((input.drop first).take (last - first)) := by
  refine ⟨input.take first, input.drop last, ?_, ?_⟩
  · have rest : input.drop last = (input.drop first).drop (last - first) := by
      rw [List.drop_drop]
      congr
      omega
    rw [rest, List.take_append_drop, List.take_append_drop]
  · rw [List.length_take]
    omega

theorem partAt_singleton {input : List Symbol} {position : Nat}
    {symbol : Symbol} (found : input[position]? = some symbol) :
    PartAt input position [symbol] := by
  obtain ⟨inside, isSymbol⟩ := List.getElem?_eq_some_iff.mp found
  refine ⟨input.take position, input.drop (position + 1), ?_, ?_⟩
  · rw [← isSymbol, List.singleton_append, List.getElem_cons_drop,
      List.take_append_drop]
  · rw [List.length_take]
    omega

end ListParts
