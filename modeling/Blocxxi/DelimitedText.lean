import Mathlib.Data.List.Basic

/-!
# Text cut by labels and separators

A text made of parts determines its parts when no part contains the label
that follows it.  A label begins with a symbol that does not occur in it again,
so two of its occurrences never overlap.
-/

namespace DelimitedText

variable {Symbol : Type*}

/-- A label that begins with a symbol it does not contain again. -/
structure Label (Symbol : Type*) where
  mark : Symbol
  rest : List Symbol
  unmarked : mark ∉ rest

namespace Label

def text (label : Label Symbol) : List Symbol :=
  label.mark :: label.rest

/-- The label does not occur in the text. -/
def Absent (label : Label Symbol) (part : List Symbol) : Prop :=
  ¬ label.text <:+: part

instance [DecidableEq Symbol] (label : Label Symbol) (part : List Symbol) :
    Decidable (label.Absent part) :=
  inferInstanceAs (Decidable (¬ label.text <:+: part))

/-- A text without the label's mark does not contain the label. -/
theorem absent_of_notMem {label : Label Symbol} {part : List Symbol}
    (unmarked : label.mark ∉ part) : label.Absent part := by
  intro occurs
  exact unmarked (occurs.subset List.mem_cons_self)

/-- A part that goes on after another part's end would contain the label. -/
theorem overlap_nil {label : Label Symbol} {overlap rest otherRest : List Symbol}
    (absent : label.Absent overlap)
    (equal : overlap ++ (label.text ++ rest) = label.text ++ otherRest) :
    overlap = [] := by
  cases overlap with
  | nil => rfl
  | cons symbol overlap =>
      rw [text, List.cons_append, List.cons_append, List.cons_append] at equal
      obtain ⟨rfl, behindMark⟩ := List.cons.inj equal
      rw [← List.cons_append] at behindMark
      rcases List.append_eq_append_iff.mp behindMark with
        ⟨middle, restEq, behind⟩ | ⟨middle, overlapEq, -⟩
      · -- the label's mark would occur inside the label
        cases middle with
        | nil =>
            rw [List.append_nil] at restEq
            exact (absent ⟨[], [], by simp [text, restEq]⟩).elim
        | cons head middle =>
            have isMark : label.mark = head := (List.cons.inj behind).1
            apply (label.unmarked _).elim
            rw [restEq, isMark]
            simp
      · exact (absent ⟨[], middle, by simp [text, overlapEq]⟩).elim

/-- The part in front of a label that it does not contain, and the text behind
the label, are determined by the whole. -/
theorem append_inj {label : Label Symbol} {first second firstRest secondRest :
    List Symbol} (firstAbsent : label.Absent first)
    (secondAbsent : label.Absent second)
    (equal : first ++ (label.text ++ firstRest) =
      second ++ (label.text ++ secondRest)) :
    first = second ∧ firstRest = secondRest := by
  have sameFront : first = second := by
    rcases List.append_eq_append_iff.mp equal with
      ⟨overlap, rfl, behind⟩ | ⟨overlap, rfl, behind⟩
    · have absent : label.Absent overlap := fun occurs =>
        secondAbsent (occurs.trans (List.suffix_append _ _).isInfix)
      rw [overlap_nil absent behind.symm, List.append_nil]
    · have absent : label.Absent overlap := fun occurs =>
        firstAbsent (occurs.trans (List.suffix_append _ _).isInfix)
      rw [overlap_nil absent behind.symm, List.append_nil]
  subst sameFront
  exact ⟨rfl, List.append_cancel_left (List.append_cancel_left equal)⟩

end Label

/-- The text in front of the first mark and the text behind it are determined
by the whole. -/
theorem append_first_inj {mark : Symbol} {first second firstRest secondRest :
    List Symbol} (firstUnmarked : mark ∉ first) (secondUnmarked : mark ∉ second)
    (equal : first ++ mark :: firstRest = second ++ mark :: secondRest) :
    first = second ∧ firstRest = secondRest := by
  let label : Label Symbol := ⟨mark, [], List.not_mem_nil⟩
  exact label.append_inj (Label.absent_of_notMem firstUnmarked)
    (Label.absent_of_notMem secondUnmarked) equal

/-- The text in front of the last mark and the text behind it are determined by
the whole. -/
theorem append_last_inj {mark : Symbol} {first second last otherLast : List Symbol}
    (lastUnmarked : mark ∉ last) (otherUnmarked : mark ∉ otherLast)
    (equal : first ++ mark :: last = second ++ mark :: otherLast) :
    first = second ∧ last = otherLast := by
  have reversed := congrArg List.reverse equal
  simp only [List.reverse_append, List.reverse_cons, List.append_assoc,
    List.singleton_append] at reversed
  have parts := append_first_inj (fun member => lastUnmarked (by simpa using member))
    (fun member => otherUnmarked (by simpa using member)) reversed
  exact ⟨List.reverse_injective parts.2, List.reverse_injective parts.1⟩

/-- Items with a separator between them. -/
def joined (separator : Symbol) : List (List Symbol) → List Symbol
  | [] => []
  | first :: rest => first ++ rest.flatMap (separator :: ·)

theorem joined_cons_cons (separator : Symbol) (first second : List Symbol)
    (rest : List (List Symbol)) :
    joined separator (first :: second :: rest) =
      first ++ separator :: joined separator (second :: rest) := by
  simp [joined]

/-- A symbol of a joined text is the separator or a symbol of an item. -/
theorem mem_joined {separator symbol : Symbol} {items : List (List Symbol)}
    (member : symbol ∈ joined separator items) :
    symbol = separator ∨ ∃ item ∈ items, symbol ∈ item := by
  cases items with
  | nil => cases member
  | cons first rest =>
      rcases List.mem_append.mp member with inFirst | inRest
      · exact Or.inr ⟨first, List.mem_cons_self, inFirst⟩
      · obtain ⟨item, itemMem, behind⟩ := List.mem_flatMap.mp inRest
        rcases List.mem_cons.mp behind with isSeparator | inItem
        · exact Or.inl isSeparator
        · exact Or.inr ⟨item, List.mem_cons_of_mem first itemMem, inItem⟩

/-- A text without the separator is the join of no two items. -/
theorem joined_cons_cons_ne {separator : Symbol} {text first second : List Symbol}
    {rest : List (List Symbol)} (plain : separator ∉ text) :
    text ≠ joined separator (first :: second :: rest) := by
  rintro rfl
  rw [joined_cons_cons] at plain
  simp at plain

/-- A non-empty list of items without the separator is determined by the joined
text. -/
theorem joined_inj_of_ne_nil {separator : Symbol}
    {items others : List (List Symbol)} (itemsNonempty : items ≠ [])
    (othersNonempty : others ≠ [])
    (itemsPlain : ∀ item ∈ items, separator ∉ item)
    (othersPlain : ∀ item ∈ others, separator ∉ item)
    (equal : joined separator items = joined separator others) :
    items = others := by
  induction items generalizing others with
  | nil => contradiction
  | cons first rest ih =>
      obtain ⟨other, otherRest, rfl⟩ := List.exists_cons_of_ne_nil othersNonempty
      have firstPlain := itemsPlain first List.mem_cons_self
      have otherPlain := othersPlain other List.mem_cons_self
      cases rest with
      | nil =>
          cases otherRest with
          | nil => simpa [joined] using equal
          | cons second otherRest =>
              have single : joined separator [first] = first := by simp [joined]
              exact (joined_cons_cons_ne firstPlain (single ▸ equal)).elim
      | cons second rest =>
          cases otherRest with
          | nil =>
              have single : joined separator [other] = other := by simp [joined]
              exact (joined_cons_cons_ne otherPlain (single ▸ equal.symm)).elim
          | cons otherSecond otherRest =>
              rw [joined_cons_cons, joined_cons_cons] at equal
              obtain ⟨sameFirst, sameRest⟩ :=
                append_first_inj firstPlain otherPlain equal
              have sameItems := ih (List.cons_ne_nil _ _) (List.cons_ne_nil _ _)
                (fun item member => itemsPlain item (List.mem_cons_of_mem _ member))
                (fun item member => othersPlain item (List.mem_cons_of_mem _ member))
                sameRest
              rw [sameFirst, sameItems]

/-- Only no items at all and one empty item are joined to the empty text. -/
theorem eq_nil_of_joined_eq_nil {separator : Symbol} {items : List (List Symbol)}
    (notBlank : items ≠ [[]]) (empty : joined separator items = []) :
    items = [] := by
  rcases items with _ | ⟨first, _ | ⟨second, rest⟩⟩
  · rfl
  · have blank : first = [] := by simpa [joined] using empty
    exact (notBlank (by rw [blank])).elim
  · rw [joined_cons_cons] at empty
    simp at empty

/-- Items without the separator are determined by the joined text, as long as no
list consists of one empty item. -/
theorem joined_inj {separator : Symbol} {items others : List (List Symbol)}
    (itemsPlain : ∀ item ∈ items, separator ∉ item)
    (othersPlain : ∀ item ∈ others, separator ∉ item)
    (itemsNotBlank : items ≠ [[]]) (othersNotBlank : others ≠ [[]])
    (equal : joined separator items = joined separator others) :
    items = others := by
  by_cases itemsEmpty : items = []
  · subst itemsEmpty
    exact (eq_nil_of_joined_eq_nil othersNotBlank equal.symm).symm
  · by_cases othersEmpty : others = []
    · subst othersEmpty
      exact eq_nil_of_joined_eq_nil itemsNotBlank equal
    · exact joined_inj_of_ne_nil itemsEmpty othersEmpty itemsPlain othersPlain
        equal

/-- Items are determined by texts that determine each of them. -/
theorem eq_of_map_eq {Item : Type*} {text : Item → List Symbol}
    {items others : List Item}
    (determines : ∀ item ∈ items, ∀ other ∈ others,
      text item = text other → item = other)
    (equal : items.map text = others.map text) : items = others := by
  induction items generalizing others with
  | nil => exact (List.map_eq_nil_iff.mp equal.symm).symm
  | cons first rest ih =>
      obtain ⟨other, otherRest, rfl⟩ := List.exists_cons_of_ne_nil
        (fun empty : others = [] => by simp [empty] at equal)
      rw [List.map_cons, List.map_cons] at equal
      obtain ⟨sameFirst, sameRest⟩ := List.cons.inj equal
      have firstEq := determines first List.mem_cons_self other
        List.mem_cons_self sameFirst
      have restEq := ih (fun item itemMem other otherMem =>
        determines item (List.mem_cons_of_mem _ itemMem) other
          (List.mem_cons_of_mem _ otherMem)) sameRest
      rw [firstEq, restEq]

end DelimitedText
