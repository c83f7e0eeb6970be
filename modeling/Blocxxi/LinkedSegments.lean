import Mathlib.Data.List.Basic

/-!
# Chains of links

Cells are linked to a chain if each of them names the cell behind it.  A segment of a chain
leads from a link over the cells that it passes to another link.
-/

namespace LinkedSegments

variable {Link : Type*} {next other : Link → Option Link}

/-- Following the links leads from the first over the cells to the last. -/
def Segment (next : Link → Option Link) : Link → List Link → Link → Prop
  | first, [], stop => first = stop
  | first, cell :: rest, stop =>
      first = cell ∧ ∃ link, next cell = some link ∧ Segment next link rest stop

theorem segment_append {first stop : Link} {front rest : List Link} :
    Segment next first (front ++ rest) stop ↔
      ∃ middle, Segment next first front middle ∧ Segment next middle rest stop := by
  induction front generalizing first with
  | nil => simp [Segment]
  | cons cell front ih =>
      simp only [List.cons_append, Segment, ih]
      constructor
      · rintro ⟨isCell, link, isNext, middle, before, behind⟩
        exact ⟨middle, ⟨isCell, link, isNext, before⟩, behind⟩
      · rintro ⟨middle, ⟨isCell, link, isNext, before⟩, behind⟩
        exact ⟨isCell, link, isNext, middle, before, behind⟩

/-- Only the links of the cells matter. -/
theorem Segment.congr {first stop : Link} {cells : List Link}
    (segment : Segment next first cells stop)
    (same : ∀ cell ∈ cells, other cell = next cell) : Segment other first cells stop := by
  induction cells generalizing first with
  | nil => exact segment
  | cons cell cells ih =>
      obtain ⟨isCell, link, isNext, rest⟩ := segment
      obtain ⟨sameCell, sameRest⟩ := List.forall_mem_cons.mp same
      exact ⟨isCell, link, sameCell.trans isNext, ih rest sameRest⟩

/-- A cell is linked behind the last one. -/
theorem Segment.concat {first stop last new : Link} {cells : List Link}
    (segment : Segment next first (cells ++ [last]) stop)
    (same : ∀ cell ∈ cells, other cell = next cell) (isLast : other last = some new)
    (isNew : other new = some stop) : Segment other first (cells ++ [last, new]) stop := by
  obtain ⟨middle, before, rfl, -⟩ := segment_append.mp segment
  exact segment_append.mpr ⟨middle, before.congr same, rfl, new, isLast, rfl, stop, isNew, rfl⟩

/-- Cells of which each names the one behind it are a segment. -/
theorem segment_of_forall {stop : Link} {cells : List Link}
    (linked : ∀ index cell, cells[index]? = some cell →
      next cell = some ((cells[index + 1]?).getD stop)) :
    Segment next (cells.head?.getD stop) cells stop := by
  induction cells with
  | nil => rfl
  | cons cell cells ih =>
      refine ⟨rfl, _, linked 0 cell rfl, ?_⟩
      have rest := ih fun index behind isBehind => linked (index + 1) behind isBehind
      rw [List.head?_eq_getElem?] at rest
      exact rest

end LinkedSegments
