import Blocxxi.CursorReader
import Blocxxi.ListParts

/-!
# Readers of spelled input

A reader reads a spelling as a result if, wherever the spelling stands in the
input, the reader on the machine passes over it and gives the result.  This is
kept by composition, where the spellings are appended, and by loops over
spelled items, so a round trip follows the shape of the format.
-/

namespace CursorReader

open Cxx Reader ListParts

variable {Symbol Item State Halt First Second Result : Type}

/-- From every cursor at the first position the reader on the machine gives the
result and leaves the cursor at the second. -/
def ReadsAt (reader : Reader Halt Result) (start stop : Nat) (result : Result) :
    Prop :=
  ∀ cursor : Cursor, cursor.offset = start →
    (reader.wrapping cursor).1 = .ok result ∧
      (reader.wrapping cursor).2.offset = stop

theorem readsAt_pure (place : Nat) (result : Result) :
    ReadsAt (pure result : Reader Halt Result) place place result :=
  fun _ isPlace => ⟨rfl, isPlace⟩

theorem readsAt_position (place : Nat) :
    ReadsAt (position : Reader Halt Nat) place place place := by
  rintro cursor rfl
  exact ⟨rfl, rfl⟩

theorem readsAt_ask {place count : Nat} (fits : place + count < 2 ^ 64) :
    ReadsAt (ask count : Reader Halt Nat) place place (place + count) := by
  rintro cursor rfl
  exact ⟨congrArg Except.ok (sizeAdd_of_lt fits), rfl⟩

theorem readsAt_step {place amount : Nat} (fits : place + amount < 2 ^ 64) :
    ReadsAt (step amount : Reader Halt Unit) place (place + amount) () := by
  rintro cursor rfl
  exact ⟨rfl, sizeAdd_of_lt fits⟩

theorem readsAt_copy {limit first last place : Nat} (stop : Halt)
    (ordered : first ≤ last) (inside : last ≤ limit) :
    ReadsAt (copy limit stop first last) place place () := by
  rintro cursor rfl
  have isRange : ¬ (last < first ∨ limit < last) := by omega
  exact ⟨if_neg isRange, rfl⟩

theorem readsAt_bind {first : Reader Halt First} {next : First → Reader Halt Second}
    {start middle stop : Nat} {found : First} {result : Second}
    (readsFirst : ReadsAt first start middle found)
    (readsNext : ReadsAt (next found) middle stop result) :
    ReadsAt (first >>= next) start stop result := by
  intro cursor isStart
  obtain ⟨isFound, isMiddle⟩ := readsFirst cursor isStart
  have continues : (first >>= next).wrapping cursor =
      (next found).wrapping (first.wrapping cursor).2 := by
    rw [wrapping, run_bind, continueWith, isFound]
  rw [continues]
  exact readsNext _ isMiddle

theorem readsAt_pass {reader : Reader Halt Result} {start stop : Nat}
    {result : Result} (reads : ReadsAt reader start stop result) :
    ReadsAt (pass reader) start stop result :=
  reads

theorem readsAt_advance {limit place count : Nat} (limitFits : limit < 2 ^ 64)
    (inside : place + count ≤ limit) :
    ReadsAt (advance limit count : Reader Halt Bool) place (place + count) true := by
  refine readsAt_bind (readsAt_ask (by omega)) ?_
  rw [if_neg (by omega)]
  exact readsAt_bind (readsAt_step (by omega)) (readsAt_pure _ true)

theorem readsAt_demand {reader : Reader Halt Bool} {start stop : Nat} (halt : Halt)
    (reads : ReadsAt reader start stop true) :
    ReadsAt (demand halt reader) start stop () :=
  readsAt_bind reads (readsAt_pure stop ())

theorem readsAt_require {reader : Reader Halt (Option Result)} {start stop : Nat}
    {result : Result} (halt : Halt)
    (reads : ReadsAt reader start stop (some result)) :
    ReadsAt (require halt reader) start stop result :=
  readsAt_bind reads (readsAt_pure stop result)

theorem readsAt_spanned {reader : Reader Halt Result} {start stop : Nat}
    {result : Result} (reads : ReadsAt reader start stop result) :
    ReadsAt (spanned reader) start stop (result, ⟨start, stop⟩) :=
  readsAt_bind (readsAt_position start) (readsAt_bind reads
    (readsAt_bind (readsAt_position stop) (readsAt_pure stop _)))

/-- Wherever the spelling stands in the input, the reader passes over it and
gives the result. -/
def Reads (input : List Symbol) (reader : Reader Halt Result)
    (spelling : List Symbol) (result : Result) : Prop :=
  ∀ start, PartAt input start spelling →
    ReadsAt reader start (start + spelling.length) result

variable {input spelling : List Symbol}

theorem reads_pure (result : Result) :
    Reads input (pure result : Reader Halt Result) [] result :=
  fun start _ => readsAt_pure start result

theorem reads_bind {first : Reader Halt First} {next : First → Reader Halt Second}
    {before after : List Symbol} {found : First} {result : Second}
    (readsFirst : Reads input first before found)
    (readsNext : Reads input (next found) after result) :
    Reads input (first >>= next) (before ++ after) result := by
  intro start stands
  obtain ⟨standsBefore, standsAfter⟩ := partAt_append.mp stands
  rw [List.length_append, ← Nat.add_assoc]
  exact readsAt_bind (readsFirst start standsBefore) (readsNext _ standsAfter)

/-- A reader followed by a result that is computed from its own. -/
theorem reads_map {reader : Reader Halt First} {found : First}
    (reads : Reads input reader spelling found) (change : First → Result) :
    Reads input (reader >>= fun found => pure (change found)) spelling
      (change found) :=
  fun start stands => readsAt_bind (reads start stands) (readsAt_pure _ _)

theorem reads_require {reader : Reader Halt (Option Result)} {result : Result}
    (halt : Halt) (reads : Reads input reader spelling (some result)) :
    Reads input (require halt reader) spelling result :=
  fun start stands => readsAt_require halt (reads start stands)

/-- A loop reads its items in turn, if its body reads each of them. -/
theorem reads_iterate {body : State → Reader Halt State}
    {spell : Item → List Symbol} (fold : State → Item → State) {items : List Item}
    (reads : ∀ item ∈ items, ∀ state,
      Reads input (body state) (spell item) (fold state item)) (state : State) :
    Reads input (iterate body items.length state) (items.flatMap spell)
      (items.foldl fold state) := by
  induction items generalizing state with
  | nil => exact reads_pure state
  | cons item items induction =>
      rw [List.flatMap_cons]
      refine reads_bind (fun start stands =>
        readsAt_pass (reads item List.mem_cons_self state start stands)) ?_
      exact induction (fun other member => reads other (List.mem_cons_of_mem _ member))
        (fold state item)

end CursorReader
