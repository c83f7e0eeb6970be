import Blocxxi.CxxRuntime
import Mathlib.Data.List.Basic

/-!
# Readers that move a cursor

A reader walks a cursor through an input of known length.  It is written once
for any addition: run with the addition of the natural numbers it is the reader
that the format means, run with an addition that wraps it is the one the
machine executes.  The cursor remembers the sums that were computed, the moves,
the ranges that were copied and the passes through loop bodies, so that what a
reader did can be stated about its whole run.

The contract `SafeAt` says what the exact run guarantees and how the wrapping
run relates to it.  It is kept by composition and by loops.
-/

namespace CursorReader

open Cxx

/-- A sum of the cursor and a count that was computed. -/
structure Request where
  position : Nat
  count : Nat
  deriving DecidableEq, Repr

/-- A change of the cursor by an amount. -/
structure Move where
  before : Nat
  amount : Nat
  after : Nat
  deriving DecidableEq, Repr

/-- A range of the input that was copied. -/
structure Copy where
  start : Nat
  stop : Nat
  deriving DecidableEq, Repr

/-- One pass through a loop body, complete or not. -/
structure Pass where
  start : Nat
  stop : Nat
  deriving DecidableEq, Repr

structure Cursor where
  offset : Nat
  requests : List Request := []
  moves : List Move := []
  copies : List Copy := []
  passes : List Pass := []
  deriving DecidableEq, Repr

/-- The move adds its amount and stays inside the input. -/
def Move.Forward (limit : Nat) (move : Move) : Prop :=
  move.after = move.before + move.amount ∧ move.after ≤ limit

/-- The range is a range of the input. -/
def Copy.Inside (limit : Nat) (copy : Copy) : Prop :=
  copy.start ≤ copy.stop ∧ copy.stop ≤ limit

/-- The number of passes that consumed at least one byte. -/
def consuming (passes : List Pass) : Nat :=
  passes.countP fun pass => pass.start ≠ pass.stop

namespace Cursor

/-- Everything the first cursor remembers, the second does. -/
def Within (before after : Cursor) : Prop :=
  before.requests ⊆ after.requests ∧ before.moves ⊆ after.moves

theorem Within.rfl {cursor : Cursor} : cursor.Within cursor :=
  ⟨fun _ member => member, fun _ member => member⟩

theorem Within.trans {first second third : Cursor}
    (before : first.Within second) (after : second.Within third) :
    first.Within third :=
  ⟨fun _ member => after.1 (before.1 member),
    fun _ member => after.2 (before.2 member)⟩

/-- No sum that was computed leaves the range of the machine. -/
def Small (cursor : Cursor) : Prop :=
  ∀ request ∈ cursor.requests, request.position + request.count < 2 ^ 64

/-- Some move did not add its amount. -/
def Astray (cursor : Cursor) : Prop :=
  ∃ move ∈ cursor.moves, move.after ≠ move.before + move.amount

theorem Small.of_within {before after : Cursor} (small : after.Small)
    (within : before.Within after) : before.Small :=
  fun request member => small request (within.1 member)

theorem Astray.within {before after : Cursor} (astray : before.Astray)
    (within : before.Within after) : after.Astray := by
  obtain ⟨move, member, differs⟩ := astray
  exact ⟨move, within.2 member, differs⟩

end Cursor

/-- A reader that gives a result or halts.  It never forgets what the cursor
remembers. -/
structure Reader (Halt Result : Type) where
  run : (Nat → Nat → Nat) → Cursor → Except Halt Result × Cursor
  grows : ∀ (add : Nat → Nat → Nat) (cursor : Cursor),
    cursor.Within (run add cursor).2

namespace Reader

variable {Halt First Second Result : Type}

/-- Continue after the first reader, unless it halted. -/
def continueWith (next : First → Reader Halt Second)
    (add : Nat → Nat → Nat) (outcome : Except Halt First × Cursor) :
    Except Halt Second × Cursor :=
  match outcome.1 with
  | .ok result => (next result).run add outcome.2
  | .error halt => (.error halt, outcome.2)

theorem continueWith_grows (next : First → Reader Halt Second)
    (add : Nat → Nat → Nat) (outcome : Except Halt First × Cursor) :
    outcome.2.Within (continueWith next add outcome).2 := by
  unfold continueWith
  split
  · exact (next _).grows add outcome.2
  · exact Cursor.Within.rfl

instance : Monad (Reader Halt) where
  pure result :=
    { run := fun _ cursor => (.ok result, cursor)
      grows := fun _ _ => Cursor.Within.rfl }
  bind first next :=
    { run := fun add cursor => continueWith next add (first.run add cursor)
      grows := fun add cursor => (first.grows add cursor).trans
        (continueWith_grows next add (first.run add cursor)) }

def halt (stop : Halt) : Reader Halt Result where
  run := fun _ cursor => (.error stop, cursor)
  grows := fun _ _ => Cursor.Within.rfl

def position : Reader Halt Nat where
  run := fun _ cursor => (.ok cursor.offset, cursor)
  grows := fun _ _ => Cursor.Within.rfl

/-- The sum of the cursor and a count. -/
def ask (count : Nat) : Reader Halt Nat where
  run := fun add cursor => (.ok (add cursor.offset count),
    { cursor with
      requests := cursor.requests ++ [⟨cursor.offset, count⟩] })
  grows := fun _ _ => ⟨List.subset_append_left _ _, fun _ member => member⟩

/-- Add an amount to the cursor. -/
def step (amount : Nat) : Reader Halt Unit where
  run := fun add cursor => (.ok (),
    { cursor with
      offset := add cursor.offset amount
      moves := cursor.moves ++
        [⟨cursor.offset, amount, add cursor.offset amount⟩] })
  grows := fun _ _ => ⟨fun _ member => member, List.subset_append_left _ _⟩

/-- Copy a range of an input with `limit` bytes; a range that is none halts. -/
def copy (limit : Nat) (stop : Halt) (first last : Nat) : Reader Halt Unit where
  run := fun _ cursor =>
    (if last < first ∨ limit < last then .error stop else .ok (),
      { cursor with copies := cursor.copies ++ [⟨first, last⟩] })
  grows := fun _ _ => ⟨fun _ member => member, fun _ member => member⟩

/-- Remember a run of the reader as one pass. -/
def pass (reader : Reader Halt Result) : Reader Halt Result where
  run := fun add cursor =>
    ((reader.run add cursor).1,
      { (reader.run add cursor).2 with
        passes := (reader.run add cursor).2.passes ++
          [⟨cursor.offset, (reader.run add cursor).2.offset⟩] })
  grows := fun add cursor => reader.grows add cursor

/-- A loop that runs its body a number of times. -/
def iterate {State : Type} (body : State → Reader Halt State) :
    Nat → State → Reader Halt State
  | 0, state => pure state
  | count + 1, state => do
      let state ← pass (body state)
      iterate body count state

/-- Move over a count of bytes if the sum stays within the limit. -/
def advance (limit count : Nat) : Reader Halt Bool := do
  let sum ← ask count
  if limit < sum then pure false
  else do
    step count
    pure true

/-- Halt unless the reader answers yes. -/
def demand (stop : Halt) (reader : Reader Halt Bool) : Reader Halt Unit := do
  let answer ← reader
  if answer then pure () else halt stop

/-- Halt unless the reader finds something. -/
def require (stop : Halt) (reader : Reader Halt (Option Result)) :
    Reader Halt Result := do
  match ← reader with
  | some result => pure result
  | none => halt stop

/-- The range of the input that the reader moved over, with its result. -/
def spanned (reader : Reader Halt Result) : Reader Halt (Result × Copy) := do
  let start ← position
  let result ← reader
  let stop ← position
  pure (result, ⟨start, stop⟩)

/-- The run that the format means. -/
abbrev exactly (reader : Reader Halt Result) (cursor : Cursor) :
    Except Halt Result × Cursor :=
  reader.run (· + ·) cursor

/-- The run on the machine. -/
abbrev wrapping (reader : Reader Halt Result) (cursor : Cursor) :
    Except Halt Result × Cursor :=
  reader.run sizeAdd cursor

@[simp]
theorem run_pure (result : Result) (add : Nat → Nat → Nat) (cursor : Cursor) :
    (pure result : Reader Halt Result).run add cursor = (.ok result, cursor) :=
  rfl

theorem run_bind (first : Reader Halt First) (next : First → Reader Halt Second)
    (add : Nat → Nat → Nat) (cursor : Cursor) :
    (first >>= next).run add cursor =
      continueWith next add (first.run add cursor) :=
  rfl

theorem exactly_bind (first : Reader Halt First)
    (next : First → Reader Halt Second) (cursor : Cursor) :
    (first >>= next).exactly cursor =
      continueWith next (· + ·) (first.exactly cursor) :=
  rfl

@[simp]
theorem continueWith_ok (next : First → Reader Halt Second)
    (add : Nat → Nat → Nat) (result : First) (cursor : Cursor) :
    continueWith next add (.ok result, cursor) = (next result).run add cursor :=
  rfl

@[simp]
theorem continueWith_error (next : First → Reader Halt Second)
    (add : Nat → Nat → Nat) (stop : Halt) (cursor : Cursor) :
    continueWith next add (.error stop, cursor) = (.error stop, cursor) :=
  rfl

end Reader

open Reader

variable {Halt First Second Result : Type}

/-- From this cursor the exact run moves forward inside the input, copies
ranges of the input and charges every consuming pass to a byte; the run on the
machine is the same, unless some sum leaves the machine's range, and then the
machine's cursor goes astray. -/
structure SafeAt (limit : Nat) (reader : Reader Halt Result) (cursor : Cursor) :
    Prop where
  forward : cursor.offset ≤ (reader.exactly cursor).2.offset
  inside : (reader.exactly cursor).2.offset ≤ limit
  moves : ∀ move ∈ (reader.exactly cursor).2.moves,
    move ∈ cursor.moves ∨ move.Forward limit
  copies : ∀ copy ∈ (reader.exactly cursor).2.copies,
    copy ∈ cursor.copies ∨ copy.Inside limit
  charges : consuming (reader.exactly cursor).2.passes + cursor.offset ≤
    consuming cursor.passes + (reader.exactly cursor).2.offset
  agrees : (reader.exactly cursor).2.Small →
    reader.wrapping cursor = reader.exactly cursor
  diverges : cursor.Small → ¬ (reader.exactly cursor).2.Small →
    (reader.wrapping cursor).2.Astray

/-- The contract, read off the outcome of the exact run. -/
theorem safeAt_of_arrives {limit : Nat} {reader : Reader Halt Result}
    {cursor after : Cursor} {outcome : Except Halt Result}
    (arrives : reader.exactly cursor = (outcome, after))
    (forward : cursor.offset ≤ after.offset) (inside : after.offset ≤ limit)
    (moves : ∀ move ∈ after.moves, move ∈ cursor.moves ∨ move.Forward limit)
    (copies : ∀ copy ∈ after.copies, copy ∈ cursor.copies ∨ copy.Inside limit)
    (charges : consuming after.passes + cursor.offset ≤
      consuming cursor.passes + after.offset)
    (agrees : after.Small → reader.wrapping cursor = (outcome, after))
    (diverges : cursor.Small → ¬ after.Small →
      (reader.wrapping cursor).2.Astray) :
    SafeAt limit reader cursor := by
  constructor <;> rwa [arrives]

/-- A reader that leaves the cursor alone is safe inside the input. -/
theorem safeAt_of_still {limit : Nat} {reader : Reader Halt Result}
    {cursor : Cursor} {outcome : Except Halt Result}
    (inside : cursor.offset ≤ limit)
    (still : reader.exactly cursor = (outcome, cursor))
    (same : reader.wrapping cursor = (outcome, cursor)) :
    SafeAt limit reader cursor :=
  safeAt_of_arrives still (Nat.le_refl _) inside (fun _ => Or.inl)
    (fun _ => Or.inl) (Nat.le_refl _) (fun _ => same)
    fun small notSmall => (notSmall small).elim

theorem safeAt_pure {limit : Nat} {cursor : Cursor}
    (inside : cursor.offset ≤ limit) (result : Result) :
    SafeAt limit (pure result : Reader Halt Result) cursor :=
  safeAt_of_still inside rfl rfl

theorem safeAt_halt {limit : Nat} {cursor : Cursor}
    (inside : cursor.offset ≤ limit) (stop : Halt) :
    SafeAt limit (halt stop : Reader Halt Result) cursor :=
  safeAt_of_still inside rfl rfl

theorem safeAt_position {limit : Nat} {cursor : Cursor}
    (inside : cursor.offset ≤ limit) :
    SafeAt limit (position : Reader Halt Nat) cursor :=
  safeAt_of_still inside rfl rfl

/-- A composition that gives a result passes through both readers. -/
theorem bind_ok {first : Reader Halt First} {next : First → Reader Halt Second}
    {add : Nat → Nat → Nat} {cursor after : Cursor} {result : Second}
    (arrived : (first >>= next).run add cursor = (.ok result, after)) :
    ∃ found between, first.run add cursor = (.ok found, between) ∧
      (next found).run add between = (.ok result, after) := by
  rw [run_bind] at arrived
  rcases inner : first.run add cursor with ⟨_ | found, between⟩
  · rw [inner, continueWith_error] at arrived
    cases arrived
  · rw [inner, continueWith_ok] at arrived
    exact ⟨found, between, rfl, arrived⟩

/-- What every pass of a loop keeps, the loop keeps. -/
theorem iterate_keeps {State : Type} {body : State → Reader Halt State}
    {add : Nat → Nat → Nat} {kept : State → Prop}
    (keeps : ∀ state cursor next after, kept state →
      (body state).run add cursor = (.ok next, after) → kept next)
    {count : Nat} {state final : State} {cursor after : Cursor}
    (starts : kept state)
    (arrived : (iterate body count state).run add cursor = (.ok final, after)) :
    kept final := by
  induction count generalizing state cursor with
  | zero =>
      cases arrived
      exact starts
  | succ count ih =>
      obtain ⟨next, between, passed, rest⟩ := bind_ok arrived
      have passedResult : ((body state).run add cursor).1 = .ok next :=
        congrArg (fun outcome => outcome.1) passed
      exact ih (keeps state cursor next _ starts (Prod.ext passedResult rfl)) rest

/-- Composition keeps the contract: the second reader need only keep it from
where the exact run of the first arrives. -/
theorem safeAt_bind {limit : Nat} {first : Reader Halt First}
    {next : First → Reader Halt Second} {cursor : Cursor}
    (safeFirst : SafeAt limit first cursor)
    (safeNext : ∀ result after, first.exactly cursor = (.ok result, after) →
      SafeAt limit (next result) after) :
    SafeAt limit (first >>= next) cursor := by
  rcases arrived : first.exactly cursor with ⟨outcome, after⟩
  have forward := safeFirst.forward
  have inside := safeFirst.inside
  have moves := safeFirst.moves
  have copies := safeFirst.copies
  have charges := safeFirst.charges
  have agrees := safeFirst.agrees
  have diverges := safeFirst.diverges
  rw [arrived] at forward inside moves copies charges agrees diverges
  have wrapped : (first >>= next).wrapping cursor =
      continueWith next sizeAdd (first.wrapping cursor) := rfl
  have strays (astray : (first.wrapping cursor).2.Astray) :
      ((first >>= next).wrapping cursor).2.Astray :=
    astray.within (continueWith_grows next sizeAdd (first.wrapping cursor))
  cases outcome with
  | error stop =>
      have halted : (first >>= next).exactly cursor = (.error stop, after) := by
        rw [exactly_bind, arrived, continueWith_error]
      refine safeAt_of_arrives halted forward inside moves copies charges ?_ ?_
      · intro small
        rw [wrapped, agrees small, continueWith_error]
      · exact fun small notSmall => strays (diverges small notSmall)
  | ok result =>
      have safe := safeNext result after arrived
      have composed : (first >>= next).exactly cursor =
          (next result).exactly after := by
        rw [exactly_bind, arrived, continueWith_ok]
      have growth := (next result).grows (· + ·) after
      refine safeAt_of_arrives composed ?_ safe.inside ?_ ?_ ?_ ?_ ?_
      · exact Nat.le_trans forward safe.forward
      · intro move member
        rcases safe.moves move member with earlier | isForward
        · exact moves move earlier
        · exact Or.inr isForward
      · intro copy member
        rcases safe.copies copy member with earlier | isInside
        · exact copies copy earlier
        · exact Or.inr isInside
      · have later := safe.charges
        change consuming ((next result).exactly after).2.passes + cursor.offset ≤
          consuming cursor.passes + ((next result).exactly after).2.offset
        dsimp only at charges
        omega
      · intro small
        have smallAfter : after.Small := small.of_within growth
        rw [wrapped, agrees smallAfter, continueWith_ok]
        exact safe.agrees small
      · intro small notSmall
        by_cases smallAfter : after.Small
        · rw [wrapped, agrees smallAfter, continueWith_ok]
          exact safe.diverges smallAfter notSmall
        · exact strays (diverges small smallAfter)

/-- A reader that arrives has moved forward inside the input. -/
theorem SafeAt.arrives {limit : Nat} {reader : Reader Halt Result}
    {cursor after : Cursor} {result : Result}
    (safe : SafeAt limit reader cursor)
    (arrived : reader.exactly cursor = (.ok result, after)) :
    cursor.offset ≤ after.offset ∧ after.offset ≤ limit := by
  have forward := safe.forward
  have inside := safe.inside
  rw [arrived] at forward inside
  exact ⟨forward, inside⟩

/-- Composition, where the second reader is safe from every position ahead. -/
theorem safeAt_then {limit : Nat} {first : Reader Halt First}
    {next : First → Reader Halt Second} {cursor : Cursor}
    (safeFirst : SafeAt limit first cursor)
    (safeNext : ∀ result (after : Cursor), cursor.offset ≤ after.offset →
      after.offset ≤ limit → SafeAt limit (next result) after) :
    SafeAt limit (first >>= next) cursor :=
  safeAt_bind safeFirst fun result after arrived =>
    safeNext result after (safeFirst.arrives arrived).1
      (safeFirst.arrives arrived).2

theorem consuming_append (first second : List Pass) :
    consuming (first ++ second) = consuming first + consuming second :=
  List.countP_append

theorem Cursor.small_append {cursor : Cursor} {request : Request} :
    ({ cursor with requests := cursor.requests ++ [request] } : Cursor).Small ↔
      cursor.Small ∧ request.position + request.count < 2 ^ 64 := by
  simp only [Cursor.Small, List.mem_append, List.mem_singleton]
  constructor
  · intro small
    exact ⟨fun other member => small other (Or.inl member),
      small request (Or.inr rfl)⟩
  · rintro ⟨small, fits⟩ other (member | rfl)
    · exact small other member
    · exact fits

theorem safeAt_ask {limit count : Nat} {cursor : Cursor}
    (inside : cursor.offset ≤ limit) (fits : cursor.offset + count < 2 ^ 64) :
    SafeAt limit (ask count : Reader Halt Nat) cursor where
  forward := Nat.le_refl _
  inside := inside
  moves := fun _ member => Or.inl member
  copies := fun _ member => Or.inl member
  charges := Nat.le_refl _
  agrees := by
    intro _
    simp only [wrapping, exactly, ask, sizeAdd_of_lt fits]
  diverges := by
    intro small notSmall
    exact (notSmall (Cursor.small_append.mpr ⟨small, fits⟩)).elim

theorem safeAt_step {limit amount : Nat} {cursor : Cursor}
    (limitFits : limit < 2 ^ 63) (inside : cursor.offset + amount ≤ limit) :
    SafeAt limit (step amount : Reader Halt Unit) cursor where
  forward := Nat.le_add_right _ _
  inside := inside
  moves := by
    intro move member
    rcases List.mem_append.mp member with earlier | new
    · exact Or.inl earlier
    · rw [List.mem_singleton] at new
      subst new
      exact Or.inr ⟨rfl, inside⟩
  copies := fun _ member => Or.inl member
  charges := Nat.add_le_add_left (Nat.le_add_right _ _) _
  agrees := by
    intro _
    have fits : cursor.offset + amount < 2 ^ 64 := by omega
    simp only [wrapping, exactly, step, sizeAdd_of_lt fits]
  diverges := fun small notSmall => (notSmall small).elim

theorem safeAt_copy {limit first last : Nat} {stop : Halt} {cursor : Cursor}
    (inside : cursor.offset ≤ limit) (ordered : first ≤ last)
    (lastInside : last ≤ limit) :
    SafeAt limit (copy limit stop first last) cursor where
  forward := Nat.le_refl _
  inside := inside
  moves := fun _ member => Or.inl member
  copies := by
    intro range member
    rcases List.mem_append.mp member with earlier | new
    · exact Or.inl earlier
    · rw [List.mem_singleton] at new
      subst new
      exact Or.inr ⟨ordered, lastInside⟩
  charges := Nat.le_refl _
  agrees := fun _ => rfl
  diverges := fun small notSmall => (notSmall small).elim

theorem run_advance (limit count : Nat) (add : Nat → Nat → Nat)
    (cursor : Cursor) :
    (advance limit count : Reader Halt Bool).run add cursor =
      if limit < add cursor.offset count then
        (.ok false, { cursor with
          requests := cursor.requests ++ [⟨cursor.offset, count⟩] })
      else
        (.ok true, { cursor with
          offset := add cursor.offset count
          requests := cursor.requests ++ [⟨cursor.offset, count⟩]
          moves := cursor.moves ++
            [⟨cursor.offset, count, add cursor.offset count⟩] }) := by
  by_cases rejected : limit < add cursor.offset count
  · simp [advance, run_bind, continueWith, ask, rejected]
  · simp [advance, run_bind, continueWith, ask, step, rejected]

/-- A count that reaches outside the machine's range is rejected by the exact
reader; on the machine it takes the cursor backwards. -/
theorem safeAt_advance {limit count : Nat} {cursor : Cursor}
    (limitFits : limit < 2 ^ 63) (inside : cursor.offset ≤ limit)
    (countFits : count < 2 ^ 64) :
    SafeAt limit (advance limit count : Reader Halt Bool) cursor := by
  have exact_eq : (advance limit count : Reader Halt Bool).exactly cursor = _ :=
    run_advance limit count (· + ·) cursor
  have wrap_eq : (advance limit count : Reader Halt Bool).wrapping cursor = _ :=
    run_advance limit count sizeAdd cursor
  by_cases rejected : limit < cursor.offset + count
  · rw [if_pos rejected] at exact_eq
    refine safeAt_of_arrives exact_eq (Nat.le_refl _) inside
      (fun _ => Or.inl) (fun _ => Or.inl) (Nat.le_refl _) ?_ ?_
    · intro small
      have fits := (Cursor.small_append.mp small).2
      rw [wrap_eq, sizeAdd_of_lt fits, if_pos rejected]
    · intro small notSmall
      have wraps : 2 ^ 64 ≤ cursor.offset + count := by
        by_contra fits
        exact notSmall (Cursor.small_append.mpr ⟨small, Nat.lt_of_not_le fits⟩)
      have backwards : sizeAdd cursor.offset count < cursor.offset :=
        sizeAdd_lt_left (by omega) countFits wraps
      rw [wrap_eq, if_neg (by omega)]
      refine ⟨_, List.mem_append_right _ (List.mem_singleton_self _), ?_⟩
      dsimp only
      omega
  · have fits : cursor.offset + count < 2 ^ 64 := by omega
    rw [if_neg rejected] at exact_eq
    rw [sizeAdd_of_lt fits, if_neg rejected] at wrap_eq
    refine safeAt_of_arrives exact_eq (Nat.le_add_right _ _)
      (Nat.le_of_not_lt rejected) ?_ (fun _ => Or.inl)
      (Nat.add_le_add_left (Nat.le_add_right _ _) _) (fun _ => wrap_eq) ?_
    · intro move member
      rcases List.mem_append.mp member with earlier | new
      · exact Or.inl earlier
      · rw [List.mem_singleton] at new
        subst new
        exact Or.inr ⟨rfl, Nat.le_of_not_lt rejected⟩
    · intro small notSmall
      exact (notSmall (Cursor.small_append.mpr ⟨small, fits⟩)).elim

theorem safeAt_demand {limit : Nat} {stop : Halt} {reader : Reader Halt Bool}
    {cursor : Cursor} (safe : SafeAt limit reader cursor) :
    SafeAt limit (demand stop reader) cursor := by
  refine safeAt_then safe fun answer after _ inside => ?_
  cases answer with
  | true => exact safeAt_pure inside ()
  | false => exact safeAt_halt inside stop

theorem safeAt_require {limit : Nat} {stop : Halt}
    {reader : Reader Halt (Option Result)} {cursor : Cursor}
    (safe : SafeAt limit reader cursor) :
    SafeAt limit (require stop reader) cursor := by
  refine safeAt_then safe fun found after _ inside => ?_
  cases found with
  | some result => exact safeAt_pure inside result
  | none => exact safeAt_halt inside stop

theorem advance_arrives {limit count : Nat} {cursor after : Cursor}
    (arrived : (advance limit count : Reader Halt Bool).exactly cursor =
      (.ok true, after)) :
    after.offset = cursor.offset + count := by
  rw [exactly, run_advance] at arrived
  split at arrived
  · cases arrived
  · cases arrived
    rfl

theorem demand_arrives {stop : Halt} {reader : Reader Halt Bool}
    {cursor after : Cursor}
    (arrived : (demand stop reader).exactly cursor = (.ok (), after)) :
    reader.exactly cursor = (.ok true, after) := by
  obtain ⟨answer, between, answered, decided⟩ := bind_ok arrived
  cases answer <;> cases decided
  exact answered

theorem require_arrives {stop : Halt} {reader : Reader Halt (Option Result)}
    {cursor after : Cursor} {result : Result}
    (arrived : (require stop reader).exactly cursor = (.ok result, after)) :
    reader.exactly cursor = (.ok (some result), after) := by
  obtain ⟨found, between, answered, decided⟩ := bind_ok arrived
  cases found <;> cases decided
  exact answered

theorem safeAt_spanned {limit : Nat} {reader : Reader Halt Result}
    {cursor : Cursor} (inside : cursor.offset ≤ limit)
    (safe : SafeAt limit reader cursor) :
    SafeAt limit (spanned reader) cursor := by
  refine safeAt_bind (safeAt_position inside) fun start after started => ?_
  cases started
  refine safeAt_then safe fun result last _ lastInside => ?_
  refine safeAt_bind (safeAt_position lastInside) fun stop final stopped => ?_
  cases stopped
  exact safeAt_pure lastInside _

/-- The range is the one between the cursors. -/
theorem spanned_arrives {reader : Reader Halt Result} {cursor after : Cursor}
    {result : Result} {range : Copy}
    (arrived : (spanned reader).exactly cursor = (.ok (result, range), after)) :
    reader.exactly cursor = (.ok result, after) ∧
      range = ⟨cursor.offset, after.offset⟩ := by
  obtain ⟨start, before, started, rest⟩ := bind_ok arrived
  cases started
  obtain ⟨found, between, inner, rest⟩ := bind_ok rest
  obtain ⟨stop, last, stopped, finished⟩ := bind_ok rest
  cases stopped
  cases finished
  exact ⟨inner, rfl⟩

/-- The exact run of the reader passes through no loop body. -/
def Quiet (reader : Reader Halt Result) : Prop :=
  ∀ cursor, (reader.exactly cursor).2.passes = cursor.passes

theorem quiet_pure (result : Result) :
    Quiet (pure result : Reader Halt Result) :=
  fun _ => rfl

theorem quiet_halt (stop : Halt) : Quiet (halt stop : Reader Halt Result) :=
  fun _ => rfl

theorem quiet_position : Quiet (position : Reader Halt Nat) :=
  fun _ => rfl

theorem quiet_ask (count : Nat) : Quiet (ask count : Reader Halt Nat) :=
  fun _ => rfl

theorem quiet_step (amount : Nat) : Quiet (step amount : Reader Halt Unit) :=
  fun _ => rfl

theorem quiet_bind {first : Reader Halt First} {next : First → Reader Halt Second}
    (quietFirst : Quiet first) (quietNext : ∀ result, Quiet (next result)) :
    Quiet (first >>= next) := by
  intro cursor
  have still := quietFirst cursor
  rcases arrived : first.exactly cursor with ⟨_ | result, after⟩
  · rw [exactly_bind, arrived, continueWith_error]
    rwa [arrived] at still
  · rw [exactly_bind, arrived, continueWith_ok]
    rw [arrived] at still
    exact (quietNext result after).trans still

theorem quiet_advance (limit count : Nat) :
    Quiet (advance limit count : Reader Halt Bool) := by
  refine quiet_bind (quiet_ask count) fun sum => ?_
  split
  · exact quiet_pure false
  · exact quiet_bind (quiet_step count) fun _ => quiet_pure true

theorem quiet_demand {stop : Halt} {reader : Reader Halt Bool}
    (quiet : Quiet reader) : Quiet (demand stop reader) := by
  refine quiet_bind quiet fun answer => ?_
  cases answer with
  | true => exact quiet_pure ()
  | false => exact quiet_halt stop

theorem quiet_require {stop : Halt} {reader : Reader Halt (Option Result)}
    (quiet : Quiet reader) : Quiet (require stop reader) := by
  refine quiet_bind quiet fun found => ?_
  cases found with
  | some result => exact quiet_pure result
  | none => exact quiet_halt stop

/-- A reader that is safe and leaves one consumed byte uncharged, so that it
can be the body of a loop. -/
structure PaysAt (limit : Nat) (reader : Reader Halt Result) (cursor : Cursor) :
    Prop extends SafeAt limit reader cursor where
  pays : (reader.exactly cursor).2.offset ≠ cursor.offset →
    consuming (reader.exactly cursor).2.passes + cursor.offset <
      consuming cursor.passes + (reader.exactly cursor).2.offset

theorem SafeAt.pays {limit : Nat} {reader : Reader Halt Result} {cursor : Cursor}
    (safe : SafeAt limit reader cursor) (quiet : Quiet reader) :
    PaysAt limit reader cursor where
  toSafeAt := safe
  pays := by
    intro moved
    have forward := safe.forward
    rw [quiet cursor]
    omega

/-- A reader that consumes a byte pays for the readers that follow. -/
theorem paysAt_bind {limit : Nat} {first : Reader Halt First}
    {next : First → Reader Halt Second} {cursor : Cursor}
    (paysFirst : PaysAt limit first cursor)
    (paysNext : ∀ result after, first.exactly cursor = (.ok result, after) →
      after.offset ≠ cursor.offset ∧ SafeAt limit (next result) after) :
    PaysAt limit (first >>= next) cursor where
  toSafeAt := safeAt_bind paysFirst.toSafeAt fun result after arrived =>
    (paysNext result after arrived).2
  pays := by
    intro moved
    rcases arrived : first.exactly cursor with ⟨outcome, after⟩
    have pays := paysFirst.pays
    rw [arrived] at pays
    have composed : (first >>= next).exactly cursor =
        continueWith next (· + ·) (outcome, after) := by
      rw [exactly_bind, arrived]
    cases outcome with
    | error stop =>
        rw [composed] at moved ⊢
        exact pays moved
    | ok result =>
        obtain ⟨movedFirst, safe⟩ := paysNext result after arrived
        have paid := pays movedFirst
        have charges := safe.charges
        rw [composed]
        change consuming ((next result).exactly after).2.passes + cursor.offset <
          consuming cursor.passes + ((next result).exactly after).2.offset
        dsimp only at paid
        omega

theorem PaysAt.spanned {limit : Nat} {reader : Reader Halt Result}
    {cursor : Cursor} (inside : cursor.offset ≤ limit)
    (paysAt : PaysAt limit reader cursor) :
    PaysAt limit (spanned reader) cursor where
  toSafeAt := safeAt_spanned inside paysAt.toSafeAt
  pays := by
    have last : ((Reader.spanned reader).exactly cursor).2 =
        (reader.exactly cursor).2 := by
      change (continueWith (fun result => do
        let stop ← position
        pure (result, (⟨cursor.offset, stop⟩ : Copy))) (· + ·)
          (reader.exactly cursor)).2 = _
      rcases reader.exactly cursor with ⟨_ | result, after⟩ <;> rfl
    rw [last]
    exact paysAt.pays

theorem safeAt_pass {limit : Nat} {reader : Reader Halt Result} {cursor : Cursor}
    (paysAt : PaysAt limit reader cursor) :
    SafeAt limit (pass reader) cursor where
  forward := paysAt.forward
  inside := paysAt.inside
  moves := paysAt.moves
  copies := paysAt.copies
  charges := by
    change consuming ((reader.exactly cursor).2.passes ++
        [⟨cursor.offset, (reader.exactly cursor).2.offset⟩]) + cursor.offset ≤
      consuming cursor.passes + (reader.exactly cursor).2.offset
    have charges := paysAt.charges
    rw [consuming_append]
    by_cases moved : (reader.exactly cursor).2.offset = cursor.offset
    · have idle : consuming
          [⟨cursor.offset, (reader.exactly cursor).2.offset⟩] = 0 := by
        simp [consuming, moved]
      omega
    · have one : consuming
          [⟨cursor.offset, (reader.exactly cursor).2.offset⟩] = 1 := by
        simp [consuming, Ne.symm moved]
      have paid := paysAt.pays moved
      omega
  agrees := by
    intro small
    have agreed : reader.wrapping cursor = reader.exactly cursor :=
      paysAt.agrees small
    simp only [wrapping, exactly] at agreed ⊢
    simp only [Reader.pass, agreed]
  diverges := fun small notSmall => paysAt.diverges small notSmall

/-- A loop is safe when its body pays from every position inside the input. -/
theorem safeAt_iterate {State : Type} {limit : Nat}
    {body : State → Reader Halt State}
    (paysBody : ∀ state cursor, cursor.offset ≤ limit →
      PaysAt limit (body state) cursor)
    (count : Nat) (state : State) (cursor : Cursor)
    (inside : cursor.offset ≤ limit) :
    SafeAt limit (iterate body count state) cursor := by
  induction count generalizing state cursor with
  | zero => exact safeAt_pure inside state
  | succ count ih =>
      refine safeAt_then (safeAt_pass (paysBody state cursor inside)) ?_
      exact fun next after _ insideAfter => ih next after insideAfter

end CursorReader
