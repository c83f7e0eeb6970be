import Mathlib.Algebra.Group.Nat.Defs

/-!
# The machine the C++ sources run on

Sizes and offsets are 64-bit unsigned numbers whose addition wraps.  No object
is larger than half the address space, so a contiguous range carries a bound on
its length.  A computation that does not return normally throws, aborts, or
reads outside an object.
-/

namespace Cxx

/-- Addition of two `size_t` values. -/
def sizeAdd (first second : Nat) : Nat :=
  (first + second) % 2 ^ 64

theorem sizeAdd_of_lt {first second : Nat} (fits : first + second < 2 ^ 64) :
    sizeAdd first second = first + second :=
  Nat.mod_eq_of_lt fits

/-- Subtraction of two `size_t` values. -/
def sizeSub (first second : Nat) : Nat :=
  sizeAdd first (2 ^ 64 - second)

theorem sizeSub_of_le {first second : Nat} (ordered : second ≤ first)
    (fits : first < 2 ^ 64) : sizeSub first second = first - second := by
  unfold sizeSub sizeAdd
  omega

/-- An addition that leaves the 64-bit range lands below its first operand. -/
theorem sizeAdd_lt_left {first second : Nat} (firstFits : first < 2 ^ 64)
    (secondFits : second < 2 ^ 64) (wraps : 2 ^ 64 ≤ first + second) :
    sizeAdd first second < first := by
  unfold sizeAdd
  omega

/-- A contiguous range of objects, such as a `std::span` or a `std::vector`. -/
@[ext]
structure Span (Item : Type*) where
  items : List Item
  length_lt : items.length < 2 ^ 63

namespace Span

variable {Item : Type*}

def size (span : Span Item) : Nat :=
  span.items.length

theorem size_lt (span : Span Item) : span.size < 2 ^ 63 :=
  span.length_lt

end Span

/-- The ways in which a call may end without returning. -/
inductive Fault
  | exception (message : String)
  | aborted (message : String)
  | outOfBounds
  deriving DecidableEq, Repr

/-- The result of a computation that may not terminate, observed after a
bounded number of steps. -/
inductive Outcome (Result : Type)
  | returned (result : Result)
  | thrown (message : String)
  | running

namespace Outcome

variable {First Second : Type}

/-- Continue with the result, if there is one. -/
def andThen (outcome : Outcome First) (next : First → Outcome Second) :
    Outcome Second :=
  match outcome with
  | .returned result => next result
  | .thrown message => .thrown message
  | .running => .running

instance : Monad Outcome where
  pure := .returned
  bind := andThen

@[simp]
theorem returned_bind (result : First) (next : First → Outcome Second) :
    (Outcome.returned result >>= next) = next result :=
  rfl

@[simp]
theorem thrown_bind (message : String) (next : First → Outcome Second) :
    (Outcome.thrown message >>= next) = .thrown message :=
  rfl

@[simp]
theorem running_bind (next : First → Outcome Second) :
    ((Outcome.running : Outcome First) >>= next) = .running :=
  rfl

/-- A composed computation returns when both parts return. -/
theorem bind_returned {outcome : Outcome First} {next : First → Outcome Second}
    {result : Second} (returned : (outcome >>= next) = .returned result) :
    ∃ first, outcome = .returned first ∧ next first = .returned result := by
  cases outcome with
  | returned first => exact ⟨first, rfl, returned⟩
  | thrown message => cases returned
  | running => cases returned

/-- A composed computation ends when its first part ends and, after a result,
its second part does. -/
theorem bind_ends {outcome : Outcome First} {next : First → Outcome Second}
    (firstEnds : outcome ≠ .running)
    (nextEnds : ∀ first, outcome = .returned first → next first ≠ .running) :
    (outcome >>= next) ≠ .running := by
  cases outcome with
  | returned first => exact nextEnds first rfl
  | thrown message => simp
  | running => exact (firstEnds rfl).elim

end Outcome

end Cxx
