import Mathlib.Data.Option.Defs

/-!
# Machines that answer

A step of a machine takes an input, may fail, and otherwise gives an answer beside the next
state.  A relation between the states of two machines that every step keeps, with equal
answers, relates whole runs.
-/

namespace AnsweringMachine

variable {State Other Input Answer : Type*}

/-- The state behind the inputs, and the answers to them. -/
def run (step : State → Input → Option (State × Answer)) :
    List Input → State → Option (State × List Answer)
  | [], state => some (state, [])
  | input :: inputs, state => do
      let (state, answer) ← step state input
      let (state, answers) ← run step inputs state
      return (state, answer :: answers)

/-- Both fail, or both give the same answer and states that are related. -/
def Agree {Result : Type*} (related : State → Other → Prop) :
    Option (State × Result) → Option (Other × Result) → Prop :=
  Option.Rel fun first second => related first.1 second.1 ∧ first.2 = second.2

section Runs

variable {step : State → Input → Option (State × Answer)}
  {otherStep : Other → Input → Option (Other × Answer)}

@[simp]
theorem run_nil (state : State) : run step [] state = some (state, []) := rfl

theorem run_cons_eq_some {input : Input} {inputs : List Input} {state last : State}
    {answers : List Answer} :
    run step (input :: inputs) state = some (last, answers) ↔
      ∃ next answer rest, step state input = some (next, answer) ∧
        run step inputs next = some (last, rest) ∧ answers = answer :: rest := by
  simp only [run, Option.bind_eq_bind, Option.bind_eq_some_iff, Prod.exists, Option.pure_def,
    Option.some.injEq, Prod.mk.injEq]
  constructor
  · rintro ⟨next, answer, isStep, _, rest, isRun, rfl, rfl⟩
    exact ⟨next, answer, rest, isStep, isRun, rfl⟩
  · rintro ⟨next, answer, rest, isStep, isRun, rfl⟩
    exact ⟨next, answer, isStep, last, rest, isRun, rfl, rfl⟩

theorem run_related {related : State → Other → Prop}
    (steps : ∀ state other input, related state other →
      Agree related (step state input) (otherStep other input))
    (inputs : List Input) {state : State} {other : Other} (start : related state other) :
    Agree related (run step inputs state) (run otherStep inputs other) := by
  induction inputs generalizing state other with
  | nil => exact .some ⟨start, rfl⟩
  | cons input inputs ih =>
      have isStep := steps state other input start
      rw [run, run]
      generalize step state input = result, otherStep other input = otherResult at isStep ⊢
      cases isStep with
      | none => exact .none
      | @some first second agrees =>
          obtain ⟨next, answer⟩ := first
          obtain ⟨otherNext, otherAnswer⟩ := second
          obtain ⟨relates, rfl⟩ := agrees
          have isRun := ih relates
          change Option.Rel _ ((run step inputs next).bind _)
            ((run otherStep inputs otherNext).bind _)
          generalize run step inputs next = result, run otherStep inputs otherNext = otherResult
            at isRun ⊢
          cases isRun with
          | none => exact .none
          | @some first second agrees =>
              obtain ⟨relates, same⟩ := agrees
              exact .some ⟨relates, congrArg _ same⟩

/-- What a step keeps for each of the inputs is kept by the run. -/
theorem invariant_run {invariant : State → Prop} {inputs : List Input}
    (kept : ∀ input ∈ inputs, ∀ state next answer, invariant state →
      step state input = some (next, answer) → invariant next)
    {state last : State} {answers : List Answer} (start : invariant state)
    (isRun : run step inputs state = some (last, answers)) : invariant last := by
  induction inputs generalizing state answers with
  | nil =>
      cases isRun
      exact start
  | cons input inputs ih =>
      obtain ⟨next, answer, rest, isStep, isRest, -⟩ := run_cons_eq_some.mp isRun
      obtain ⟨first, others⟩ := List.forall_mem_cons.mp kept
      exact ih others (first state next answer start isStep) isRest

end Runs

theorem Agree.of_some {Result : Type*} {related : State → Other → Prop} {state : State}
    {result : Result} {other : Option (Other × Result)}
    (agrees : Agree related (some (state, result)) other) :
    ∃ next, other = some (next, result) ∧ related state next := by
  cases agrees with
  | @some _ second agrees =>
      obtain ⟨next, answer⟩ := second
      obtain ⟨relates, rfl⟩ := agrees
      exact ⟨next, rfl, relates⟩

end AnsweringMachine
