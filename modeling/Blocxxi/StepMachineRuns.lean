import Mathlib.Init

/-!
# Runs of deterministic step machines

A machine is a function from an input and a state to the next state.  This
file packages the induction over a run once: an invariant kept by every step
holds after every run, a condition on the steps may be assumed of all of them,
and two machines driven by the same inputs stay related.
-/

namespace StepMachine

variable {State Other Input : Type*}

/-- The state reached from `state` by one step for each input in turn. -/
def run (step : Input → State → State) : List Input → State → State
  | [], state => state
  | input :: inputs, state => run step inputs (step input state)

theorem run_append (step : Input → State → State) (first second : List Input)
    (state : State) :
    run step (first ++ second) state = run step second (run step first state) := by
  induction first generalizing state with
  | nil => rfl
  | cons input first ih => exact ih (step input state)

/-- Every step of the run is allowed in the state it starts from. -/
def RunsWithin (step : Input → State → State)
    (allowed : Input → State → Prop) : List Input → State → Prop
  | [], _ => True
  | input :: inputs, state =>
      allowed input state ∧ RunsWithin step allowed inputs (step input state)

instance decidableRunsWithin {step : Input → State → State}
    {allowed : Input → State → Prop}
    [∀ input state, Decidable (allowed input state)] :
    ∀ inputs state, Decidable (RunsWithin step allowed inputs state)
  | [], _ => isTrue trivial
  | input :: inputs, state =>
      have : Decidable (RunsWithin step allowed inputs (step input state)) :=
        decidableRunsWithin inputs (step input state)
      inferInstanceAs (Decidable (allowed input state ∧
        RunsWithin step allowed inputs (step input state)))

theorem runsWithin_append {step : Input → State → State}
    {allowed : Input → State → Prop} (first second : List Input) (state : State) :
    RunsWithin step allowed (first ++ second) state ↔
      RunsWithin step allowed first state ∧
        RunsWithin step allowed second (run step first state) := by
  induction first generalizing state with
  | nil => simp [RunsWithin, run]
  | cons input first ih => simp [RunsWithin, run, ih, and_assoc]

/-- A run is within a condition exactly if the condition holds at each input, in the
state that the inputs before it reach. -/
theorem runsWithin_iff_forall {step : Input → State → State}
    {allowed : Input → State → Prop} {inputs : List Input} {state : State} :
    RunsWithin step allowed inputs state ↔
      ∀ before input after, inputs = before ++ input :: after →
        allowed input (run step before state) := by
  constructor
  · rintro within before input after rfl
    rw [runsWithin_append] at within
    exact within.2.1
  · intro always
    induction inputs generalizing state with
    | nil => trivial
    | cons input inputs ih =>
        refine ⟨always [] input inputs rfl, ih fun before next after split => ?_⟩
        exact always (input :: before) next after (by rw [split]; rfl)

/-- An invariant kept by every allowed step holds after every run made of
allowed steps. -/
theorem invariant_run_within {step : Input → State → State}
    {allowed : Input → State → Prop} {invariant : State → Prop}
    (kept : ∀ input state, invariant state → allowed input state →
      invariant (step input state))
    (inputs : List Input) (state : State) (starts : invariant state)
    (within : RunsWithin step allowed inputs state) :
    invariant (run step inputs state) := by
  induction inputs generalizing state with
  | nil => exact starts
  | cons input inputs ih =>
      exact ih (step input state) (kept input state starts within.1) within.2

/-- An invariant kept by every step with one of the inputs holds after the run. -/
theorem invariant_run_of_mem {step : Input → State → State}
    {invariant : State → Prop} (inputs : List Input)
    (kept : ∀ input ∈ inputs, ∀ state, invariant state →
      invariant (step input state))
    (state : State) (starts : invariant state) :
    invariant (run step inputs state) := by
  induction inputs generalizing state with
  | nil => exact starts
  | cons input inputs ih =>
      exact ih (fun other member => kept other (List.mem_cons_of_mem input member))
        (step input state) (kept input List.mem_cons_self state starts)

/-- An invariant kept by every step holds after every run. -/
theorem invariant_run {step : Input → State → State}
    {invariant : State → Prop}
    (kept : ∀ input state, invariant state → invariant (step input state))
    (inputs : List Input) (state : State) (starts : invariant state) :
    invariant (run step inputs state) :=
  invariant_run_of_mem inputs (fun input _ => kept input) state starts

/-- Two conditions on steps that agree wherever an invariant holds agree on every
run made of allowed steps, if steps that meet the first keep the invariant. -/
theorem runsWithin_iff_within {step : Input → State → State}
    {allowed first second : Input → State → Prop} {invariant : State → Prop}
    (kept : ∀ input state, invariant state → allowed input state →
      first input state → invariant (step input state))
    (same : ∀ input state, invariant state → allowed input state →
      (first input state ↔ second input state))
    (inputs : List Input) (state : State) (starts : invariant state)
    (within : RunsWithin step allowed inputs state) :
    RunsWithin step first inputs state ↔ RunsWithin step second inputs state := by
  induction inputs generalizing state with
  | nil => exact Iff.rfl
  | cons input inputs induction =>
      have sameFirst := same input state starts within.1
      constructor
      · rintro ⟨meets, rest⟩
        exact ⟨sameFirst.mp meets, (induction (step input state)
          (kept input state starts within.1 meets) within.2).mp rest⟩
      · rintro ⟨meets, rest⟩
        have meetsFirst := sameFirst.mpr meets
        exact ⟨meetsFirst, (induction (step input state)
          (kept input state starts within.1 meetsFirst) within.2).mpr rest⟩

/-- Two machines driven by the same inputs stay related, as long as the steps
of the first are allowed. -/
theorem related_run_within {step : Input → State → State}
    {otherStep : Input → Other → Other}
    {allowed : Input → State → Prop} {related : State → Other → Prop}
    (kept : ∀ input state other, related state other → allowed input state →
      related (step input state) (otherStep input other))
    (inputs : List Input) (state : State) (other : Other)
    (starts : related state other)
    (within : RunsWithin step allowed inputs state) :
    related (run step inputs state) (run otherStep inputs other) := by
  induction inputs generalizing state other with
  | nil => exact starts
  | cons input inputs ih =>
      exact ih (step input state) (otherStep input other)
        (kept input state other starts within.1) within.2

/-- Two machines whose steps keep a relation stay related. -/
theorem related_run {step : Input → State → State}
    {otherStep : Input → Other → Other} {related : State → Other → Prop}
    (kept : ∀ input state other, related state other →
      related (step input state) (otherStep input other))
    (inputs : List Input) (state : State) (other : Other)
    (starts : related state other) :
    related (run step inputs state) (run otherStep inputs other) := by
  induction inputs generalizing state other with
  | nil => exact starts
  | cons input inputs ih =>
      exact ih (step input state) (otherStep input other)
        (kept input state other starts)

end StepMachine
