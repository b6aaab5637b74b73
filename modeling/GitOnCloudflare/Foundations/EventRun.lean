import Mathlib.Data.List.Basic

/-!
# Runs of a machine over events

A machine that takes an event or refuses it, run over a list of events, and the
rule that an invariant of its steps holds at the end of a run.  The rule has a
form for runs whose steps all meet a condition.
-/

namespace GitOnCloudflare.Foundations.EventRun

universe u v

variable {State : Type u} {Event : Type v}

/-- The state after the events, if every one of them is taken. -/
def run (step : State → Event → Option State) : State → List Event → Option State
  | state, [] => some state
  | state, event :: events => (step state event).bind fun next => run step next events

/-- Every step of the run meets the condition. -/
def Meets (step : State → Event → Option State) (condition : State → Event → Prop) :
    State → List Event → Prop
  | _, [] => True
  | state, event :: events =>
    condition state event ∧
      ∀ next ∈ step state event, Meets step condition next events

variable {step : State → Event → Option State} {invariant : State → Prop}
  {state last : State} {events : List Event}

theorem run_cons {event : Event} :
    run step state (event :: events) = some last ↔
      ∃ next, step state event = some next ∧ run step next events = some last := by
  rw [run, Option.bind_eq_some_iff]

variable {condition : State → Event → Prop}

/-- An invariant that every step meeting the condition keeps. -/
theorem run_preserves_of_meets
    (keeps : ∀ {state event next}, condition state event →
      step state event = some next → invariant state → invariant next)
    (meets : Meets step condition state events)
    (ran : run step state events = some last) (start : invariant state) :
    invariant last := by
  induction events generalizing state with
  | nil =>
    cases ran
    exact start
  | cons event events ih =>
    rcases run_cons.mp ran with ⟨next, stepped, ran⟩
    exact ih (meets.2 next stepped) ran (keeps meets.1 stepped start)

theorem meets_true (state : State) (events : List Event) :
    Meets step (fun _ _ => True) state events := by
  induction events generalizing state with
  | nil => exact trivial
  | cons event events ih => exact ⟨trivial, fun next _ => ih next⟩

/-- An invariant that every step keeps. -/
theorem run_preserves
    (keeps : ∀ {state event next}, step state event = some next →
      invariant state → invariant next) {state last : State}
    {events : List Event} (ran : run step state events = some last)
    (start : invariant state) : invariant last :=
  run_preserves_of_meets (fun _ => keeps) (meets_true state events) ran start

/-- What a step that fails the condition brings about, and every step keeps. -/
theorem run_preserves_of_not_meets {broken : State → Prop}
    (keeps : ∀ {state event next}, step state event = some next →
      invariant state → invariant next)
    (breaks : ∀ {state event next}, ¬ condition state event →
      step state event = some next → invariant state → broken next)
    (stays : ∀ {state event next}, step state event = some next →
      broken state → broken next) (fails : ¬ Meets step condition state events)
    (ran : run step state events = some last) (start : invariant state) :
    broken last := by
  induction events generalizing state with
  | nil => exact absurd trivial fails
  | cons event events ih =>
    rcases run_cons.mp ran with ⟨next, stepped, ran⟩
    by_cases met : condition state event
    · apply ih _ ran (keeps stepped start)
      intro meets
      apply fails
      refine ⟨met, fun other stepped' => ?_⟩
      cases stepped.symm.trans stepped'
      exact meets
    · exact run_preserves stays ran (breaks met stepped start)

end GitOnCloudflare.Foundations.EventRun
