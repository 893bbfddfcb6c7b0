import Mathlib.Logic.Basic

namespace KernelModules.Data

/-! # Runs of a machine given by a partial step function

A function `step` answers with the next state, or with `none` where the action cannot be taken.  A predicate
`allowed` tells which actions a run may contain, so that one machine serves different contracts.
-/

section Runs

variable {State Action : Type}

/-- The states a machine gets to from `init` by actions that are all `allowed`. -/
inductive Reachable (step : State → Action → Option State) (allowed : State → Action → Prop)
    (init : State) : State → Prop where
  | start : Reachable step allowed init init
  | next {before after : State} {action : Action}
      (reached : Reachable step allowed init before)
      (permitted : allowed before action) (taken : step before action = some after) :
      Reachable step allowed init after

variable {step : State → Action → Option State} {allowed : State → Action → Prop}

theorem Reachable.invariant (reached : Reachable step allowed init state) (property : State → Prop)
    (base : property init) (preserved : ∀ before action after, property before → allowed before action →
      step before action = some after → property after) : property state := by
  induction reached with
  | start => exact base
  | next _ permitted taken ih => exact preserved _ _ _ ih permitted taken

theorem Reachable.weaken (reached : Reachable step allowed init state)
    (implied : ∀ before action, allowed before action → weaker before action) : Reachable step weaker init state := by
  induction reached with
  | start => exact .start
  | next _ permitted taken ih => exact .next ih (implied _ _ permitted) taken

/-- Take a list of actions in order; `none` as soon as one is not allowed or cannot
be taken. -/
def runActions (step : State → Action → Option State) (allowed : State → Action → Prop)
    [∀ state action, Decidable (allowed state action)] : State → List Action → Option State
  | state, [] => some state
  | state, action :: rest =>
    if allowed state action then (step state action).bind (runActions step allowed · rest)
    else none

theorem runActions_taken [∀ state action, Decidable (allowed state action)]
    (permitted : allowed before action) (taken : step before action = some after) :
    runActions step allowed before (action :: rest) = runActions step allowed after rest := by
  rw [runActions, if_pos permitted, taken, Option.bind_some]

theorem Reachable.run [∀ state action, Decidable (allowed state action)] (reached : Reachable step allowed init before)
    (taken : runActions step allowed before actions = some after) : Reachable step allowed init after := by
  induction actions generalizing before with
  | nil => cases taken; exact reached
  | cons action rest ih =>
    unfold runActions at taken
    split at taken
    · rename_i permitted
      obtain ⟨next, first, remaining⟩ := Option.bind_eq_some_iff.mp taken
      exact ih (.next reached permitted first) remaining
    · cases taken

section

variable [∀ state action, Decidable (allowed state action)]

theorem ran_to {ran : Option State} {result : State → Prop} (check : State → Prop) [DecidablePred check]
    (seen : ran.any (check ·) = true) (shown : ∀ state, ran = some state → check state → result state) :
    ∃ state, ran = some state ∧ result state := by
  obtain ⟨state, there, checked⟩ := (Option.any_eq_true _ _).mp seen
  exact ⟨state, there, shown state there (of_decide_eq_true checked)⟩

theorem reaches {result : State → Prop} (actions : List Action) (check : State → Prop) [DecidablePred check]
    (seen : (runActions step allowed init actions).any (check ·) = true)
    (shown : ∀ state, Reachable step allowed init state → check state → result state) :
    ∃ state, Reachable step allowed init state ∧ result state := by
  obtain ⟨state, ran, checked⟩ := (Option.any_eq_true _ _).mp seen
  exact ⟨state, .run .start ran, shown state (.run .start ran) (of_decide_eq_true checked)⟩

/-- What holds of every reachable state holds after a run. -/
theorem holds_after {property : State → Prop} (always : ∀ state, Reachable step allowed init state → property state)
    (actions : List Action) (check : State → Prop) [DecidablePred check]
    (seen : (runActions step allowed init actions).any (check ·) = true) : ∃ state, property state ∧ check state := by
  obtain ⟨state, ran, checked⟩ := (Option.any_eq_true _ _).mp seen
  exact ⟨state, always state (.run .start ran), of_decide_eq_true checked⟩

end

end Runs

end KernelModules.Data
