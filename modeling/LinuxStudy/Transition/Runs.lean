import Mathlib.Data.List.Basic

/-! Labelled transition systems whose steps are partial functions of the action taken.
Every scheduling and environment choice lives in the action label, so a run is a list of
actions and a finite run can be evaluated.
-/

namespace LinuxStudy.Transition

universe u v

/-- A system has initial states and, for each action, at most one successor state. -/
structure System (State : Type u) (Action : Type v) where
  Initial : State → Prop
  step : State → Action → Option State

variable {State : Type u} {Action : Type v}

/-- Take the listed actions one after the other; `none` when one of them is disabled. -/
def System.exec (system : System State Action) : State → List Action → Option State
  | s, [] => some s
  | s, action :: rest => (system.step s action).bind fun next => system.exec next rest

/-- The states reached from an initial state by steps that all meet `allowed`.
The condition may look at the state before the step and at the action.
-/
inductive System.ReachableBy (system : System State Action)
    (allowed : State → Action → Prop) : State → Prop
  | initial {s} (start : system.Initial s) : ReachableBy system allowed s
  | step {s action next} (reached : ReachableBy system allowed s)
    (permitted : allowed s action) (taken : system.step s action = some next)
    : ReachableBy system allowed next

/-- The states reached by any steps at all. -/
def System.Reachable (system : System State Action) : State → Prop :=
  system.ReachableBy fun _ _ => True

/-- An action has a successor in this state. -/
def System.Enabled (system : System State Action) (s : State) (action : Action) : Prop :=
  ∃ next, system.step s action = some next

/-- A nonempty run is a first step followed by the rest of the run. -/
theorem System.exec_cons_eq_some {system : System State Action} {s final : State}
    {action : Action} {rest : List Action}
    : system.exec s (action :: rest) = some final
      ↔ ∃ next, system.step s action = some next ∧ system.exec next rest = some final := by
  simp [System.exec, Option.bind_eq_some_iff]

-----------------------------------------------------------------------------------------
-- Reachability and invariants
-----------------------------------------------------------------------------------------

/-- Steps that meet a stronger condition reach fewer states. -/
theorem System.ReachableBy.mono {system : System State Action}
    {strong weak : State → Action → Prop} {s : State}
    (reached : system.ReachableBy strong s)
    (weaker : ∀ s action, strong s action → weak s action)
    : system.ReachableBy weak s := by
  induction reached with
  | initial start => exact .initial start
  | step _ permitted taken ih => exact ih.step (weaker _ _ permitted) taken

/-- A state reached by restricted steps is reachable. -/
theorem System.ReachableBy.reachable {system : System State Action}
    {allowed : State → Action → Prop} {s : State}
    (reached : system.ReachableBy allowed s)
    : system.Reachable s :=
  reached.mono fun _ _ _ => trivial

/-- One more step stays reachable. -/
theorem System.Reachable.next {system : System State Action} {s next : State}
    {action : Action} (reached : system.Reachable s)
    (taken : system.step s action = some next)
    : system.Reachable next :=
  System.ReachableBy.step reached trivial taken

/-- The invariant rule: what holds initially and is kept by every permitted step from a
reached state holds of every reached state.
-/
theorem System.ReachableBy.invariant {system : System State Action}
    {allowed : State → Action → Prop} {holds : State → Prop}
    (initially : ∀ s, system.Initial s → holds s)
    (kept
      : ∀ s action next,
          system.ReachableBy allowed s
          → holds s
          → allowed s action
          → system.step s action = some next
          → holds next)
    {s : State} (reached : system.ReachableBy allowed s)
    : holds s := by
  induction reached with
  | initial start => exact initially _ start
  | step before permitted taken ih => exact kept _ _ _ before ih permitted taken

/-- The invariant rule for unrestricted steps. -/
theorem System.Reachable.invariant {system : System State Action} {holds : State → Prop}
    (initially : ∀ s, system.Initial s → holds s)
    (kept
      : ∀ s action next,
          holds s → system.step s action = some next → holds next)
    {s : State} (reached : system.Reachable s)
    : holds s :=
  System.ReachableBy.invariant initially (fun _ _ _ _ before _ => kept _ _ _ before) reached

/-- What every step keeps, holds at the end of a run, by induction on the run. -/
theorem System.exec_invariant {system : System State Action} {holds : State → Prop}
    (kept : ∀ s action next, holds s → system.step s action = some next → holds next)
    {s final : State} {actions : List Action} (start : holds s)
    (run : system.exec s actions = some final)
    : holds final := by
  induction actions generalizing s with
  | nil =>
      obtain rfl : s = final := Option.some.inj run
      exact start
  | cons action rest ih =>
      obtain ⟨next, taken, later⟩ := System.exec_cons_eq_some.mp run
      exact ih (kept _ _ _ start taken) later

/-- A run from a reachable state ends in a reachable state. -/
theorem System.Reachable.exec {system : System State Action} {s final : State}
    {actions : List Action} (reached : system.Reachable s)
    (run : system.exec s actions = some final)
    : system.Reachable final :=
  System.exec_invariant (fun _ _ _ before taken => System.Reachable.next before taken) reached run

/-- The final state of an evaluated run from an initial state is reachable. -/
theorem System.reachable_of_run {system : System State Action} (start : State)
    (initially : system.Initial start) (actions : List Action)
    (run : (system.exec start actions).isSome)
    : system.Reachable ((system.exec start actions).get run) := by
  have reached : system.Reachable start := .initial initially
  exact reached.exec (Option.some_get run).symm

/-- The same system with every step outside the condition disabled. -/
def System.restrict (system : System State Action) (allowed : State → Action → Prop)
    [∀ s action, Decidable (allowed s action)] : System State Action where
  Initial := system.Initial
  step s action := if allowed s action then system.step s action else none

/-- Reaching a state in the restricted system is reaching it by permitted steps. -/
theorem System.reachable_restrict_iff {system : System State Action}
    {allowed : State → Action → Prop} [∀ s action, Decidable (allowed s action)] {s : State}
    : (system.restrict allowed).Reachable s ↔ system.ReachableBy allowed s := by
  constructor
  · intro reached
    induction reached with
    | initial start => exact .initial start
    | step _ _ taken ih =>
        obtain ⟨permitted, taken⟩ := Option.ite_none_right_eq_some.mp taken
        exact ih.step permitted taken
  · intro reached
    induction reached with
    | initial start => exact .initial start
    | step _ permitted taken ih =>
        exact ih.next (Option.ite_none_right_eq_some.mpr ⟨permitted, taken⟩)

/-- A run of the restricted system is one of any system that is restricted less. -/
theorem System.exec_restrict_mono {system : System State Action}
    {strong weak : State → Action → Prop} [∀ s action, Decidable (strong s action)]
    [∀ s action, Decidable (weak s action)]
    (weaker : ∀ s action, strong s action → weak s action) {s final : State}
    {actions : List Action} (run : (system.restrict strong).exec s actions = some final)
    : (system.restrict weak).exec s actions = some final := by
  induction actions generalizing s with
  | nil => exact run
  | cons action rest ih =>
      obtain ⟨next, taken, later⟩ := System.exec_cons_eq_some.mp run
      obtain ⟨permitted, taken⟩ := Option.ite_none_right_eq_some.mp taken
      have first : (system.restrict weak).step s action = some next :=
        Option.ite_none_right_eq_some.mpr ⟨weaker s action permitted, taken⟩
      exact System.exec_cons_eq_some.mpr ⟨next, first, ih later⟩

end LinuxStudy.Transition
