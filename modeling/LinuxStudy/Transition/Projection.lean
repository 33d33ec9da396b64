import LinuxStudy.Transition.Runs
import Mathlib.Logic.Function.Basic

/-! Projections of runs: some steps of a run are left out or replaced, and a relation between
the states of both runs says what the projection keeps.
-/

namespace LinuxStudy.Transition

universe u v

variable {State : Type u} {Action : Type v}

/-- The actions that are left of a run when each step is projected in the state it is taken
in; `none` leaves a step out.
-/
def System.project (system : System State Action) (left : State → Action → Option Action)
    : State → List Action → List Action
  | _, [] => []
  | s, action :: rest =>
      (left s action).toList
      ++ match system.step s action with
        | some next => system.project left next rest
        | none => []

/-- What the projection of a step has to do: the projected step is possible in the related
state, or nothing happens there, and the relation is kept.
-/
def System.Matches (system : System State Action) (related : State → State → Prop)
    (next other : State) : Option Action → Prop
  | some action => ∃ after, system.step other action = some after ∧ related next after
  | none => related next other

/-- The projection rule: if every permitted step is matched, every permitted run has its
projection as a run from any related state, by induction on the run.
-/
theorem System.exec_project {system : System State Action} {allowed : State → Action → Prop}
    [∀ s action, Decidable (allowed s action)] {left : State → Action → Option Action}
    {related : State → State → Prop}
    (matched
      : ∀ s other action next,
          related s other
          → allowed s action
          → system.step s action = some next
          → system.Matches related next other (left s action))
    {s other final : State} {actions : List Action} (start : related s other)
    (run : (system.restrict allowed).exec s actions = some final)
    : ∃ projected,
        system.exec other (system.project left s actions) = some projected
        ∧ related final projected := by
  induction actions generalizing s other with
  | nil =>
      obtain rfl : s = final := Option.some.inj run
      exact ⟨other, rfl, start⟩
  | cons action rest ih =>
      obtain ⟨next, taken, later⟩ := System.exec_cons_eq_some.mp run
      obtain ⟨permitted, taken⟩ := Option.ite_none_right_eq_some.mp taken
      have step := matched s other action next start permitted taken
      have tail : system.project left s (action :: rest)
          = (left s action).toList ++ system.project left next rest := by
        simp [System.project, taken]
      rw [tail]
      cases kept : left s action with
      | none =>
          rw [kept] at step
          exact ih step later
      | some action' =>
          rw [kept] at step
          obtain ⟨after, taken', still⟩ := step
          obtain ⟨projected, run', agree⟩ := ih still later
          exact ⟨projected, System.exec_cons_eq_some.mpr ⟨after, taken', run'⟩, agree⟩

/-- The actions of a projected run are those that its steps have left. -/
theorem System.left_of_mem_project {system : System State Action}
    {left : State → Action → Option Action} {s : State} {actions : List Action}
    {action : Action} (member : action ∈ system.project left s actions)
    : ∃ before whole, left before whole = some action := by
  induction actions generalizing s with
  | nil => exact absurd member List.not_mem_nil
  | cons first rest ih =>
      rcases List.mem_append.mp member with here | later
      · exact ⟨s, first, Option.mem_toList.mp here⟩
      · cases taken : system.step s first with
        | none => simp [taken] at later
        | some next =>
            rw [taken] at later
            exact ih later

/-- Replacing one entry keeps two functions equal away from `k`: the records of all parties
but one stay the same in a run and its projection.
-/
theorem update_eq_of_ne {Party : Type u} {Record : Type v} [DecidableEq Party] {k c : Party}
    {f g : Party → Record} {x y : Record} (same : ∀ other, other ≠ k → f other = g other)
    (value : c ≠ k → x = y) {other : Party} (different : other ≠ k)
    : Function.update f c x other = Function.update g c y other := by
  by_cases mine : other = c
  · subst mine
    simp [value different]
  · simp [mine, same other different]

end LinuxStudy.Transition
