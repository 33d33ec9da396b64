import Mathlib.Algebra.GroupWithZero.Nat
import LinuxStudy.Transition.Runs

/-! A program that is launched again and again on one machine. What a run leaves behind meets
the next run, and processes of an earlier run may still be there.
-/

namespace LinuxStudy.Transition

universe u v w

variable {Machine : Type u} {Run : Type v} {Action : Type w}

/-- How a run begins, what a step does to the machine and to the run, and when a run has come
to its end so that the next one may follow.
-/
structure Program (Machine : Type u) (Run : Type v) (Action : Type w) where
  fresh : Run
  step : Machine → Run → Action → Option (Machine × Run)
  ended : Run → Bool

/-- The machine, the run launched last, and the runs before it, the latest of them first. -/
structure Launches (Machine : Type u) (Run : Type v) where
  machine : Machine
  current : Run
  earlier : List Run

inductive LaunchAction (Action : Type w)
  | launch
  | current (action : Action)
  | earlier (run : Nat) (action : Action)
  deriving DecidableEq, Repr

namespace Program

/-- All launches of the program on one machine. -/
def relaunched (program : Program Machine Run Action) (machine : Machine)
    : System (Launches Machine Run) (LaunchAction Action) where
  Initial s := s = ⟨machine, program.fresh, []⟩
  step s
    | .launch =>
        if program.ended s.current then
          some { s with current := program.fresh, earlier := s.current :: s.earlier }
        else
          none
    | .current action =>
        (program.step s.machine s.current action).map fun next =>
          { s with machine := next.1, current := next.2 }
    | .earlier i action =>
        s.earlier[i]?.bind fun run =>
          (program.step s.machine run action).map fun next =>
            { s with machine := next.1, earlier := s.earlier.set i next.2 }

/-- One run alone. -/
def alone (program : Program Machine Run Action) (machine : Machine)
    : System (Machine × Run) Action where
  Initial s := s = (machine, program.fresh)
  step s action := program.step s.1 s.2 action

/-- Every launch finds the run before it in a state that meets `handsOn`. -/
def HandsOn (handsOn : Machine → Run → Prop) (s : Launches Machine Run)
    (action : LaunchAction Action)
    : Prop :=
  action = .launch → handsOn s.machine s.current

instance [DecidableEq Action] (handsOn : Machine → Run → Prop)
    [∀ machine run, Decidable (handsOn machine run)] (s : Launches Machine Run)
    (action : LaunchAction Action)
    : Decidable (HandsOn handsOn s action) :=
  inferInstanceAs (Decidable (action = .launch → handsOn s.machine s.current))

/-- What an invariant of the running run needs in order to survive further launches. `past` is
what is known of the runs before: they no longer touch what `holds` speaks of.
-/
structure Inherits (program : Program Machine Run Action) (holds : Machine → Run → Prop)
    (past : Run → Prop) (handsOn : Machine → Run → Prop)
    : Prop where
  kept
    : ∀ {machine run action next},
        holds machine run → program.step machine run action = some next → holds next.1 next.2
  stays
    : ∀ {machine run action next},
        past run → program.step machine run action = some next → past next.2
  harmless
    : ∀ {machine run action next current},
        past run
        → program.step machine run action = some next
        → holds machine current
        → holds next.1 current
  launched
    : ∀ {machine run},
        holds machine run → handsOn machine run → past run ∧ holds machine program.fresh

/-- The rule for launches: if every launch is handed a good machine, the invariant holds of
the run launched last, and no earlier run disturbs it.
-/
theorem Inherits.invariant {program : Program Machine Run Action}
    {holds : Machine → Run → Prop} {past : Run → Prop} {handsOn : Machine → Run → Prop}
    (inherits : program.Inherits holds past handsOn) {machine : Machine}
    (start : holds machine program.fresh) {s : Launches Machine Run}
    (reached : (program.relaunched machine).ReachableBy (HandsOn handsOn) s)
    : holds s.machine s.current ∧ ∀ run ∈ s.earlier, past run := by
  apply reached.invariant
  · intro _ same
    subst same
    exact ⟨start, by simp⟩
  · intro s action next _ ⟨good, quiet⟩ permitted taken
    cases action with
    | launch =>
        obtain ⟨_, same⟩ := Option.ite_none_right_eq_some.mp taken
        obtain rfl := Option.some.inj same
        obtain ⟨passed, fresh⟩ := inherits.launched good (permitted rfl)
        exact ⟨fresh, List.forall_mem_cons.mpr ⟨passed, quiet⟩⟩
    | current action =>
        obtain ⟨after, ran, same⟩ := Option.map_eq_some_iff.mp taken
        subst same
        exact ⟨inherits.kept good ran, quiet⟩
    | earlier i action =>
        obtain ⟨run, found, taken⟩ := Option.bind_eq_some_iff.mp taken
        obtain ⟨after, ran, same⟩ := Option.map_eq_some_iff.mp taken
        subst same
        have passed := quiet run (List.mem_of_getElem? found)
        refine ⟨inherits.harmless passed ran good, fun other member => ?_⟩
        rcases List.mem_or_eq_of_mem_set member with old | replaced
        · exact quiet other old
        · exact replaced ▸ inherits.stays passed ran

end Program

-----------------------------------------------------------------------------------------
-- Accounts over all launches
-----------------------------------------------------------------------------------------

/-- Replacing one element of a list exchanges its share of a sum. -/
theorem sum_map_set {α : Type w} {elements : List α} {i : Nat} {old : α}
    (found : elements[i]? = some old) (new : α) (amount : α → Nat)
    : ((elements.set i new).map amount).sum + amount old
      = (elements.map amount).sum + amount new := by
  induction elements generalizing i with
  | nil => simp at found
  | cons first rest ih =>
      cases i with
      | zero =>
          obtain rfl : first = old := by simpa using found
          simp only [List.set_cons_zero, List.map_cons, List.sum_cons]
          omega
      | succ i =>
          have later := ih (by simpa using found)
          simp only [List.set_cons_succ, List.map_cons, List.sum_cons]
          omega

/-- Over all launches, those whose processes are still there included. -/
def Launches.total (s : Launches Machine Run) (amount : Run → Nat) : Nat :=
  ((s.current :: s.earlier).map amount).sum

/-- The rule for accounts: if what a step pays in is in the machine behind it or is paid out by
the step, then the machine always holds what all the runs together have paid in and not out.
-/
theorem Program.balanced {program : Program Machine Run Action} {machine : Machine}
    (paidIn paidOut : Run → Nat) (held : Machine → Nat) (empty : held machine = 0)
    (fresh : paidIn program.fresh = 0 ∧ paidOut program.fresh = 0)
    (kept
      : ∀ {machine run action next},
          program.step machine run action = some next
          → paidIn next.2 + (paidOut run + held machine)
            = paidIn run + (paidOut next.2 + held next.1))
    {s : Launches Machine Run} (reached : (program.relaunched machine).Reachable s)
    : s.total paidIn = s.total paidOut + held s.machine := by
  obtain ⟨nothingIn, nothingOut⟩ := fresh
  apply reached.invariant
  · intro _ same
    subst same
    simp [Launches.total, nothingIn, nothingOut, empty]
  · intro s action next balanced taken
    simp only [Launches.total, List.map_cons, List.sum_cons] at balanced ⊢
    cases action with
    | launch =>
        obtain ⟨_, same⟩ := Option.ite_none_right_eq_some.mp taken
        obtain rfl := Option.some.inj same
        simp only [List.map_cons, List.sum_cons]
        omega
    | current action =>
        obtain ⟨after, ran, same⟩ := Option.map_eq_some_iff.mp taken
        subst same
        have moved := kept ran
        simp only
        omega
    | earlier i action =>
        obtain ⟨run, found, taken⟩ := Option.bind_eq_some_iff.mp taken
        obtain ⟨after, ran, same⟩ := Option.map_eq_some_iff.mp taken
        subst same
        have moved := kept ran
        have exchangedIn := sum_map_set found after.2 paidIn
        have exchangedOut := sum_map_set found after.2 paidOut
        simp only
        omega

end LinuxStudy.Transition
