import LinuxStudy.Transition.Runs
import Mathlib.Data.List.Forall2

/-! What an observer sees of a run, and two runs that look the same to it. The second run
takes a twin of each action of the first one.
-/

namespace LinuxStudy.Transition

universe u v w

variable {State : Type u} {Action : Type v} {Seen : Type w}

/-- What is seen of the steps of a run, each between the states before and after it. -/
def System.observe (system : System State Action) (sees : State → State → List Seen)
    : State → List Action → List Seen
  | _, [] => []
  | s, action :: rest =>
      match system.step s action with
      | some next => sees s next ++ system.observe sees next rest
      | none => []

theorem System.observe_cons {system : System State Action} {sees : State → State → List Seen}
    {s next : State} {action : Action} {rest : List Action}
    (taken : system.step s action = some next)
    : system.observe sees s (action :: rest) = sees s next ++ system.observe sees next rest := by
  simp [System.observe, taken]

/-- The unwinding rule: if twin steps keep two states alike and look the same, so do whole
runs, by induction on the first one.
-/
theorem System.observe_eq {system : System State Action} {sees : State → State → List Seen}
    {alike : State → State → Prop} {twin : Action → Action → Prop}
    (kept
      : ∀ s t action action' next other,
          alike s t
          → twin action action'
          → system.step s action = some next
          → system.step t action' = some other
          → alike next other ∧ sees s next = sees t other)
    {s t final final' : State} {actions actions' : List Action} (start : alike s t)
    (twins : List.Forall₂ twin actions actions') (run : system.exec s actions = some final)
    (run' : system.exec t actions' = some final')
    : alike final final' ∧ system.observe sees s actions = system.observe sees t actions' := by
  induction twins generalizing s t with
  | nil =>
      obtain rfl : s = final := Option.some.inj run
      obtain rfl : t = final' := Option.some.inj run'
      exact ⟨start, rfl⟩
  | cons twin _ ih =>
      obtain ⟨next, taken, later⟩ := System.exec_cons_eq_some.mp run
      obtain ⟨other, taken', later'⟩ := System.exec_cons_eq_some.mp run'
      obtain ⟨still, same⟩ := kept _ _ _ _ _ _ start twin taken taken'
      obtain ⟨ends, rest⟩ := ih still later later'
      refine ⟨ends, ?_⟩
      rw [System.observe_cons taken, System.observe_cons taken', same, rest]

end LinuxStudy.Transition
