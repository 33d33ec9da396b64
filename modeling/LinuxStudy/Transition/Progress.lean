import LinuxStudy.Transition.Runs

/-! Inevitability: some steps alone lead to a goal, whichever of them are taken. -/

namespace LinuxStudy.Transition

universe u v

variable {State : Type u} {Action : Type v}

/-- Every way of taking the steps in `may` reaches the goal after finitely many of them, and
such a step is possible as long as the goal is not reached.
-/
inductive System.Inevitable (system : System State Action) (may : State → Action → Prop)
    (goal : State → Prop) : State → Prop
  | now {s} (arrived : goal s) : Inevitable system may goal s
  | later {s} (possible : ∃ action next, may s action ∧ system.step s action = some next)
    (all
      : ∀ action next,
          may s action → system.step s action = some next → Inevitable system may goal next)
    : Inevitable system may goal s

/-- The measure rule: an invariant that keeps some step possible until the goal, and a
measure that every step lowers.
-/
theorem System.Inevitable.of_measure {system : System State Action}
    {may : State → Action → Prop} {goal : State → Prop} (holds : State → Prop)
    (measure : State → Nat)
    (kept
      : ∀ s action next,
          holds s → may s action → system.step s action = some next → holds next)
    (progress
      : ∀ s,
          holds s
          → goal s ∨ ∃ action next, may s action ∧ system.step s action = some next)
    (lowers
      : ∀ s action next,
          holds s
          → may s action
          → system.step s action = some next
          → measure next < measure s)
    {s : State} (start : holds s)
    : system.Inevitable may goal s := by
  generalize bound : measure s = n
  induction n using Nat.strongRecOn generalizing s with
  | ind n ih =>
      subst bound
      rcases progress s start with arrived | possible
      · exact .now arrived
      · refine .later possible fun action next permitted taken => ?_
        exact ih _ (lowers s action next start permitted taken)
          (kept s action next start permitted taken) rfl

/-- What is inevitable is in particular reached by some run of the permitted steps. -/
theorem System.Inevitable.exists_exec {system : System State Action}
    {may : State → Action → Prop} {goal : State → Prop} {s : State}
    (sure : system.Inevitable may goal s)
    : ∃ actions final, system.exec s actions = some final ∧ goal final := by
  induction sure with
  | now arrived => exact ⟨[], _, rfl, arrived⟩
  | later possible all ih =>
      obtain ⟨action, next, permitted, taken⟩ := possible
      obtain ⟨actions, final, run, arrived⟩ := ih action next permitted taken
      exact ⟨action :: actions, final, System.exec_cons_eq_some.mpr ⟨next, taken, run⟩, arrived⟩

/-- A run of the steps in `may` alone that reaches what is inevitable. -/
theorem System.Inevitable.exists_restrict_exec {system : System State Action}
    {may : State → Action → Prop} [∀ s action, Decidable (may s action)]
    {goal : State → Prop} {s : State} (sure : system.Inevitable may goal s)
    : ∃ actions final, (system.restrict may).exec s actions = some final ∧ goal final := by
  induction sure with
  | now arrived => exact ⟨[], _, rfl, arrived⟩
  | later possible all ih =>
      obtain ⟨action, next, permitted, taken⟩ := possible
      obtain ⟨actions, final, run, arrived⟩ := ih action next permitted taken
      have first : (system.restrict may).step _ action = some next :=
        Option.ite_none_right_eq_some.mpr ⟨permitted, taken⟩
      exact ⟨action :: actions, final, System.exec_cons_eq_some.mpr ⟨next, first, run⟩, arrived⟩

end LinuxStudy.Transition
