import LinuxStudy.Transition.Progress

/-! What one party can bring about in the end, whatever the others do before: in every state
that any steps lead to, its own steps lead to the goal.
-/

namespace LinuxStudy.Transition

universe u v

variable {State : Type u} {Action : Type v} {system : System State Action}

/-- Some run leads from the one state to the other. -/
def System.Leads (system : System State Action) (s final : State) : Prop :=
  ∃ actions, system.exec s actions = some final

theorem System.Leads.refl (s : State) : system.Leads s s := ⟨[], rfl⟩

theorem System.Leads.step {s next final : State} {action : Action}
    (taken : system.step s action = some next) (later : system.Leads next final)
    : system.Leads s final := by
  obtain ⟨actions, run⟩ := later
  exact ⟨action :: actions, System.exec_cons_eq_some.mpr ⟨next, taken, run⟩⟩

/-- One run after the other, by induction on the first. -/
theorem System.Leads.trans {s middle final : State} (first : system.Leads s middle)
    (later : system.Leads middle final)
    : system.Leads s final := by
  obtain ⟨actions, run⟩ := first
  induction actions generalizing s with
  | nil =>
      obtain rfl : s = middle := Option.some.inj run
      exact later
  | cons action rest ih =>
      obtain ⟨next, taken, run⟩ := System.exec_cons_eq_some.mp run
      exact .step taken (ih run)

/-- What every step keeps, a run keeps. -/
theorem System.Leads.kept {holds : State → Prop}
    (kept : ∀ s action next, holds s → system.step s action = some next → holds next)
    {s final : State} (run : system.Leads s final) (start : holds s)
    : holds final := by
  obtain ⟨actions, run⟩ := run
  exact System.exec_invariant kept start run

/-- A run leads from one reachable state to another one. -/
theorem System.Leads.reachable {s final : State} (run : system.Leads s final)
    (reached : system.Reachable s)
    : system.Reachable final :=
  run.kept (fun _ _ _ before taken => System.Reachable.next before taken) reached

/-- What is inevitable is reached by some run. -/
theorem System.Inevitable.leads {may : State → Action → Prop} {goal : State → Prop} {s : State}
    (sure : system.Inevitable may goal s)
    : ∃ final, system.Leads s final ∧ goal final := by
  obtain ⟨actions, final, run, arrived⟩ := sure.exists_exec
  exact ⟨final, ⟨actions, run⟩, arrived⟩

/-- Whatever steps are taken first, the steps in `may` lead to the goal afterwards. -/
def System.Assured (system : System State Action) (may : State → Action → Prop)
    (goal : State → Prop) (s : State) : Prop :=
  ∀ after, system.Leads s after → system.Inevitable may goal after

/-- What every step keeps and what makes the goal inevitable, assures it. -/
theorem System.Assured.of_kept {may : State → Action → Prop} {goal holds : State → Prop}
    (kept : ∀ s action next, holds s → system.step s action = some next → holds next)
    (sure : ∀ s, holds s → system.Inevitable may goal s) {s : State} (start : holds s)
    : system.Assured may goal s :=
  fun _ run => sure _ (run.kept kept start)

/-- A goal is not assured where a run leads to a state in which it is lost for good. -/
theorem System.not_assured {may : State → Action → Prop} {goal lost : State → Prop}
    (kept : ∀ s action next, lost s → system.step s action = some next → lost next)
    (excluded : ∀ s, lost s → ¬ goal s) {s after : State} (run : system.Leads s after)
    (gone : lost after)
    : ¬ system.Assured may goal s := by
  intro assured
  obtain ⟨final, later, arrived⟩ := (assured after run).leads
  exact excluded final (later.kept kept gone) arrived

end LinuxStudy.Transition
