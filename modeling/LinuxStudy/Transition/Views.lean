import LinuxStudy.Transition.Runs

/-! Views of a system: what is left of a state when its bookkeeping is forgotten. The moves
of a view are a relation between views, and its runs are sequences of moves.
-/

namespace LinuxStudy.Transition

universe u v w

variable {State : Type u} {Action : Type v} {View : Type w}

/-- The listed moves can be made one after the other. -/
inductive Moves (move : View → Action → View → Prop) : View → List Action → View → Prop
  | nil {start} : Moves move start [] start
  | cons {start next final action rest} (first : move start action next)
    (later : Moves move next rest final)
    : Moves move start (action :: rest) final

/-- The view rule: a view whose moves are the steps of the system, in every state that its
steps lead to, has the runs of the system. By induction on the run, in both directions.
-/
theorem System.moves_iff {system : System State Action} {view : State → View}
    {move : View → Action → View → Prop} {holds : State → Prop}
    (kept : ∀ s action next, holds s → system.step s action = some next → holds next)
    (same
      : ∀ s action after,
          holds s
          → (move (view s) action after
            ↔ ∃ next, system.step s action = some next ∧ view next = after))
    {s : State} {actions : List Action} {final : View} (start : holds s)
    : Moves move (view s) actions final
      ↔ ∃ last, system.exec s actions = some last ∧ view last = final := by
  constructor
  · intro run
    generalize seen : view s = first at run
    induction run generalizing s with
    | nil => exact ⟨s, rfl, seen⟩
    | cons moved _ ih =>
        subst seen
        obtain ⟨next, taken, shown⟩ := (same _ _ _ start).mp moved
        obtain ⟨last, run, shown⟩ := ih (kept _ _ _ start taken) shown
        exact ⟨last, System.exec_cons_eq_some.mpr ⟨next, taken, run⟩, shown⟩
  · intro run
    obtain ⟨last, run, rfl⟩ := run
    induction actions generalizing s with
    | nil =>
        obtain rfl : s = last := Option.some.inj run
        exact .nil
    | cons action rest ih =>
        obtain ⟨next, taken, later⟩ := System.exec_cons_eq_some.mp run
        exact .cons ((same _ _ _ start).mpr ⟨next, taken, rfl⟩)
          (ih (kept _ _ _ start taken) later)

end LinuxStudy.Transition
