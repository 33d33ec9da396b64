import LinuxStudy.NamedSemBinProcess.Model

/-! Launch after launch of `named_sem_bin_process.c`. One permit travels through the semaphore
and the two processes; a run that leaves it in the semaphore or removes the name hands it on.
-/

namespace LinuxStudy.NamedSemBinProcess

open Transition Posix Sync

/-- 1 between the wait and the post of a process, else 0. -/
def ParentPc.inside : ParentPc → Nat
  | .critical | .semPost => 1
  | .semOpen | .fork | .semWait | .waitpid | .semClose | .semUnlink | .exited => 0

def ChildPc.inside : ChildPc → Nat
  | .critical | .semPost => 1
  | .unborn | .semWait | .semClose | .exited => 0

/-- The process has made its last call of `sem_wait` and `sem_post`. -/
def ParentPc.isPast : ParentPc → Bool
  | .waitpid | .semClose | .semUnlink | .exited => true
  | .semOpen | .fork | .semWait | .critical | .semPost => false

/-- A child that was not born when its parent was cut off makes no call either. -/
def ChildPc.isPast : ChildPc → Bool
  | .unborn | .semClose | .exited => true
  | .semWait | .critical | .semPost => false

/-- The parent is behind its `waitpid`. -/
def ParentPc.hasReaped : ParentPc → Bool
  | .semClose | .semUnlink | .exited => true
  | .semOpen | .fork | .semWait | .critical | .semPost | .waitpid => false

/-- Where the one permit of a run is, and how far its two processes have come. -/
structure Permit (objects : Objects) (run : Run) : Prop where
  semaphore
    : ∃ value,
        Semaphore objects semName 1 run.semValue value
        ∧ value + run.parent.inside + run.child.inside = 1
  opened : run.semValue = none ↔ run.parent = .semOpen
  found : run.semValue ≠ none → run.found = some 1
  born : run.child = .unborn ↔ run.parent = .semOpen ∨ run.parent = .fork
  reaped : run.parent.hasReaped → run.childGone

/-- Neither process of the run will call `sem_wait` or `sem_post` any more. -/
def Run.Past (run : Run) : Prop :=
  (run.parentCut ∨ run.parent.isPast) ∧ (run.childCut ∨ run.child.isPast)

/-- What a run has to leave to the next one: no process that may still use the semaphore, and,
unless the name was removed, no process cut off between its wait and its post.
-/
def HandsOn (objects : Objects) (run : Run) : Prop :=
  run.Past
  ∧ (objects.names semName ≠ none → run.parent.inside = 0 ∧ run.child.inside = 0)

instance (run : Run) : Decidable run.Past := inferInstanceAs (Decidable (_ ∧ _))

instance (objects : Objects) (run : Run) : Decidable (HandsOn objects run) :=
  inferInstanceAs (Decidable (_ ∧ _))

section Step

variable {objects : Objects} {run : Run} {next : Objects × Run}

/-- The parent's statements, by its program point. -/
theorem Permit.keptByParent (permit : Permit objects run)
    (taken : parentProcess objects run = some next)
    : Permit next.1 next.2 := by
  obtain ⟨⟨value, semaphore, balance⟩, opened, found, born, reaped⟩ := permit
  cases here : run.parent <;> simp only [parentProcess, here] at taken
  all_goals simp only [here, reduceCtorEq, iff_true, iff_false, or_self, or_true, true_or]
    at balance opened born reaped
  case semOpen =>
    obtain rfl := Option.some.inj taken
    rw [opened] at semaphore
    rw [born] at balance
    refine ⟨⟨1, semaphore.opened, ?_⟩, by simp, fun _ => semaphore.opened.content, ?_, ?_⟩
    · simp [born, ParentPc.inside, ChildPc.inside]
    · simp [born]
    · simp [ParentPc.hasReaped]
  case fork =>
    obtain rfl := Option.some.inj taken
    rw [born] at balance
    exact ⟨⟨value, semaphore, balance⟩, by simp [opened], found, by simp,
      by simp [ParentPc.hasReaped]⟩
  case semWait =>
    obtain ⟨after, granted, rfl⟩ := Option.map_eq_some_iff.mp taken
    obtain ⟨sem, held, granted⟩ := Option.bind_eq_some_iff.mp granted
    rw [held] at semaphore
    obtain ⟨lower, lowered, -, semaphore⟩ := semaphore.waitOn granted
    refine ⟨⟨lower, held ▸ semaphore, ?_⟩, by simp [opened], found, by simp [born],
      by simp [ParentPc.hasReaped]⟩
    change value + 0 + run.child.inside = 1 at balance
    change lower + 1 + run.child.inside = 1
    omega
  case critical =>
    obtain rfl := Option.some.inj taken
    exact ⟨⟨value, semaphore, balance⟩, by simp [opened], found, by simp [born],
      by simp [ParentPc.hasReaped]⟩
  case semPost =>
    obtain ⟨after, posted, rfl⟩ := Option.map_eq_some_iff.mp taken
    obtain ⟨sem, held, posted⟩ := Option.bind_eq_some_iff.mp posted
    rw [held] at semaphore
    obtain ⟨-, semaphore⟩ := semaphore.postOn posted
    refine ⟨⟨value + 1, held ▸ semaphore, ?_⟩, by simp [opened], found, by simp [born],
      by simp [ParentPc.hasReaped]⟩
    change value + 1 + run.child.inside = 1 at balance
    change value + 1 + 0 + run.child.inside = 1
    omega
  case waitpid =>
    obtain ⟨gone, same⟩ := Option.ite_none_right_eq_some.mp taken
    obtain rfl := Option.some.inj same
    exact ⟨⟨value, semaphore, balance⟩, by simp [opened], found, by simp [born], fun _ => gone⟩
  case semClose =>
    obtain rfl := Option.some.inj taken
    exact ⟨⟨value, semaphore, balance⟩, by simp [opened], found, by simp [born], reaped⟩
  case semUnlink =>
    obtain rfl := Option.some.inj taken
    exact ⟨⟨value, semaphore.unlink, balance⟩, by simp [opened], found, by simp [born], reaped⟩
  case exited => contradiction

/-- The child's statements, by its program point. -/
theorem Permit.keptByChild (permit : Permit objects run)
    (taken : childProcess objects run = some next)
    : Permit next.1 next.2 := by
  obtain ⟨⟨value, semaphore, balance⟩, opened, found, born, reaped⟩ := permit
  cases here : run.child <;> simp only [childProcess, here] at taken
  all_goals simp only [here, Run.childGone, reduceCtorEq, false_iff, decide_false,
    Bool.or_false] at balance born reaped
  case unborn | exited => contradiction
  case semWait =>
    obtain ⟨after, granted, rfl⟩ := Option.map_eq_some_iff.mp taken
    obtain ⟨sem, held, granted⟩ := Option.bind_eq_some_iff.mp granted
    rw [held] at semaphore
    obtain ⟨lower, lowered, -, semaphore⟩ := semaphore.waitOn granted
    refine ⟨⟨lower, held ▸ semaphore, ?_⟩, opened, found, by simp [born],
      by simpa [Run.childGone] using reaped⟩
    change value + run.parent.inside + 0 = 1 at balance
    change lower + run.parent.inside + 1 = 1
    omega
  case critical =>
    obtain rfl := Option.some.inj taken
    exact ⟨⟨value, semaphore, balance⟩, opened, found, by simp [born],
      by simpa [Run.childGone] using reaped⟩
  case semPost =>
    obtain ⟨after, posted, rfl⟩ := Option.map_eq_some_iff.mp taken
    obtain ⟨sem, held, posted⟩ := Option.bind_eq_some_iff.mp posted
    rw [held] at semaphore
    obtain ⟨-, semaphore⟩ := semaphore.postOn posted
    refine ⟨⟨value + 1, held ▸ semaphore, ?_⟩, opened, found, by simp [born],
      by simpa [Run.childGone] using reaped⟩
    change value + run.parent.inside + 1 = 1 at balance
    change value + 1 + run.parent.inside + 0 = 1
    omega
  case semClose =>
    obtain rfl := Option.some.inj taken
    exact ⟨⟨value, semaphore, balance⟩, opened, found, by simp [born], by simp [Run.childGone]⟩

/-- Cutting a process off moves nothing. -/
theorem Permit.kept {action : Action} (permit : Permit objects run)
    (taken : step objects run action = some next)
    : Permit next.1 next.2 := by
  cases action <;> simp only [step] at taken
  case parent => exact permit.keptByParent (Option.ite_none_left_eq_some.mp taken).2
  case child => exact permit.keptByChild (Option.ite_none_left_eq_some.mp taken).2
  case cutParent =>
    obtain ⟨-, same⟩ := Option.ite_none_left_eq_some.mp taken
    obtain rfl := Option.some.inj same
    exact ⟨permit.semaphore, permit.opened, permit.found, permit.born, permit.reaped⟩
  case cutChild =>
    obtain ⟨-, same⟩ := Option.ite_none_left_eq_some.mp taken
    obtain rfl := Option.some.inj same
    exact ⟨permit.semaphore, permit.opened, permit.found, permit.born,
      fun _ => by simp [Run.childGone]⟩

/-- All that a past run still does is to remove the name. -/
theorem Run.Past.step {action : Action} (past : run.Past)
    (taken : step objects run action = some next)
    : next.2.Past ∧ (next.1 = objects ∨ next.1 = objects.unlink semName) := by
  obtain ⟨parentPast, childPast⟩ := past
  cases action <;> obtain ⟨alive, taken⟩ := Option.ite_none_left_eq_some.mp taken
  case parent =>
    have there := parentPast.resolve_left alive
    cases here : run.parent <;> simp only [here, parentProcess] at taken there
    case semOpen | fork | semWait | critical | semPost => contradiction
    case waitpid =>
      obtain ⟨-, same⟩ := Option.ite_none_right_eq_some.mp taken
      obtain rfl := Option.some.inj same
      exact ⟨⟨Or.inr rfl, childPast⟩, Or.inl rfl⟩
    case semClose => exact Option.some.inj taken ▸ ⟨⟨Or.inr rfl, childPast⟩, Or.inl rfl⟩
    case semUnlink => exact Option.some.inj taken ▸ ⟨⟨Or.inr rfl, childPast⟩, Or.inr rfl⟩
    case exited => contradiction
  case child =>
    have there := childPast.resolve_left alive
    cases here : run.child <;> simp only [here, childProcess] at taken there
    case unborn | semWait | critical | semPost | exited => contradiction
    case semClose => exact Option.some.inj taken ▸ ⟨⟨parentPast, Or.inr rfl⟩, Or.inl rfl⟩
  case cutParent => exact Option.some.inj taken ▸ ⟨⟨Or.inl rfl, childPast⟩, Or.inl rfl⟩
  case cutChild => exact Option.some.inj taken ▸ ⟨⟨parentPast, Or.inl rfl⟩, Or.inl rfl⟩

end Step

/-- Removing the name takes nothing from a run. -/
theorem Permit.unlink {objects : Objects} {run : Run} (permit : Permit objects run)
    : Permit (objects.unlink semName) run := by
  obtain ⟨⟨value, semaphore, balance⟩, opened, found, born, reaped⟩ := permit
  exact ⟨⟨value, semaphore.unlink, balance⟩, opened, found, born, reaped⟩

/-- A run about to open a name that offers 1. -/
theorem Permit.fresh {objects : Objects} (offers : objects.Offers semName 1)
    : Permit objects fresh :=
  ⟨⟨1, .unopened offers, rfl⟩, by simp [NamedSemBinProcess.fresh], by
    simp [NamedSemBinProcess.fresh], by simp [NamedSemBinProcess.fresh], by
    simp [NamedSemBinProcess.fresh, ParentPc.hasReaped]⟩

/-- What a run that hands on offers to the next one. -/
theorem Permit.offers {objects : Objects} {run : Run} (permit : Permit objects run)
    (handsOn : HandsOn objects run)
    : objects.Offers semName 1 := by
  by_cases free : objects.names semName = none
  · exact NamedObjects.offers_of_free free
  · obtain ⟨value, semaphore, balance⟩ := permit.semaphore
    obtain ⟨parentOutside, childOutside⟩ := handsOn.2 free
    exact semaphore.offers (by omega)

/-- The permit passes from run to run. -/
theorem permit_inherits : program.Inherits Permit Run.Past HandsOn where
  kept permit taken := permit.kept taken
  stays past taken := (past.step taken).1
  harmless past taken permit := by
    rcases (past.step taken).2 with same | unlinked
    · exact same ▸ permit
    · exact unlinked ▸ permit.unlink
  launched permit handsOn := ⟨handsOn.1, .fresh (permit.offers handsOn)⟩

-----------------------------------------------------------------------------------------
-- An undisturbed run
-----------------------------------------------------------------------------------------

/-- The run finds the intended value behind `sem_open`, its critical sections exclude each
other, and until both processes have exited one of them can go on.
-/
structure Survives (objects : Objects) (run : Run) : Prop where
  starts : run.parent ≠ .semOpen → run.found = some 1
  exclusive : ¬(run.parent.inside = 1 ∧ run.child.inside = 1)
  proceeds
    : run.parent ≠ .exited ∨ run.child ≠ .exited
      → ∃ action, (action = .parent ∨ action = .child) ∧ (step objects run action).isSome

/-- A process goes on unless it waits for the permit or for its child. -/
theorem parentProcess_isSome {objects : Objects} {run : Run} {value : Nat}
    (semaphore : Semaphore objects semName 1 run.semValue value)
    (opened : run.semValue = none ↔ run.parent = .semOpen)
    (granted : run.parent = .semWait → 0 < value)
    (gone : run.parent = .waitpid → run.childGone)
    (unfinished : run.parent ≠ .exited)
    : (parentProcess objects run).isSome := by
  cases here : run.parent
  case exited => exact absurd here unfinished
  case semOpen | fork | critical | semClose | semUnlink => simp [parentProcess, here]
  case waitpid => simp [parentProcess, here, gone here]
  all_goals
    have held : run.semValue ≠ none := by simp [opened, here]
    obtain ⟨sem, held⟩ := Option.ne_none_iff_exists'.mp held
    rw [held] at semaphore
  case semWait =>
    simp [parentProcess, here, held, waitOn_isSome semaphore.content (granted here)]
  case semPost => simp [parentProcess, here, held, postOn_of_content semaphore.content]

theorem childProcess_isSome {objects : Objects} {run : Run} {value sem : Nat}
    (held : run.semValue = some sem)
    (semaphore : Semaphore objects semName 1 (some sem) value)
    (granted : run.child = .semWait → 0 < value)
    (unfinished : run.child ≠ .unborn ∧ run.child ≠ .exited)
    : (childProcess objects run).isSome := by
  cases here : run.child
  case unborn => exact absurd here unfinished.1
  case exited => exact absurd here unfinished.2
  case critical | semClose => simp [childProcess, here]
  case semWait =>
    simp [childProcess, here, held, waitOn_isSome semaphore.content (granted here)]
  case semPost => simp [childProcess, here, held, postOn_of_content semaphore.content]

/-- Until both processes of a run that nobody cuts off have exited, one of them can go on:
whoever waits, waits for the other one.
-/
theorem Permit.proceeds {objects : Objects} {run : Run} (permit : Permit objects run)
    (parentWhole : run.parentCut = false) (childWhole : run.childCut = false)
    (unfinished : run.parent ≠ .exited ∨ run.child ≠ .exited)
    : ∃ action, (action = .parent ∨ action = .child) ∧ (step objects run action).isSome := by
  obtain ⟨⟨value, semaphore, balance⟩, opened, -, born, reaped⟩ := permit
  have gone : run.childGone ↔ run.child = .exited := by simp [Run.childGone, childWhole]
  have parentUnfinished : run.parent ≠ .exited := by
    intro ended
    have behind := gone.mp (reaped (by simp [ended, ParentPc.hasReaped]))
    simp [ended, behind] at unfinished
  by_cases blocked
    : run.parent = .semWait ∧ value = 0 ∨ run.parent = .waitpid ∧ run.child ≠ .exited
  · refine ⟨.child, Or.inr rfl, ?_⟩
    have forked : ¬(run.parent = .semOpen ∨ run.parent = .fork) := by
      rcases blocked with ⟨here, -⟩ | ⟨here, -⟩ <;> simp [here]
    have held : run.semValue ≠ none := opened.not.mpr (not_or.mp forked).1
    obtain ⟨sem, held⟩ := Option.ne_none_iff_exists'.mp held
    simp only [step, childWhole]
    refine childProcess_isSome held (held ▸ semaphore) (fun waits => ?_)
      ⟨born.not.mpr forked, ?_⟩
    · -- the child waits as well, so the permit is in the semaphore
      rw [waits] at balance
      rcases blocked with ⟨here, zero⟩ | ⟨here, -⟩
      all_goals
        rw [here] at balance
        change value + 0 + 0 = 1 at balance
        omega
    · intro ended
      rcases blocked with ⟨here, zero⟩ | ⟨-, unended⟩
      · rw [here, ended] at balance
        change value + 0 + 0 = 1 at balance
        omega
      · exact unended ended
  · rw [not_or] at blocked
    refine ⟨.parent, Or.inl rfl, ?_⟩
    simp only [step, parentWhole]
    refine parentProcess_isSome semaphore opened (fun waits => ?_) (fun waits => ?_)
      parentUnfinished
    · exact Nat.pos_of_ne_zero fun zero => blocked.1 ⟨waits, zero⟩
    · rw [gone]
      by_contra unended
      exact blocked.2 ⟨waits, unended⟩

/-- An undisturbed run behind runs that all hand on. -/
theorem survives {s : Launches Objects Run}
    (reached : system.ReachableBy (Program.HandsOn HandsOn) s)
    (parentWhole : s.current.parentCut = false) (childWhole : s.current.childCut = false)
    : Survives s.machine s.current := by
  obtain ⟨permit, -⟩ := permit_inherits.invariant
    (.fresh (NamedObjects.offers_of_free rfl)) reached
  obtain ⟨value, -, balance⟩ := permit.semaphore
  refine ⟨fun late => permit.found (permit.opened.not.mpr late), ?_,
    permit.proceeds parentWhole childWhole⟩
  intro both
  omega

end LinuxStudy.NamedSemBinProcess
