import LinuxStudy.NamedSemProducerConsumer.HandOff

/-! Launch after launch of `named_sem_producer_consumer.c`. A run hands on the intended values
if, of every semaphore whose name it leaves, it has posted as often as it has waited.
-/

namespace LinuxStudy.NamedSemProducerConsumer

open Transition Posix Sync

/-- The process has made its last call of `sem_wait` and `sem_post`. -/
def ParentPc.isPast (rounds round : Nat) : ParentPc → Bool
  | .loop => rounds ≤ round
  | .waitpid | .semClose | .semUnlinkEmpty | .semUnlinkFull | .exited => true
  | .semOpenEmpty | .semOpenFull | .fork | .semWait | .produce | .semPost => false

/-- A child that was not born when its parent was cut off makes no call either. -/
def ChildPc.isPast (rounds round : Nat) : ChildPc → Bool
  | .loop => rounds ≤ round
  | .unborn | .semClose | .exited => true
  | .semWait | .consume | .semPost => false

/-- Neither process of the run will call `sem_wait` or `sem_post` any more. -/
def Run.Past (rounds : Nat) (run : Run) : Prop :=
  (run.parentCut ∨ run.parent.isPast rounds run.producerRound)
  ∧ (run.childCut ∨ run.child.isPast rounds run.consumerRound)

/-- How often the parent has waited for `empty`: once for each round and for the one it is in.
-/
def Run.emptyWaits (run : Run) : Nat := run.producerRound + run.parent.producer.inside

/-- How often the child has waited for `full`. -/
def Run.fullWaits (run : Run) : Nat := run.consumerRound + run.child.consumer.inside

/-- What a run has to leave to the next one: no process that may still use the semaphores, and
of each semaphore whose name was not removed as many posts as waits. The child posts `empty`
and the parent posts `full` at the end of a round.
-/
def HandsOn (rounds : Nat) (objects : Objects) (run : Run) : Prop :=
  run.Past rounds
  ∧ (objects.names emptySemName ≠ none → run.emptyWaits = run.consumerRound)
  ∧ (objects.names fullSemName ≠ none → run.fullWaits = run.producerRound)

instance (rounds : Nat) (run : Run) : Decidable (run.Past rounds) :=
  inferInstanceAs (Decidable (_ ∧ _))

instance (rounds : Nat) (objects : Objects) (run : Run)
    : Decidable (HandsOn rounds objects run) :=
  inferInstanceAs (Decidable (_ ∧ _ ∧ _))

section Step

variable {rounds : Nat} {objects : Objects} {run : Run} {next : Objects × Run}

/-- All that the parent of a past run still does is to remove names. -/
theorem parentProcess_of_isPast {random : Nat}
    (past : run.parent.isPast rounds run.producerRound)
    (taken : parentProcess rounds random objects run = some next)
    : next.2.parent.isPast rounds next.2.producerRound
      ∧ (next.2.child = run.child ∧ next.2.childCut = run.childCut)
      ∧ next.2.consumerRound = run.consumerRound
      ∧ (next.1 = objects ∨ ∃ name, next.1 = objects.unlink name) := by
  cases here : run.parent <;> simp only [here, parentProcess] at taken past
  case semOpenEmpty | semOpenFull | fork | semWait | produce | semPost => contradiction
  case loop =>
    have done : ¬run.producerRound < rounds := Nat.not_lt.mpr (of_decide_eq_true past)
    rw [if_neg done] at taken
    exact Option.some.inj taken ▸ ⟨rfl, ⟨rfl, rfl⟩, rfl, Or.inl rfl⟩
  case waitpid =>
    obtain ⟨-, same⟩ := Option.ite_none_right_eq_some.mp taken
    exact Option.some.inj same ▸ ⟨rfl, ⟨rfl, rfl⟩, rfl, Or.inl rfl⟩
  case semClose => exact Option.some.inj taken ▸ ⟨rfl, ⟨rfl, rfl⟩, rfl, Or.inl rfl⟩
  case semUnlinkEmpty =>
    split at taken
    · exact Option.some.inj taken ▸ ⟨rfl, ⟨rfl, rfl⟩, rfl, Or.inl rfl⟩
    · exact Option.some.inj taken ▸ ⟨rfl, ⟨rfl, rfl⟩, rfl, Or.inr ⟨_, rfl⟩⟩
  case semUnlinkFull =>
    exact Option.some.inj taken ▸ ⟨rfl, ⟨rfl, rfl⟩, rfl, Or.inr ⟨_, rfl⟩⟩
  case exited => contradiction

/-- The child of a past run only exits. -/
theorem childProcess_of_isPast (past : run.child.isPast rounds run.consumerRound)
    (taken : childProcess rounds objects run = some next)
    : next.2.child.isPast rounds next.2.consumerRound
      ∧ (next.2.parent = run.parent ∧ next.2.parentCut = run.parentCut)
      ∧ next.2.producerRound = run.producerRound
      ∧ next.1 = objects := by
  cases here : run.child <;> simp only [here, childProcess] at taken past
  case unborn | semWait | consume | semPost | exited => contradiction
  case loop =>
    have done : ¬run.consumerRound < rounds := Nat.not_lt.mpr (of_decide_eq_true past)
    rw [if_neg done] at taken
    exact Option.some.inj taken ▸ ⟨rfl, ⟨rfl, rfl⟩, rfl, rfl⟩
  case semClose => exact Option.some.inj taken ▸ ⟨rfl, ⟨rfl, rfl⟩, rfl, rfl⟩

/-- All that a past run still does is to remove names. -/
theorem Run.Past.stays {action : Action} (past : run.Past rounds)
    (taken : step rounds objects run action = some next)
    : next.2.Past rounds ∧ (next.1 = objects ∨ ∃ name, next.1 = objects.unlink name) := by
  obtain ⟨parentPast, childPast⟩ := past
  cases action <;> obtain ⟨alive, taken⟩ := Option.ite_none_left_eq_some.mp taken
  case parent =>
    obtain ⟨still, ⟨child, childCut⟩, round, effect⟩ :=
      parentProcess_of_isPast (parentPast.resolve_left alive) taken
    rw [Run.Past, child, childCut, round]
    exact ⟨⟨Or.inr still, childPast⟩, effect⟩
  case child =>
    obtain ⟨still, ⟨parent, parentCut⟩, round, effect⟩ :=
      childProcess_of_isPast (childPast.resolve_left alive) taken
    rw [Run.Past, parent, parentCut, round]
    exact ⟨⟨parentPast, Or.inr still⟩, Or.inl effect⟩
  case cutParent => exact Option.some.inj taken ▸ ⟨⟨Or.inl rfl, childPast⟩, Or.inl rfl⟩
  case cutChild => exact Option.some.inj taken ▸ ⟨⟨parentPast, Or.inl rfl⟩, Or.inl rfl⟩

/-- Removing a name takes nothing from a run. -/
theorem Held.unlink (held : Held rounds objects run) (name : String)
    : Held rounds (objects.unlink name) run := by
  obtain ⟨stage, ⟨empty, full, t, emptySem, fullSem, mirrors⟩, apart, foundEmpty,
    foundFull⟩ := held
  exact ⟨stage, ⟨empty, full, t, emptySem.unlink, fullSem.unlink, mirrors⟩, apart.unlink name,
    foundEmpty, foundFull⟩

/-- A semaphore that was posted as often as waited for has its initial value. -/
theorem Held.handedOn (held : Held rounds objects run) (handsOn : HandsOn rounds objects run)
    : Held rounds objects NamedSemProducerConsumer.fresh := by
  obtain ⟨-, ⟨empty, full, t, emptySem, fullSem, mirrors⟩, apart, -⟩ := held
  obtain ⟨-, emptyEven, fullEven⟩ := handsOn
  obtain ⟨turns, -⟩ := UnnamedSemaphore.turns_of_reachable mirrors.reached
  have permit := turns.permit
  have ahead := turns.ahead
  rw [mirrors.producerRound, mirrors.consumerRound, mirrors.full, mirrors.consumer] at ahead
  rw [mirrors.empty, mirrors.full, mirrors.producer, mirrors.consumer] at permit
  simp only [Run.emptyWaits, Run.fullWaits] at emptyEven fullEven
  refine .fresh ?_ ?_ apart.names
  · by_cases free : objects.names emptySemName = none
    · exact NamedObjects.offers_of_free free
    · have even := emptyEven free
      exact emptySem.offers (by omega)
  · by_cases free : objects.names fullSemName = none
    · exact NamedObjects.offers_of_free free
    · have even := fullEven free
      exact fullSem.offers (by omega)

end Step

/-- The two semaphores pass from run to run. -/
theorem held_inherits (rounds : Nat)
    : (program rounds).Inherits (Held rounds) (Run.Past rounds) (HandsOn rounds) where
  kept held taken := held.kept taken
  stays past taken := (past.stays taken).1
  harmless past taken held := by
    rcases (past.stays taken).2 with same | ⟨name, unlinked⟩
    · exact same ▸ held
    · exact unlinked ▸ held.unlink name
  launched held handsOn := ⟨handsOn.1, held.handedOn handsOn⟩

-----------------------------------------------------------------------------------------
-- An undisturbed run
-----------------------------------------------------------------------------------------

/-- The run finds the intended values behind `sem_open`, production and consumption alternate
and start with production, and until both processes have exited one of them can go on.
-/
structure Survives (rounds : Nat) (objects : Objects) (run : Run) : Prop where
  emptyStarts : run.emptySem ≠ none → run.foundEmpty = some 1
  fullStarts : run.fullSem ≠ none → run.foundFull = some 0
  alternates : run.Alternates
  proceeds
    : run.parent ≠ .exited ∨ run.child ≠ .exited
      → ∃ action,
          (action = .parent 0 ∨ action = .child) ∧ (step rounds objects run action).isSome

/-- A process goes on unless it waits for a permit or for its child. -/
theorem parentProcess_isSome {rounds empty full : Nat} {objects : Objects} {run : Run}
    (stage : Stage run) (emptySem : Semaphore objects emptySemName 1 run.emptySem empty)
    (fullSem : Semaphore objects fullSemName 0 run.fullSem full)
    (granted : run.parent = .semWait → 0 < empty)
    (gone : run.parent = .waitpid → run.childGone)
    (unfinished : run.parent ≠ .exited)
    : (parentProcess rounds 0 objects run).isSome := by
  cases here : run.parent
  case exited => exact absurd here unfinished
  case semOpenEmpty | semOpenFull | fork | loop | produce | semClose | semUnlinkFull =>
    simp [parentProcess, here]
  case waitpid => simp [parentProcess, here, gone here]
  case semUnlinkEmpty =>
    simp only [parentProcess, here]
    split <;> rfl
  case semWait =>
    obtain ⟨sem, opened⟩ := Option.ne_none_iff_exists'.mp
      (stage.emptyOpened.not.mpr (by simp [here]))
    rw [opened] at emptySem
    simp [parentProcess, here, opened, waitOn_isSome emptySem.content (granted here)]
  case semPost =>
    obtain ⟨sem, opened⟩ := Option.ne_none_iff_exists'.mp
      (stage.fullOpened.not.mpr (by simp [here]))
    rw [opened] at fullSem
    simp [parentProcess, here, opened, postOn_of_content fullSem.content]

theorem childProcess_isSome {rounds empty full : Nat} {objects : Objects} {run : Run}
    (stage : Stage run) (emptySem : Semaphore objects emptySemName 1 run.emptySem empty)
    (fullSem : Semaphore objects fullSemName 0 run.fullSem full)
    (granted : run.child = .semWait → 0 < full)
    (unfinished : run.child ≠ .unborn ∧ run.child ≠ .exited)
    : (childProcess rounds objects run).isSome := by
  obtain ⟨early, late⟩ := not_or.mp (stage.born.not.mp unfinished.1)
  cases here : run.child
  case unborn => exact absurd here unfinished.1
  case exited => exact absurd here unfinished.2
  case loop | consume | semClose => simp [childProcess, here]
  case semWait =>
    obtain ⟨sem, opened⟩ := Option.ne_none_iff_exists'.mp
      (stage.fullOpened.not.mpr (by simp [early, (not_or.mp late).1]))
    rw [opened] at fullSem
    simp [childProcess, here, opened, waitOn_isSome fullSem.content (granted here)]
  case semPost =>
    obtain ⟨sem, opened⟩ := Option.ne_none_iff_exists'.mp (stage.emptyOpened.not.mpr early)
    rw [opened] at emptySem
    simp [childProcess, here, opened, postOn_of_content emptySem.content]

/-- Until both processes of a run that nobody cuts off have exited, one of them can go on: one
of the threads they mirror while those are in their loops, and else the child and then the
parent.
-/
theorem Held.proceeds {rounds : Nat} {objects : Objects} {run : Run}
    (held : Held rounds objects run) (parentWhole : run.parentCut = false)
    (childWhole : run.childCut = false)
    (unfinished : run.parent ≠ .exited ∨ run.child ≠ .exited)
    : ∃ action,
        (action = .parent 0 ∨ action = .child) ∧ (step rounds objects run action).isSome := by
  obtain ⟨stage, ⟨empty, full, t, emptySem, fullSem, mirrors⟩, -, -, -⟩ := held
  obtain ⟨turns, -⟩ := UnnamedSemaphore.turns_of_reachable mirrors.reached
  have gone : run.childGone ↔ run.child = .exited := by simp [Run.childGone, childWhole]
  have parentUnfinished : run.parent ≠ .exited := by
    intro ended
    have behind := gone.mp (stage.reaped (by simp [ended, ParentPc.hasReaped]))
    simp [ended, behind] at unfinished
  have producer := mirrors.producer
  have consumer := mirrors.consumer
  have goParent
      (granted : run.parent = .semWait → 0 < empty) (gone : run.parent = .waitpid → run.childGone)
      : (step rounds objects run (.parent 0)).isSome := by
    simp only [step, parentWhole]
    exact parentProcess_isSome stage emptySem fullSem granted gone parentUnfinished
  have goChild (granted : run.child = .semWait → 0 < full)
      (unfinished : run.child ≠ .unborn ∧ run.child ≠ .exited)
      : (step rounds objects run .child).isSome := by
    simp only [step, childWhole]
    exact childProcess_isSome stage emptySem fullSem granted unfinished
  by_cases unborn : run.child = .unborn
  · have early := stage.born.mp unborn
    refine ⟨_, Or.inl rfl, goParent (fun waits => ?_) (fun waits => ?_)⟩
    all_goals simp [waits] at early
  by_cases looping : t.producer ≠ .finished ∨ t.consumer ≠ .finished
  · rcases UnnamedSemaphore.thread_granted turns looping with ⟨runs, granted⟩ | ⟨runs, granted⟩
    · rw [producer, mirrors.empty] at granted
      rw [producer] at runs
      refine ⟨_, Or.inl rfl, goParent (fun waits => ?_) (fun waits => ?_)⟩
      · exact granted (by rw [waits]; rfl)
      · exact absurd (by rw [waits]; rfl) runs
    · rw [consumer, mirrors.full] at granted
      rw [consumer] at runs
      refine ⟨_, Or.inr rfl, goChild (fun waits => ?_) ⟨unborn, fun ended => ?_⟩⟩
      · exact granted (by rw [waits]; rfl)
      · exact absurd (by rw [ended]; rfl) runs
  · obtain ⟨producerDone, consumerDone⟩ := not_or.mp looping
    rw [not_ne_iff] at producerDone consumerDone
    by_cases ended : run.child = .exited
    · refine ⟨_, Or.inl rfl, goParent (fun waits => ?_) fun _ => gone.mpr ended⟩
      rw [producerDone, waits] at producer
      contradiction
    · refine ⟨_, Or.inr rfl, goChild (fun waits => ?_) ⟨unborn, ended⟩⟩
      rw [consumerDone, waits] at consumer
      contradiction

/-- An undisturbed run behind runs that all hand on. -/
theorem survives {rounds : Nat} {s : Launches Objects Run}
    (reached : (system rounds).ReachableBy (Program.HandsOn (HandsOn rounds)) s)
    (parentWhole : s.current.parentCut = false) (childWhole : s.current.childCut = false)
    : Survives rounds s.machine s.current := by
  obtain ⟨held, -⟩ := (held_inherits rounds).invariant .start reached
  exact ⟨held.foundEmpty, held.foundFull, held.alternates, held.proceeds parentWhole childWhole⟩

end LinuxStudy.NamedSemProducerConsumer
