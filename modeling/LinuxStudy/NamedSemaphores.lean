import LinuxStudy.NamedSemBinProcess.Launches
import LinuxStudy.NamedSemProducerConsumer.Launches

/-! The programs with named semaphores on a machine where earlier runs of theirs were cut off.
`sem_open` uses the initial value only for a name that does not exist, and only the parent's
way to the end removes the names.
-/

namespace LinuxStudy

open Transition Posix

/-- Behind runs that all hand on, a run that nobody cuts off starts from the intended values,
keeps its critical sections apart, or its production and consumption in turn, and is never
stuck.
-/
theorem survivesInterruption (rounds : Nat)
    : (∀ s,
        NamedSemBinProcess.system.ReachableBy
          (Program.HandsOn NamedSemBinProcess.HandsOn) s
        → s.current.parentCut = false
        → s.current.childCut = false
        → NamedSemBinProcess.Survives s.machine s.current)
      ∧ ∀ s,
          (NamedSemProducerConsumer.system rounds).ReachableBy
            (Program.HandsOn (NamedSemProducerConsumer.HandsOn rounds)) s
          → s.current.parentCut = false
          → s.current.childCut = false
          → NamedSemProducerConsumer.Survives rounds s.machine s.current :=
  ⟨fun _ reached parentWhole childWhole =>
      NamedSemBinProcess.survives reached parentWhole childWhole,
    fun _ reached parentWhole childWhole =>
      NamedSemProducerConsumer.survives reached parentWhole childWhole⟩

/-- Both processes of a first run are killed in front of `sem_wait`; a second one enters its
critical section.
-/
def binAfterKill : List (LaunchAction NamedSemBinProcess.Action) :=
  [.current .parent, .current .parent, .current .cutParent, .current .cutChild, .launch,
    .current .parent, .current .parent, .current .parent]

/-- The producer and the consumer of a first run are killed behind its first round; in a second
run the first value is produced.
-/
def producerConsumerAfterKill : List (LaunchAction NamedSemProducerConsumer.Action) :=
  List.replicate 7 (.current (.parent 7))
  ++ List.replicate 4 (.current .child)
  ++ [.current .cutParent, .current .cutChild, .launch]
  ++ List.replicate 6 (.current (.parent 8))

/-- The second runs survive. -/
theorem survivesInterruption_evenly
    : (∃ s : Launches NamedSemBinProcess.Objects NamedSemBinProcess.Run,
        s.current.parent = .critical
        ∧ s.earlier.length = 1
        ∧ NamedSemBinProcess.Survives s.machine s.current)
      ∧ ∃ s : Launches NamedSemProducerConsumer.Objects NamedSemProducerConsumer.Run,
          s.current.produced = [8]
          ∧ s.earlier.length = 1
          ∧ NamedSemProducerConsumer.Survives 5 s.machine s.current := by
  constructor
  · have reached := System.reachable_restrict_iff.mp (@System.reachable_of_run _ _
      (NamedSemBinProcess.system.restrict (Program.HandsOn NamedSemBinProcess.HandsOn))
      ⟨NamedObjects.empty, NamedSemBinProcess.fresh, []⟩ rfl binAfterKill rfl)
    exact ⟨_, rfl, rfl, (survivesInterruption 5).1 _ reached rfl rfl⟩
  · have reached := System.reachable_restrict_iff.mp (@System.reachable_of_run _ _
      ((NamedSemProducerConsumer.system 5).restrict
        (Program.HandsOn (NamedSemProducerConsumer.HandsOn 5)))
      ⟨NamedObjects.empty, NamedSemProducerConsumer.fresh, []⟩ rfl producerConsumerAfterKill rfl)
    exact ⟨_, rfl, rfl, (survivesInterruption 5).2 _ reached rfl rfl⟩

/-- The child of a first run is killed in its critical section and the parent while it waits;
both processes of a second run reach `sem_wait`.
-/
def binCutInside : List (LaunchAction NamedSemBinProcess.Action) :=
  [.current .parent, .current .parent, .current .child, .current .cutChild, .current .cutParent,
    .launch, .current .parent, .current .parent]

/-- The producer of a first run is killed behind `sem_wait` and the consumer in front of it; both
processes of a second run reach `sem_wait`.
-/
def producerConsumerCutInside : List (LaunchAction NamedSemProducerConsumer.Action) :=
  List.replicate 5 (.current (.parent 7))
  ++ [.current .cutParent, .current .cutChild, .launch]
  ++ List.replicate 4 (.current (.parent 8))
  ++ [.current .child]

/-- The second runs find the value 0 and both of their processes wait for ever. -/
theorem survivesInterruption_cutInside
    : (∃ s,
        NamedSemBinProcess.system.Reachable s
        ∧ (s.current.parentCut = false ∧ s.current.childCut = false)
        ∧ s.current.found = some 0
        ∧ ¬NamedSemBinProcess.Survives s.machine s.current)
      ∧ ∃ s,
          (NamedSemProducerConsumer.system 5).Reachable s
          ∧ (s.current.parentCut = false ∧ s.current.childCut = false)
          ∧ s.current.foundEmpty = some 0
          ∧ ¬NamedSemProducerConsumer.Survives 5 s.machine s.current := by
  constructor
  · refine ⟨_, System.reachable_of_run ⟨NamedObjects.empty, NamedSemBinProcess.fresh, []⟩ rfl
      binCutInside rfl, ⟨rfl, rfl⟩, rfl, fun survives => ?_⟩
    obtain ⟨action, either, goes⟩ := survives.proceeds (by decide)
    rcases either with rfl | rfl
    · exact Bool.false_ne_true goes
    · exact Bool.false_ne_true goes
  · refine ⟨_, System.reachable_of_run ⟨NamedObjects.empty, NamedSemProducerConsumer.fresh, []⟩
      rfl producerConsumerCutInside rfl, ⟨rfl, rfl⟩, rfl, fun survives => ?_⟩
    obtain ⟨action, either, goes⟩ := survives.proceeds (by decide)
    rcases either with rfl | rfl
    · exact Bool.false_ne_true goes
    · exact Bool.false_ne_true goes

end LinuxStudy
