import LinuxStudy.NamedSemProducerConsumer.HandOff

/-! What the consumer of `named_sem_producer_consumer.c` reads. The semaphores order production
and consumption, but the producer stores to its own copy of `shared_data` and the consumer
loads its own, which nobody has written since `fork`.
-/

namespace LinuxStudy.NamedSemProducerConsumer

open Transition Posix

/-- The child's copy is made before anything is produced, and the child never writes it. -/
structure Copied (run : Run) : Prop where
  parentData : run.child = .unborn → run.parentData = 0
  childData : run.childData = 0
  consumed : ∀ value ∈ run.consumed, value = 0

section Step

variable {rounds random : Nat} {objects : Objects} {run : Run} {next : Objects × Run}

/-- Only `fork` and the store touch the parent's copy, and the store comes behind `fork`. -/
theorem Copied.keptByParent (copied : Copied run) (stage : Stage run)
    (taken : parentProcess rounds random objects run = some next)
    : Copied next.2 := by
  obtain ⟨parentData, childData, consumed⟩ := copied
  have born := stage.born
  cases here : run.parent <;> simp only [parentProcess, here] at taken
  case semOpenEmpty | semOpenFull | loop | semClose | semUnlinkFull =>
    exact Option.some.inj taken ▸ ⟨parentData, childData, consumed⟩
  case fork =>
    have unborn : run.child = .unborn := by simp [born, here]
    exact Option.some.inj taken ▸ ⟨fun early => by simp at early, parentData unborn, consumed⟩
  case semWait | semPost =>
    obtain ⟨_, -, rfl⟩ := Option.map_eq_some_iff.mp taken
    exact ⟨parentData, childData, consumed⟩
  case produce =>
    have forked : run.child ≠ .unborn := by simp [born, here]
    exact Option.some.inj taken ▸ ⟨fun early => absurd early forked, childData, consumed⟩
  case waitpid =>
    obtain ⟨-, same⟩ := Option.ite_none_right_eq_some.mp taken
    exact Option.some.inj same ▸ ⟨parentData, childData, consumed⟩
  case semUnlinkEmpty =>
    split at taken
    · exact Option.some.inj taken ▸ ⟨parentData, childData, consumed⟩
    · exact Option.some.inj taken ▸ ⟨parentData, childData, consumed⟩
  case exited => contradiction

/-- The child reads its copy. -/
theorem Copied.keptByChild (copied : Copied run)
    (taken : childProcess rounds objects run = some next)
    : Copied next.2 := by
  obtain ⟨parentData, childData, consumed⟩ := copied
  cases here : run.child <;> simp only [childProcess, here] at taken
  case unborn | exited => contradiction
  case loop =>
    obtain rfl := Option.some.inj taken
    refine ⟨fun early => ?_, childData, consumed⟩
    dsimp only at early
    split at early <;> contradiction
  case semWait | semPost =>
    obtain ⟨_, -, rfl⟩ := Option.map_eq_some_iff.mp taken
    exact ⟨fun early => by simp at early, childData, consumed⟩
  case consume =>
    obtain rfl := Option.some.inj taken
    refine ⟨fun early => by simp at early, childData, fun value read => ?_⟩
    rcases List.mem_append.mp read with before | last
    · exact consumed value before
    · exact (List.mem_singleton.mp last).trans childData
  case semClose =>
    exact Option.some.inj taken ▸ ⟨fun early => by simp at early, childData, consumed⟩

theorem Copied.kept {action : Action} (copied : Copied run) (stage : Stage run)
    (taken : step rounds objects run action = some next)
    : Copied next.2 := by
  cases action <;> obtain ⟨-, taken⟩ := Option.ite_none_left_eq_some.mp taken
  case parent => exact copied.keptByParent stage taken
  case child => exact copied.keptByChild taken
  case cutParent =>
    exact Option.some.inj taken ▸ ⟨copied.parentData, copied.childData, copied.consumed⟩
  case cutChild =>
    exact Option.some.inj taken ▸ ⟨copied.parentData, copied.childData, copied.consumed⟩

end Step

/-- A run with freshly created semaphores. -/
theorem held_of_reachable {rounds : Nat} {s : Objects × Run}
    (reached : (aloneSystem rounds).Reachable s)
    : Held rounds s.1 s.2 ∧ Copied s.2 := by
  apply reached.invariant
  · intro _ same
    subst same
    exact ⟨.start, ⟨fun _ => rfl, rfl, by simp [program, fresh]⟩⟩
  · intro s action next holds taken
    obtain ⟨held, copied⟩ := holds
    exact ⟨held.kept taken, copied.kept held.stage taken⟩

/-- Production and consumption alternate, and the value consumed in a round is the one produced
in it.
-/
structure Run.HandsOver (run : Run) : Prop where
  alternates : run.Alternates
  reads : ∀ (i : Nat) (value : Int), run.consumed[i]? = some value → run.produced[i]? = some value

/-- The values are handed over exactly as long as all those drawn for the rounds consumed are
the 0 that the consumer's copy holds; the order of production and consumption is always right.
-/
theorem handsOverZeros {rounds : Nat} {s : Objects × Run}
    (reached : (aloneSystem rounds).Reachable s)
    : s.2.Alternates
      ∧ (s.2.HandsOver ↔ ∀ value ∈ s.2.produced.take s.2.consumed.length, value = 0) := by
  obtain ⟨held, copied⟩ := held_of_reachable reached
  have alternates := held.alternates
  have covered : s.2.consumed.length ≤ s.2.produced.length := by
    rcases alternates with same | longer <;> omega
  refine ⟨alternates, fun handsOver value drawn => ?_, fun zeros => ⟨alternates, ?_⟩⟩
  · obtain ⟨i, bound, found⟩ := List.mem_take_iff_getElem.mp drawn
    have consumed : i < s.2.consumed.length := by omega
    have read := handsOver.reads i _ (List.getElem?_eq_getElem consumed)
    have same := Option.some.inj (read.symm.trans (List.getElem?_eq_getElem (by omega)))
    exact (same.trans found).symm.trans (copied.consumed _ (List.getElem_mem consumed))
  · intro i value read
    obtain ⟨consumed, -⟩ := List.getElem?_eq_some_iff.mp read
    have produced : i < s.2.produced.length := by omega
    have drawn : s.2.produced[i] ∈ s.2.produced.take s.2.consumed.length :=
      List.mem_take_iff_getElem.mpr ⟨i, by omega, rfl⟩
    rw [List.getElem?_eq_getElem produced, zeros _ drawn,
      copied.consumed value (List.mem_of_getElem? read)]

/-- One round: `rand` returns the given number and the consumer reads. -/
def oneRound (random : Nat) : List Action :=
  List.replicate 7 (.parent random) ++ List.replicate 3 .child

/-- A draw that leaves the remainder 0 is handed over. -/
theorem handsOverZeros_thousand
    : ∃ s, (aloneSystem 1).Reachable s ∧ s.2.consumed = [0] ∧ s.2.HandsOver := by
  have reached := @System.reachable_of_run _ _ (aloneSystem 1) (NamedObjects.empty, fresh) rfl
    (oneRound 1000) rfl
  exact ⟨_, reached, rfl, (handsOverZeros reached).2.mpr (by decide)⟩

/-- The producer stores 7 and the consumer reads 0. -/
theorem handsOverZeros_seven
    : ∃ s,
        (aloneSystem 1).Reachable s
        ∧ s.2.produced = [7]
        ∧ s.2.consumed = [0]
        ∧ ¬s.2.HandsOver := by
  refine ⟨_, System.reachable_of_run (NamedObjects.empty, fresh) rfl (oneRound 7) rfl, rfl, rfl,
    fun handsOver => ?_⟩
  exact absurd (handsOver.reads 0 0 rfl) (by decide)

end LinuxStudy.NamedSemProducerConsumer
