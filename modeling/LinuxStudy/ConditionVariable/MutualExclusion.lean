import LinuxStudy.ConditionVariable.Steps

/-! The mutex of `condition_variable.c` is held by exactly the thread whose program point
lies between its lock and its unlock or wait.
-/

namespace LinuxStudy.ConditionVariable

open Transition Histories

/-- The program points between taking the mutex and giving it back. -/
def Pc.holding : Pc → Bool
  | .testCount | .testExit | .wait | .checkExit | .unlockExit => true
  | .loadCount | .storeCount _ | .touchCell _ | .signal | .unlock => true
  | .unborn | .loopTest | .lock | .asleep | .woken | .finished => false

/-- The mutex records exactly the thread that stands inside its critical section. -/
def Owned (s : State) : Prop :=
  ∀ worker, s.mutex = some worker ↔ (s.pc worker).holding = true

/-- While a thread stands in its critical section, the other does not. -/
theorem Owned.other_outside {s : State} (owned : Owned s) {self worker : Worker}
    (inside : (s.pc self).holding = true) (different : worker ≠ self)
    : (s.pc worker).holding = false := by
  by_contra entered
  have mine := (owned self).mpr inside
  have theirs := (owned worker).mpr (by simpa using entered)
  exact different (Option.some.inj (theirs.symm.trans mine))

/-- Moving inside or outside the critical section keeps the owner. -/
theorem Owned.goto {s : State} (owned : Owned s) {self : Worker} {pc : Pc}
    (same : pc.holding = (s.pc self).holding)
    : Owned (s.goto self pc) := by
  intro worker
  by_cases mine : worker = self
  · subst mine
    simpa [same] using owned worker
  · simpa [s.goto_pc_ne pc mine] using owned worker

/-- Taking the free mutex makes the thread its owner. -/
theorem Owned.acquire {s : State} (owned : Owned s) (free : s.mutex = none) {self : Worker}
    {pc : Pc} (enters : pc.holding = true)
    : Owned ({ s with mutex := some self }.goto self pc) := by
  intro worker
  by_cases mine : worker = self
  · subst mine
    simp [enters]
  · have outside : (s.pc worker).holding = false := by
      by_contra inside
      have held := (owned worker).mpr (by simpa using inside)
      simp [free] at held
    simp [State.goto_pc_ne _ pc mine, outside, Ne.symm mine]

/-- Giving the mutex back leaves it free. -/
theorem Owned.release {s : State} (owned : Owned s) {self : Worker} {pc : Pc}
    (inside : (s.pc self).holding = true) (leaves : pc.holding = false)
    : Owned ({ s with mutex := none }.goto self pc) := by
  intro worker
  by_cases mine : worker = self
  · subst mine
    simp [leaves]
  · simp [State.goto_pc_ne _ pc mine, owned.other_outside inside mine]

/-- A wake-up takes nobody into a critical section. -/
theorem Owned.wake {s : State} (owned : Owned s) (woken : Worker) : Owned (s.wake woken) := by
  intro worker
  rw [State.wake_mutex, owned worker]
  rcases s.wake_pc woken worker with same | ⟨before, after⟩
  · rw [same]
  · simp [before, after, Pc.holding]

/-- A move stays on its side of the critical section. -/
theorem Moves.holding_eq {s : State} {self : Worker} {source target : Pc}
    (along : Moves s self source target)
    : target.holding = source.holding := by
  cases along <;> rfl

theorem Leaves.inside {source target : Pc} (along : Leaves source target)
    : source.holding = true := by
  cases along <;> rfl

theorem Leaves.outside {source target : Pc} (along : Leaves source target)
    : target.holding = false := by
  cases along <;> rfl

/-- Every step of a thread function keeps the owner, by its shape. -/
theorem Owned.threadStep {s next : State} {self : Worker} (owned : Owned s)
    (taken : ThreadStep s self next)
    : Owned next := by
  cases taken with
  | moves along => exact owned.goto along.holding_eq
  | acquires _ free => exact owned.acquire free rfl
  | releases along => exact owned.release along.inside along.outside
  | @stores loaded here =>
      have unchanged : Owned { s with count := self.role.newCount loaded } := owned
      exact unchanged.goto (by simp [here, Pc.holding])
  | @touches index here =>
      have unchanged : Owned (self.role.access s index) := by simpa [Owned] using owned
      exact unchanged.goto (by simp [here, Pc.holding])
  | signals here =>
      apply (owned.wake self.other).goto
      rcases s.wake_pc self.other self with same | ⟨sleeping, _⟩
      · simp [same, here, Pc.holding]
      · simp [here] at sleeping

/-- The threads that have not run are exactly those `main` has yet to create. -/
structure Unborn (s : State) : Prop where
  producer : s.pc .producer = .unborn ↔ s.main = .createProducer
  consumer
    : s.pc .consumer = .unborn ↔ s.main = .createProducer ∨ s.main = .createConsumer

/-- Steps that neither create a thread nor move `main` keep the account. -/
theorem Unborn.of_pc {s next : State} (unborn : Unborn s) (main_eq : next.main = s.main)
    (same : ∀ worker, next.pc worker = .unborn ↔ s.pc worker = .unborn)
    : Unborn next where
  producer := by rw [same, main_eq, unborn.producer]
  consumer := by rw [same, main_eq, unborn.consumer]

theorem Unborn.threadStep {s next : State} {self : Worker} (unborn : Unborn s)
    (taken : ThreadStep s self next)
    : Unborn next := by
  apply unborn.of_pc taken.main_eq
  intro worker
  by_cases mine : worker = self
  · subst mine
    simp [taken.born, taken.running.1]
  · rcases taken.pc_other mine with same | ⟨sleeping, woken⟩
    · rw [same]
    · simp [sleeping, woken]

/-- Once `main` has created both threads, both have been born. -/
theorem Unborn.all_born {s : State} (unborn : Unborn s)
    (created : s.main ≠ .createProducer ∧ s.main ≠ .createConsumer) (worker : Worker)
    : s.pc worker ≠ .unborn := by
  cases worker with
  | producer => simpa [unborn.producer] using created.1
  | consumer => simpa [unborn.consumer] using created

/-- Waking a created thread leaves it created. -/
theorem wake_ne_unborn {s : State} {woken : Worker}
    (before : ∀ worker, s.pc worker ≠ .unborn) (worker : Worker)
    : (s.wake woken).pc worker ≠ .unborn := by
  rcases s.wake_pc woken worker with same | ⟨_, awake⟩
  · rw [same]
    exact before worker
  · simp [awake]

/-- A step of `main` keeps the owner: a new thread starts outside its critical section. -/
theorem Owned.main {s next : State} (owned : Owned s) (unborn : Unborn s)
    (taken : main s = some next)
    : Owned next ∧ Unborn next := by
  cases here : s.main <;> simp only [ConditionVariable.main, here] at taken
  case createProducer =>
    obtain rfl := Option.some.inj taken
    have begun : Owned { s with main := .createConsumer } := owned
    refine ⟨begun.goto (by simp [unborn.producer.mpr here, Pc.holding]), ?_, ?_⟩
    · simp
    · simpa [State.goto_pc_ne] using unborn.consumer.mpr (Or.inl here)
  case createConsumer =>
    obtain rfl := Option.some.inj taken
    have begun : Owned { s with main := .sleeping } := owned
    refine ⟨begun.goto (by simp [unborn.consumer.mpr (Or.inr here), Pc.holding]), ?_, ?_⟩
    · simp [State.goto_pc_ne, unborn.producer, here]
    · simp
  case sleeping =>
    obtain rfl := Option.some.inj taken
    refine ⟨owned, ?_, ?_⟩
    · simp [unborn.producer, here]
    · simp [unborn.consumer, here]
  case broadcasting =>
    obtain rfl := Option.some.inj taken
    have begun : Owned { s with main := .joinProducer } := owned
    have created : ∀ worker, { s with main := .joinProducer }.pc worker ≠ .unborn :=
      unborn.all_born (by simp [here])
    refine ⟨(begun.wake .producer).wake .consumer, ?_, ?_⟩
    · simpa using wake_ne_unborn (wake_ne_unborn created) .producer
    · simpa using wake_ne_unborn (wake_ne_unborn created) .consumer
  case joinProducer | joinConsumer =>
    obtain ⟨_, same⟩ := Option.ite_none_right_eq_some.mp taken
    obtain rfl := Option.some.inj same
    refine ⟨owned, ?_, ?_⟩
    · simp [unborn.producer, here]
    · simp [unborn.consumer, here]
  case exited => contradiction

/-- In every reachable state the mutex names the thread inside its critical section. -/
theorem owned_of_reachable {s : State} (reached : system.Reachable s)
    : Owned s ∧ Unborn s := by
  apply reached.invariant
  · intro _ same
    subst same
    refine ⟨fun worker => ?_, ?_, ?_⟩
    all_goals simp [start, Pc.holding]
  · intro s action next ⟨owned, unborn⟩ taken
    cases action with
    | main => exact owned.main unborn taken
    | worker self =>
        have thread := ThreadStep.of_threadFunc ((step_worker s self).symm.trans taken)
        exact ⟨owned.threadStep thread, unborn.threadStep thread⟩
    | spurious self =>
        obtain ⟨sleeping, same⟩ := Option.ite_none_right_eq_some.mp taken
        obtain rfl := Option.some.inj same
        refine ⟨owned.goto (by simp [sleeping, Pc.holding]), unborn.of_pc rfl ?_⟩
        intro worker
        by_cases mine : worker = self
        · subst mine
          simp [sleeping]
        · rw [State.goto_pc_ne _ _ mine]

end LinuxStudy.ConditionVariable
