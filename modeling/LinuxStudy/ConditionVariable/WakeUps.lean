import LinuxStudy.ConditionVariable.Shutdown

/-! The one condition variable of `condition_variable.c` serves two conditions. A thread
sleeps in `pthread_cond_wait` without a wake-up only while its own condition does not hold,
or until the other thread has sent the signal it owes.
-/

namespace LinuxStudy.ConditionVariable

open Transition

/-- Between the store to `count` and the signal that announces it. -/
def Pc.owesSignal : Pc → Bool
  | .touchCell _ | .signal => true
  | _ => false

/-- From the failed test of the inner `while` until a wake-up. -/
def Pc.waiting : Pc → Bool
  | .testExit | .wait | .asleep => true
  | _ => false

/-- A waiting thread found its condition false and it still is, or the other thread has yet
to signal the change.
-/
def Justified (s : State) : Prop :=
  ∀ worker,
    (s.pc worker).waiting = true
    → worker.role.blocked s.count = true ∨ (s.pc worker.other).owesSignal = true

/-- Nobody leaves its loop before `should_exit` is set. -/
def StaysInLoop (s : State) : Prop :=
  ∀ worker, s.pc worker = .unlockExit ∨ s.pc worker = .finished → s.shouldExit = true

@[simp] theorem Worker.other_other (worker : Worker) : worker.other.other = worker := by
  cases worker <;> rfl

theorem Worker.other_ne (worker : Worker) : worker.other ≠ worker := by
  cases worker <;> simp [Worker.other]

theorem Worker.eq_other {self worker : Worker} (different : worker ≠ self)
    : worker = self.other := by
  cases self <;> cases worker <;> simp_all [Worker.other]

@[simp] theorem Worker.access_count (self : Worker) (s : State) (index : Int)
    : (self.role.access s index).count = s.count := by
  cases self <;> rfl

@[simp] theorem State.goto_count (s : State) (self : Worker) (pc : Pc)
    : (s.goto self pc).count = s.count :=
  rfl

@[simp] theorem State.wake_count (s : State) (worker : Worker)
    : (s.wake worker).count = s.count := by
  rw [s.wake_eq worker]

-----------------------------------------------------------------------------------------
-- What the shapes of a step do to a waiting thread
-----------------------------------------------------------------------------------------

theorem Moves.owes {s : State} {self : Worker} {source target : Pc}
    (along : Moves s self source target)
    : source.owesSignal = false := by
  cases along <;> rfl

theorem Leaves.owes {source target : Pc} (along : Leaves source target)
    : source.owesSignal = false := by
  cases along <;> rfl

/-- A move leads into the wait only past a failed test, or from one point of it on. -/
theorem Moves.waiting {s : State} {self : Worker} {source target : Pc}
    (along : Moves s self source target) (there : target.waiting = true)
    : self.role.blocked s.count = true ∨ source.waiting = true := by
  cases along with
  | findBlocked blocked => exact Or.inl blocked
  | startWaiting _ => exact Or.inr rfl
  | _ => simp [Pc.waiting] at there

/-- Of the ways out of the critical section, only the wait goes on waiting. -/
theorem Leaves.waiting {source target : Pc} (along : Leaves source target)
    (there : target.waiting = true)
    : source.waiting = true := by
  cases along with
  | wait => rfl
  | exit | again => simp [Pc.waiting] at there

/-- A step by which one thread moves, `count` stays and no signal is owed or paid: the thread
itself has to be justified, the other one stays so.
-/
theorem Justified.of_goto {s next : State} (justified : Justified s) {self : Worker}
    {target : Pc} (pc : next.pc = (s.goto self target).pc) (count : next.count = s.count)
    (free : (s.pc self).owesSignal = false)
    (mine
      : target.waiting = true
        → self.role.blocked s.count = true ∨ (s.pc self).waiting = true)
    : Justified next := by
  intro worker there
  rw [pc] at there ⊢
  rw [count]
  by_cases same : worker = self
  · subst same
    rw [State.goto_pc_self] at there
    rw [State.goto_pc_ne _ _ worker.other_ne]
    rcases mine there with blocked | before
    · exact Or.inl blocked
    · exact justified worker before
  · obtain rfl := Worker.eq_other same
    rw [State.goto_pc_ne _ _ same] at there
    rcases justified self.other there with blocked | owed
    · exact Or.inl blocked
    · simp [free] at owed

/-- A step by which a thread goes on without waiting: only the other one has to be justified. -/
theorem Justified.of_awake {s : State} {self : Worker} {target : Pc}
    (awake : target.waiting = false)
    (other
      : (s.pc self.other).waiting = true
        → self.other.role.blocked s.count = true ∨ target.owesSignal = true)
    : Justified (s.goto self target) := by
  intro worker there
  by_cases same : worker = self
  · subst same
    rw [State.goto_pc_self, awake] at there
    contradiction
  · obtain rfl := Worker.eq_other same
    rw [State.goto_pc_ne _ _ same] at there
    rw [Worker.other_other, State.goto_pc_self]
    exact other there

/-- Every step of a thread function keeps the waiting threads justified, by its shape. -/
theorem Justified.threadStep {s next : State} {self : Worker} (justified : Justified s)
    (owned : Owned s) (taken : ThreadStep s self next)
    : Justified next := by
  cases taken with
  | moves along => exact justified.of_goto rfl rfl along.owes along.waiting
  | acquires queued _ =>
      refine justified.of_goto rfl rfl ?_ (by simp [Pc.waiting])
      rcases queued with here | here <;> simp [here, Pc.owesSignal]
  | releases along =>
      exact justified.of_goto rfl rfl along.owes fun there => Or.inr (along.waiting there)
  | stores here | touches here =>
      -- from here on the other thread may be justified only by the signal that is owed
      exact .of_awake rfl fun _ => Or.inr rfl
  | signals here =>
      -- a thread that still waits after the signal holds the mutex, as the signaller does
      refine .of_awake rfl fun there => ?_
      have awake := s.wake_pc_self_ne self.other
      have inside : (s.pc self).holding = true := by simp [here, Pc.holding]
      have outside := owned.other_outside inside self.other_ne
      rcases s.wake_pc self.other self.other with kept | ⟨_, woken⟩
      · rw [kept] at there awake
        cases point : s.pc self.other <;> simp_all [Pc.waiting, Pc.holding]
      · simp [woken, Pc.waiting] at there

/-- Waking threads leaves the others justified: nobody who is woken owed a signal. -/
theorem Justified.wake {s : State} (justified : Justified s) (woken : Worker)
    : Justified (s.wake woken) := by
  unfold State.wake
  split
  next sleeping =>
    exact justified.of_goto rfl rfl (by simp [sleeping, Pc.owesSignal]) (by simp [Pc.waiting])
  next => exact justified

theorem Justified.main {s next : State} (justified : Justified s) (unborn : Unborn s)
    (taken : main s = some next)
    : Justified next := by
  cases here : s.main <;> simp only [ConditionVariable.main, here] at taken
  case createProducer =>
    obtain rfl := Option.some.inj taken
    have first := unborn.producer.mpr here
    exact justified.of_goto rfl rfl (by simp [first, Pc.owesSignal]) (by simp [Pc.waiting])
  case createConsumer =>
    obtain rfl := Option.some.inj taken
    have first := unborn.consumer.mpr (Or.inr here)
    exact justified.of_goto rfl rfl (by simp [first, Pc.owesSignal]) (by simp [Pc.waiting])
  case sleeping =>
    obtain rfl := Option.some.inj taken
    exact justified
  case broadcasting =>
    obtain rfl := Option.some.inj taken
    have begun : Justified { s with main := .joinProducer } := justified
    exact (begun.wake .producer).wake .consumer
  case joinProducer | joinConsumer =>
    obtain ⟨_, same⟩ := Option.ite_none_right_eq_some.mp taken
    obtain rfl := Option.some.inj same
    exact justified
  case exited => contradiction

/-- In every reachable state the waiting threads are justified. -/
theorem justified_of_reachable {s : State} (reached : system.Reachable s) : Justified s := by
  refine System.ReachableBy.invariant ?_ ?_ reached
  · intro _ same
    subst same
    intro worker there
    simp [start, Pc.waiting] at there
  · intro s action next before justified _ taken
    obtain ⟨owned, unborn⟩ := owned_of_reachable before
    cases action with
    | main => exact justified.main unborn taken
    | worker self =>
        exact justified.threadStep owned
          (.of_threadFunc ((step_worker s self).symm.trans taken))
    | spurious self =>
        obtain ⟨sleeping, same⟩ := Option.ite_none_right_eq_some.mp taken
        obtain rfl := Option.some.inj same
        exact justified.of_goto rfl rfl (by simp [sleeping, Pc.owesSignal])
          (by simp [Pc.waiting])

-----------------------------------------------------------------------------------------
-- Nobody leaves while the program runs
-----------------------------------------------------------------------------------------

/-- A thread step leads to an exit only with the flag set, by its shape. -/
theorem StaysInLoop.threadStep {s next : State} {self : Worker} (stays : StaysInLoop s)
    (taken : ThreadStep s self next)
    : StaysInLoop next := by
  intro worker leaving
  rw [taken.shouldExit_eq]
  by_cases mine : worker = self
  · subst mine
    cases taken with
    | moves along =>
        rw [State.goto_pc_self] at leaving
        generalize s.pc worker = source at along
        cases along <;> simp_all
    | releases along =>
        rw [State.goto_pc_self] at leaving
        have before := stays worker
        generalize s.pc worker = source at along before
        cases along <;> simp_all
    | acquires _ _ | stores _ | touches _ | signals _ => simp at leaving
  · rcases taken.pc_other mine with same | ⟨_, woken⟩
    · exact stays worker (same ▸ leaving)
    · simp [woken] at leaving

/-- A wake-up lets nobody leave. -/
theorem StaysInLoop.wake {s : State} (stays : StaysInLoop s) (woken : Worker)
    : StaysInLoop (s.wake woken) := by
  intro worker leaving
  rw [State.wake_shouldExit]
  rcases s.wake_pc woken worker with same | ⟨_, awake⟩
  · exact stays worker (same ▸ leaving)
  · simp [awake] at leaving

/-- A thread that starts its loop has not left it. -/
theorem StaysInLoop.goto {s : State} (stays : StaysInLoop s) {self : Worker} {pc : Pc}
    (inside : pc ≠ .unlockExit ∧ pc ≠ .finished)
    : StaysInLoop (s.goto self pc) := by
  intro worker leaving
  by_cases mine : worker = self
  · subst mine
    simp [inside] at leaving
  · rw [State.goto_pc_ne _ _ mine] at leaving
    exact stays worker leaving

theorem StaysInLoop.main {s next : State} (stays : StaysInLoop s) (taken : main s = some next)
    : StaysInLoop next := by
  cases here : s.main <;> simp only [ConditionVariable.main, here] at taken
  case createProducer | createConsumer =>
    obtain rfl := Option.some.inj taken
    exact StaysInLoop.goto stays (by simp)
  case sleeping =>
    obtain rfl := Option.some.inj taken
    exact fun _ _ => rfl
  case broadcasting =>
    obtain rfl := Option.some.inj taken
    have begun : StaysInLoop { s with main := .joinProducer } := stays
    exact (begun.wake .producer).wake .consumer
  case joinProducer | joinConsumer =>
    obtain ⟨_, same⟩ := Option.ite_none_right_eq_some.mp taken
    obtain rfl := Option.some.inj same
    exact stays
  case exited => contradiction

theorem staysInLoop_of_reachable {s : State} (reached : system.Reachable s)
    : StaysInLoop s := by
  refine System.Reachable.invariant ?_ ?_ reached
  · intro _ same
    subst same
    intro worker leaving
    simp [start] at leaving
  · intro s action next stays taken
    cases action with
    | main => exact stays.main taken
    | worker self =>
        exact stays.threadStep (.of_threadFunc ((step_worker s self).symm.trans taken))
    | spurious self =>
        obtain ⟨_, same⟩ := Option.ite_none_right_eq_some.mp taken
        obtain rfl := Option.some.inj same
        exact stays.goto (by simp)

-----------------------------------------------------------------------------------------
-- Nobody sleeps in vain
-----------------------------------------------------------------------------------------

/-- Whoever sleeps without a wake-up has nothing to do, the two threads never both sleep, and
as soon as both have been created one of them can take a step.
-/
structure SleepsForReason (s : State) : Prop where
  producer : s.mutex = none → s.pc .producer = .asleep → s.count = bufferSize
  consumer : s.mutex = none → s.pc .consumer = .asleep → s.count = 0
  apart : ¬(s.pc .producer = .asleep ∧ s.pc .consumer = .asleep)
  proceeds
    : (∃ worker, system.Enabled s (.worker worker))
      ∨ (∃ worker, s.pc worker = .unborn) ∧ system.Enabled s .main

/-- While the mutex is free no signal is owed, so a sleeping thread is blocked. -/
theorem blocked_of_asleep {s : State} (owned : Owned s) (justified : Justified s)
    (free : s.mutex = none) {worker : Worker} (asleep : s.pc worker = .asleep)
    : worker.role.blocked s.count = true := by
  rcases justified worker (by simp [asleep, Pc.waiting]) with blocked | owed
  · exact blocked
  · have inside : (s.pc worker.other).holding = true := by
      cases here : s.pc worker.other <;> simp_all [Pc.owesSignal, Pc.holding]
    have held := (owned worker.other).mpr inside
    simp [free] at held

/-- A mutex held by nobody awake is free. -/
theorem free_of_asleep {s : State} (owned : Owned s)
    (asleep : ∀ worker, s.pc worker = .asleep ∨ s.pc worker = .unborn)
    : s.mutex = none := by
  cases held : s.mutex with
  | none => rfl
  | some owner =>
      have inside := (owned owner).mp held
      rcases asleep owner with here | here <;> simp [here, Pc.holding] at inside

/-- As long as `should_exit` is 0, nobody sleeps without reason, in every reachable state. -/
theorem sleepsForReason {s : State} (reached : system.Reachable s)
    (running : s.shouldExit = false)
    : SleepsForReason s := by
  obtain ⟨owned, unborn⟩ := owned_of_reachable reached
  have justified := justified_of_reachable reached
  have stays := staysInLoop_of_reachable reached
  have full (free : s.mutex = none) (asleep : s.pc .producer = .asleep)
      : s.count = bufferSize := by
    simpa [Worker.role, producerRole] using blocked_of_asleep owned justified free asleep
  have empty (free : s.mutex = none) (asleep : s.pc .consumer = .asleep) : s.count = 0 := by
    simpa [Worker.role, consumerRole] using blocked_of_asleep owned justified free asleep
  have apart : ¬(s.pc .producer = .asleep ∧ s.pc .consumer = .asleep) := by
    intro both
    have free := free_of_asleep owned fun worker => by cases worker <;> simp [both]
    have one := full free both.1
    rw [empty free both.2] at one
    simp [bufferSize] at one
  refine ⟨full, empty, apart, ?_⟩
  -- either some created thread is awake, or `main` has a thread left to create
  by_cases awake : ∃ worker, s.pc worker ≠ .unborn ∧ s.pc worker ≠ .asleep
  · obtain ⟨worker, born, notAsleep⟩ := awake
    have unfinished : s.pc worker ≠ .finished := by
      intro finished
      simp [stays worker (Or.inr finished)] at running
    exact Or.inl (worker_enabled owned born notAsleep unfinished)
  · right
    have all (worker : Worker) : s.pc worker = .asleep ∨ s.pc worker = .unborn := by
      by_contra neither
      rw [not_or] at neither
      exact awake ⟨worker, neither.2, neither.1⟩
    have missing : s.main = .createProducer ∨ s.main = .createConsumer := by
      by_contra created
      rw [not_or] at created
      have born := unborn.all_born created
      exact apart ⟨(all .producer).resolve_right (born _), (all .consumer).resolve_right (born _)⟩
    rcases missing with here | here
    · exact ⟨⟨.producer, unborn.producer.mpr here⟩, _, by simp [system, step, main, here]; rfl⟩
    · exact ⟨⟨.consumer, unborn.consumer.mpr (Or.inr here)⟩, _, by
        simp [system, step, main, here]; rfl⟩

/-- The consumer finds the buffer empty and falls asleep. -/
def consumerSleeps : List Action :=
  [.main, .main, .worker .consumer, .worker .consumer, .worker .consumer, .worker .consumer,
    .worker .consumer]

/-- A consumer asleep on the empty buffer, with the producer still able to go on. -/
theorem sleepsForReason_emptyBuffer
    : ∃ s, s.mutex = none ∧ s.pc .consumer = .asleep ∧ SleepsForReason s :=
  ⟨_, rfl, rfl, sleepsForReason
    (System.reachable_of_run start rfl consumerSleeps rfl) rfl⟩

end LinuxStudy.ConditionVariable
