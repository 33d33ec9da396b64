import LinuxStudy.ConditionVariable.Model

/-! What one atomic step of a thread function can do: a relational reading of the
executable step, and the projections of the state operations it is made of.
-/

namespace LinuxStudy.ConditionVariable

open Transition Histories

@[simp] theorem State.goto_pc_self (s : State) (self : Worker) (pc : Pc)
    : (s.goto self pc).pc self = pc := by
  simp [State.goto]

theorem State.goto_pc_ne (s : State) {self worker : Worker} (pc : Pc) (other : worker ≠ self)
    : (s.goto self pc).pc worker = s.pc worker := by
  simp [State.goto, other]

@[simp] theorem State.goto_mutex (s : State) (self : Worker) (pc : Pc)
    : (s.goto self pc).mutex = s.mutex :=
  rfl

@[simp] theorem State.goto_main (s : State) (self : Worker) (pc : Pc)
    : (s.goto self pc).main = s.main :=
  rfl

@[simp] theorem State.goto_shouldExit (s : State) (self : Worker) (pc : Pc)
    : (s.goto self pc).shouldExit = s.shouldExit :=
  rfl

/-- A wake-up only ever moves a sleeping thread to its wake-up point. -/
theorem State.wake_pc (s : State) (woken worker : Worker)
    : (s.wake woken).pc worker = s.pc worker
      ∨ s.pc worker = .asleep ∧ (s.wake woken).pc worker = .woken := by
  unfold State.wake
  split
  next sleeping =>
    by_cases same : worker = woken
    · subst same
      exact Or.inr ⟨sleeping, s.goto_pc_self worker .woken⟩
    · exact Or.inl (s.goto_pc_ne .woken same)
  next => exact Or.inl rfl

/-- Waking a thread leaves nobody of that name asleep. -/
theorem State.wake_pc_self_ne (s : State) (worker : Worker)
    : (s.wake worker).pc worker ≠ .asleep := by
  unfold State.wake
  split
  next => simp
  next awake => exact awake

/-- A wake-up changes one program point and nothing else. -/
theorem State.wake_eq (s : State) (worker : Worker)
    : s.wake worker = { s with pc := (s.wake worker).pc } := by
  unfold State.wake
  split <;> rfl

@[simp] theorem State.wake_mutex (s : State) (worker : Worker)
    : (s.wake worker).mutex = s.mutex := by
  rw [s.wake_eq worker]

@[simp] theorem State.wake_main (s : State) (worker : Worker)
    : (s.wake worker).main = s.main := by
  rw [s.wake_eq worker]

@[simp] theorem State.wake_shouldExit (s : State) (worker : Worker)
    : (s.wake worker).shouldExit = s.shouldExit := by
  rw [s.wake_eq worker]

/-- Both thread functions are the same code at their own role. -/
theorem step_worker (s : State) (self : Worker)
    : step s (.worker self) = threadFunc self.role self s := by
  cases self <;> rfl

@[simp] theorem Worker.access_pc (self : Worker) (s : State) (index : Int)
    : (self.role.access s index).pc = s.pc := by
  cases self <;> rfl

@[simp] theorem Worker.access_mutex (self : Worker) (s : State) (index : Int)
    : (self.role.access s index).mutex = s.mutex := by
  cases self <;> rfl

@[simp] theorem Worker.access_main (self : Worker) (s : State) (index : Int)
    : (self.role.access s index).main = s.main := by
  cases self <;> rfl

@[simp] theorem Worker.access_shouldExit (self : Worker) (s : State) (index : Int)
    : (self.role.access s index).shouldExit = s.shouldExit := by
  cases self <;> rfl

-----------------------------------------------------------------------------------------
-- Inversion of a thread step
-----------------------------------------------------------------------------------------

/-- Program points a thread passes without touching the mutex, `count` or the buffer, with
what it has just loaded.
-/
inductive Moves (s : State) (self : Worker) : Pc → Pc → Prop
  | leaveLoop (exit : s.shouldExit = true) : Moves s self .loopTest .finished
  | enterLoop (stay : s.shouldExit = false) : Moves s self .loopTest .lock
  | findBlocked (blocked : self.role.blocked s.count = true)
    : Moves s self .testCount .testExit
  | findReady (ready : self.role.blocked s.count = false)
    : Moves s self .testCount .checkExit
  | stopWaiting (exit : s.shouldExit = true) : Moves s self .testExit .checkExit
  | startWaiting (stay : s.shouldExit = false) : Moves s self .testExit .wait
  | giveUp (exit : s.shouldExit = true) : Moves s self .checkExit .unlockExit
  | goOn (stay : s.shouldExit = false) : Moves s self .checkExit .loadCount
  | load : Moves s self .loadCount (.storeCount s.count)

/-- The three ways out of the critical section. -/
inductive Leaves : Pc → Pc → Prop
  | wait : Leaves .wait .asleep
  | exit : Leaves .unlockExit .finished
  | again : Leaves .unlock .loopTest

/-- One step of a thread function, by what it does to the shared state. -/
inductive ThreadStep (s : State) (self : Worker) : State → Prop
  | moves {target} (along : Moves s self (s.pc self) target)
    : ThreadStep s self (s.goto self target)
  | acquires (queued : s.pc self = .lock ∨ s.pc self = .woken) (free : s.mutex = none)
    : ThreadStep s self ({ s with mutex := some self }.goto self .testCount)
  | releases {target} (along : Leaves (s.pc self) target)
    : ThreadStep s self ({ s with mutex := none }.goto self target)
  | stores {loaded} (here : s.pc self = .storeCount loaded)
    : ThreadStep s self ({ s with count := self.role.newCount loaded }.goto self
        (.touchCell (self.role.index loaded)))
  | touches {index} (here : s.pc self = .touchCell index)
    : ThreadStep s self ((self.role.access s index).goto self .signal)
  | signals (here : s.pc self = .signal)
    : ThreadStep s self ((s.wake self.other).goto self .unlock)

/-- The executable step is one of the six shapes, by its program point. -/
theorem ThreadStep.of_threadFunc {s next : State} {self : Worker}
    (taken : threadFunc self.role self s = some next)
    : ThreadStep s self next := by
  cases here : s.pc self <;> simp only [threadFunc, here] at taken
  case unborn | asleep | finished => contradiction
  case lock | woken =>
    obtain ⟨free, same⟩ := Option.ite_none_right_eq_some.mp taken
    obtain rfl := Option.some.inj same
    exact .acquires (by simp [here]) free
  case loopTest =>
    obtain rfl := Option.some.inj taken
    cases exit : s.shouldExit
    · exact .moves (here ▸ .enterLoop exit)
    · exact .moves (here ▸ .leaveLoop exit)
  case testCount =>
    obtain rfl := Option.some.inj taken
    cases blocked : self.role.blocked s.count
    · exact .moves (here ▸ .findReady blocked)
    · exact .moves (here ▸ .findBlocked blocked)
  case testExit =>
    obtain rfl := Option.some.inj taken
    cases exit : s.shouldExit
    · exact .moves (here ▸ .startWaiting exit)
    · exact .moves (here ▸ .stopWaiting exit)
  case checkExit =>
    obtain rfl := Option.some.inj taken
    cases exit : s.shouldExit
    · exact .moves (here ▸ .goOn exit)
    · exact .moves (here ▸ .giveUp exit)
  case wait => exact Option.some.inj taken ▸ .releases (here ▸ .wait)
  case unlockExit => exact Option.some.inj taken ▸ .releases (here ▸ .exit)
  case unlock => exact Option.some.inj taken ▸ .releases (here ▸ .again)
  case loadCount => exact Option.some.inj taken ▸ .moves (here ▸ .load)
  case storeCount loaded => exact Option.some.inj taken ▸ .stores here
  case touchCell index => exact Option.some.inj taken ▸ .touches here
  case signal => exact Option.some.inj taken ▸ .signals here

theorem ThreadStep.main_eq {s next : State} {self : Worker} (taken : ThreadStep s self next)
    : next.main = s.main := by
  cases taken <;> simp

theorem ThreadStep.shouldExit_eq {s next : State} {self : Worker}
    (taken : ThreadStep s self next)
    : next.shouldExit = s.shouldExit := by
  cases taken <;> simp

theorem Moves.running {s : State} {self : Worker} {source target : Pc}
    (along : Moves s self source target)
    : source ≠ .unborn ∧ source ≠ .asleep ∧ source ≠ .finished := by
  cases along <;> simp

theorem Moves.born {s : State} {self : Worker} {source target : Pc}
    (along : Moves s self source target)
    : target ≠ .unborn := by
  cases along <;> simp

theorem Leaves.running {source target : Pc} (along : Leaves source target)
    : source ≠ .unborn ∧ source ≠ .asleep ∧ source ≠ .finished := by
  cases along <;> simp

theorem Leaves.born {source target : Pc} (along : Leaves source target)
    : target ≠ .unborn := by
  cases along <;> simp

/-- Only a thread that runs takes a step of its function. -/
theorem ThreadStep.running {s next : State} {self : Worker} (taken : ThreadStep s self next)
    : s.pc self ≠ .unborn ∧ s.pc self ≠ .asleep ∧ s.pc self ≠ .finished := by
  cases taken with
  | moves along => exact along.running
  | acquires queued _ => rcases queued with here | here <;> simp [here]
  | releases along => exact along.running
  | stores here | touches here | signals here => simp [here]

/-- A thread that has taken a step has been created. -/
theorem ThreadStep.born {s next : State} {self : Worker} (taken : ThreadStep s self next)
    : next.pc self ≠ .unborn := by
  cases taken with
  | moves along => simpa using along.born
  | releases along => simpa using along.born
  | acquires _ _ | stores _ | touches _ | signals _ => simp

/-- A thread step moves the other thread only by waking it. -/
theorem ThreadStep.pc_other {s next : State} {self worker : Worker}
    (taken : ThreadStep s self next) (other : worker ≠ self)
    : next.pc worker = s.pc worker
      ∨ s.pc worker = .asleep ∧ next.pc worker = .woken := by
  cases taken with
  | moves _ | acquires _ _ | releases _ | stores _ =>
      exact Or.inl (State.goto_pc_ne _ _ other)
  | touches _ =>
      left
      rw [State.goto_pc_ne _ _ other, Worker.access_pc]
  | signals _ =>
      rw [State.goto_pc_ne _ _ other]
      exact s.wake_pc self.other worker

end LinuxStudy.ConditionVariable
