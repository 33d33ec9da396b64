import LinuxStudy.ConditionVariable.MutualExclusion

/-! The shutdown handshake of `condition_variable.c`. `main` stores `should_exit` and
broadcasts without the mutex, so a worker that has tested the flag and not yet entered
`pthread_cond_wait` misses the broadcast. Runs without such a broadcast always finish.
-/

namespace LinuxStudy.ConditionVariable

open Transition

/-- `pthread_cond_broadcast` has returned. -/
def MainPc.afterBroadcast : MainPc → Bool
  | .joinProducer | .joinConsumer | .exited => true
  | _ => false

/-- `main` is blocked in one of its two calls of `pthread_join`. -/
def JoinBlocked (s : State) : Prop :=
  (s.main = .joinProducer ∧ s.pc .producer ≠ .finished)
  ∨ (s.main = .joinConsumer ∧ s.pc .consumer ≠ .finished)

/-- Every worker that has not finished sleeps without a pending wake-up. -/
def AllAsleep (s : State) : Prop :=
  ∀ worker, s.pc worker = .finished ∨ s.pc worker = .asleep

/-- The handshake works in this state: while a worker is unfinished some step other than a
spurious wake-up is possible, and `main` does not wait for sleeping workers only.
-/
def HandshakeProgress (s : State) : Prop :=
  s.main.afterBroadcast = true
  → ((∃ worker, s.pc worker ≠ .finished)
      → ∃ action, (∀ worker, action ≠ .spurious worker) ∧ system.Enabled s action)
    ∧ ¬(JoinBlocked s ∧ AllAsleep s)

/-- The broadcast does not fall between a worker's test of `should_exit` and its wait. -/
def BroadcastSeen (s : State) (action : Action) : Prop :=
  action = .main → s.main = .broadcasting → ∀ worker, s.pc worker ≠ .wait

instance (s : State) (action : Action) : Decidable (BroadcastSeen s action) := by
  unfold BroadcastSeen
  infer_instance

-----------------------------------------------------------------------------------------
-- After a broadcast that everybody saw, nobody sleeps again
-----------------------------------------------------------------------------------------

/-- The flag is set from `main`'s store on, and once the broadcast has returned no worker
is asleep or about to sleep.
-/
structure Roused (s : State) : Prop where
  flagged : s.main = .broadcasting ∨ s.main.afterBroadcast = true → s.shouldExit = true
  awake
    : s.main.afterBroadcast = true
      → ∀ worker, s.pc worker ≠ .wait ∧ s.pc worker ≠ .asleep

/-- With the flag set, no move leads into the wait. -/
theorem Moves.target_ne {s : State} {self : Worker} {source target : Pc}
    (along : Moves s self source target) (exit : s.shouldExit = true)
    : target ≠ .wait ∧ target ≠ .asleep := by
  cases along <;> simp_all

/-- A thread step after the broadcast takes nobody towards sleep, by its shape. -/
theorem ThreadStep.stays_awake {s next : State} {self : Worker}
    (taken : ThreadStep s self next) (exit : s.shouldExit = true)
    (awake : ∀ worker, s.pc worker ≠ .wait ∧ s.pc worker ≠ .asleep) (worker : Worker)
    : next.pc worker ≠ .wait ∧ next.pc worker ≠ .asleep := by
  by_cases mine : worker = self
  · subst mine
    cases taken with
    | moves along => simpa using along.target_ne exit
    | releases along =>
        have here := (awake worker).1
        generalize s.pc worker = source at along here
        cases along <;> simp_all
    | acquires _ _ | stores _ | touches _ | signals _ => simp
  · rcases taken.pc_other mine with same | ⟨_, woken⟩
    · simpa only [same] using awake worker
    · simp [woken]

theorem Roused.threadStep {s next : State} {self : Worker} (roused : Roused s)
    (taken : ThreadStep s self next)
    : Roused next where
  flagged := by
    rw [taken.main_eq, taken.shouldExit_eq]
    exact roused.flagged
  awake := by
    rw [taken.main_eq]
    intro after
    exact taken.stays_awake (roused.flagged (Or.inr after)) (roused.awake after)

/-- The broadcast wakes both workers, whoever of them sleeps. -/
theorem wake_both_ne_asleep (s : State) (worker : Worker)
    : ((s.wake .producer).wake .consumer).pc worker ≠ .asleep := by
  cases worker with
  | consumer => exact State.wake_pc_self_ne _ _
  | producer =>
      rcases (s.wake .producer).wake_pc .consumer .producer with same | ⟨_, woken⟩
      · rw [same]
        exact s.wake_pc_self_ne .producer
      · simp [woken]

/-- Waking does not put anybody in front of the wait. -/
theorem wake_ne_wait {s : State} {woken : Worker}
    (before : ∀ worker, s.pc worker ≠ .wait) (worker : Worker)
    : (s.wake woken).pc worker ≠ .wait := by
  rcases s.wake_pc woken worker with same | ⟨_, awake⟩
  · rw [same]
    exact before worker
  · simp [awake]

theorem Roused.main {s next : State} (roused : Roused s) (seen : BroadcastSeen s .main)
    (taken : main s = some next)
    : Roused next := by
  cases here : s.main <;> simp only [ConditionVariable.main, here] at taken
  case createProducer | createConsumer | sleeping =>
    obtain rfl := Option.some.inj taken
    constructor <;> simp [MainPc.afterBroadcast]
  case broadcasting =>
    obtain rfl := Option.some.inj taken
    have nobody : ∀ worker, { s with main := .joinProducer }.pc worker ≠ .wait := seen rfl here
    refine ⟨fun _ => by simpa using roused.flagged (Or.inl here), fun _ worker => ⟨?_, ?_⟩⟩
    · exact wake_ne_wait (wake_ne_wait nobody) worker
    · exact wake_both_ne_asleep _ worker
  case joinProducer | joinConsumer =>
    obtain ⟨_, same⟩ := Option.ite_none_right_eq_some.mp taken
    obtain rfl := Option.some.inj same
    have after : s.main.afterBroadcast = true := by simp [here, MainPc.afterBroadcast]
    exact ⟨fun _ => roused.flagged (Or.inr after), fun _ => roused.awake after⟩
  case exited => contradiction

/-- In runs whose broadcast everybody sees, nobody sleeps after it. -/
theorem roused_of_reachableBy {s : State} (reached : system.ReachableBy BroadcastSeen s)
    : Roused s := by
  apply reached.invariant
  · intro _ same
    subst same
    constructor <;> simp [start, MainPc.afterBroadcast]
  · intro s action next _ roused seen taken
    cases action with
    | main => exact roused.main seen taken
    | worker self =>
        exact roused.threadStep (.of_threadFunc ((step_worker s self).symm.trans taken))
    | spurious self =>
        obtain ⟨sleeping, same⟩ := Option.ite_none_right_eq_some.mp taken
        obtain rfl := Option.some.inj same
        refine ⟨roused.flagged, fun after worker => ?_⟩
        exact absurd sleeping (roused.awake after self).2

-----------------------------------------------------------------------------------------
-- Some thread can always take a step
-----------------------------------------------------------------------------------------

/-- A running thread is disabled only while it waits for the mutex. -/
theorem threadFunc_enabled {s : State} {self : Worker} (running : s.pc self ≠ .unborn)
    (awake : s.pc self ≠ .asleep) (unfinished : s.pc self ≠ .finished)
    (free : s.pc self = .lock ∨ s.pc self = .woken → s.mutex = none)
    : system.Enabled s (.worker self) := by
  unfold System.Enabled
  change ∃ next, step s (.worker self) = some next
  rw [step_worker]
  cases here : s.pc self <;> simp_all [threadFunc]

/-- The thread inside its critical section is never disabled. -/
theorem holder_enabled {s : State} {self : Worker} (inside : (s.pc self).holding = true)
    : system.Enabled s (.worker self) := by
  apply threadFunc_enabled
  all_goals
    cases here : s.pc self <;> simp_all [Pc.holding]

/-- If an unfinished worker runs and is not asleep, some worker can take a step: that
worker itself, or the owner of the mutex it waits for.
-/
theorem worker_enabled {s : State} (owned : Owned s) {self : Worker}
    (running : s.pc self ≠ .unborn) (awake : s.pc self ≠ .asleep)
    (unfinished : s.pc self ≠ .finished)
    : ∃ worker, system.Enabled s (.worker worker) := by
  cases held : s.mutex with
  | none => exact ⟨self, threadFunc_enabled running awake unfinished fun _ => held⟩
  | some owner => exact ⟨owner, holder_enabled ((owned owner).mp held)⟩

/-- In every run whose broadcast everybody sees, the handshake works in every state. -/
theorem handshakeProgress {s : State} (reached : system.ReachableBy BroadcastSeen s)
    : HandshakeProgress s := by
  intro after
  have roused := roused_of_reachableBy reached
  obtain ⟨owned, unborn⟩ := owned_of_reachable reached.reachable
  have created : s.main ≠ .createProducer ∧ s.main ≠ .createConsumer := by
    constructor <;> intro early <;> simp [early, MainPc.afterBroadcast] at after
  constructor
  · intro found
    obtain ⟨self, unfinished⟩ := found
    obtain ⟨worker, enabled⟩ := worker_enabled owned (unborn.all_born created self)
      (roused.awake after self).2 unfinished
    exact ⟨.worker worker, by simp, enabled⟩
  · intro stuck
    obtain ⟨blocked, asleep⟩ := stuck
    have finished (worker : Worker) : s.pc worker = .finished :=
      (asleep worker).resolve_right (roused.awake after worker).2
    rcases blocked with ⟨_, waits⟩ | ⟨_, waits⟩
    · exact waits (finished .producer)
    · exact waits (finished .consumer)

/-- The consumer finds the buffer empty and waits before `main` stores the flag. -/
def seenBroadcast : List Action :=
  [.main, .main, .worker .consumer, .worker .consumer, .worker .consumer, .worker .consumer,
    .worker .consumer, .main, .main]

/-- The handshake works after a broadcast that finds the consumer asleep. -/
theorem handshakeProgress_seen
    : ∃ s, s.main = .joinProducer ∧ s.pc .consumer = .woken ∧ HandshakeProgress s :=
  ⟨_, rfl, rfl, handshakeProgress (System.reachable_restrict_iff.mp
    (System.reachable_of_run start rfl seenBroadcast rfl))⟩

/-- The consumer finds the buffer empty and `should_exit` unset; `main` stores the flag and
broadcasts; only then the consumer waits. The producer leaves its loop without a signal.
-/
def missedBroadcast : List Action :=
  [.main, .main, .worker .consumer, .worker .consumer, .worker .consumer, .worker .consumer,
    .main, .main, .worker .consumer, .worker .producer, .main]

/-- After the missed broadcast `main` joins a consumer that nobody will wake. -/
theorem handshakeProgress_missed : ¬∀ s, system.Reachable s → HandshakeProgress s := by
  intro always
  have progress := always _ (System.reachable_of_run start rfl missedBroadcast rfl)
  refine (progress rfl).2 ⟨Or.inr ⟨rfl, nofun⟩, ?_⟩
  intro worker
  cases worker with
  | producer => exact Or.inl rfl
  | consumer => exact Or.inr rfl

end LinuxStudy.ConditionVariable
