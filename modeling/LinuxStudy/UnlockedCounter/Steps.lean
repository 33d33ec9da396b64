import LinuxStudy.LockedCounter.Completion
import LinuxStudy.UnlockedCounter.Model

/-! The steps of the programs without a writer's lock, and that every schedule of them ends:
the readers' lock is never taken alone, so no reader waits for ever.
-/

namespace LinuxStudy.UnlockedCounter

open Transition Sync LockedCounter

variable {program : Program} {s next : State program.lock.Value}

/-- One step. A writer has the statements of the writers under a lock except for the two lock
calls.
-/
inductive Move (program : Program) (s : State program.lock.Value)
    : State program.lock.Value → Prop
  | create {thread rest} (first : s.toCreate = thread :: rest)
    : Move program s ({ s with toCreate := rest }.goto thread .loop)
  | join {thread rest} (created : s.toCreate = []) (first : s.toJoin = thread :: rest)
    (ended : s.pc thread = .finished)
    : Move program s { s with toJoin := rest }
  | reader {i next} (moves : ThreadMove program s (.reader i) next) : Move program s next
  | writer {i next} (moves : ThreadMove program s (.writer i) next) (lock : next.lock = s.lock)
    : Move program s next
  | acquire {i} (here : s.pc (.writer i) = .acquire)
    : Move program s (s.goto (.writer i) .load)
  | release {i} (here : s.pc (.writer i) = .release)
    : Move program s
        (({ s with completed := s.completed + 1 }.nextRound (.writer i)).goto (.writer i) .loop)

/-- Every step of a writer is one of the statements, by its program point. -/
theorem Move.of_writer {i : Nat} (taken : writerThreadFunc program i s = some next)
    : Move program s next := by
  cases here : s.pc (.writer i) <;> simp only [writerThreadFunc, here] at taken
  case unborn | finished => contradiction
  case loop => exact Option.some.inj taken ▸ .writer (.of_loopTest here) rfl
  case acquire => exact Option.some.inj taken ▸ .acquire here
  case load => exact Option.some.inj taken ▸ .writer (.load here) rfl
  case store loaded => exact Option.some.inj taken ▸ .writer (.store here) rfl
  case print => exact Option.some.inj taken ▸ .writer (.print here) rfl
  case release => exact Option.some.inj taken ▸ .release here

theorem Move.of_step {action : Action} (taken : step program s action = some next)
    : Move program s next := by
  cases action with
  | main =>
      simp only [step, main] at taken
      split at taken
      next thread rest first => exact Option.some.inj taken ▸ .create first
      next thread rest created first =>
        obtain ⟨ended, same⟩ := Option.ite_none_right_eq_some.mp taken
        exact Option.some.inj same ▸ .join created first ended
      next => contradiction
  | thread self =>
      cases self with
      | writer i => exact .of_writer taken
      | reader i => exact .reader (.of_reader taken)

-----------------------------------------------------------------------------------------
-- What the programs share with those under a lock
-----------------------------------------------------------------------------------------

/-- `main` keeps account of its threads, and the threads of their iterations. -/
theorem inOrder_move (roster : Roster program s) (rounds : Rounds program s)
    (moves : Move program s next)
    : Roster program next ∧ Rounds program next := by
  cases moves with
  | create first =>
      exact ⟨roster.create first, rounds.of_goto rfl rfl rfl (by simp [Pc.inside]) (by simp)⟩
  | join _ first ended =>
      exact ⟨roster.join first ended, rounds.most, rounds.more, rounds.all, rounds.total⟩
  | reader moves => exact ⟨roster.threadMove moves, rounds.threadMove roster moves⟩
  | writer moves _ => exact ⟨roster.threadMove moves, rounds.threadMove roster moves⟩
  | acquire here =>
      refine ⟨roster.moved (fun _ other => s.goto_pc_ne _ _ other) (by simp [here]) ⟨rfl, rfl⟩, ?_⟩
      exact rounds.of_goto rfl rfl rfl (fun _ => rounds.more (Or.inl here)) (by simp)
  | @release i here =>
      have others (thread : Thread) (other : thread ≠ .writer i) :=
        ({ s with completed := s.completed + 1 }.nextRound (.writer i)).goto_pc_ne
          (.writer i) .loop other
      refine ⟨roster.moved others (by simp [here]) ⟨rfl, rfl⟩, ?_⟩
      refine rounds.nextRound (by rw [here]; rfl) rfl rfl ?_
      have born : s.pc (.writer i) ≠ .unborn := by simp [here]
      have bound := Program.mem_writers.mp (roster.known born)
      change s.completed + 1
        = ∑ j ∈ Finset.range program.writers, (s.nextRound (.writer i)).rounds (.writer j)
      rw [rounds.total, ← sum_update_succ (fun j => s.rounds (.writer j)) bound,
        ← s.nextRound_writer i]

theorem inOrder_of_reachable (reached : (system program).Reachable s)
    : Roster program s ∧ Rounds program s := by
  apply reached.invariant
  · intro _ same
    subst same
    have initially : (LockedCounter.system program).Reachable (start program) := .initial rfl
    exact ⟨Roster.start program, rounds_of_reachable initially⟩
  · exact fun _ _ _ ⟨roster, rounds⟩ taken => inOrder_move roster rounds (.of_step taken)

/-- Every step lowers the work that is left. -/
theorem work_lt_of_move (roster : Roster program s) (rounds : Rounds program s)
    (moves : Move program s next)
    : work program next < work program s := by
  cases moves with
  | create first => exact work_lt rounds roster (.create first)
  | join created first ended => exact work_lt rounds roster (.join created first ended)
  | reader moves => exact work_lt rounds roster (.thread moves)
  | writer moves _ => exact work_lt rounds roster (.thread moves)
  | @acquire i here =>
      refine work_lt_of_weight_lt (roster.known (by simp [here])) ?_
        (fun _ other => s.goto_pc_ne _ _ other) (fun _ _ => rfl) ⟨rfl, rfl⟩
      simp [weight, here, Pc.rank]
  | @release i here =>
      have more := rounds.more (Or.inr (by rw [here]; rfl))
      have born : s.pc (.writer i) ≠ .unborn := by simp [here]
      refine work_lt_of_weight_lt (roster.known born) ?_
        (fun _ other => State.goto_pc_ne _ _ _ other)
        (fun _ other => by simp [State.nextRound, other]) ⟨rfl, rfl⟩
      simp only [weight, State.goto_pc_self, State.goto_rounds, State.nextRound,
        Function.update_self, here, Pc.rank]
      omega

-----------------------------------------------------------------------------------------
-- Some step is always possible
-----------------------------------------------------------------------------------------

/-- How the readers are inside the lock; a writer never is. -/
def readerMode {Value : Type} (s : State Value) : Thread → Mode
  | .writer _ => .outside
  | .reader i => s.mode (.reader i)

/-- The lock keeps account of the readers, and a reader stands at a statement of its own. -/
structure Shared (program : Program) (s : State program.lock.Value) : Prop where
  stands : program.lock.Stands s.lock (readerMode s)
  points : ReaderPoints s

/-- A step of `main` or of a writer, that leaves the readers and the lock alone. -/
theorem Shared.of_same (shared : Shared program s) (lock : next.lock = s.lock)
    (same : ∀ i, next.pc (.reader i) = s.pc (.reader i))
    : Shared program next := by
  have mode : readerMode next = readerMode s := by
    funext thread
    cases thread with
    | writer i => rfl
    | reader i => simp only [readerMode, State.mode, same]
  refine ⟨by rw [lock, mode]; exact shared.stands, fun i => ?_⟩
  rw [same]
  exact shared.points i

/-- The modes after a step by which one reader comes to another point. -/
theorem readerMode_of_goto {i : Nat} {pc : Pc} (points : next.pc = (s.goto (.reader i) pc).pc)
    : readerMode next
      = Function.update (readerMode s) (.reader i) ((Thread.reader i).mode pc) := by
  funext thread
  cases thread with
  | writer j => rfl
  | reader j => by_cases mine : j = i <;> simp [readerMode, State.mode, points, State.goto, mine]

/-- A reader that comes to a point on the same side of the lock. -/
theorem Shared.of_goto (shared : Shared program s) {i : Nat} {pc : Pc}
    (lock : next.lock = s.lock) (points : next.pc = (s.goto (.reader i) pc).pc)
    (same : (Thread.reader i).mode pc = s.mode (.reader i))
    : program.lock.Stands next.lock (readerMode next) := by
  have mode : readerMode next = readerMode s := by
    rw [readerMode_of_goto points, same]
    exact Function.update_eq_self (.reader i) (readerMode s)
  rw [lock, mode]
  exact shared.stands

/-- A step of a reader, by the law of the lock for the statement it executes. -/
theorem Shared.reader (shared : Shared program s) {i : Nat}
    (moves : ThreadMove program s (.reader i) next)
    : Shared program next := by
  constructor
  · cases moves with
    | goOn here _ | finish here _ | observe here =>
        exact shared.of_goto rfl rfl (by simp [State.mode_eq here, Thread.mode, Pc.inside])
    | @rdlock _ lock here granted =>
        have mode : readerMode ({ s with lock }.goto (.reader i) .print)
            = Function.update (readerMode s) (.reader i) .sharing :=
          readerMode_of_goto rfl
        rw [mode]
        have outside : readerMode s (.reader i) = .outside := State.mode_eq here
        exact (program.lock.stands_rdlock shared.stands outside granted).2
    | unlockShared here =>
        let unlocked := { s with lock := program.lock.unlock (.reader i) s.lock }
        have mode : readerMode ((unlocked.nextRound (.reader i)).goto (.reader i) .loop)
            = Function.update (readerMode s) (.reader i) .outside :=
          readerMode_of_goto rfl
        rw [mode]
        have sharing : readerMode s (.reader i) = .sharing := State.mode_eq here
        exact program.lock.stands_unlock shared.stands (by simp [sharing])
  · intro j
    by_cases mine : j = i
    · subst mine
      cases moves <;> simp
    · rw [moves.pc_ne (by simpa using mine)]
      exact shared.points j

theorem shared_of_reachable (reached : (system program).Reachable s) : Shared program s := by
  refine System.ReachableBy.invariant ?_ ?_ reached
  · intro _ same
    subst same
    have outside : readerMode (start program) = fun _ => .outside := by
      funext thread
      cases thread <;> rfl
    exact ⟨outside ▸ program.lock.stands_initial, by simp [ReaderPoints, start]⟩
  · intro s action next before shared _ taken
    obtain ⟨roster, _⟩ := inOrder_of_reachable before
    cases Move.of_step taken with
    | @create thread rest first =>
        have fresh := roster.unborn thread (first ▸ List.mem_cons_self)
        cases thread with
        | writer i => exact shared.of_same rfl fun j => State.goto_pc_ne _ _ _ (by simp)
        | reader i =>
            refine ⟨shared.of_goto rfl rfl (by simp [State.mode_eq fresh, Thread.mode, Pc.inside]),
              fun j => ?_⟩
            by_cases mine : j = i
            · simp [mine]
            · rw [State.goto_pc_ne _ _ _ (by simpa using mine)]
              exact shared.points j
    | join _ _ _ => exact shared.of_same rfl fun _ => rfl
    | reader moves => exact shared.reader moves
    | writer moves lock => exact shared.of_same lock fun j => moves.pc_ne (by simp)
    | acquire here => exact shared.of_same rfl fun j => State.goto_pc_ne _ _ _ (by simp)
    | release here => exact shared.of_same rfl fun j => State.goto_pc_ne _ _ _ (by simp)

/-- A created writer that has not finished never waits. -/
theorem enabled_of_writer {i : Nat} (born : s.pc (.writer i) ≠ .unborn)
    (unfinished : s.pc (.writer i) ≠ .finished)
    : (system program).Enabled s (.thread (.writer i)) := by
  cases here : s.pc (.writer i) with
  | unborn | finished => contradiction
  | _ => simp [System.Enabled, system, step, writerThreadFunc, here]

/-- A reader inside the lock can go on. -/
theorem enabled_of_inside (points : ReaderPoints s) {i : Nat}
    (inside : (s.pc (.reader i)).inside = true)
    : (system program).Enabled s (.thread (.reader i)) := by
  have elsewhere := points i
  cases here : s.pc (.reader i) <;> rw [here] at inside elsewhere
  case print | release => simp [System.Enabled, system, step, readerThreadFunc, here]
  case load => exact absurd rfl elsewhere.1
  case store value => exact absurd rfl (elsewhere.2 value)
  all_goals contradiction

/-- A reader that wants to enter can, or another one is inside. -/
theorem enabled_of_acquire (admits : Admits program.lock) (shared : Shared program s) {i : Nat}
    (here : s.pc (.reader i) = .acquire)
    : (system program).Enabled s (.thread (.reader i))
      ∨ ∃ j, (s.pc (.reader j)).inside = true := by
  by_cases busy : ∃ j, (s.pc (.reader j)).inside = true
  · exact Or.inr busy
  · have outside : ∀ thread, readerMode s thread = .outside := by
      intro thread
      cases thread with
      | writer j => rfl
      | reader j =>
          have away : (s.pc (.reader j)).inside = false := by
            by_contra inside
            exact busy ⟨j, by simpa using inside⟩
          simp [readerMode, State.mode, Thread.mode, away]
    obtain ⟨next, granted⟩ := admits.rdlock (.reader i) shared.stands outside
    left
    simp [System.Enabled, system, step, readerThreadFunc, here, granted]

/-- Until all threads are joined some step is possible: `main` creates or joins a thread, or
the next thread to be joined, or a reader inside the lock, goes on.
-/
theorem exists_enabled (admits : Admits program.lock) (reached : (system program).Reachable s)
    : s.Joined ∨ ∃ action, (system program).Enabled s action := by
  obtain ⟨roster, _⟩ := inOrder_of_reachable reached
  have shared := shared_of_reachable reached
  cases creating : s.toCreate with
  | cons thread rest =>
      exact Or.inr ⟨.main, by simp [System.Enabled, system, step, main, creating]⟩
  | nil =>
      cases joining : s.toJoin with
      | nil => exact Or.inl ⟨creating, joining⟩
      | cons thread rest =>
          right
          have member := roster.wanted thread (by simp [joining])
          have born := (roster.born thread member).resolve_left (by simp [creating])
          by_cases ended : s.pc thread = .finished
          · exact ⟨.main, by simp [System.Enabled, system, step, main, creating, joining, ended]⟩
          cases thread with
          | writer i => exact ⟨_, enabled_of_writer born ended⟩
          | reader i =>
              by_cases inside : (s.pc (.reader i)).inside = true
              · exact ⟨_, enabled_of_inside shared.points inside⟩
              · cases here : s.pc (.reader i) with
                | loop =>
                    exact ⟨.thread (.reader i), by
                      simp [System.Enabled, system, step, readerThreadFunc, here]⟩
                | acquire =>
                    rcases enabled_of_acquire admits shared here with now | ⟨j, busy⟩
                    · exact ⟨_, now⟩
                    · exact ⟨_, enabled_of_inside shared.points busy⟩
                | unborn | finished => contradiction
                | load | store _ | print | release => simp [here, Pc.inside] at inside

/-- Every schedule, from any reachable state, ends with all threads joined. -/
theorem inevitable_joined (admits : Admits program.lock)
    (reached : (system program).Reachable s)
    : (system program).Inevitable (fun _ _ => True) State.Joined s := by
  refine .of_measure (system program).Reachable (work program) ?_ ?_ ?_ reached
  · exact fun s action next reached _ taken => reached.next taken
  · intro s reached
    refine (exists_enabled admits reached).imp_right fun possible => ?_
    obtain ⟨action, next, taken⟩ := possible
    exact ⟨action, next, trivial, taken⟩
  · intro s action next reached _ taken
    obtain ⟨roster, rounds⟩ := inOrder_of_reachable reached
    exact work_lt_of_move roster rounds (.of_step taken)

end LinuxStudy.UnlockedCounter
