import LinuxStudy.LockedCounter.Counting
import LinuxStudy.Transition.Progress

/-! Every schedule of a counting program ends with all threads joined, if its lock lets a
thread in as soon as nobody is inside.
-/

namespace LinuxStudy.LockedCounter

open Transition Sync

/-- A lock that nobody has entered lets the next thread in. -/
structure Admits {Thread : Type} [DecidableEq Thread] (lock : Lock Thread) : Prop where
  wrlock
    : ∀ {value mode} (thread : Thread),
        lock.Stands value mode
        → (∀ other, mode other = .outside)
        → ∃ next, lock.wrlock thread value = some next
  rdlock
    : ∀ {value mode} (thread : Thread),
        lock.Stands value mode
        → (∀ other, mode other = .outside)
        → ∃ next, lock.rdlock thread value = some next

/-- A reader-writer lock that nobody has entered counts no reader and no writer. -/
theorem admits_rwLock : Admits (rwLock : Lock Thread) := by
  have empty {value : RwValue} {mode : Thread → Mode} (stands : value.Stands mode)
      (outside : ∀ other, mode other = .outside)
      : value.writer = false ∧ value.readers = 0 := by
    obtain ⟨⟨inside, same, count⟩, rest⟩ := stands
    constructor
    · by_contra busy
      simp only [Bool.not_eq_false] at busy
      rw [busy, if_pos rfl] at rest
      obtain ⟨owner, alone, _⟩ := rest
      simp [outside] at alone
    · have none : inside = ∅ := Finset.eq_empty_of_forall_notMem fun thread member => by
        have shares := (same thread).mp member
        simp [outside] at shares
      simpa [none] using count.symm
  constructor
  · intro value mode thread stands outside
    exact ⟨_, if_pos (empty stands outside)⟩
  · intro value mode thread stands outside
    exact ⟨_, if_pos (empty stands outside).1⟩

-----------------------------------------------------------------------------------------
-- Every step is one step less
-----------------------------------------------------------------------------------------

/-- How far a thread is from the end of its iteration. -/
def Pc.rank : Pc → Nat
  | .unborn => 9
  | .loop => 8
  | .acquire => 7
  | .load => 6
  | .store _ => 5
  | .print => 4
  | .release => 3
  | .finished => 0

/-- How far a thread is from its end. -/
def weight (program : Program) (s : State program.lock.Value) (thread : Thread) : Nat :=
  (s.pc thread).rank + 8 * (program.count thread - s.rounds thread)

/-- How far the program is from its end. -/
def work (program : Program) (s : State program.lock.Value) : Nat :=
  s.toCreate.length + s.toJoin.length
  + ∑ thread ∈ program.threads.toFinset, weight program s thread

section Work

variable {program : Program} {s next : State program.lock.Value}

theorem ThreadMove.rounds_ne {self : Thread} (moves : ThreadMove program s self next)
    {thread : Thread} (other : thread ≠ self)
    : next.rounds thread = s.rounds thread := by
  cases moves <;> simp [State.nextRound, other]

/-- A thread that moves comes nearer to its end. -/
theorem weight_lt (rounds : Rounds program s) {self : Thread}
    (moves : ThreadMove program s self next)
    : weight program next self < weight program s self := by
  have most := rounds.most self
  cases moves with
  | @unlock i here | @unlockShared i here =>
      have more := rounds.more (Or.inr (by rw [here]; rfl))
      simp only [weight, State.goto_pc_self, State.goto_rounds, State.nextRound,
        Function.update_self, here, Pc.rank]
      omega
  | store here =>
      simp only [weight, State.goto_pc_self, State.goto_rounds, here]
      cases program.prints <;> simp [Pc.rank]
  | goOn here _ | finish here _ | wrlock here _ | rdlock here _ | load here | print here
  | observe here =>
      simp only [weight, State.goto_pc_self, State.goto_rounds, here, Pc.rank]
      omega

/-- A step by which one thread comes nearer to its end lowers the work that is left. -/
theorem work_lt_of_weight_lt {self : Thread} (member : self ∈ program.threads)
    (nearer : weight program next self < weight program s self)
    (points : ∀ thread, thread ≠ self → next.pc thread = s.pc thread)
    (rounds : ∀ thread, thread ≠ self → next.rounds thread = s.rounds thread)
    (main : next.toCreate = s.toCreate ∧ next.toJoin = s.toJoin)
    : work program next < work program s := by
  have less := Finset.sum_lt_sum (s := program.threads.toFinset)
    (f := weight program next) (g := weight program s)
    (fun other _ => by
      by_cases mine : other = self
      · exact mine ▸ Nat.le_of_lt nearer
      · simp [weight, points other mine, rounds other mine])
    ⟨self, List.mem_toFinset.mpr member, nearer⟩
  simp only [work, main.1, main.2]
  omega

/-- Every step lowers the work that is left. -/
theorem work_lt (rounds : Rounds program s) (roster : Roster program s)
    (moves : Move program s next)
    : work program next < work program s := by
  cases moves with
  | @create thread rest first =>
      have fresh := roster.unborn thread (first ▸ List.mem_cons_self)
      have less : ∑ other ∈ program.threads.toFinset,
            weight program ({ s with toCreate := rest }.goto thread .loop) other
          ≤ ∑ other ∈ program.threads.toFinset, weight program s other := by
        refine Finset.sum_le_sum fun other _ => ?_
        by_cases mine : other = thread
        · subst mine
          simp [weight, fresh, Pc.rank]
        · simp [weight, State.goto_pc_ne, mine]
      simp only [work, State.goto_toCreate, State.goto_toJoin, first, List.length_cons]
      omega
  | @join _ rest _ first _ =>
      have same
          : ∑ thread ∈ program.threads.toFinset, weight program { s with toJoin := rest } thread
            = ∑ thread ∈ program.threads.toFinset, weight program s thread :=
        rfl
      simp only [work, first, List.length_cons]
      omega
  | @thread self _ moves =>
      exact work_lt_of_weight_lt (roster.known moves.running.1) (weight_lt rounds moves)
        (fun _ other => moves.pc_ne other) (fun _ other => moves.rounds_ne other) moves.main_eq

end Work

-----------------------------------------------------------------------------------------
-- Some step is always possible
-----------------------------------------------------------------------------------------

section Progress

variable {program : Program} {s : State program.lock.Value}

/-- A reader never stands at a statement of the writers. -/
def ReaderPoints (s : State program.lock.Value) : Prop :=
  ∀ i, s.pc (.reader i) ≠ .load ∧ ∀ value, s.pc (.reader i) ≠ .store value

theorem readerPoints_of_reachable (reached : (system program).Reachable s)
    : ReaderPoints s := by
  refine System.Reachable.invariant ?_ ?_ reached
  · intro _ same
    subst same
    simp [ReaderPoints, start]
  · intro s action next points taken i
    cases Move.of_step taken with
    | @create thread _ _ =>
        by_cases mine : Thread.reader i = thread
        · subst mine
          simp
        · rw [State.goto_pc_ne _ _ _ mine]
          exact points i
    | join _ _ _ => exact points i
    | @thread self _ moves =>
        by_cases mine : Thread.reader i = self
        · cases moves with
          | goOn _ _ | finish _ _ => simp [mine]
          | rdlock _ _ | observe _ | unlockShared _ => simp [mine]
          | wrlock _ _ | load _ | store _ | print _ | unlock _ => simp at mine
        · rw [moves.pc_ne mine]
          exact points i

/-- A thread that is inside the lock can always go on. -/
theorem enabled_of_inside (points : ReaderPoints s) {thread : Thread}
    (inside : (s.pc thread).inside = true)
    : (system program).Enabled s (.thread thread) := by
  cases thread with
  | writer i =>
      cases here : s.pc (.writer i) <;> rw [here] at inside
      case load | store | print | release =>
        simp [System.Enabled, system, step, writerThreadFunc, here]
      all_goals contradiction
  | reader i =>
      have elsewhere := points i
      cases here : s.pc (.reader i) <;> rw [here] at inside elsewhere
      case print | release => simp [System.Enabled, system, step, readerThreadFunc, here]
      case load => exact absurd rfl elsewhere.1
      case store value => exact absurd rfl (elsewhere.2 value)
      all_goals contradiction

/-- A thread that wants to enter can, or somebody is inside. -/
theorem enabled_of_acquire (admits : Admits program.lock) (guarded : Guarded program s)
    {thread : Thread} (here : s.pc thread = .acquire)
    : (system program).Enabled s (.thread thread)
      ∨ ∃ other, (s.pc other).inside = true := by
  by_cases busy : ∃ other, (s.pc other).inside = true
  · exact Or.inr busy
  · have outside : ∀ other, s.mode other = .outside := by
      intro other
      have away : (s.pc other).inside = false := by
        by_contra inside
        exact busy ⟨other, by simpa using inside⟩
      cases other <;> simp [State.mode, Thread.mode, away]
    left
    cases thread with
    | writer i =>
        obtain ⟨next, granted⟩ := admits.wrlock (.writer i) guarded.stands outside
        simp [System.Enabled, system, step, writerThreadFunc, here, granted]
    | reader i =>
        obtain ⟨next, granted⟩ := admits.rdlock (.reader i) guarded.stands outside
        simp [System.Enabled, system, step, readerThreadFunc, here, granted]

/-- Until all threads are joined some step is possible: `main` creates or joins a thread, or
the next thread to be joined, or one that is inside the lock, goes on.
-/
theorem exists_enabled (admits : Admits program.lock)
    (reached : (system program).Reachable s)
    : s.Joined ∨ ∃ action, (system program).Enabled s action := by
  obtain ⟨guarded, roster⟩ := inOrder_of_reachable reached
  have points := readerPoints_of_reachable reached
  cases creating : s.toCreate with
  | cons thread rest => exact Or.inr ⟨.main, by simp [System.Enabled, system, step, main, creating]⟩
  | nil =>
      cases joining : s.toJoin with
      | nil => exact Or.inl ⟨creating, joining⟩
      | cons thread rest =>
          right
          by_cases inside : (s.pc thread).inside = true
          · exact ⟨_, enabled_of_inside points inside⟩
          · cases here : s.pc thread with
            | finished =>
                exact ⟨.main, by simp [System.Enabled, system, step, main, creating, joining, here]⟩
            | loop =>
                refine ⟨.thread thread, ?_⟩
                cases thread <;>
                  simp [System.Enabled, system, step, writerThreadFunc, readerThreadFunc, here]
            | acquire =>
                rcases enabled_of_acquire admits guarded here with now | ⟨other, busy⟩
                · exact ⟨_, now⟩
                · exact ⟨_, enabled_of_inside points busy⟩
            | unborn =>
                have member := roster.wanted thread (by simp [joining])
                exact absurd here ((roster.born thread member).resolve_left (by simp [creating]))
            | load | store _ | print | release => simp [here, Pc.inside] at inside

end Progress

/-- Every schedule of a program whose lock admits ends with all threads joined. -/
theorem completes {program : Program} (admits : Admits program.lock)
    : (system program).Inevitable (fun _ _ => True) State.Joined (start program) := by
  refine .of_measure (system program).Reachable (work program) ?_ ?_ ?_ (.initial rfl)
  · exact fun s action next reached _ taken => reached.next taken
  · intro s reached
    refine (exists_enabled admits reached).imp_right fun possible => ?_
    obtain ⟨action, next, taken⟩ := possible
    exact ⟨action, next, trivial, taken⟩
  · intro s action next reached _ taken
    exact work_lt (rounds_of_reachable reached) (inOrder_of_reachable reached).2
      (.of_step taken)

end LinuxStudy.LockedCounter
