import LinuxStudy.LockedCounter.Steps
import Mathlib.Algebra.BigOperators.Group.Finset.Basic
import Mathlib.Algebra.BigOperators.Group.Finset.Piecewise
import Mathlib.Algebra.Order.BigOperators.Group.Finset

/-! What the counting programs count: each critical section of a writer starts from the number
of sections completed before it, so that no increment is lost.
-/

namespace LinuxStudy.LockedCounter

open Transition Sync

/-- A writer at this point has stored its value. -/
def Pc.stored : Pc → Bool
  | .print | .release => true
  | _ => false

/-- The shared variable is the number of completed sections, or one more once the writer
inside has stored; a loaded value is never stale.
-/
structure Tally (program : Program) (s : State program.lock.Value) : Prop where
  settled
    : (∀ i, (s.pc (.writer i)).stored = false) → s.counter = Int32.ofNat s.completed
  raised
    : ∀ {i}, (s.pc (.writer i)).stored = true → s.counter = Int32.ofNat (s.completed + 1)
  loaded : ∀ {i value}, s.pc (.writer i) = .store value → value = Int32.ofNat s.completed

section Tally

variable {program : Program} {s next : State program.lock.Value}

/-- While a writer is inside, every other thread is outside. -/
theorem Guarded.others_outside (guarded : Guarded program s) {i : Nat}
    (inside : (s.pc (.writer i)).inside = true)
    : ∀ thread, thread ≠ .writer i → (s.pc thread).inside = false := by
  intro thread different
  have alone : s.mode (.writer i) = .alone := by simp [State.mode, Thread.mode, inside]
  have outside := guarded.exclusive _ _ alone different
  cases thread <;> simpa [State.mode, Thread.mode] using outside

/-- Where a writer stands behind its store, printing or not. -/
theorem Pc.stored_behind (prints : Bool)
    : (if prints then Pc.print else Pc.release).stored = true := by
  cases prints <;> rfl

theorem Pc.stored_eq_false {pc : Pc} (outside : pc.inside = false) : pc.stored = false := by
  cases pc <;> first | rfl | contradiction

/-- A step that leaves the variable and the count alone, and by which no writer loads or
stores.
-/
theorem Tally.of_goto (tally : Tally program s) {self : Thread} {pc : Pc}
    (counter : next.counter = s.counter) (completed : next.completed = s.completed)
    (points : next.pc = (s.goto self pc).pc)
    (quiet
      : (∃ i, self = .reader i)
        ∨ pc.stored = (s.pc self).stored ∧ ∀ value, pc ≠ .store value)
    : Tally program next := by
  have stored (i : Nat) : (next.pc (.writer i)).stored = (s.pc (.writer i)).stored := by
    rw [points]
    by_cases mine : Thread.writer i = self
    · subst mine
      rcases quiet with ⟨_, other⟩ | ⟨same, _⟩
      · simp at other
      · simpa using same
    · rw [State.goto_pc_ne _ _ _ mine]
  constructor
  · intro none
    rw [counter, completed]
    exact tally.settled fun i => stored i ▸ none i
  · intro i there
    rw [counter, completed]
    exact tally.raised (stored i ▸ there)
  · intro i value there
    rw [completed]
    rw [points] at there
    by_cases mine : Thread.writer i = self
    · subst mine
      rcases quiet with ⟨_, other⟩ | ⟨_, never⟩
      · simp at other
      · exact absurd (by simpa using there) (never value)
    · rw [State.goto_pc_ne _ _ _ mine] at there
      exact tally.loaded there

/-- No statement of another thread comes between a writer's load and the end of its section.
-/
theorem Tally.threadMove (tally : Tally program s) (guarded : Guarded program s)
    {self : Thread} (moves : ThreadMove program s self next)
    : Tally program next := by
  cases moves with
  | goOn here _ | finish here _ | wrlock here _ =>
      exact tally.of_goto rfl rfl rfl (Or.inr (by simp [here, Pc.stored]))
  | print here => exact tally.of_goto rfl rfl rfl (Or.inr (by simp [here, Pc.stored]))
  | rdlock _ _ | observe _ | unlockShared _ => exact tally.of_goto rfl rfl rfl (Or.inl ⟨_, rfl⟩)
  | @load i here =>
      have inside : (s.pc (.writer i)).inside = true := by simp [here, Pc.inside]
      have others := guarded.others_outside inside
      have none (j : Nat) : (s.pc (.writer j)).stored = false := by
        by_cases mine : j = i
        · simp [mine, here, Pc.stored]
        · exact Pc.stored_eq_false (others (.writer j) (by simpa using mine))
      have counter := tally.settled none
      constructor
      · exact fun _ => counter
      · intro j there
        by_cases mine : j = i
        · subst mine
          simp [Pc.stored] at there
        · rw [State.goto_pc_ne _ _ _ (by simpa using mine), none j] at there
          contradiction
      · intro j value there
        by_cases mine : j = i
        · subst mine
          simp only [State.goto_pc_self, Pc.store.injEq] at there
          exact there.symm.trans counter
        · rw [State.goto_pc_ne _ _ _ (by simpa using mine)] at there
          exact tally.loaded there
  | @store i loaded here =>
      have inside : (s.pc (.writer i)).inside = true := by simp [here, Pc.inside]
      have others := guarded.others_outside inside
      have counter : loaded + 1 = Int32.ofNat (s.completed + 1) := by
        rw [tally.loaded here, Int32.ofNat_add]
        rfl
      constructor
      · intro none
        have mine := none i
        rw [State.goto_pc_self, Pc.stored_behind] at mine
        contradiction
      · exact fun _ => counter
      · intro j value there
        by_cases mine : j = i
        · subst mine
          have behind := Pc.stored_behind program.prints
          rw [State.goto_pc_self] at there
          rw [there] at behind
          contradiction
        · rw [State.goto_pc_ne _ _ _ (by simpa using mine)] at there
          have outside := others (.writer j) (by simpa using mine)
          rw [there] at outside
          contradiction
  | @unlock i here =>
      have inside : (s.pc (.writer i)).inside = true := by simp [here, Pc.inside]
      have others := guarded.others_outside inside
      have counter := tally.raised (by simp [here, Pc.stored] : (s.pc (.writer i)).stored = true)
      constructor
      · exact fun _ => counter
      · intro j there
        by_cases mine : j = i
        · subst mine
          simp [Pc.stored] at there
        · rw [State.goto_pc_ne _ _ _ (by simpa using mine)] at there
          have quiet := Pc.stored_eq_false (others (.writer j) (by simpa using mine))
          rw [State.nextRound, quiet] at there
          contradiction
      · intro j value there
        by_cases mine : j = i
        · subst mine
          simp at there
        · rw [State.goto_pc_ne _ _ _ (by simpa using mine)] at there
          have outside := others (.writer j) (by simpa using mine)
          simp only [State.nextRound] at there
          rw [there] at outside
          contradiction

/-- In every reachable state the shared variable agrees with the completed sections. -/
theorem tally_of_reachable (reached : (system program).Reachable s) : Tally program s := by
  refine System.ReachableBy.invariant ?_ ?_ reached
  · intro _ same
    subst same
    constructor
    · exact fun _ => rfl
    · intro i there
      simp [start, Pc.stored] at there
    · intro i value there
      simp [start] at there
  · intro s action next before tally _ taken
    obtain ⟨guarded, roster⟩ := inOrder_of_reachable before
    cases Move.of_step taken with
    | @create thread _ first =>
        have fresh := roster.unborn thread (first ▸ List.mem_cons_self)
        exact tally.of_goto rfl rfl rfl (Or.inr (by simp [fresh, Pc.stored]))
    | join _ _ _ => exact ⟨tally.settled, tally.raised, tally.loaded⟩
    | thread moves => exact tally.threadMove guarded moves

end Tally

-----------------------------------------------------------------------------------------
-- Rounds
-----------------------------------------------------------------------------------------

/-- Every thread counts its iterations up to its bound, and the completed sections are the
iterations of all writers.
-/
structure Rounds (program : Program) (s : State program.lock.Value) : Prop where
  most : ∀ thread, s.rounds thread ≤ program.count thread
  more
    : ∀ {thread},
        s.pc thread = .acquire ∨ (s.pc thread).inside = true
        → s.rounds thread < program.count thread
  all : ∀ {thread}, s.pc thread = .finished → s.rounds thread = program.count thread
  total : s.completed = ∑ i ∈ Finset.range program.writers, s.rounds (.writer i)

/-- One iteration more of one writer is one more of all. -/
theorem sum_update_succ (rounds : Nat → Nat) {i n : Nat} (bound : i < n)
    : ∑ j ∈ Finset.range n, Function.update rounds i (rounds i + 1) j
      = ∑ j ∈ Finset.range n, rounds j + 1 := by
  have member : i ∈ Finset.range n := Finset.mem_range.mpr bound
  rw [Finset.sum_update_of_mem member, Finset.sum_eq_add_sum_sdiff_singleton_of_mem member rounds]
  omega

/-- The rounds of the writers after one of them has counted. -/
theorem State.nextRound_writer {Value : Type} (s : State Value) (i : Nat)
    : (fun j => (s.nextRound (.writer i)).rounds (.writer j))
      = Function.update (fun j => s.rounds (.writer j)) i (s.rounds (.writer i) + 1) := by
  funext j
  by_cases mine : j = i
  · subst mine
    simp [State.nextRound]
  · simp [State.nextRound, mine]

section Rounds

variable {program : Program} {s next : State program.lock.Value}

theorem Program.mem_writers {program : Program} {i : Nat}
    : Thread.writer i ∈ program.threads ↔ i < program.writers := by
  simp [Program.threads, Program.writerThreads, Program.readerThreads]

/-- A step that counts nothing, by which one thread moves to a point that fits its count. -/
theorem Rounds.of_goto (rounds : Rounds program s) {self : Thread} {pc : Pc}
    (same : next.rounds = s.rounds) (completed : next.completed = s.completed)
    (points : next.pc = (s.goto self pc).pc)
    (more : pc = .acquire ∨ pc.inside = true → s.rounds self < program.count self)
    (all : pc = .finished → s.rounds self = program.count self)
    : Rounds program next := by
  constructor
  · intro thread
    rw [same]
    exact rounds.most thread
  · intro thread there
    rw [same]
    rw [points] at there
    by_cases mine : thread = self
    · subst mine
      exact more (by simpa using there)
    · rw [State.goto_pc_ne _ _ _ mine] at there
      exact rounds.more there
  · intro thread there
    rw [same]
    rw [points] at there
    by_cases mine : thread = self
    · subst mine
      exact all (by simpa using there)
    · rw [State.goto_pc_ne _ _ _ mine] at there
      exact rounds.all there
  · rw [completed, same]
    exact rounds.total

/-- The end of an iteration counts it. -/
theorem Rounds.nextRound (rounds : Rounds program s) {self : Thread}
    (inside : (s.pc self).inside = true)
    (same : next.rounds = (s.nextRound self).rounds)
    (points : next.pc = (s.goto self .loop).pc)
    (total
      : next.completed = ∑ i ∈ Finset.range program.writers, next.rounds (.writer i))
    : Rounds program next := by
  have room := rounds.more (Or.inr inside)
  have apart {thread : Thread} (mine : thread ≠ self) : next.rounds thread = s.rounds thread := by
    simp [same, State.nextRound, mine]
  constructor
  · intro thread
    by_cases mine : thread = self
    · subst mine
      simpa [same, State.nextRound] using Nat.succ_le_of_lt room
    · rw [apart mine]
      exact rounds.most thread
  · intro thread there
    rw [points] at there
    by_cases mine : thread = self
    · subst mine
      simp [Pc.inside] at there
    · rw [State.goto_pc_ne _ _ _ mine] at there
      rw [apart mine]
      exact rounds.more there
  · intro thread there
    rw [points] at there
    by_cases mine : thread = self
    · subst mine
      simp at there
    · rw [State.goto_pc_ne _ _ _ mine] at there
      rw [apart mine]
      exact rounds.all there
  · exact total

theorem Rounds.threadMove (rounds : Rounds program s) (roster : Roster program s)
    {self : Thread} (moves : ThreadMove program s self next)
    : Rounds program next := by
  cases moves with
  | goOn here more => exact rounds.of_goto rfl rfl rfl (fun _ => more) (by simp)
  | @finish _ here done =>
      exact rounds.of_goto rfl rfl rfl (by simp [Pc.inside]) fun _ =>
        Nat.le_antisymm (rounds.most _) done
  | wrlock here _ | rdlock here _ =>
      exact rounds.of_goto rfl rfl rfl (fun _ => rounds.more (Or.inl here)) (by simp)
  | load here | print here | observe here =>
      exact rounds.of_goto rfl rfl rfl
        (fun _ => rounds.more (Or.inr (by simp [here, Pc.inside]))) (by simp)
  | store here =>
      refine rounds.of_goto rfl rfl rfl
        (fun _ => rounds.more (Or.inr (by simp [here, Pc.inside]))) ?_
      cases program.prints <;> simp
  | @unlock i here =>
      have inside : (s.pc (.writer i)).inside = true := by simp [here, Pc.inside]
      refine rounds.nextRound inside rfl rfl ?_
      have born : s.pc (.writer i) ≠ .unborn := by simp [here]
      have bound := Program.mem_writers.mp (roster.known born)
      change s.completed + 1
        = ∑ j ∈ Finset.range program.writers, (s.nextRound (.writer i)).rounds (.writer j)
      rw [rounds.total, ← sum_update_succ (fun j => s.rounds (.writer j)) bound,
        ← s.nextRound_writer i]
  | @unlockShared i here =>
      have inside : (s.pc (.reader i)).inside = true := by simp [here, Pc.inside]
      refine rounds.nextRound inside rfl rfl ?_
      simpa [State.goto, State.nextRound] using rounds.total

/-- In every reachable state the rounds add up. -/
theorem rounds_of_reachable (reached : (system program).Reachable s) : Rounds program s := by
  refine System.ReachableBy.invariant ?_ ?_ reached
  · intro _ same
    subst same
    constructor
    · exact fun _ => Nat.zero_le _
    · intro thread there
      simp [start, Pc.inside] at there
    · intro thread there
      simp [start] at there
    · simp [start]
  · intro s action next before rounds _ taken
    obtain ⟨_, roster⟩ := inOrder_of_reachable before
    cases Move.of_step taken with
    | create _ => exact rounds.of_goto rfl rfl rfl (by simp [Pc.inside]) (by simp)
    | join _ _ _ => exact ⟨rounds.most, rounds.more, rounds.all, rounds.total⟩
    | thread moves => exact rounds.threadMove roster moves

/-- No more sections are completed than all writers have iterations. -/
theorem Rounds.completed_le (rounds : Rounds program s)
    : s.completed ≤ program.writers * program.writeCount := by
  rw [rounds.total]
  have most := Finset.sum_le_card_nsmul (Finset.range program.writers)
    (fun i => s.rounds (.writer i)) program.writeCount fun i _ => rounds.most (.writer i)
  simpa using most

/-- While a writer is inside, its own section is still to be completed. -/
theorem Rounds.completed_lt (rounds : Rounds program s) (roster : Roster program s) {i : Nat}
    (inside : (s.pc (.writer i)).inside = true)
    : s.completed < program.writers * program.writeCount := by
  have born : s.pc (.writer i) ≠ .unborn := by
    intro unborn
    simp [unborn, Pc.inside] at inside
  have bound := Program.mem_writers.mp (roster.known born)
  rw [rounds.total]
  calc ∑ j ∈ Finset.range program.writers, s.rounds (.writer j)
      < ∑ _j ∈ Finset.range program.writers, program.writeCount :=
        Finset.sum_lt_sum (fun j _ => rounds.most (.writer j))
          ⟨i, Finset.mem_range.mpr bound, rounds.more (Or.inr inside)⟩
    _ = program.writers * program.writeCount := by simp

/-- After all joins nobody is inside. -/
theorem Roster.outside_of_joined (roster : Roster program s) (joined : s.Joined)
    (thread : Thread)
    : (s.pc thread).inside = false := by
  by_contra inside
  have born : s.pc thread ≠ .unborn := by
    intro unborn
    simp [unborn, Pc.inside] at inside
  have ended := (roster.joined _ (roster.known born)).resolve_left (by simp [joined.2])
  simp [ended, Pc.inside] at inside

/-- After all joins every writer has made all its iterations. -/
theorem Rounds.completed_of_joined (rounds : Rounds program s) (roster : Roster program s)
    (joined : s.Joined)
    : s.completed = program.writers * program.writeCount := by
  rw [rounds.total]
  have each : ∀ i ∈ Finset.range program.writers, s.rounds (.writer i) = program.writeCount := by
    intro i member
    have thread := Program.mem_writers.mpr (Finset.mem_range.mp member)
    have ended := (roster.joined _ thread).resolve_left (by simp [joined.2])
    exact rounds.all ended
  rw [Finset.sum_congr rfl each]
  simp

end Rounds

-----------------------------------------------------------------------------------------
-- No increment is lost
-----------------------------------------------------------------------------------------

/-- `INT_MAX` -/
def intMax : Nat := 2147483647

/-- After all joins the shared variable is the number of all sections, as long as an `int` can
hold it.
-/
theorem counter_of_joined {program : Program} {s : State program.lock.Value}
    (reached : (system program).Reachable s)
    (fits : program.writers * program.writeCount ≤ intMax) (joined : s.Joined)
    : s.counter.toInt = program.writers * program.writeCount := by
  obtain ⟨_, roster⟩ := inOrder_of_reachable reached
  have outside (i : Nat) : (s.pc (.writer i)).stored = false :=
    Pc.stored_eq_false (roster.outside_of_joined joined _)
  unfold intMax at fits
  rw [(tally_of_reachable reached).settled outside,
    (rounds_of_reachable reached).completed_of_joined roster joined,
    Int32.toInt_ofNat_of_lt (by omega)]
  simp

/-- The critical sections exclude each other, each starts from the number of sections before
it, and in the end the shared variable is the number of all of them.
-/
structure Counted (program : Program) (s : State program.lock.Value) : Prop where
  exclusive
    : ∀ one two, (s.pc one).inside = true → (s.pc two).inside = true → one = two
  loaded : ∀ i value, s.pc (.writer i) = .store value → value.toInt = s.completed
  total : s.Joined → s.counter.toInt = program.writers * program.writeCount

/-- A program all of whose threads are writers counts right as long as an `int` can hold the
result.
-/
theorem counted_of_reachable {program : Program} {s : State program.lock.Value}
    (reached : (system program).Reachable s) (writersOnly : program.readers = 0)
    (fits : program.writers * program.writeCount ≤ intMax)
    : Counted program s := by
  obtain ⟨guarded, roster⟩ := inOrder_of_reachable reached
  have tally := tally_of_reachable reached
  have rounds := rounds_of_reachable reached
  have writer {thread : Thread} (inside : (s.pc thread).inside = true)
      : ∃ i, thread = .writer i := by
    have born : s.pc thread ≠ .unborn := by
      intro unborn
      simp [unborn, Pc.inside] at inside
    have member := roster.known born
    simp only [Program.threads, Program.writerThreads, Program.readerThreads, writersOnly,
      List.range_zero, List.map_nil, List.append_nil, List.mem_map] at member
    obtain ⟨i, _, same⟩ := member
    exact ⟨i, same.symm⟩
  constructor
  · intro one two first second
    obtain ⟨i, rfl⟩ := writer first
    by_contra different
    have outside := guarded.others_outside first two (Ne.symm different)
    simp [second] at outside
  · intro i value here
    have inside : (s.pc (.writer i)).inside = true := by simp [here, Pc.inside]
    have few := rounds.completed_lt roster inside
    unfold intMax at fits
    rw [tally.loaded here]
    exact Int32.toInt_ofNat_of_lt (by omega)
  · exact counter_of_joined reached fits

/-- The four counting programs count right, whatever lock they use. -/
theorem lockedCounters (threadCount workCount : Nat) (fits : threadCount * workCount ≤ intMax)
    : ∀ program ∈ [spinlockWorker threadCount workCount, mutexWorker threadCount workCount,
          workerThread threadCount workCount, plusOne threadCount workCount],
        ∀ s, (system program).Reachable s → Counted program s := by
  intro program member s reached
  simp only [List.mem_cons, List.not_mem_nil, or_false] at member
  rcases member with rfl | rfl | rfl | rfl
  all_goals exact counted_of_reachable reached rfl fits

/-- Two threads that both stand before the semaphore; the second waits for the first. -/
def twoThreads : List Action :=
  [.main, .main, .thread (.writer 0), .thread (.writer 1)]
  ++ List.replicate 4 (.thread (.writer 0))
  ++ List.replicate 4 (.thread (.writer 1))
  ++ [.thread (.writer 0), .thread (.writer 1), .main, .main]

/-- Two threads of `plusOne` count to 2. -/
theorem lockedCounters_twoThreads
    : ∃ s : State (plusOne 2 1).lock.Value,
        s.Joined ∧ s.counter = 2 ∧ Counted (plusOne 2 1) s :=
  ⟨_, ⟨rfl, rfl⟩, rfl, lockedCounters 2 1 (by decide) _ (by simp) _
    (System.reachable_of_run (start (plusOne 2 1)) rfl twoThreads rfl)⟩

end LinuxStudy.LockedCounter
