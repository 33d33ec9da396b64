import LinuxStudy.LockedCounter.Completion
import Mathlib.Data.List.Basic

/-! What the reader-writer programs print: the writers print one number after the other, and
a reader prints the number of sections completed while it holds the lock.
-/

namespace LinuxStudy.LockedCounter

open Transition Sync

/-- The first numbers from 1 on, as values of the shared variable. -/
def counts (n : Nat) : List Int32 := (List.range n).map fun k => Int32.ofNat (k + 1)

theorem counts_succ (n : Nat) : counts (n + 1) = counts n ++ [Int32.ofNat (n + 1)] := by
  simp [counts, List.range_succ]

@[simp] theorem length_counts (n : Nat) : (counts n).length = n := by
  simp [counts]

/-- The writers have printed one number for each completed section, and one more when the
writer inside has printed; a reader has printed numbers of completed sections in order.
-/
structure Displayed (program : Program) (s : State program.lock.Value) : Prop where
  settled : (∀ i, s.pc (.writer i) ≠ .release) → s.printed = counts s.completed
  ahead : ∀ {i}, s.pc (.writer i) = .release → s.printed = counts (s.completed + 1)
  seen
    : ∀ thread,
        ∀ seen ∈ s.observed thread, seen.1 = Int32.ofNat seen.2 ∧ seen.2 ≤ s.completed
  ordered : ∀ thread, (s.observed thread).Pairwise fun earlier later => earlier.2 ≤ later.2

section Displayed

variable {program : Program} {s next : State program.lock.Value}

/-- While a reader is inside, no writer is. -/
theorem Guarded.writers_outside (guarded : Guarded program s) {i : Nat}
    (inside : (s.pc (.reader i)).inside = true) (j : Nat)
    : (s.pc (.writer j)).inside = false := by
  by_contra writes
  have outside := guarded.others_outside (by simpa using writes) (.reader i) (by simp)
  simp [inside] at outside

/-- A step that prints nothing and completes nothing, by which no writer reaches or leaves
the end of its section.
-/
theorem Displayed.of_goto (displayed : Displayed program s) {self : Thread} {pc : Pc}
    (printed : next.printed = s.printed) (observed : next.observed = s.observed)
    (completed : next.completed = s.completed) (points : next.pc = (s.goto self pc).pc)
    (quiet : (∃ i, self = .reader i) ∨ pc ≠ .release ∧ s.pc self ≠ .release)
    : Displayed program next := by
  have release (i : Nat) : next.pc (.writer i) = .release ↔ s.pc (.writer i) = .release := by
    rw [points]
    by_cases mine : Thread.writer i = self
    · subst mine
      rcases quiet with ⟨_, other⟩ | ⟨target, source⟩
      · simp at other
      · simp [target, source]
    · rw [State.goto_pc_ne _ _ _ mine]
  constructor
  · intro none
    rw [printed, completed]
    exact displayed.settled fun i => (release i).not.mp (none i)
  · intro i there
    rw [printed, completed]
    exact displayed.ahead ((release i).mp there)
  · rw [observed, completed]
    exact displayed.seen
  · rw [observed]
    exact displayed.ordered

/-- Every statement keeps the account, given that writers print. -/
theorem Displayed.threadMove (displayed : Displayed program s) (prints : program.prints = true)
    (guarded : Guarded program s) (tally : Tally program s) {self : Thread}
    (moves : ThreadMove program s self next)
    : Displayed program next := by
  cases moves with
  | goOn here _ | finish here _ | wrlock here _ | load here =>
      exact displayed.of_goto rfl rfl rfl rfl (Or.inr (by simp [here]))
  | store here =>
      exact displayed.of_goto rfl rfl rfl rfl (Or.inr (by simp [here, prints]))
  | rdlock _ _ | unlockShared _ =>
      exact displayed.of_goto rfl rfl rfl rfl (Or.inl ⟨_, rfl⟩)
  | @print i here =>
      have inside : (s.pc (.writer i)).inside = true := by rw [here]; rfl
      have others := guarded.others_outside inside
      have none (j : Nat) : s.pc (.writer j) ≠ .release := by
        by_cases mine : j = i
        · simp [mine, here]
        · intro there
          have outside := others (.writer j) (by simpa using mine)
          rw [there] at outside
          contradiction
      have counter := tally.raised (by rw [here]; rfl : (s.pc (.writer i)).stored = true)
      have printed : s.printed ++ [s.counter] = counts (s.completed + 1) := by
        rw [displayed.settled none, counter, counts_succ]
      refine ⟨fun away => ?_, fun _ => printed, displayed.seen, displayed.ordered⟩
      exact absurd (State.goto_pc_self _ _ _) (away i)
  | @observe i here =>
      have inside : (s.pc (.reader i)).inside = true := by rw [here]; rfl
      have outside := guarded.writers_outside inside
      have counter := tally.settled fun j => Pc.stored_eq_false (outside j)
      have before : Displayed program (s.goto (.reader i) .release) :=
        displayed.of_goto rfl rfl rfl rfl (Or.inl ⟨i, rfl⟩)
      refine ⟨before.settled, before.ahead, fun thread => ?_, fun thread => ?_⟩
      · by_cases mine : thread = .reader i
        · subst mine
          intro seen member
          simp only [State.goto, Function.update_self, List.mem_append, List.mem_singleton]
            at member
          rcases member with old | rfl
          · exact displayed.seen _ seen old
          · exact ⟨counter, Nat.le_refl _⟩
        · simpa [State.goto, mine] using displayed.seen thread
      · by_cases mine : thread = .reader i
        · subst mine
          simp only [State.goto, Function.update_self]
          refine List.pairwise_append.mpr ⟨displayed.ordered _, List.pairwise_singleton _ _, ?_⟩
          intro earlier old later new
          obtain rfl := List.mem_singleton.mp new
          exact (displayed.seen _ earlier old).2
        · simpa [State.goto, mine] using displayed.ordered thread
  | @unlock i here =>
      have inside : (s.pc (.writer i)).inside = true := by rw [here]; rfl
      have others := guarded.others_outside inside
      have printed := displayed.ahead here
      refine ⟨fun _ => printed, fun {j} there => ?_, fun thread seen member => ?_,
        displayed.ordered⟩
      · by_cases mine : j = i
        · subst mine
          simp at there
        · rw [State.goto_pc_ne _ _ _ (by simpa using mine)] at there
          have outside := others (.writer j) (by simpa using mine)
          simp only [State.nextRound] at there
          rw [there] at outside
          contradiction
      · obtain ⟨value, few⟩ := displayed.seen thread seen member
        exact ⟨value, Nat.le_succ_of_le few⟩

/-- In every reachable state of a program whose writers print, the account is right. -/
theorem displayed_of_reachable (prints : program.prints = true)
    (reached : (system program).Reachable s)
    : Displayed program s := by
  refine System.ReachableBy.invariant ?_ ?_ reached
  · intro _ same
    subst same
    refine ⟨fun _ => rfl, fun there => ?_, fun _ _ member => ?_, fun _ => .nil⟩
    · simp [start] at there
    · simp [start] at member
  · intro s action next before displayed _ taken
    obtain ⟨guarded, roster⟩ := inOrder_of_reachable before
    cases Move.of_step taken with
    | @create thread _ first =>
        have fresh := roster.unborn thread (first ▸ List.mem_cons_self)
        exact displayed.of_goto rfl rfl rfl rfl (Or.inr (by simp [fresh]))
    | join _ _ _ => exact ⟨displayed.settled, displayed.ahead, displayed.seen, displayed.ordered⟩
    | thread moves => exact displayed.threadMove prints guarded (tally_of_reachable before) moves

end Displayed

-----------------------------------------------------------------------------------------
-- What is printed
-----------------------------------------------------------------------------------------

/-- The writers print 1, 2, 3 and so on up to their number of iterations, a reader prints the
number of sections completed at that moment and never a smaller one than before, and in the
end the shared variable is the number of all sections.
-/
structure Consistent (program : Program) (s : State program.lock.Value) : Prop where
  printed
    : s.printed.map Int32.toInt = (List.range s.printed.length).map fun k : Nat => (k : Int) + 1
  all : s.Joined → s.printed.length = program.writers * program.writeCount
  observed : ∀ i, ∀ seen ∈ s.observed (.reader i), seen.1.toInt = seen.2
  monotone
    : ∀ i,
        (s.observed (.reader i)).Pairwise fun earlier later =>
          earlier.1.toInt ≤ later.1.toInt
  total : s.Joined → s.counter.toInt = program.writers * program.writeCount

/-- A value that counts sections is their number as long as an `int` can hold it. -/
theorem toInt_counts {n : Nat} (fits : n ≤ intMax)
    : (counts n).map Int32.toInt = (List.range n).map fun k : Nat => (k : Int) + 1 := by
  unfold intMax at fits
  rw [counts, List.map_map]
  refine List.map_congr_left fun k member => ?_
  have few := List.mem_range.mp member
  simp only [Function.comp]
  rw [Int32.toInt_ofNat_of_lt (by omega)]
  simp

/-- A program whose writers print is consistent as long as an `int` can hold the number of
all sections.
-/
theorem consistent_of_reachable {program : Program} {s : State program.lock.Value}
    (prints : program.prints = true) (reached : (system program).Reachable s)
    (fits : program.writers * program.writeCount ≤ intMax)
    : Consistent program s := by
  obtain ⟨guarded, roster⟩ := inOrder_of_reachable reached
  have rounds := rounds_of_reachable reached
  have displayed := displayed_of_reachable prints reached
  have few := rounds.completed_le
  have small {n : Nat} (few : n ≤ s.completed) : (Int32.ofNat n).toInt = n := by
    unfold intMax at fits
    exact Int32.toInt_ofNat_of_lt (by omega)
  have printed : ∃ n ≤ program.writers * program.writeCount, s.printed = counts n := by
    by_cases ahead : ∃ i, s.pc (.writer i) = .release
    · obtain ⟨i, here⟩ := ahead
      have inside : (s.pc (.writer i)).inside = true := by rw [here]; rfl
      exact ⟨_, rounds.completed_lt roster inside, displayed.ahead here⟩
    · exact ⟨_, few, displayed.settled fun i here => ahead ⟨i, here⟩⟩
  constructor
  · obtain ⟨n, bound, same⟩ := printed
    rw [same, length_counts]
    exact toInt_counts (Nat.le_trans bound fits)
  · intro joined
    have resting (i : Nat) : s.pc (.writer i) ≠ .release := by
      intro here
      have away := roster.outside_of_joined joined (.writer i)
      simp [here, Pc.inside] at away
    rw [displayed.settled resting, length_counts, rounds.completed_of_joined roster joined]
  · intro i seen member
    obtain ⟨value, bound⟩ := displayed.seen _ seen member
    rw [value, small bound]
  · intro i
    refine (displayed.ordered (.reader i)).imp_of_mem fun {earlier later} one two ordered => ?_
    obtain ⟨first, bound⟩ := displayed.seen _ earlier one
    obtain ⟨second, bound'⟩ := displayed.seen _ later two
    rw [first, second, small bound, small bound']
    exact_mod_cast ordered
  · exact counter_of_joined reached fits

/-- Both reader-writer programs are consistent under every lock that admits either readers or
one writer.
-/
theorem readersAndWriters (lock : Lock Thread) (writers readers writeCount readCount : Nat)
    (fits : writers * writeCount ≤ intMax)
    : ∀ program ∈ [rwlockTest2 lock writers readers writeCount readCount,
          rwlockTest3 lock writers readers writeCount readCount],
        ∀ s, (system program).Reachable s → Consistent program s := by
  intro program member s reached
  simp only [List.mem_cons, List.not_mem_nil, or_false] at member
  rcases member with rfl | rfl
  all_goals exact consistent_of_reachable rfl reached fits

/-- Two writers and two readers with one iteration each. Both readers are inside between the
sections of the writers.
-/
def readersBetween : List Action :=
  [.main, .main, .main, .main, .thread (.reader 1), .thread (.writer 0), .thread (.writer 1),
    .thread (.reader 0)]
  ++ List.replicate 5 (.thread (.writer 0))
  ++ [.thread (.reader 0), .thread (.reader 1), .thread (.reader 1), .thread (.writer 0),
    .thread (.reader 0), .thread (.reader 0), .thread (.reader 1)]
  ++ List.replicate 6 (.thread (.writer 1))
  ++ [.thread (.reader 0), .main, .main, .thread (.reader 1), .main, .main]

/-- The writers print 1 and 2, and both readers the 1 that has been printed before. -/
theorem readersAndWriters_readersBetween
    : ∃ s : State (rwlockTest2 rwLock 2 2 1 1).lock.Value,
        s.printed = [1, 2]
        ∧ s.observed (.reader 0) = [(1, 1)]
        ∧ s.observed (.reader 1) = [(1, 1)]
        ∧ s.Joined
        ∧ Consistent (rwlockTest2 rwLock 2 2 1 1) s :=
  ⟨_, rfl, rfl, rfl, ⟨rfl, rfl⟩, readersAndWriters rwLock 2 2 1 1 (by decide) _ List.mem_cons_self _
    (System.reachable_of_run (start (rwlockTest2 rwLock 2 2 1 1)) rfl readersBetween rfl)⟩

/-- Two writers with 2^30 iterations each come to an end that no `int` can count. -/
theorem readersAndWriters_overflow
    : ¬∀ (lock : Lock Thread) (writers readers writeCount readCount : Nat),
        ∀ program ∈ [rwlockTest2 lock writers readers writeCount readCount,
            rwlockTest3 lock writers readers writeCount readCount],
          ∀ s, (system program).Reachable s → Consistent program s := by
  intro always
  obtain ⟨actions, final, run, joined⟩ :=
    (@completes (rwlockTest2 rwLock 2 0 (2 ^ 30) 0) admits_rwLock).exists_exec
  have reached : (system (rwlockTest2 rwLock 2 0 (2 ^ 30) 0)).Reachable final :=
    System.Reachable.exec (.initial rfl) run
  have total := (always rwLock 2 0 (2 ^ 30) 0 _ List.mem_cons_self final reached).total joined
  have few := final.counter.toInt_lt
  simp only [rwlockTest2] at total
  omega

end LinuxStudy.LockedCounter
