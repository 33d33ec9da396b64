import LinuxStudy.LockedCounter.Completion
import LinuxStudy.RwlockKinds.Model

/-! Whatever its kind, a lock changes nothing in what the counting program can do, and every
schedule ends.
-/

namespace LinuxStudy.RwlockKinds

open Transition Sync LockedCounter

variable {kind : Kind} {program : Program} {s next : State program} {action : Action}

/-- One step, by what it does to the writers that wait. -/
inductive Move (kind : Kind) (s : State program) : Action → State program → Prop
  | main {base} (taken : LockedCounter.step program s.base .main = some base)
    : Move kind s .main { s with base }
  | wrlock {i base} (here : s.base.pc (.writer i) = .acquire)
    (taken : LockedCounter.step program s.base (.thread (.writer i)) = some base)
    : Move kind s (.thread (.writer i))
        { s with base, waiting := s.waiting.erase i, promised := false }
  | unlock {i base} (here : s.base.pc (.writer i) = .release)
    (taken : LockedCounter.step program s.base (.thread (.writer i)) = some base)
    : Move kind s (.thread (.writer i))
        { s with base, promised := kind.handsOver && !s.waiting.isEmpty }
  | writer {i base} (asksNot : s.base.pc (.writer i) ≠ .acquire)
    (keeps : s.base.pc (.writer i) ≠ .release)
    (taken : LockedCounter.step program s.base (.thread (.writer i)) = some base)
    : Move kind s (.thread (.writer i)) { s with base }
  | waits {i} (here : s.base.pc (.writer i) = .acquire) (new : i ∉ s.waiting)
    (blocked : LockedCounter.step program s.base (.thread (.writer i)) = none)
    : Move kind s (.thread (.writer i))
        { s with
          waiting := i :: s.waiting
          promised := s.promised || s.withoutWriter (.writer i)
          overtaken := Function.update s.overtaken i 0 }
  | wakes {i} (waits : i ∈ s.waiting) (open_ : s.promised = false)
    : Move kind s (.thread (.writer i)) { s with promised := true }
  | rdlock {i base} (here : s.base.pc (.reader i) = .acquire)
    (free : s.heldBack kind (.reader i) = false)
    (taken : LockedCounter.step program s.base (.thread (.reader i)) = some base)
    : Move kind s (.thread (.reader i))
        { s with base, overtaken := fun writer => s.overtaken writer + 1 }
  | reader {i base} (elsewhere : s.base.pc (.reader i) ≠ .acquire)
    (taken : LockedCounter.step program s.base (.thread (.reader i)) = some base)
    : Move kind s (.thread (.reader i)) { s with base }

/-- A writer's step of the counting program, by what it does to the lock. -/
theorem Move.of_writerTakes {i : Nat} {base : LockedCounter.State program.lock.Value}
    (taken : LockedCounter.step program s.base (.thread (.writer i)) = some base)
    : Move kind s (.thread (.writer i)) (writerTakes kind s i base) := by
  unfold writerTakes
  split
  next here => exact .wrlock here taken
  next here => exact .unlock here taken
  next asksNot keeps => exact .writer asksNot keeps taken

/-- A writer that is blocked begins to wait, or wakes up. -/
theorem Move.of_writerWaits {i : Nat}
    (blocked : LockedCounter.step program s.base (.thread (.writer i)) = none)
    (taken : writerWaits s i = some next)
    : Move kind s (.thread (.writer i)) next := by
  obtain ⟨here, taken⟩ := Option.ite_none_right_eq_some.mp taken
  split at taken
  next new =>
    obtain rfl := Option.some.inj taken
    exact .waits here new blocked
  next waits =>
    obtain ⟨⟨open_, _⟩, same⟩ := Option.ite_none_right_eq_some.mp taken
    obtain rfl := Option.some.inj same
    exact .wakes (not_not.mp waits) open_

/-- Every step is one of the listed ones. -/
theorem Move.of_step (taken : (system kind program).step s action = some next)
    : Move kind s action next := by
  cases action with
  | main =>
      obtain ⟨base, moved, rfl⟩ := Option.map_eq_some_iff.mp taken
      exact .main moved
  | thread thread =>
      cases thread with
      | writer i =>
          simp only [system, step] at taken
          split at taken
          next base granted => exact Option.some.inj taken ▸ .of_writerTakes granted
          next blocked => exact .of_writerWaits blocked taken
      | reader i =>
          simp only [system, step] at taken
          split at taken
          next here =>
            obtain ⟨free, taken⟩ := Option.ite_none_left_eq_some.mp taken
            obtain ⟨base, moved, rfl⟩ := Option.map_eq_some_iff.mp taken
            exact .rdlock here (Bool.eq_false_iff.mpr free) moved
          next elsewhere =>
            obtain ⟨base, moved, rfl⟩ := Option.map_eq_some_iff.mp taken
            exact .reader elsewhere moved

/-- A step is a step of the counting program, or a writer begins to wait or wakes up. -/
theorem Move.base_step (move : Move kind s action next)
    : LockedCounter.step program s.base action = some next.base ∨ next.base = s.base := by
  cases move with
  | main taken | wrlock _ taken | unlock _ taken | writer _ _ taken | rdlock _ _ taken
  | reader _ taken =>
      exact .inl taken
  | waits | wakes => exact .inr rfl

/-- Without its waiting writers, a reachable state is one of the counting program. -/
theorem base_reachable (reached : (system kind program).Reachable s)
    : (LockedCounter.system program).Reachable s.base := by
  apply reached.invariant
  · rintro s rfl
    exact .initial rfl
  · intro s action next reached taken
    rcases (Move.of_step taken).base_step with base | same
    · exact reached.next base
    · rw [same]
      exact reached

/-- The writers that wait stand at their `pthread_rwlock_wrlock`, each of them once, and the
lock is promised to nobody else.
-/
structure Waiters (s : State program) : Prop where
  distinct : s.waiting.Nodup
  waits : ∀ i ∈ s.waiting, s.base.pc (.writer i) = .acquire
  promised : s.promised = true → s.waiting ≠ []

/-- What `main` does to the threads: it creates one, or none. -/
theorem main_cases {s next : LockedCounter.State program.lock.Value}
    (taken : LockedCounter.step program s .main = some next)
    : (∃ thread rest,
        s.toCreate = thread :: rest ∧ next = { s with toCreate := rest }.goto thread .loop)
      ∨ ∃ rest, next = { s with toJoin := rest } := by
  simp only [LockedCounter.step, main] at taken
  split at taken
  next thread rest first => exact .inl ⟨thread, rest, first, (Option.some.inj taken).symm⟩
  next thread rest _ _ =>
    obtain ⟨_, same⟩ := Option.ite_none_right_eq_some.mp taken
    exact .inr ⟨rest, (Option.some.inj same).symm⟩
  next => contradiction

/-- What a thread does, by its statement. -/
theorem thread_move {s next : LockedCounter.State program.lock.Value} {self : Thread}
    (taken : LockedCounter.step program s (.thread self) = some next)
    : ThreadMove program s self next := by
  cases self with
  | writer i => exact .of_writer taken
  | reader i => exact .of_reader taken

/-- A thread that exists is moved by its own steps only. -/
theorem pc_eq_of_step {s next : LockedCounter.State program.lock.Value} {thread : Thread}
    (roster : Roster program s) (taken : LockedCounter.step program s action = some next)
    (born : s.pc thread ≠ .unborn) (apart : action ≠ .thread thread)
    : next.pc thread = s.pc thread := by
  cases action with
  | main =>
      rcases main_cases taken with ⟨other, rest, first, rfl⟩ | ⟨rest, rfl⟩
      · refine State.goto_pc_ne _ _ _ fun same => born ?_
        rw [same]
        exact roster.unborn other (first ▸ List.mem_cons_self)
      · rfl
  | thread self => exact (thread_move taken).pc_ne fun same => apart (by rw [same])

theorem Waiters.move (waiters : Waiters s) (roster : Roster program s.base)
    (move : Move kind s action next)
    : Waiters next := by
  -- who waits has not moved
  have stays {base : LockedCounter.State program.lock.Value} {action : Action}
      (taken : LockedCounter.step program s.base action = some base) (i : Nat)
      (member : i ∈ s.waiting) (apart : action ≠ .thread (.writer i))
      : base.pc (.writer i) = .acquire := by
    have here := waiters.waits i member
    rw [pc_eq_of_step roster taken (by simp [here]) apart, here]
  cases move with
  | main taken =>
      exact ⟨waiters.distinct, fun i member => stays taken i member (by simp), waiters.promised⟩
  | @wrlock i base here taken =>
      refine ⟨waiters.distinct.erase i, fun other member => ?_, by simp⟩
      obtain ⟨apart, member⟩ := (waiters.distinct.mem_erase_iff).mp member
      refine stays taken other member fun same => apart ?_
      exact Thread.writer.inj (Action.thread.inj same).symm
  | @unlock i base here taken =>
      refine ⟨waiters.distinct, fun other member => ?_, fun promised => ?_⟩
      · refine stays taken other member fun same => ?_
        have asks := waiters.waits other member
        rw [← Action.thread.inj same, here] at asks
        contradiction
      · simp only [Bool.and_eq_true, Bool.not_eq_true', List.isEmpty_eq_false_iff] at promised
        exact promised.2
  | @writer i base asksNot _ taken =>
      refine ⟨waiters.distinct, fun other member => ?_, waiters.promised⟩
      refine stays taken other member fun same => asksNot ?_
      rw [Action.thread.inj same]
      exact waiters.waits other member
  | waits here new =>
      refine ⟨List.nodup_cons.mpr ⟨new, waiters.distinct⟩, fun other member => ?_, by simp⟩
      rcases List.mem_cons.mp member with rfl | before
      · exact here
      · exact waiters.waits other before
  | wakes waits => exact ⟨waiters.distinct, waiters.waits, fun _ => List.ne_nil_of_mem waits⟩
  | rdlock _ _ taken | reader _ taken =>
      exact ⟨waiters.distinct, fun i member => stays taken i member (by simp), waiters.promised⟩

theorem waiters_of_reachable (reached : (system kind program).Reachable s) : Waiters s := by
  refine System.ReachableBy.invariant ?_ ?_ reached
  · rintro s rfl
    exact ⟨List.nodup_nil, fun _ => by simp [start], by simp [start]⟩
  · intro s action next before waiters _ taken
    exact waiters.move (inOrder_of_reachable (base_reachable before)).2 (.of_step taken)

-----------------------------------------------------------------------------------------
-- Every step is one step less
-----------------------------------------------------------------------------------------

/-- No more writers wait than there are. -/
theorem Waiters.length_le (waiters : Waiters s) (roster : Roster program s.base)
    : s.waiting.length ≤ program.writers := by
  have known : s.waiting ⊆ List.range program.writers := by
    intro i member
    have here := waiters.waits i member
    exact List.mem_range.mpr (Program.mem_writers.mp (roster.known (by simp [here])))
  simpa using (List.subperm_of_subset waiters.distinct known).length_le

/-- How far the program is from its end: its own work, the writers that may still begin to
wait, and whether the lock may still be promised.
-/
def workLeft (s : State program) : Nat :=
  3 * LockedCounter.work program s.base + (program.writers - s.waiting.length)
    + if s.promised then 0 else 1

theorem Move.workLeft_lt (reached : (system kind program).Reachable s)
    (move : Move kind s action next) (after : Waiters next)
    : workLeft next < workLeft s := by
  have base := base_reachable reached
  obtain ⟨_, roster⟩ := inOrder_of_reachable base
  have rounds := rounds_of_reachable base
  have less {base : LockedCounter.State program.lock.Value} {action : Action}
      (taken : LockedCounter.step program s.base action = some base) :=
    work_lt rounds roster (.of_step taken)
  have once (promised : Bool) : (if promised then 0 else 1) ≤ 1 := by split <;> omega
  cases move with
  | main taken | writer _ _ taken | rdlock _ _ taken | reader _ taken =>
      have lower := less taken
      simp only [workLeft]
      omega
  | unlock _ taken =>
      have lower := less taken
      have most := once (kind.handsOver && !s.waiting.isEmpty)
      simp only [workLeft]
      omega
  | @wrlock i _ _ taken =>
      have lower := less taken
      have short : s.waiting.length ≤ (s.waiting.erase i).length + 1 := by
        rw [List.length_erase]
        split <;> omega
      simp only [workLeft, Bool.false_eq_true, if_false]
      omega
  | @waits i =>
      have room := after.length_le roster
      have fewer : (if s.promised || s.withoutWriter (.writer i) then 0 else 1)
          ≤ if s.promised then 0 else 1 := by
        cases s.promised
        · exact once _
        · exact Nat.le_refl 0
      simp only [workLeft, List.length_cons] at room ⊢
      omega
  | wakes _ open_ => simp [workLeft, open_]

-----------------------------------------------------------------------------------------
-- Some step is always possible
-----------------------------------------------------------------------------------------

/-- Nobody is held back while no writer waits. -/
theorem Waiters.heldBack_eq_false (kind : Kind) (waiters : Waiters s) (nobody : s.waiting = [])
    (self : Thread)
    : s.heldBack kind self = false := by
  have open_ : s.promised = false := by
    by_contra promised
    exact waiters.promised (Bool.not_eq_false _ ▸ promised) nobody
  simp [State.heldBack, open_, nobody]

/-- A step of the counting program is possible unless it is that of a reader that asks for the
lock while a writer waits.
-/
theorem enabled_of_base (waiters : Waiters s)
    (enabled : (LockedCounter.system program).Enabled s.base action)
    (free
      : ∀ i,
          action = .thread (.reader i)
          → s.base.pc (.reader i) = .acquire
          → s.waiting = [])
    : (system kind program).Enabled s action := by
  obtain ⟨base, taken⟩ := enabled
  have taken : LockedCounter.step program s.base action = some base := taken
  cases action with
  | main => exact ⟨_, by simp [system, step, taken]; rfl⟩
  | thread thread =>
      cases thread with
      | writer i => exact ⟨_, by simp [system, step, taken]; rfl⟩
      | reader i =>
          by_cases here : s.base.pc (.reader i) = .acquire
          · have open_ := waiters.heldBack_eq_false kind (free i rfl here) (.reader i)
            exact ⟨_, by simp only [system, step, here, if_true, open_, taken]; rfl⟩
          · exact ⟨_, by simp only [system, step, if_neg here, taken]; rfl⟩

/-- Until all threads are joined some step is possible: whoever holds a reader back waits for
somebody inside, or can have the lock.
-/
theorem exists_enabled (admits : Admits program.lock)
    (reached : (system kind program).Reachable s)
    : s.base.Joined ∨ ∃ action, (system kind program).Enabled s action := by
  have base := base_reachable reached
  have waiters := waiters_of_reachable reached
  obtain ⟨guarded, _⟩ := inOrder_of_reachable base
  have points := readerPoints_of_reachable base
  refine (LockedCounter.exists_enabled admits base).imp_right fun ⟨action, enabled⟩ => ?_
  have inside {other : Thread} (busy : (s.base.pc other).inside = true)
      : (system kind program).Enabled s (.thread other) := by
    refine enabled_of_base waiters (enabled_of_inside points busy) fun i same here => ?_
    rw [Action.thread.inj same, here] at busy
    simp [Pc.inside] at busy
  by_cases nobody : s.waiting = []
  · exact ⟨action, enabled_of_base waiters enabled fun _ _ _ => nobody⟩
  · obtain ⟨writer, waits⟩ := List.exists_mem_of_ne_nil _ nobody
    have here := waiters.waits writer waits
    rcases enabled_of_acquire admits guarded here with now | ⟨other, busy⟩
    · exact ⟨_, enabled_of_base waiters now (by simp)⟩
    · exact ⟨_, inside busy⟩

-----------------------------------------------------------------------------------------
-- The end
-----------------------------------------------------------------------------------------

/-- Under a lock of any kind, every schedule of the readers and writers ends with all threads
joined and every increment counted. A kind that holds readers back does not hold them back for
ever.
-/
theorem joined_anyKind (kind : Kind) (writers readers writeCount readCount : Nat)
    (fits : writers * writeCount ≤ intMax)
    : (system kind (readersFirst writers readers writeCount readCount)).Inevitable
        (fun _ _ => True)
        (fun s => s.base.Joined ∧ s.base.counter.toInt = writers * writeCount)
        (start _) := by
  have admits : Admits (readersFirst writers readers writeCount readCount).lock := admits_rwLock
  refine .of_measure (system kind _).Reachable workLeft ?_ ?_ ?_ (.initial rfl)
  · exact fun s action next reached _ taken => reached.next taken
  · intro s reached
    rcases exists_enabled admits reached with joined | possible
    · exact .inl ⟨joined, counter_of_joined (base_reachable reached) fits joined⟩
    · obtain ⟨action, next, taken⟩ := possible
      exact .inr ⟨action, next, trivial, taken⟩
  · intro s action next reached _ taken
    exact (Move.of_step taken).workLeft_lt reached (waiters_of_reachable (reached.next taken))

/-- The third test of `rwlockattr_comparison.c` ends with 4. -/
theorem joined_anyKind_nonrecursive
    : (testRwlockAttribute .preferWriterNonrecursive).Inevitable (fun _ _ => True)
        (fun s => s.base.Joined ∧ s.base.counter.toInt = 4) (start _) :=
  joined_anyKind .preferWriterNonrecursive 2 8 2 3 (by decide)

end LinuxStudy.RwlockKinds
