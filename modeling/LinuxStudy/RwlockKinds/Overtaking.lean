import LinuxStudy.RwlockKinds.Completion

/-! How many readers overtake a writer that waits at most: none if the kind holds them back, every
single read of the program if the kind prefers readers, and otherwise all but the one read
which the others must find inside.
-/

namespace LinuxStudy.RwlockKinds

open Transition Sync LockedCounter

variable {kind : Kind} {program : Program} {s next : State program} {action : Action}

-----------------------------------------------------------------------------------------
-- No more than all reads
-----------------------------------------------------------------------------------------

/-- How often a reader has taken the lock. -/
def readsBegun {Value : Type} (s : LockedCounter.State Value) (j : Nat) : Nat :=
  s.rounds (.reader j) + if (s.pc (.reader j)).inside then 1 else 0

/-- A statement of another thread takes nothing from a reader and gives it nothing. -/
theorem readsBegun_eq {Value : Type} {s next : LockedCounter.State Value} {j : Nat}
    (rounds : next.rounds (.reader j) = s.rounds (.reader j))
    (inside : (next.pc (.reader j)).inside = (s.pc (.reader j)).inside)
    : readsBegun next j = readsBegun s j := by
  rw [readsBegun, rounds, inside, readsBegun]

/-- A reader begins a read by taking the lock, and ends it by giving the lock back. -/
theorem readsBegun_of_step {s next : LockedCounter.State program.lock.Value} {j : Nat}
    (roster : Roster program s) (taken : LockedCounter.step program s action = some next)
    : readsBegun next j
      = readsBegun s j
        + if action = .thread (.reader j) ∧ s.pc (.reader j) = .acquire then 1 else 0 := by
  cases action with
  | main =>
      rw [if_neg (by simp)]
      rcases main_cases taken with ⟨other, rest, first, rfl⟩ | ⟨rest, rfl⟩
      · refine readsBegun_eq rfl ?_
        by_cases same : Thread.reader j = other
        · have unborn := roster.unborn other (first ▸ List.mem_cons_self)
          subst same
          rw [State.goto_pc_self, unborn]
          rfl
        · rw [State.goto_pc_ne _ _ _ same]
      · rfl
  | thread self =>
      have moves := thread_move taken
      by_cases same : Thread.reader j = self
      · subst same
        simp only [true_and]
        cases moves with
        | goOn here | finish here | observe here => simp [readsBegun, here, Pc.inside]
        | rdlock here => simp [readsBegun, here, Pc.inside]
        | unlockShared here =>
            simp [readsBegun, here, Pc.inside, LockedCounter.State.nextRound]
      · have apart : Action.thread self ≠ .thread (.reader j) :=
          fun equal => same (Action.thread.inj equal).symm
        rw [if_neg fun both => apart both.1]
        refine readsBegun_eq (moves.rounds_ne same) ?_
        rw [moves.pc_ne same]

/-- The reads begun by all readers. -/
def allReadsBegun (s : State program) : Nat :=
  ∑ j ∈ Finset.range program.readers, readsBegun s.base j

/-- No read is taken back. -/
theorem allReadsBegun_mono (roster : Roster program s.base) (move : Move kind s action next)
    : allReadsBegun s ≤ allReadsBegun next := by
  rcases move.base_step with taken | same
  · refine Finset.sum_le_sum fun j _ => ?_
    rw [readsBegun_of_step roster taken]
    exact Nat.le_add_right _ _
  · rw [allReadsBegun, allReadsBegun, same]

/-- A reader that takes the lock begins one read more. -/
theorem allReadsBegun_rdlock {base : LockedCounter.State program.lock.Value} {j : Nat}
    (roster : Roster program s.base) (here : s.base.pc (.reader j) = .acquire)
    (taken : LockedCounter.step program s.base (.thread (.reader j)) = some base)
    : ∑ i ∈ Finset.range program.readers, readsBegun base i = allReadsBegun s + 1 := by
  have known : Thread.reader j ∈ program.threads := roster.known (by simp [here])
  have bound : j < program.readers := by
    simpa [Program.threads, Program.writerThreads, Program.readerThreads] using known
  have each (i : Nat) : readsBegun base i = readsBegun s.base i + if j = i then 1 else 0 := by
    rw [readsBegun_of_step roster taken]
    by_cases same : j = i
    · subst same
      simp [here]
    · simp [same]
  rw [Finset.sum_congr rfl fun i _ => each i, Finset.sum_add_distrib, Finset.sum_ite_eq,
    if_pos (Finset.mem_range.mpr bound), allReadsBegun]

-----------------------------------------------------------------------------------------
-- The lock is promised
-----------------------------------------------------------------------------------------

/-- Only a writer inside keeps readers from the lock. -/
def AdmitsReaders (lock : Lock Thread) : Prop :=
  ∀ {value mode} (thread : Thread),
    lock.Stands value mode
    → (∀ other, mode other ≠ .alone)
    → ∃ next, lock.rdlock thread value = some next

/-- A writer that is alone in the lock is inside. -/
theorem exists_writer_of_alone {Value : Type} {s : LockedCounter.State Value} {thread : Thread}
    (alone : s.mode thread = .alone)
    : ∃ i, (s.pc (.writer i)).inside = true := by
  cases thread with
  | writer i =>
      refine ⟨i, ?_⟩
      by_contra away
      simp [State.mode, Thread.mode, away] at alone
  | reader i =>
      simp only [State.mode, Thread.mode] at alone
      split at alone <;> contradiction

/-- If a reader gets the lock and a writer would not, another reader is inside. -/
theorem exists_reader_inside {s : LockedCounter.State program.lock.Value}
    {lock : program.lock.Value} {j : Nat} {other : Thread} (admits : Admits program.lock)
    (guarded : Guarded program s) (here : s.pc (.reader j) = .acquire)
    (granted : program.lock.rdlock (.reader j) s.lock = some lock)
    (busy : (program.lock.wrlock other s.lock).isSome = false)
    : ∃ inside, inside ≠ j ∧ (s.pc (.reader inside)).inside = true := by
  have outside : s.mode (.reader j) = .outside := State.mode_eq here
  obtain ⟨nobodyAlone, _⟩ := program.lock.stands_rdlock guarded.stands outside granted
  obtain ⟨thread, within⟩ : ∃ thread, s.mode thread ≠ .outside := by
    by_contra nobody
    obtain ⟨next, taken⟩ := admits.wrlock other guarded.stands fun thread =>
      not_not.mp (not_exists.mp nobody thread)
    simp [taken] at busy
  cases thread with
  | writer i =>
      refine absurd ?_ (nobodyAlone (.writer i))
      simp only [State.mode, Thread.mode] at within ⊢
      split at within
      next inside => rw [if_pos inside]
      next => contradiction
  | reader i =>
      refine ⟨i, fun same => within (same ▸ outside), ?_⟩
      by_contra away
      simp [State.mode, Thread.mode, away] at within

/-- If an unlocking writer hands over, a writer that waits does so for a writer inside, or is
promised the lock.
-/
def Settled (kind : Kind) (s : State program) : Prop :=
  kind.handsOver = true
  → s.waiting ≠ []
  → s.promised = true ∨ ∃ i, (s.base.pc (.writer i)).inside = true

/-- A writer inside stays there, until it gives the lock back. -/
theorem inside_of_writer {s next : LockedCounter.State program.lock.Value} {i : Nat}
    (moves : ThreadMove program s (.writer i) next) (inside : (s.pc (.writer i)).inside = true)
    (keeps : s.pc (.writer i) ≠ .release)
    : (next.pc (.writer i)).inside = true := by
  cases moves with
  | goOn here | finish here | wrlock here => simp [here, Pc.inside] at inside
  | load | print => simp [Pc.inside]
  | store => cases program.prints <;> simp [Pc.inside]
  | unlock here => exact absurd here keeps

theorem Settled.move (settled : Settled kind s) (admits : AdmitsReaders program.lock)
    (guarded : Guarded program s.base) (roster : Roster program s.base)
    (move : Move kind s action next)
    : Settled kind next := by
  -- a writer inside does not move with a step of another thread
  have stays {base : LockedCounter.State program.lock.Value} {action : Action}
      (taken : LockedCounter.step program s.base action = some base)
      (apart
        : ∀ i,
            (s.base.pc (.writer i)).inside = true
            → action = .thread (.writer i)
            → (base.pc (.writer i)).inside = true)
      (inside : ∃ i, (s.base.pc (.writer i)).inside = true)
      : ∃ i, (base.pc (.writer i)).inside = true := by
    obtain ⟨i, inside⟩ := inside
    refine ⟨i, ?_⟩
    by_cases mine : action = .thread (.writer i)
    · exact apart i inside mine
    · have born : s.base.pc (.writer i) ≠ .unborn := by
        intro unborn
        simp [unborn, Pc.inside] at inside
      rw [pc_eq_of_step roster taken born mine]
      exact inside
  intro hands some_
  cases move with
  | main taken | rdlock _ _ taken | reader _ taken =>
      exact (settled hands some_).imp_right (stays taken fun _ _ mine => by simp at mine)
  | @wrlock i base here taken =>
      refine .inr ⟨i, ?_⟩
      cases thread_move taken with
      | wrlock => simp [Pc.inside]
      | goOn at_ | finish at_ | load at_ | store at_ | print at_ | unlock at_ => simp [here] at at_
  | unlock => exact .inl (by simpa [hands] using some_)
  | @writer i base _ keeps taken =>
      refine (settled hands some_).imp_right (stays taken fun other inside mine => ?_)
      obtain rfl := Thread.writer.inj (Action.thread.inj mine)
      exact inside_of_writer (thread_move taken) inside keeps
  | @waits i =>
      cases shared : s.withoutWriter (.writer i) with
      | true => exact .inl (by simp)
      | false =>
          right
          have blocked : program.lock.rdlock (.writer i) s.base.lock = none := by
            simpa [State.withoutWriter] using shared
          by_contra nobody
          obtain ⟨next, granted⟩ := admits (.writer i) guarded.stands fun other alone =>
            nobody (exists_writer_of_alone alone)
          simp [blocked] at granted
  | wakes => exact .inl rfl

/-- How often readers overtake a writer at most. If they must find another reader inside, there
are two of them, and the one inside has begun a read before.
-/
def Kind.most (kind : Kind) (readers readCount : Nat) : Nat :=
  match kind with
  | .preferReader => readers * readCount
  | .preferWriter => if 2 ≤ readers then readers * readCount - 1 else 0
  | .preferWriterNonrecursive => 0

/-- What a writer has been overtaken by are reads; if an unlocking writer hands over, another
read has begun before them; and there are none if the kind holds readers back.
-/
structure Bounded (kind : Kind) (s : State program) : Prop where
  few : ∀ i, s.overtaken i ≤ allReadsBegun s
  joins
    : kind.handsOver = true
      → ∀ i ∈ s.waiting,
          s.overtaken i = 0 ∨ (2 ≤ program.readers ∧ s.overtaken i + 1 ≤ allReadsBegun s)
  none : kind.holdsReadersBack = true → ∀ i ∈ s.waiting, s.overtaken i = 0

/-- A reader's number, if it has begun. -/
theorem lt_readers {s : LockedCounter.State program.lock.Value} {j : Nat}
    (roster : Roster program s) (born : s.pc (.reader j) ≠ .unborn)
    : j < program.readers := by
  have known := roster.known born
  simpa [Program.threads, Program.writerThreads, Program.readerThreads] using known

/-- The reads begun, with a reader inside. -/
theorem one_le_allReadsBegun {j : Nat} (roster : Roster program s.base)
    (inside : (s.base.pc (.reader j)).inside = true)
    : j < program.readers ∧ 1 ≤ allReadsBegun s := by
  have born : s.base.pc (.reader j) ≠ .unborn := by
    intro unborn
    simp [unborn, Pc.inside] at inside
  have bound := lt_readers roster born
  refine ⟨bound, ?_⟩
  calc 1
      ≤ readsBegun s.base j := by simp [readsBegun, inside]
    _ ≤ allReadsBegun s :=
        Finset.single_le_sum (f := readsBegun s.base) (fun _ _ => Nat.zero_le _)
          (Finset.mem_range.mpr bound)

/-- A reader that overtakes a writer to which the lock is promised finds another one inside. -/
theorem joins_of_rdlock {base : LockedCounter.State program.lock.Value} {j : Nat}
    (admits : Admits program.lock) (guarded : Guarded program s.base)
    (roster : Roster program s.base) (settled : Settled kind s) (hands : kind.handsOver = true)
    (some_ : s.waiting ≠ []) (here : s.base.pc (.reader j) = .acquire)
    (free : s.heldBack kind (.reader j) = false)
    (taken : LockedCounter.step program s.base (.thread (.reader j)) = some base)
    : 2 ≤ program.readers ∧ 1 ≤ allReadsBegun s := by
  obtain ⟨lock, granted⟩
      : ∃ lock, program.lock.rdlock (.reader j) s.base.lock = some lock := by
    cases thread_move taken with
    | rdlock _ granted => exact ⟨_, granted⟩
    | goOn at_ | finish at_ | observe at_ | unlockShared at_ => simp [here] at at_
  have outside : s.base.mode (.reader j) = .outside := State.mode_eq here
  obtain ⟨nobodyAlone, _⟩ := program.lock.stands_rdlock guarded.stands outside granted
  have promised : s.promised = true := by
    refine (settled hands some_).resolve_right fun ⟨i, inside⟩ => nobodyAlone (.writer i) ?_
    simp [State.mode, Thread.mode, inside]
  have busy : s.nobodyInside (.reader j) = false := by
    simp only [State.heldBack, promised, Bool.true_and, Bool.or_eq_false_iff] at free
    exact free.1
  obtain ⟨other, apart, inside⟩ := exists_reader_inside admits guarded here granted busy
  obtain ⟨bound, begun⟩ := one_le_allReadsBegun roster inside
  have mine := lt_readers roster (j := j) (by simp [here])
  exact ⟨by omega, begun⟩

theorem Bounded.move (bounded : Bounded kind s) (admits : Admits program.lock)
    (guarded : Guarded program s.base) (roster : Roster program s.base)
    (settled : Settled kind s) (move : Move kind s action next)
    : Bounded kind next := by
  have grows := allReadsBegun_mono roster move
  have keeps {i : Nat} (before : s.overtaken i = 0
        ∨ (2 ≤ program.readers ∧ s.overtaken i + 1 ≤ allReadsBegun s))
      : s.overtaken i = 0
        ∨ (2 ≤ program.readers ∧ s.overtaken i + 1 ≤ allReadsBegun next) :=
    before.imp_right fun ⟨two, few⟩ => ⟨two, Nat.le_trans few grows⟩
  cases move with
  | main | unlock | writer | wakes | reader =>
      exact ⟨fun i => Nat.le_trans (bounded.few i) grows,
        fun hands i member => keeps (bounded.joins hands i member), bounded.none⟩
  | wrlock =>
      refine ⟨fun i => Nat.le_trans (bounded.few i) grows, fun hands i member => ?_,
        fun holds i member => ?_⟩
      · exact keeps (bounded.joins hands i (List.mem_of_mem_erase member))
      · exact bounded.none holds i (List.mem_of_mem_erase member)
  | @waits writer =>
      have before {i : Nat} (apart : i ≠ writer) (member : i ∈ writer :: s.waiting)
          : i ∈ s.waiting :=
        (List.mem_cons.mp member).resolve_left apart
      refine ⟨fun i => ?_, fun hands i member => ?_, fun holds i member => ?_⟩
      · by_cases same : i = writer
        · simp [same]
        · simpa [same] using Nat.le_trans (bounded.few i) grows
      · by_cases same : i = writer
        · simp [same]
        · simpa [same] using keeps (bounded.joins hands i (before same member))
      · by_cases same : i = writer
        · simp [same]
        · simpa [same] using bounded.none holds i (before same member)
  | @rdlock j base here free taken =>
      have more := allReadsBegun_rdlock roster here taken
      refine ⟨fun i => ?_, fun hands i member => ?_, fun holds i member => ?_⟩
      · have few := bounded.few i
        simp only [allReadsBegun] at more few ⊢
        omega
      · obtain ⟨two, begun⟩ := joins_of_rdlock admits guarded roster settled hands
          (List.ne_nil_of_mem member) here free taken
        right
        refine ⟨two, ?_⟩
        have before := bounded.joins hands i member
        simp only [allReadsBegun] at more begun before ⊢
        omega
      · have nobody : s.waiting = [] := by
          simpa [State.heldBack, holds] using (Bool.or_eq_false_iff.mp free).2
        simp [nobody] at member

end LinuxStudy.RwlockKinds
