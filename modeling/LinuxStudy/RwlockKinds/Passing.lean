import LinuxStudy.RwlockKinds.Overtaking
import LinuxStudy.Transition.Assured

/-! Runs in which a waiting writer is overtaken as often as the kind allows. -/

namespace LinuxStudy.RwlockKinds

open Transition Sync LockedCounter

variable {kind : Kind} {program : Program} {s next : State program} {action : Action}

-----------------------------------------------------------------------------------------
-- As many as that
-----------------------------------------------------------------------------------------

/-- `main` creates its threads, and each of them comes to its loop. By induction on those still
to be created.
-/
theorem creates (kind : Kind) {threads : List Thread} (s : State program)
    (first : s.base.toCreate = threads)
    : ∃ after,
        (system kind program).Leads s after
        ∧ (∀ thread ∈ threads, after.base.pc thread = .loop)
        ∧ (∀ thread ∉ threads, after.base.pc thread = s.base.pc thread)
        ∧ after.base.lock = s.base.lock
        ∧ after.base.rounds = s.base.rounds
        ∧ after.waiting = s.waiting
        ∧ after.promised = s.promised := by
  induction threads generalizing s with
  | nil => exact ⟨s, .refl s, by simp, fun _ _ => rfl, rfl, rfl, rfl, rfl⟩
  | cons thread rest ih =>
      let born : State program :=
        { s with base := { s.base with toCreate := rest }.goto thread .loop }
      have taken : (system kind program).step s .main = some born := by
        simp [system, step, LockedCounter.step, main, first, born]
      obtain ⟨after, run, loops, others, lock, rounds, kept⟩ := ih born rfl
      refine ⟨after, .step taken run, fun one member => ?_, fun one away => ?_, lock, rounds,
        kept⟩
      · by_cases later : one ∈ rest
        · exact loops one later
        · obtain rfl := (List.mem_cons.mp member).resolve_right later
          rw [others one later]
          exact State.goto_pc_self _ _ _
      · obtain ⟨apart, later⟩ := not_or.mp fun either => away (List.mem_cons.mpr either)
        rw [others one later]
        exact State.goto_pc_ne _ _ _ apart

/-- What a thread's way to some point leaves as it is. -/
structure Aside (thread : Thread) (s after : State program) : Prop where
  others : ∀ other, other ≠ thread → after.base.pc other = s.base.pc other
  rounds : ∀ other, other ≠ thread → after.base.rounds other = s.base.rounds other

section Attained

variable {writers readers writeCount readCount : Nat}

/-- A reader at its loop enters, in two steps, unless it is held back. -/
theorem reader_enters {s : State (readersFirst writers readers writeCount readCount)} {j n : Nat}
    (here : s.base.pc (.reader j) = .loop) (more : s.base.rounds (.reader j) < readCount)
    (lock : s.base.lock = (⟨n, false⟩ : RwValue)) (free : s.heldBack kind (.reader j) = false)
    : ∃ after : State (readersFirst writers readers writeCount readCount),
        (system kind _).Leads s after
        ∧ after.base.pc (.reader j) = .print
        ∧ after.base.lock = (⟨n + 1, false⟩ : RwValue)
        ∧ after.base.rounds = s.base.rounds
        ∧ after.waiting = s.waiting
        ∧ after.promised = s.promised
        ∧ (∀ writer, after.overtaken writer = s.overtaken writer + 1)
        ∧ Aside (.reader j) s after := by
  let asks : State (readersFirst writers readers writeCount readCount) :=
    { s with base := s.base.goto (.reader j) .acquire }
  let after : State (readersFirst writers readers writeCount readCount) :=
    { s with
      base := { asks.base with lock := (⟨n + 1, false⟩ : RwValue) }.goto (.reader j) .print
      overtaken := fun writer => s.overtaken writer + 1 }
  have first : (system kind _).step s (.thread (.reader j)) = some asks := by
    have count : s.base.rounds (.reader j)
        < (readersFirst writers readers writeCount readCount).count (.reader j) :=
      more
    simp [system, step, LockedCounter.step, readerThreadFunc, loopTest, here, count, asks]
  have granted : (readersFirst writers readers writeCount readCount).lock.rdlock (.reader j)
      s.base.lock = some (⟨n + 1, false⟩ : RwValue) := by
    rw [lock]
    rfl
  have asking : asks.base.pc (.reader j) = .acquire := by simp [asks]
  have entered : LockedCounter.step _ asks.base (.thread (.reader j)) = some after.base := by
    simp only [LockedCounter.step, readerThreadFunc, asking]
    exact congrArg (Option.map _) granted
  have open_ : asks.heldBack kind (.reader j) = false := free
  have second : (system kind _).step asks (.thread (.reader j)) = some after := by
    simp only [system, step, asking, if_true, open_, Bool.false_eq_true, if_false, entered]
    rfl
  refine ⟨after, .step first (.step second (.refl after)), by simp [after], rfl, rfl, rfl, rfl,
    fun _ => rfl, fun thread apart => ?_, fun _ _ => rfl⟩
  simp [after, asks, State.goto_pc_ne, apart]

/-- A reader inside prints and gives the lock back, in two steps. -/
theorem reader_leaves (kind : Kind)
    {s : State (readersFirst writers readers writeCount readCount)} {j n : Nat}
    (here : s.base.pc (.reader j) = .print) (lock : s.base.lock = (⟨n + 1, false⟩ : RwValue))
    : ∃ after : State (readersFirst writers readers writeCount readCount),
        (system kind _).Leads s after
        ∧ after.base.pc (.reader j) = .loop
        ∧ after.base.lock = (⟨n, false⟩ : RwValue)
        ∧ after.base.rounds (.reader j) = s.base.rounds (.reader j) + 1
        ∧ after.waiting = s.waiting
        ∧ after.promised = s.promised
        ∧ after.overtaken = s.overtaken
        ∧ Aside (.reader j) s after := by
  let shown : State (readersFirst writers readers writeCount readCount) :=
    { s with
      base := { s.base with
        observed := Function.update s.base.observed (.reader j)
          (s.base.observed (.reader j) ++ [(s.base.counter, s.base.completed)])
        }.goto (.reader j) .release }
  let after : State (readersFirst writers readers writeCount readCount) :=
    { shown with
      base := ({ shown.base with lock := (⟨n, false⟩ : RwValue) }.nextRound (.reader j)).goto
        (.reader j) .loop }
  have first : (system kind _).step s (.thread (.reader j)) = some shown := by
    simp [system, step, LockedCounter.step, readerThreadFunc, here, shown]
  have unlocked : (readersFirst writers readers writeCount readCount).lock.unlock (.reader j)
      shown.base.lock = (⟨n, false⟩ : RwValue) := by
    have same : shown.base.lock = s.base.lock := rfl
    rw [same, lock]
    rfl
  have releases : shown.base.pc (.reader j) = .release := by simp [shown]
  have second : (system kind _).step shown (.thread (.reader j)) = some after := by
    simp only [system, step, LockedCounter.step, readerThreadFunc, releases, unlocked]
    rfl
  refine ⟨after, .step first (.step second (.refl after)), by simp [after], rfl, ?_, rfl, rfl,
    rfl, fun thread apart => ?_, fun thread apart => ?_⟩
  · simp [after, shown, LockedCounter.State.nextRound]
  · simp [after, shown, LockedCounter.State.nextRound, State.goto_pc_ne, apart]
  · simp [after, shown, LockedCounter.State.nextRound, apart]

/-- One round more of one reader is one more of all. -/
theorem sum_rounds_succ {s after : State program} {j : Nat} (bound : j < readers)
    (counted : after.base.rounds (.reader j) = s.base.rounds (.reader j) + 1)
    (others
      : ∀ thread, thread ≠ .reader j → after.base.rounds thread = s.base.rounds thread)
    : ∑ i ∈ Finset.range readers, after.base.rounds (.reader i)
      = ∑ i ∈ Finset.range readers, s.base.rounds (.reader i) + 1 := by
  rw [← sum_update_succ (fun i => s.base.rounds (.reader i)) bound]
  refine Finset.sum_congr rfl fun i _ => ?_
  by_cases same : i = j
  · subst same
    simp [counted]
  · rw [Function.update_of_ne same, others _ (by simpa using same)]

/-- The lock is free and promised to nobody, the first writer still waits and has been overtaken
this often, and all readers are about to begin their next round or to end.
-/
structure Passing (k : Nat) (s : State (readersFirst writers readers writeCount readCount))
    : Prop where
  free : s.base.lock = (⟨0, false⟩ : RwValue)
  open_ : s.promised = false
  waits : 0 ∈ s.waiting
  overtaken : s.overtaken 0 = k
  loops : ∀ j < readers, s.base.pc (.reader j) = .loop
  rounds : ∑ j ∈ Finset.range readers, s.base.rounds (.reader j) = k

/-- A reader with a round to go passes through the lock. -/
theorem Passing.passes {k : Nat} {s : State (readersFirst writers readers writeCount readCount)}
    (holdsNot : kind.holdsReadersBack = false) (passing : Passing k s)
    (more : k < readers * readCount)
    : ∃ after, (system kind _).Leads s after ∧ Passing (k + 1) after := by
  obtain ⟨j, member, short⟩
      : ∃ j ∈ Finset.range readers, s.base.rounds (.reader j) < readCount := by
    refine Finset.exists_lt_of_sum_lt ?_
    rw [passing.rounds]
    simpa using more
  have bound := Finset.mem_range.mp member
  have free : s.heldBack kind (.reader j) = false := by
    simp [State.heldBack, passing.open_, holdsNot]
  obtain ⟨within, run, inside, lock, begun, waiting, promised, overtaken, aside⟩ :=
    reader_enters (passing.loops j bound) short passing.free free
  obtain ⟨after, run', loop, lock', counted, waiting', promised', overtaken', aside'⟩ :=
    reader_leaves kind inside lock
  refine ⟨after, run.trans run', lock', ?_, ?_, ?_, fun i known => ?_, ?_⟩
  · rw [promised', promised, passing.open_]
  · rw [waiting', waiting]
    exact passing.waits
  · rw [overtaken', overtaken, passing.overtaken]
  · by_cases same : i = j
    · exact same ▸ loop
    · have apart : Thread.reader i ≠ .reader j := by simpa using same
      rw [aside'.others _ apart, aside.others _ apart]
      exact passing.loops i known
  · rw [sum_rounds_succ bound counted aside'.rounds, begun, passing.rounds]

/-- One reader is inside, the first writer waits and has been overtaken this often, and the
other readers are about to begin their next round or to end. Unless the reader inside is at its
last round, another one has a round to go.
-/
structure Holding (a k : Nat) (s : State (readersFirst writers readers writeCount readCount))
    : Prop where
  lock : s.base.lock = (⟨1, false⟩ : RwValue)
  waits : 0 ∈ s.waiting
  overtaken : s.overtaken 0 = k
  known : a < readers
  inside : s.base.pc (.reader a) = .print
  begun : s.base.rounds (.reader a) < readCount
  loops : ∀ j < readers, j ≠ a → s.base.pc (.reader j) = .loop
  rounds : ∑ j ∈ Finset.range readers, s.base.rounds (.reader j) = k
  spare
    : s.base.rounds (.reader a) + 1 = readCount
      ∨ ∃ j < readers, j ≠ a ∧ s.base.rounds (.reader j) < readCount

/-- While there are reads to begin, another reader than the one inside has a round to go. -/
theorem Holding.exists_short {a k : Nat}
    {s : State (readersFirst writers readers writeCount readCount)} (holding : Holding a k s)
    (more : k + 1 < readers * readCount)
    : ∃ j < readers, j ≠ a ∧ s.base.rounds (.reader j) < readCount := by
  rcases holding.spare with last | other
  · -- with the read inside counted, some reader has still not made all of its rounds
    obtain ⟨j, member, short⟩
        : ∃ j ∈ Finset.range readers,
            Function.update (fun i => s.base.rounds (.reader i)) a
              (s.base.rounds (.reader a) + 1) j < readCount := by
      refine Finset.exists_lt_of_sum_lt ?_
      rw [sum_update_succ (fun i => s.base.rounds (.reader i)) holding.known, holding.rounds]
      simpa using more
    have apart : j ≠ a := by
      rintro rfl
      simp [last] at short
    exact ⟨j, Finset.mem_range.mp member, apart, by simpa [apart] using short⟩
  · exact other

/-- Another reader enters, and one of the two leaves: the one that has more rounds to go stays
away, so that the other one can be joined again.
-/
theorem Holding.passes {a k : Nat}
    {s : State (readersFirst writers readers writeCount readCount)}
    (holdsNot : kind.holdsReadersBack = false) (holding : Holding a k s)
    (more : k + 1 < readers * readCount)
    : ∃ b after, (system kind _).Leads s after ∧ Holding b (k + 1) after := by
  obtain ⟨j, bound, apart, short⟩ := holding.exists_short more
  have differ : Thread.reader a ≠ .reader j := by simpa using Ne.symm apart
  have free : s.heldBack kind (.reader j) = false := by
    have busy : s.nobodyInside (.reader j) = false := by
      unfold State.nobodyInside
      rw [holding.lock]
      rfl
    simp [State.heldBack, busy, holdsNot]
  obtain ⟨both, run, inside, lock, begun, waiting, _, overtaken, aside⟩ :=
    reader_enters (holding.loops j bound apart) short holding.lock free
  have first : both.base.pc (.reader a) = .print := (aside.others _ differ).trans holding.inside
  have waits : 0 ∈ both.waiting := waiting ▸ holding.waits
  have often : both.overtaken 0 = k + 1 := by rw [overtaken, holding.overtaken]
  have sum : ∑ i ∈ Finset.range readers, both.base.rounds (.reader i) = k := by
    rw [begun]
    exact holding.rounds
  have loops (i : Nat) (known : i < readers) (notFirst : i ≠ a) (notSecond : i ≠ j)
      : both.base.pc (.reader i) = .loop :=
    (aside.others _ (by simpa using notSecond)).trans (holding.loops i known notFirst)
  by_cases further : s.base.rounds (.reader a) + 1 < readCount
  · obtain ⟨after, run', loop, lock', counted, waiting', _, overtaken', aside'⟩ :=
      reader_leaves kind first lock
    refine ⟨j, after, run.trans run', lock', waiting' ▸ waits, overtaken' ▸ often, bound, ?_, ?_,
      fun i known notSecond => ?_, ?_, .inr ⟨a, holding.known, Ne.symm apart, ?_⟩⟩
    · rw [aside'.others _ (Ne.symm differ), inside]
    · rw [aside'.rounds _ (Ne.symm differ), begun]
      exact short
    · by_cases same : i = a
      · exact same ▸ loop
      · rw [aside'.others _ (by simpa using same)]
        exact loops i known same notSecond
    · rw [sum_rounds_succ holding.known counted aside'.rounds, sum]
    · rw [counted, begun]
      exact further
  · obtain ⟨after, run', loop, lock', counted, waiting', _, overtaken', aside'⟩ :=
      reader_leaves kind inside lock
    have same : after.base.rounds (.reader a) = s.base.rounds (.reader a) := by
      rw [aside'.rounds _ differ, begun]
    have begun' := holding.begun
    refine ⟨a, after, run.trans run', lock', waiting' ▸ waits, overtaken' ▸ often, holding.known,
      ?_, same ▸ begun', fun i known notFirst => ?_, ?_, .inl (by omega)⟩
    · rw [aside'.others _ differ, first]
    · by_cases same : i = j
      · exact same ▸ loop
      · rw [aside'.others _ (by simpa using same)]
        exact loops i known notFirst same
    · rw [sum_rounds_succ bound counted aside'.rounds, sum]

-----------------------------------------------------------------------------------------
-- A writer begins to wait
-----------------------------------------------------------------------------------------

/-- A step of a writer that is not blocked. -/
theorem writer_step {base : LockedCounter.State program.lock.Value} {i : Nat}
    (taken : LockedCounter.step program s.base (.thread (.writer i)) = some base)
    : (system kind program).step s (.thread (.writer i)) = some (writerTakes kind s i base) := by
  simp only [system, step, taken]

/-- A writer at its loop asks for the lock. -/
theorem writer_asks (kind : Kind) {s : State (readersFirst writers readers writeCount readCount)}
    {i : Nat} (here : s.base.pc (.writer i) = .loop)
    (more : s.base.rounds (.writer i) < writeCount)
    : (system kind _).step s (.thread (.writer i))
      = some { s with base := s.base.goto (.writer i) .acquire } := by
  have count : s.base.rounds (.writer i)
      < (readersFirst writers readers writeCount readCount).count (.writer i) :=
    more
  have taken : LockedCounter.step _ s.base (.thread (.writer i))
      = some (s.base.goto (.writer i) .acquire) := by
    simp [LockedCounter.step, writerThreadFunc, here, loopTest, count]
  rw [writer_step taken]
  simp only [writerTakes, here]

/-- A writer at its loop finds the lock free and enters, in two steps. -/
theorem enters (kind : Kind) {s : State (readersFirst writers readers writeCount readCount)}
    {i : Nat} (here : s.base.pc (.writer i) = .loop)
    (more : s.base.rounds (.writer i) < writeCount) (idle : i ∉ s.waiting)
    (free : s.base.lock = (⟨0, false⟩ : RwValue))
    : ∃ after : State (readersFirst writers readers writeCount readCount),
        (system kind _).Leads s after
        ∧ after.base.pc (.writer i) = .load
        ∧ after.base.lock = (⟨0, true⟩ : RwValue)
        ∧ after.waiting = s.waiting
        ∧ Aside (.writer i) s after := by
  let asks : State (readersFirst writers readers writeCount readCount) :=
    { s with base := s.base.goto (.writer i) .acquire }
  let after : State (readersFirst writers readers writeCount readCount) :=
    { s with
      base := { asks.base with lock := (⟨0, true⟩ : RwValue) }.goto (.writer i) .load
      waiting := s.waiting.erase i
      promised := false }
  have granted : (readersFirst writers readers writeCount readCount).lock.wrlock (.writer i)
      asks.base.lock = some (⟨0, true⟩ : RwValue) := by
    have same : asks.base.lock = s.base.lock := rfl
    rw [same, free]
    rfl
  have asking : asks.base.pc (.writer i) = .acquire := by simp [asks]
  have second : (system kind _).step asks (.thread (.writer i)) = some after := by
    have taken : LockedCounter.step _ asks.base (.thread (.writer i)) = some after.base := by
      simp only [LockedCounter.step, writerThreadFunc, asking]
      exact congrArg (Option.map _) granted
    rw [writer_step taken]
    simp only [writerTakes, asking]
    rfl
  refine ⟨after, .step (writer_asks kind here more) (.step second (.refl after)),
    by simp [after], rfl, List.erase_of_not_mem idle, fun thread apart => ?_, fun _ _ => rfl⟩
  simp [after, asks, State.goto_pc_ne, apart]

/-- A writer inside gives the lock back, in four steps. -/
theorem leaves (kind : Kind) {s : State (readersFirst writers readers writeCount readCount)}
    {i : Nat} (here : s.base.pc (.writer i) = .load)
    (busy : s.base.lock = (⟨0, true⟩ : RwValue))
    : ∃ after : State (readersFirst writers readers writeCount readCount),
        (system kind _).Leads s after
        ∧ after.base.lock = (⟨0, false⟩ : RwValue)
        ∧ after.waiting = s.waiting
        ∧ after.promised = (kind.handsOver && !s.waiting.isEmpty)
        ∧ after.overtaken = s.overtaken
        ∧ Aside (.writer i) s after := by
  let loaded : State (readersFirst writers readers writeCount readCount) :=
    { s with base := s.base.goto (.writer i) (.store s.base.counter) }
  let stored : State (readersFirst writers readers writeCount readCount) :=
    { s with base := { loaded.base with counter := s.base.counter + 1 }.goto (.writer i) .print }
  let printed : State (readersFirst writers readers writeCount readCount) :=
    { s with
      base := { stored.base with
        printed := stored.base.printed ++ [stored.base.counter] }.goto (.writer i) .release }
  let after : State (readersFirst writers readers writeCount readCount) :=
    { s with
      base := ({ printed.base with
        lock := (⟨0, false⟩ : RwValue)
        completed := printed.base.completed + 1 }.nextRound (.writer i)).goto (.writer i) .loop
      promised := kind.handsOver && !s.waiting.isEmpty }
  have first : (system kind _).step s (.thread (.writer i)) = some loaded := by
    have taken : LockedCounter.step _ s.base (.thread (.writer i)) = some loaded.base := by
      simp [LockedCounter.step, writerThreadFunc, here, loaded]
    rw [writer_step taken]
    simp only [writerTakes, here]
    rfl
  have second : (system kind _).step loaded (.thread (.writer i)) = some stored := by
    have at_ : loaded.base.pc (.writer i) = .store s.base.counter := by simp [loaded]
    have taken : LockedCounter.step _ loaded.base (.thread (.writer i)) = some stored.base := by
      simp [LockedCounter.step, writerThreadFunc, at_, stored, readersFirst, rwlockTest3]
    rw [writer_step taken]
    simp only [writerTakes, at_]
    rfl
  have third : (system kind _).step stored (.thread (.writer i)) = some printed := by
    have at_ : stored.base.pc (.writer i) = .print := by simp [stored]
    have taken : LockedCounter.step _ stored.base (.thread (.writer i)) = some printed.base := by
      simp [LockedCounter.step, writerThreadFunc, at_, printed]
    rw [writer_step taken]
    simp only [writerTakes, at_]
    rfl
  have fourth : (system kind _).step printed (.thread (.writer i)) = some after := by
    have at_ : printed.base.pc (.writer i) = .release := by simp [printed]
    have unlocked : (readersFirst writers readers writeCount readCount).lock.unlock (.writer i)
        printed.base.lock = (⟨0, false⟩ : RwValue) := by
      have same : printed.base.lock = s.base.lock := rfl
      rw [same, busy]
      rfl
    have taken : LockedCounter.step _ printed.base (.thread (.writer i)) = some after.base := by
      simp only [LockedCounter.step, writerThreadFunc, at_, unlocked]
      rfl
    rw [writer_step taken]
    simp only [writerTakes, at_]
    rfl
  refine ⟨after, .step first (.step second (.step third (.step fourth (.refl _)))), rfl, rfl, rfl,
    rfl, fun thread apart => ?_, fun thread apart => ?_⟩
  · simp [after, printed, stored, loaded, LockedCounter.State.nextRound, State.goto_pc_ne, apart]
  · simp [after, printed, stored, loaded, LockedCounter.State.nextRound, apart]

/-- Where `main` has created its threads and none of them has begun. -/
structure Created (s : State (readersFirst writers readers writeCount readCount)) : Prop where
  loops
    : ∀ thread ∈ (readersFirst writers readers writeCount readCount).threads,
        s.base.pc thread = .loop
  lock : s.base.lock = (⟨0, false⟩ : RwValue)
  rounds : ∀ thread, s.base.rounds thread = 0
  waiting : s.waiting = []
  open_ : s.promised = false

theorem exists_created (kind : Kind) (writers readers writeCount readCount : Nat)
    : ∃ s : State (readersFirst writers readers writeCount readCount),
        (system kind _).Reachable s ∧ Created s := by
  obtain ⟨s, run, loops, _, lock, rounds, waiting, promised⟩ :=
    creates kind (start (readersFirst writers readers writeCount readCount)) rfl
  refine ⟨s, run.reachable (.initial rfl), fun thread member => ?_, lock, fun thread => ?_, waiting,
    promised⟩
  · exact loops thread (Program.mem_creation.mpr member)
  · rw [rounds]
    rfl

theorem Created.writer {s : State (readersFirst writers readers writeCount readCount)} {i : Nat}
    (created : Created s) (bound : i < writers)
    : s.base.pc (.writer i) = .loop :=
  created.loops _ (Program.mem_writers.mpr bound)

theorem Created.reader {s : State (readersFirst writers readers writeCount readCount)} {j : Nat}
    (created : Created s) (bound : j < readers)
    : s.base.pc (.reader j) = .loop := by
  have listed : j ∈ List.range readers := List.mem_range.mpr bound
  exact created.loops _ (List.mem_append_right _ (List.mem_map_of_mem listed))

end Attained

end LinuxStudy.RwlockKinds
