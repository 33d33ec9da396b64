import LinuxStudy.Sync.LostUpdates
import LinuxStudy.UnlockedCounter.Steps

/-! Which values the programs without a writer's lock leave in the shared `int`. Their runs
simulate the increments without a lock, and each run of these is one of theirs.
-/

namespace LinuxStudy.UnlockedCounter

open Transition Sync LockedCounter

/-- The increments without a lock that the writers of a program make. -/
abbrev increments (program : Program) : System (LostUpdates.State Nat) (LostUpdates.Action Nat) :=
  LostUpdates.system (Finset.range program.writers) program.writeCount

/-- The variable is the abstract value as an `int`. A writer at its store holds a value, and a
writer behind its store has done one round more than it has counted.
-/
structure Related {Value : Type} (s : State Value) (a : LostUpdates.State Nat) : Prop where
  counter : s.counter = Int32.ofNat a.value
  done
    : ∀ i,
        a.done i = s.rounds (.writer i) + if (s.pc (.writer i)).stored then 1 else 0
  held
    : ∀ {i loaded},
        s.pc (.writer i) = .store loaded
        → ∃ v, a.held i = some v ∧ loaded = Int32.ofNat v
  free : ∀ {i}, (∀ loaded, s.pc (.writer i) ≠ .store loaded) → a.held i = none

theorem Related.start (program : Program)
    : Related (start program) (LostUpdates.start Nat) where
  counter := rfl
  done _ := rfl
  held there := by simp [LockedCounter.start] at there
  free _ := rfl

variable {program : Program} {s next : State program.lock.Value} {a : LostUpdates.State Nat}

/-- A step that leaves the variable alone, by which no writer loads or stores. -/
theorem Related.of_same (related : Related s a) (counter : next.counter = s.counter)
    (done
      : ∀ i,
          next.rounds (.writer i) + (if (next.pc (.writer i)).stored then 1 else 0)
          = s.rounds (.writer i) + if (s.pc (.writer i)).stored then 1 else 0)
    (quiet
      : ∀ i,
          next.pc (.writer i) = s.pc (.writer i)
          ∨ (∀ loaded, s.pc (.writer i) ≠ .store loaded)
            ∧ ∀ loaded, next.pc (.writer i) ≠ .store loaded)
    : Related next a := by
  constructor
  · rw [counter]
    exact related.counter
  · exact fun i => (related.done i).trans (done i).symm
  · intro i loaded there
    rcases quiet i with same | ⟨_, never⟩
    · exact related.held (same ▸ there)
    · exact absurd there (never loaded)
  · intro i elsewhere
    rcases quiet i with same | ⟨never, _⟩
    · exact related.free (same ▸ elsewhere)
    · exact related.free never

/-- A step by which one thread comes to a point that is neither its store nor behind it. -/
theorem Related.of_goto (related : Related s a) {self : Thread} {pc : Pc}
    (counter : next.counter = s.counter) (rounds : next.rounds = s.rounds)
    (points : next.pc = (s.goto self pc).pc)
    (quiet
      : (∃ i, self = .reader i)
        ∨ pc.stored = (s.pc self).stored
          ∧ (∀ loaded, s.pc self ≠ .store loaded)
          ∧ ∀ loaded, pc ≠ .store loaded)
    : Related next a := by
  have others {i : Nat} (other : Thread.writer i ≠ self)
      : next.pc (.writer i) = s.pc (.writer i) := by
    rw [points, State.goto_pc_ne _ _ _ other]
  have apart {i : Nat} (mine : Thread.writer i = self)
      : pc.stored = (s.pc self).stored
        ∧ (∀ loaded, s.pc self ≠ .store loaded)
        ∧ ∀ loaded, pc ≠ .store loaded := by
    refine quiet.resolve_left fun reader => ?_
    obtain ⟨j, same⟩ := reader
    simp [same] at mine
  refine related.of_same counter (fun i => ?_) (fun i => ?_)
  · by_cases mine : Thread.writer i = self
    · obtain ⟨same, _⟩ := apart mine
      subst mine
      rw [rounds, points, State.goto_pc_self, same]
    · rw [rounds, others mine]
  · by_cases mine : Thread.writer i = self
    · obtain ⟨_, before, after⟩ := apart mine
      subst mine
      exact Or.inr ⟨before, fun loaded => by rw [points, State.goto_pc_self]; exact after loaded⟩
    · exact Or.inl (others mine)

/-- A writer's load is the load of an increment. -/
theorem Related.load (related : Related s a) {i : Nat} (here : s.pc (.writer i) = .load)
    : Related (s.goto (.writer i) (.store s.counter)) (a.load i) := by
  constructor
  · exact related.counter
  · intro j
    rw [LostUpdates.State.load_done, related.done j]
    by_cases mine : j = i
    · subst mine
      simp [here, Pc.stored]
    · rw [State.goto_rounds, State.goto_pc_ne _ _ _ (by simpa using mine)]
  · intro j loaded there
    by_cases mine : j = i
    · subst mine
      obtain rfl : s.counter = loaded := by simpa using there
      exact ⟨a.value, a.load_held_self, related.counter⟩
    · rw [State.goto_pc_ne _ _ _ (by simpa using mine)] at there
      rw [a.load_held_ne mine]
      exact related.held there
  · intro j elsewhere
    by_cases mine : j = i
    · subst mine
      exact absurd (State.goto_pc_self _ _ _) (elsewhere s.counter)
    · rw [a.load_held_ne mine]
      refine related.free fun loaded => ?_
      rw [← s.goto_pc_ne (.writer i) (.store s.counter) (by simpa using mine)]
      exact elsewhere loaded

/-- A writer's store is the store of an increment, from the value that it holds. -/
theorem Related.store (related : Related s a) {i v : Nat} {loaded : Int32}
    (here : s.pc (.writer i) = .store loaded) (same : loaded = Int32.ofNat v)
    : Related
        ({ s with counter := loaded + 1 }.goto (.writer i)
          (if program.prints then .print else .release)) (a.store i v) := by
  have behind := Pc.stored_behind program.prints
  constructor
  · change loaded + 1 = Int32.ofNat (v + 1)
    rw [same, Int32.ofNat_add]
    rfl
  · intro j
    by_cases mine : j = i
    · subst mine
      rw [LostUpdates.State.store_done_self, related.done j, State.goto_pc_self, behind, here]
      rfl
    · rw [LostUpdates.State.store_done_ne _ _ mine, related.done j,
        State.goto_pc_ne _ _ _ (by simpa using mine)]
      rfl
  · intro j other there
    by_cases mine : j = i
    · subst mine
      rw [State.goto_pc_self] at there
      rw [there] at behind
      contradiction
    · rw [State.goto_pc_ne _ _ _ (by simpa using mine)] at there
      rw [LostUpdates.State.store_held_ne _ _ mine]
      exact related.held there
  · intro j elsewhere
    by_cases mine : j = i
    · subst mine
      exact LostUpdates.State.store_held_self _ _
    · rw [LostUpdates.State.store_held_ne _ _ mine]
      refine related.free fun other there => elsewhere other ?_
      rw [State.goto_pc_ne _ _ _ (by simpa using mine)]
      exact there

/-- At the end of an iteration a round that is done becomes one that is counted. -/
theorem Related.nextRound (related : Related s a) {i : Nat}
    (here : s.pc (.writer i) = .release) (counter : next.counter = s.counter)
    (rounds : next.rounds = (s.nextRound (.writer i)).rounds)
    (points : next.pc = (s.goto (.writer i) .loop).pc)
    : Related next a := by
  refine related.of_same counter (fun j => ?_) (fun j => ?_)
  · rw [rounds, points]
    by_cases mine : j = i
    · subst mine
      simp [State.nextRound, here, Pc.stored]
    · rw [State.goto_pc_ne _ _ _ (by simpa using mine)]
      simp [State.nextRound, mine]
  · by_cases mine : j = i
    · subst mine
      exact Or.inr ⟨by simp [here], by simp [points]⟩
    · left
      rw [points, State.goto_pc_ne _ _ _ (by simpa using mine)]

/-- Every step of the program is a step of the increments, or none of them. -/
theorem Related.move (related : Related s a) (roster : Roster program s)
    (rounds : Rounds program s) (moves : Move program s next)
    : ∃ a',
        (a' = a ∨ ∃ action, (increments program).step a action = some a')
        ∧ Related next a' := by
  cases moves with
  | @create thread rest first =>
      have fresh := roster.unborn thread (first ▸ List.mem_cons_self)
      exact ⟨a, Or.inl rfl, related.of_goto rfl rfl rfl (Or.inr (by simp [fresh, Pc.stored]))⟩
  | join _ _ _ => exact ⟨a, Or.inl rfl, related.of_same rfl (fun _ => rfl) fun _ => Or.inl rfl⟩
  | reader moves =>
      refine ⟨a, Or.inl rfl, related.of_same ?_ (fun i => ?_) fun i => Or.inl ?_⟩
      · cases moves <;> rfl
      · rw [moves.rounds_ne (by simp), moves.pc_ne (by simp)]
      · rw [moves.pc_ne (by simp)]
  | @writer i _ moves _ =>
      cases moves with
      | goOn here _ | finish here _ | wrlock here _ =>
          exact ⟨a, Or.inl rfl,
            related.of_goto rfl rfl rfl (Or.inr (by simp [here, Pc.stored]))⟩
      | load here =>
          have member := Finset.mem_range.mpr (Program.mem_writers.mp (roster.known
            (by simp [here] : s.pc (.writer i) ≠ .unborn)))
          have inside : (s.pc (.writer i)).inside = true := by
            rw [here]
            rfl
          have more := rounds.more (Or.inr inside)
          have done := related.done i
          simp only [here, Pc.stored, Bool.false_eq_true, if_false, Nat.add_zero] at done
          have free := related.free (i := i) (by simp [here])
          exact ⟨a.load i, Or.inr ⟨.load i, if_pos ⟨member, done ▸ more, free⟩⟩, related.load here⟩
      | @store _ loaded here =>
          obtain ⟨v, holding, same⟩ := related.held here
          refine ⟨a.store i v, Or.inr ⟨.store i, ?_⟩, related.store here same⟩
          simp [LostUpdates.system, LostUpdates.step, holding]
      | print here =>
          exact ⟨a, Or.inl rfl,
            related.of_goto rfl rfl rfl (Or.inr (by simp [here, Pc.stored]))⟩
      | unlock here => exact ⟨a, Or.inl rfl, related.nextRound here rfl rfl rfl⟩
  | acquire here =>
      exact ⟨a, Or.inl rfl, related.of_goto rfl rfl rfl (Or.inr (by simp [here, Pc.stored]))⟩
  | release here => exact ⟨a, Or.inl rfl, related.nextRound here rfl rfl rfl⟩

/-- Every reachable state stands for a reachable state of the increments. -/
theorem exists_related (reached : (system program).Reachable s)
    : ∃ a, (increments program).Reachable a ∧ Related s a := by
  induction reached with
  | initial same =>
      subst same
      exact ⟨_, .initial rfl, .start program⟩
  | step before _ taken ih =>
      obtain ⟨a, reached, related⟩ := ih
      obtain ⟨roster, rounds⟩ := inOrder_of_reachable before
      obtain ⟨a', same | ⟨action', taken'⟩, related'⟩ :=
        related.move roster rounds (.of_step taken)
      · exact ⟨a', same ▸ reached, related'⟩
      · exact ⟨a', reached.next taken', related'⟩

-----------------------------------------------------------------------------------------
-- Each run of the increments is a run of the program
-----------------------------------------------------------------------------------------

/-- All threads are created, and every writer is between two iterations or at its store. -/
structure Parked (program : Program) (s : State program.lock.Value) : Prop where
  created : s.toCreate = []
  points
    : ∀ i < program.writers,
        s.pc (.writer i) = .loop ∨ ∃ loaded, s.pc (.writer i) = .store loaded

/-- A step of one writer to its store or to the end of its iteration keeps the others parked.
-/
theorem Parked.of_goto (parked : Parked program s) {i : Nat} {pc : Pc}
    (created : next.toCreate = s.toCreate) (points : next.pc = (s.goto (.writer i) pc).pc)
    (there : pc = .loop ∨ ∃ loaded, pc = .store loaded)
    : Parked program next := by
  refine ⟨created.trans parked.created, fun j bound => ?_⟩
  rw [points]
  by_cases mine : j = i
  · subst mine
    rwa [State.goto_pc_self]
  · rw [State.goto_pc_ne _ _ _ (by simpa using mine)]
    exact parked.points j bound

/-- `main` can create all the threads before any of them moves. -/
theorem exists_created (reached : (system program).Reachable s) (related : Related s a)
    : ∃ next,
        (system program).Reachable next
        ∧ Related next a
        ∧ next.toCreate = []
        ∧ ∀ thread, thread ∈ s.toCreate ∨ s.pc thread = .loop → next.pc thread = .loop := by
  generalize creating : s.toCreate = rest
  induction rest generalizing s with
  | nil => exact ⟨s, reached, related, creating, by simp⟩
  | cons thread rest ih =>
      obtain ⟨roster, _⟩ := inOrder_of_reachable reached
      have fresh := roster.unborn thread (creating ▸ List.mem_cons_self)
      have taken : (system program).step s .main
          = some ({ s with toCreate := rest }.goto thread .loop) := by
        simp [system, step, main, creating]
      obtain ⟨next, later, related', created, points⟩ := ih (reached.next taken)
        (related.of_goto rfl rfl rfl (Or.inr (by simp [fresh, Pc.stored]))) rfl
      refine ⟨next, later, related', created, fun other there => points other ?_⟩
      by_cases mine : other = thread
      · exact Or.inr (by simp [mine])
      · rw [State.goto_pc_ne _ _ _ mine]
        exact there.imp_left fun member => (List.mem_cons.mp member).resolve_left mine

/-- A writer between two iterations can come to its store before anybody else moves. -/
theorem exists_load (reached : (system program).Reachable s) (related : Related s a)
    (parked : Parked program s) {i : Nat} (here : s.pc (.writer i) = .loop)
    (more : s.rounds (.writer i) < program.writeCount)
    : ∃ next,
        (system program).Reachable next ∧ Related next (a.load i) ∧ Parked program next := by
  have goesOn : (system program).step s (.thread (.writer i))
      = some (s.goto (.writer i) .acquire) := by
    simp [system, step, writerThreadFunc, here, loopTest, Program.count, more]
  have acquires : (system program).step (s.goto (.writer i) .acquire) (.thread (.writer i))
      = some ((s.goto (.writer i) .acquire).goto (.writer i) .load) := by
    simp [system, step, writerThreadFunc]
  have loads : (system program).step ((s.goto (.writer i) .acquire).goto (.writer i) .load)
        (.thread (.writer i))
      = some (((s.goto (.writer i) .acquire).goto (.writer i) .load).goto (.writer i)
          (.store s.counter)) := by
    simp [system, step, writerThreadFunc, State.goto]
  refine ⟨_, ((reached.next goesOn).next acquires).next loads, ?_, ?_⟩
  · have first : Related (s.goto (.writer i) .acquire) a :=
      related.of_goto rfl rfl rfl (Or.inr (by simp [here, Pc.stored]))
    have second : Related ((s.goto (.writer i) .acquire).goto (.writer i) .load) a :=
      first.of_goto rfl rfl rfl (Or.inr (by simp [Pc.stored]))
    exact second.load (State.goto_pc_self _ _ _)
  · have points : (((s.goto (.writer i) .acquire).goto (.writer i) .load).goto (.writer i)
          (.store s.counter)).pc = (s.goto (.writer i) (.store s.counter)).pc := by
      simp [State.goto]
    exact parked.of_goto rfl points (Or.inr ⟨s.counter, rfl⟩)

/-- A writer at its store can store, and end its iteration, before anybody else moves. -/
theorem exists_store (reached : (system program).Reachable s) (related : Related s a)
    (parked : Parked program s) {i v : Nat} {loaded : Int32}
    (here : s.pc (.writer i) = .store loaded) (same : loaded = Int32.ofNat v)
    : ∃ next,
        (system program).Reachable next ∧ Related next (a.store i v) ∧ Parked program next := by
  let stored := { s with counter := loaded + 1 }.goto (.writer i)
    (if program.prints then .print else .release)
  have stores : (system program).step s (.thread (.writer i)) = some stored := by
    simp [system, step, writerThreadFunc, here, stored]
  have related' : Related stored (a.store i v) := related.store here same
  obtain ⟨behind, later, points, created, related''⟩
      : ∃ behind,
          (system program).Reachable behind
          ∧ behind.pc = (s.goto (.writer i) .release).pc
          ∧ behind.toCreate = s.toCreate
          ∧ Related behind (a.store i v) := by
    cases prints : program.prints with
    | false =>
        refine ⟨stored, reached.next stores, ?_, rfl, related'⟩
        simp [stored, prints, State.goto]
    | true =>
        have there : stored.pc (.writer i) = .print := by simp [stored, prints]
        have displays : (system program).step stored (.thread (.writer i))
            = some ({ stored with printed := stored.printed ++ [stored.counter] }.goto
                (.writer i) .release) := by
          simp [system, step, writerThreadFunc, there]
        refine ⟨_, (reached.next stores).next displays, ?_, rfl, ?_⟩
        · simp [stored, State.goto]
        · exact related'.of_goto rfl rfl rfl (Or.inr (by simp [there, Pc.stored]))
  have there : behind.pc (.writer i) = .release := by rw [points, State.goto_pc_self]
  have releases : (system program).step behind (.thread (.writer i))
      = some (({ behind with completed := behind.completed + 1 }.nextRound (.writer i)).goto
          (.writer i) .loop) := by
    simp [system, step, writerThreadFunc, there]
  refine ⟨_, later.next releases, related''.nextRound there rfl rfl rfl, ?_⟩
  have points'
      : (({ behind with completed := behind.completed + 1 }.nextRound (.writer i)).goto
          (.writer i) .loop).pc = (s.goto (.writer i) .loop).pc := by
    simp [State.goto, State.nextRound, points]
  exact parked.of_goto created points' (Or.inl rfl)

/-- Every reachable state of the increments is that of a parked state of the program. -/
theorem exists_parked (reached : (increments program).Reachable a)
    : ∃ s, (system program).Reachable s ∧ Related s a ∧ Parked program s := by
  induction reached with
  | initial same =>
      subst same
      obtain ⟨s, reached, related, created, points⟩ :=
        exists_created (.initial rfl) (.start program)
      refine ⟨s, reached, related, created, fun i bound => Or.inl (points _ (Or.inl ?_))⟩
      exact Program.mem_creation.mpr (Program.mem_writers.mpr bound)
  | @step a action next before _ taken ih =>
      obtain ⟨s, reached, related, parked⟩ := ih
      cases LostUpdates.Move.of_step taken with
      | @load i member more free =>
          have here : s.pc (.writer i) = .loop := by
            refine (parked.points i (Finset.mem_range.mp member)).resolve_right fun there => ?_
            obtain ⟨loaded, there⟩ := there
            obtain ⟨v, holding, _⟩ := related.held there
            simp [free] at holding
          have done := related.done i
          simp only [here, Pc.stored, Bool.false_eq_true, if_false, Nat.add_zero] at done
          exact exists_load reached related parked here (done ▸ more)
      | @store i v holding =>
          have member := ((LostUpdates.sound_of_reachable before).holder holding).1
          rcases parked.points i (Finset.mem_range.mp member) with here | ⟨loaded, here⟩
          · have free := related.free (i := i) (by simp [here])
            simp [free] at holding
          · obtain ⟨v', holding', same⟩ := related.held here
            obtain rfl : v' = v := Option.some.inj (holding'.symm.trans holding)
            exact exists_store reached related parked here same

-----------------------------------------------------------------------------------------
-- The final values
-----------------------------------------------------------------------------------------

/-- When all threads are joined, all increments are done. -/
theorem finished_of_joined (reached : (system program).Reachable s) (related : Related s a)
    (joined : s.Joined)
    : LostUpdates.Finished (Finset.range program.writers) program.writeCount a := by
  obtain ⟨roster, rounds⟩ := inOrder_of_reachable reached
  intro i member
  have listed := Program.mem_writers.mpr (Finset.mem_range.mp member)
  have ended := (roster.joined _ listed).resolve_left (by simp [joined.2])
  rw [related.done i, rounds.all ended, ended]
  rfl

/-- When all increments are done, the program ends with the value that it has. -/
theorem exists_joined (admits : Admits program.lock) (reached : (system program).Reachable s)
    (related : Related s a) (before : (increments program).Reachable a)
    (finished : LostUpdates.Finished (Finset.range program.writers) program.writeCount a)
    : ∃ final,
        (system program).Reachable final
        ∧ final.Joined
        ∧ final.counter = Int32.ofNat a.value := by
  obtain ⟨actions, final, run, joined⟩ := (inevitable_joined admits reached).exists_exec
  have kept (s : State program.lock.Value) (action : Action) (next : State program.lock.Value)
      (now : (system program).Reachable s ∧ Related s a)
      (taken : (system program).step s action = some next)
      : (system program).Reachable next ∧ Related next a := by
    obtain ⟨reached, related⟩ := now
    obtain ⟨roster, rounds⟩ := inOrder_of_reachable reached
    obtain ⟨a', same | ⟨action', taken'⟩, related'⟩ :=
      related.move roster rounds (.of_step taken)
    · exact ⟨reached.next taken, same ▸ related'⟩
    · have sound := LostUpdates.sound_of_reachable before
      exact absurd taken' (LostUpdates.not_step_of_finished sound finished action')
  obtain ⟨later, still⟩ := System.exec_invariant kept ⟨reached, related⟩ run
  exact ⟨final, later, joined, still.counter⟩

/-- A program leaves exactly the values in the variable that its increments can leave. -/
theorem final_counter_iff (admits : Admits program.lock) (result : Int32)
    : (∃ s, (system program).Reachable s ∧ s.Joined ∧ s.counter = result)
      ↔ ∃ value,
          LostUpdates.least program.writers program.writeCount ≤ value
          ∧ value ≤ program.writers * program.writeCount
          ∧ result = Int32.ofNat value := by
  have bounds := LostUpdates.final_value_iff (Finset.range program.writers) program.writeCount
  rw [Finset.card_range] at bounds
  constructor
  · rintro ⟨s, reached, joined, rfl⟩
    obtain ⟨a, before, related⟩ := exists_related reached
    have finished := finished_of_joined reached related joined
    obtain ⟨atLeast, atMost⟩ := (bounds a.value).mp ⟨a, before, finished, rfl⟩
    exact ⟨a.value, atLeast, atMost, related.counter⟩
  · rintro ⟨value, atLeast, atMost, rfl⟩
    obtain ⟨a, before, finished, rfl⟩ := (bounds value).mpr ⟨atLeast, atMost⟩
    obtain ⟨s, reached, related, _⟩ := exists_parked before
    exact exists_joined admits reached related before finished

/-- With two or more writers of two or more rounds, `rwlock_test_writer_unlock.c` can end with
any value from 2 on up to the one that the locked program always ends with; with fewer it
can lose less. It ends on every schedule.
-/
theorem rwlockTest_final (writers readers writeCount readCount : Nat)
    : (system (rwlockTest writers readers writeCount readCount)).Inevitable
        (fun _ _ => True) State.Joined
        (start (rwlockTest writers readers writeCount readCount))
      ∧ ∀ result,
          (∃ s,
            (system (rwlockTest writers readers writeCount readCount)).Reachable s
            ∧ s.Joined
            ∧ s.counter = result)
          ↔ ∃ value,
              LostUpdates.least writers writeCount ≤ value
              ∧ value ≤ writers * writeCount
              ∧ result = Int32.ofNat value :=
  ⟨inevitable_joined admits_rwLock (.initial rfl), final_counter_iff admits_rwLock⟩

/-- `race_condition_test.c` can print every result from 1 to the number of its threads. -/
theorem addThreadFunc_final (threadCount : Nat) (result : Int32)
    : (∃ s,
        (system (addThreadFunc threadCount)).Reachable s ∧ s.Joined ∧ s.counter = result)
      ↔ ∃ value, min threadCount 1 ≤ value ∧ value ≤ threadCount ∧ result = Int32.ofNat value := by
  have admits : Admits (addThreadFunc threadCount).lock := admits_rwLock
  have bounds := final_counter_iff admits result
  have lowest : LostUpdates.least threadCount 1 = min threadCount 1 := by
    unfold LostUpdates.least
    split <;> omega
  simpa only [addThreadFunc, lowest, Nat.mul_one] using bounds

end LinuxStudy.UnlockedCounter
