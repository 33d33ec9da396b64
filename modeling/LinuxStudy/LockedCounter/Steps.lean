import LinuxStudy.LockedCounter.Model
import Mathlib.Data.List.Nodup

/-! The steps of the counting programs read as a relation, and the two facts every result
about them rests on: the lock's value keeps account of who stands between acquire and release,
and `main` creates and joins each thread once.
-/

namespace LinuxStudy.LockedCounter

open Transition Sync

/-- Between the acquire and the release. -/
def Pc.inside : Pc → Bool
  | .load | .store _ | .print | .release => true
  | .unborn | .loop | .acquire | .finished => false

/-- Writers take the lock alone, readers share it. -/
def Thread.mode : Thread → Pc → Mode
  | .writer _, pc => if pc.inside then .alone else .outside
  | .reader _, pc => if pc.inside then .sharing else .outside

/-- How each thread is inside the lock. -/
def State.mode {Value : Type} (s : State Value) (thread : Thread) : Mode :=
  thread.mode (s.pc thread)

section Goto

variable {Value : Type} (s : State Value) (self : Thread) (pc : Pc)

@[simp] theorem State.goto_pc_self : (s.goto self pc).pc self = pc := by
  simp [State.goto]

theorem State.goto_pc_ne {thread : Thread} (other : thread ≠ self)
    : (s.goto self pc).pc thread = s.pc thread := by
  simp [State.goto, other]

/-- A step after which one thread stands at another point changes the mode of that thread. -/
theorem State.mode_of_goto {next : State Value} (points : next.pc = (s.goto self pc).pc)
    : next.mode = Function.update s.mode self (self.mode pc) := by
  funext thread
  rw [State.mode, points]
  by_cases mine : thread = self
  · subst mine
    simp
  · simp [State.mode, State.goto_pc_ne, mine]

@[simp] theorem State.goto_rounds : (s.goto self pc).rounds = s.rounds := rfl

@[simp] theorem State.goto_toCreate : (s.goto self pc).toCreate = s.toCreate := rfl

@[simp] theorem State.goto_toJoin : (s.goto self pc).toJoin = s.toJoin := rfl

end Goto

-----------------------------------------------------------------------------------------
-- The steps
-----------------------------------------------------------------------------------------

/-- One step of a thread function, by the statement it executes. -/
inductive ThreadMove (program : Program) (s : State program.lock.Value)
    : Thread → State program.lock.Value → Prop
  | goOn {self} (here : s.pc self = .loop) (more : s.rounds self < program.count self)
    : ThreadMove program s self (s.goto self .acquire)
  | finish {self} (here : s.pc self = .loop) (done : program.count self ≤ s.rounds self)
    : ThreadMove program s self (s.goto self .finished)
  | wrlock {i lock} (here : s.pc (.writer i) = .acquire)
    (granted : program.lock.wrlock (.writer i) s.lock = some lock)
    : ThreadMove program s (.writer i) ({ s with lock }.goto (.writer i) .load)
  | rdlock {i lock} (here : s.pc (.reader i) = .acquire)
    (granted : program.lock.rdlock (.reader i) s.lock = some lock)
    : ThreadMove program s (.reader i) ({ s with lock }.goto (.reader i) .print)
  | load {i} (here : s.pc (.writer i) = .load)
    : ThreadMove program s (.writer i) (s.goto (.writer i) (.store s.counter))
  | store {i loaded} (here : s.pc (.writer i) = .store loaded)
    : ThreadMove program s (.writer i)
        ({ s with counter := loaded + 1 }.goto (.writer i)
          (if program.prints then .print else .release))
  | print {i} (here : s.pc (.writer i) = .print)
    : ThreadMove program s (.writer i)
        ({ s with printed := s.printed ++ [s.counter] }.goto (.writer i) .release)
  | observe {i} (here : s.pc (.reader i) = .print)
    : ThreadMove program s (.reader i)
        ({ s with
          observed := Function.update s.observed (.reader i)
            (s.observed (.reader i) ++ [(s.counter, s.completed)]) }.goto (.reader i) .release)
  | unlock {i} (here : s.pc (.writer i) = .release)
    : ThreadMove program s (.writer i)
        (({ s with
          lock := program.lock.unlock (.writer i) s.lock
          completed := s.completed + 1 }.nextRound (.writer i)).goto (.writer i) .loop)
  | unlockShared {i} (here : s.pc (.reader i) = .release)
    : ThreadMove program s (.reader i)
        (({ s with lock := program.lock.unlock (.reader i) s.lock }.nextRound (.reader i)).goto
          (.reader i) .loop)

/-- One step, of `main` or of a thread. -/
inductive Move (program : Program) (s : State program.lock.Value)
    : State program.lock.Value → Prop
  | create {thread rest} (first : s.toCreate = thread :: rest)
    : Move program s ({ s with toCreate := rest }.goto thread .loop)
  | join {thread rest} (created : s.toCreate = []) (first : s.toJoin = thread :: rest)
    (ended : s.pc thread = .finished)
    : Move program s { s with toJoin := rest }
  | thread {self next} (moves : ThreadMove program s self next) : Move program s next

theorem ThreadMove.of_loopTest {program : Program} {s : State program.lock.Value}
    {self : Thread} (here : s.pc self = .loop)
    : ThreadMove program s self (loopTest program self s) := by
  by_cases more : s.rounds self < program.count self
  · simpa only [loopTest, more, if_true] using .goOn here more
  · simpa only [loopTest, more, if_false] using .finish here (Nat.le_of_not_lt more)

/-- Every step of a writer is one of the statements, by its program point. -/
theorem ThreadMove.of_writer {program : Program} {s next : State program.lock.Value} {i : Nat}
    (taken : writerThreadFunc program i s = some next)
    : ThreadMove program s (.writer i) next := by
  cases here : s.pc (.writer i) <;> simp only [writerThreadFunc, here] at taken
  case unborn | finished => contradiction
  case loop => exact Option.some.inj taken ▸ .of_loopTest here
  case acquire =>
    obtain ⟨lock, granted, same⟩ := Option.map_eq_some_iff.mp taken
    exact same ▸ .wrlock here granted
  case load => exact Option.some.inj taken ▸ .load here
  case store loaded => exact Option.some.inj taken ▸ .store here
  case print => exact Option.some.inj taken ▸ .print here
  case release => exact Option.some.inj taken ▸ .unlock here

/-- Every step of a reader is one of the statements, by its program point. -/
theorem ThreadMove.of_reader {program : Program} {s next : State program.lock.Value} {i : Nat}
    (taken : readerThreadFunc program i s = some next)
    : ThreadMove program s (.reader i) next := by
  cases here : s.pc (.reader i) <;> simp only [readerThreadFunc, here] at taken
  case unborn | finished | load | store loaded => contradiction
  case loop => exact Option.some.inj taken ▸ .of_loopTest here
  case acquire =>
    obtain ⟨lock, granted, same⟩ := Option.map_eq_some_iff.mp taken
    exact same ▸ .rdlock here granted
  case print => exact Option.some.inj taken ▸ .observe here
  case release => exact Option.some.inj taken ▸ .unlockShared here

theorem Move.of_step {program : Program} {s next : State program.lock.Value} {action : Action}
    (taken : step program s action = some next)
    : Move program s next := by
  cases action with
  | main =>
      simp only [step, main] at taken
      split at taken
      next thread rest first => exact Option.some.inj taken ▸ .create first
      next thread rest created first =>
        obtain ⟨ended, same⟩ := Option.ite_none_right_eq_some.mp taken
        exact Option.some.inj same ▸ .join created first ended
      next => contradiction
  | thread self =>
      cases self with
      | writer i => exact .thread (.of_writer taken)
      | reader i => exact .thread (.of_reader taken)

section Frame

variable {program : Program} {s next : State program.lock.Value} {self : Thread}

/-- A thread moves itself only. -/
theorem ThreadMove.pc_ne (moves : ThreadMove program s self next) {thread : Thread}
    (other : thread ≠ self)
    : next.pc thread = s.pc thread := by
  cases moves <;> simp [State.goto_pc_ne, State.nextRound, other]

/-- Only a created thread that has not finished moves, and it stays created. -/
theorem ThreadMove.running (moves : ThreadMove program s self next)
    : s.pc self ≠ .unborn ∧ s.pc self ≠ .finished ∧ next.pc self ≠ .unborn := by
  cases moves with
  | store here => cases program.prints <;> simp [here]
  | _ => simp [*]

theorem ThreadMove.main_eq (moves : ThreadMove program s self next)
    : next.toCreate = s.toCreate ∧ next.toJoin = s.toJoin := by
  cases moves <;> simp [State.nextRound]

end Frame

-----------------------------------------------------------------------------------------
-- The lock
-----------------------------------------------------------------------------------------

/-- The lock's value stands for the threads inside, and a writer is inside alone. -/
structure Guarded (program : Program) (s : State program.lock.Value) : Prop where
  stands : program.lock.Stands s.lock s.mode
  exclusive : Exclusive s.mode

section Guarded

variable {program : Program} {s next : State program.lock.Value}

/-- The mode of a thread, from its program point. -/
theorem State.mode_eq {Value : Type} {s : State Value} {thread : Thread} {pc : Pc}
    (here : s.pc thread = pc)
    : s.mode thread = thread.mode pc := by
  rw [State.mode, here]

/-- A step that moves one thread on its own side of the lock keeps the account. -/
theorem Guarded.of_goto (guarded : Guarded program s) {self : Thread} {pc : Pc}
    (lock : next.lock = s.lock) (points : next.pc = (s.goto self pc).pc)
    (same : self.mode pc = s.mode self)
    : Guarded program next := by
  have mode : next.mode = s.mode := by
    rw [s.mode_of_goto self pc points, same, Function.update_eq_self]
  exact ⟨by rw [lock, mode]; exact guarded.stands, mode ▸ guarded.exclusive⟩

/-- A thread that gives the lock back leaves it to the others. -/
theorem Guarded.leave (guarded : Guarded program s) {self : Thread}
    (lock : next.lock = program.lock.unlock self s.lock)
    (points : next.pc = (s.goto self .loop).pc) (inside : s.mode self ≠ .outside)
    : Guarded program next := by
  have outside : self.mode .loop = .outside := by cases self <;> rfl
  have mode : next.mode = Function.update s.mode self .outside := by
    rw [s.mode_of_goto self .loop points, outside]
  constructor
  · rw [lock, mode]
    exact program.lock.stands_unlock guarded.stands inside
  · rw [mode]
    exact guarded.exclusive.unlock

/-- Every statement of a thread keeps the account, by the law of the lock it uses. -/
theorem Guarded.threadMove (guarded : Guarded program s) {self : Thread}
    (moves : ThreadMove program s self next)
    : Guarded program next := by
  cases moves with
  | goOn here _ | finish here _ =>
      refine guarded.of_goto rfl rfl ?_
      cases self <;> simp [State.mode_eq here, Thread.mode, Pc.inside]
  | @wrlock i lock here granted =>
      have mode : ({ s with lock }.goto (.writer i) .load).mode
          = Function.update s.mode (.writer i) .alone :=
        s.mode_of_goto (.writer i) .load rfl
      constructor
      · rw [mode]
        exact (program.lock.stands_wrlock guarded.stands granted).2
      · rw [mode]
        exact Exclusive.wrlock guarded.stands granted
  | @rdlock i lock here granted =>
      have mode : ({ s with lock }.goto (.reader i) .print).mode
          = Function.update s.mode (.reader i) .sharing :=
        s.mode_of_goto (.reader i) .print rfl
      have outside : s.mode (.reader i) = .outside := State.mode_eq here
      constructor
      · rw [mode]
        exact (program.lock.stands_rdlock guarded.stands outside granted).2
      · rw [mode]
        exact Exclusive.rdlock guarded.stands outside granted
  | load here | print here | observe here =>
      exact guarded.of_goto rfl rfl (by simp [State.mode_eq here, Thread.mode, Pc.inside])
  | store here =>
      refine guarded.of_goto rfl rfl ?_
      cases program.prints <;> simp [State.mode_eq here, Thread.mode, Pc.inside]
  | unlock here | unlockShared here =>
      exact guarded.leave rfl rfl (by simp [State.mode_eq here, Thread.mode, Pc.inside])

end Guarded

-----------------------------------------------------------------------------------------
-- Creation and joining
-----------------------------------------------------------------------------------------

/-- `main` has yet to create exactly the unborn threads, and to join every thread that may
still run.
-/
structure Roster (program : Program) (s : State program.lock.Value) : Prop where
  distinct : s.toCreate.Nodup
  unborn : ∀ thread ∈ s.toCreate, s.pc thread = .unborn
  listed : ∀ thread ∈ s.toCreate, thread ∈ program.threads
  known : ∀ {thread}, s.pc thread ≠ .unborn → thread ∈ program.threads
  born : ∀ thread ∈ program.threads, thread ∈ s.toCreate ∨ s.pc thread ≠ .unborn
  joined : ∀ thread ∈ program.threads, thread ∈ s.toJoin ∨ s.pc thread = .finished
  wanted : ∀ thread ∈ s.toJoin, thread ∈ program.threads

theorem Program.mem_creation {program : Program} {thread : Thread}
    : thread ∈ program.creation ↔ thread ∈ program.threads := by
  unfold Program.creation Program.threads
  split <;> simp only [List.mem_append, or_comm]

theorem Program.nodup_creation (program : Program) : program.creation.Nodup := by
  have writers : program.writerThreads.Nodup :=
    List.nodup_range.map fun _ _ same => Thread.writer.inj same
  have readers : program.readerThreads.Nodup :=
    List.nodup_range.map fun _ _ same => Thread.reader.inj same
  have apart : program.writerThreads.Disjoint program.readerThreads := by
    intro thread writes reads
    obtain ⟨i, _, rfl⟩ := List.mem_map.mp writes
    simp [Program.readerThreads] at reads
  unfold Program.creation
  split
  · exact readers.append writers apart.symm
  · exact writers.append readers apart

theorem Roster.start (program : Program) : Roster program (start program) where
  distinct := program.nodup_creation
  unborn _ _ := rfl
  listed _ := Program.mem_creation.mp
  known born := absurd rfl born
  born _ member := Or.inl (Program.mem_creation.mpr member)
  joined _ member := Or.inl member
  wanted _ member := member

section Roster

variable {program : Program} {s next : State program.lock.Value}

/-- A thread that moves was created and stays so, and a finished thread does not move. -/
theorem Roster.moved (roster : Roster program s) {self : Thread}
    (others : ∀ thread, thread ≠ self → next.pc thread = s.pc thread)
    (running : s.pc self ≠ .unborn ∧ s.pc self ≠ .finished ∧ next.pc self ≠ .unborn)
    (main : next.toCreate = s.toCreate ∧ next.toJoin = s.toJoin)
    : Roster program next := by
  obtain ⟨born, unfinished, still⟩ := running
  obtain ⟨toCreate, toJoin⟩ := main
  constructor
  · rw [toCreate]
    exact roster.distinct
  · rw [toCreate]
    intro thread member
    have different : thread ≠ self := by
      intro same
      exact born (same ▸ roster.unborn thread member)
    rw [others thread different]
    exact roster.unborn thread member
  · rw [toCreate]
    exact roster.listed
  · intro thread created
    by_cases mine : thread = self
    · exact mine ▸ roster.known born
    · rw [others thread mine] at created
      exact roster.known created
  · intro thread member
    rw [toCreate]
    by_cases mine : thread = self
    · exact Or.inr (mine ▸ still)
    · rw [others thread mine]
      exact roster.born thread member
  · intro thread member
    rw [toJoin]
    by_cases mine : thread = self
    · subst mine
      exact Or.inl ((roster.joined thread member).resolve_right unfinished)
    · rw [others thread mine]
      exact roster.joined thread member
  · rw [toJoin]
    exact roster.wanted

theorem Roster.threadMove (roster : Roster program s) {self : Thread}
    (moves : ThreadMove program s self next)
    : Roster program next :=
  roster.moved (fun _ other => moves.pc_ne other) moves.running moves.main_eq

theorem Roster.create (roster : Roster program s) {thread : Thread} {rest : List Thread}
    (first : s.toCreate = thread :: rest)
    : Roster program ({ s with toCreate := rest }.goto thread .loop) := by
  obtain ⟨distinct, unborn, listed, known, born, joined, wanted⟩ := roster
  rw [first] at distinct unborn listed born
  obtain ⟨new, distinct⟩ := List.nodup_cons.mp distinct
  have fresh : s.pc thread = .unborn := unborn thread List.mem_cons_self
  constructor
  · exact distinct
  · intro other member
    have different : other ≠ thread := fun same => new (same ▸ member)
    rw [State.goto_pc_ne _ _ _ different]
    exact unborn other (List.mem_cons_of_mem _ member)
  · exact fun other member => listed other (List.mem_cons_of_mem _ member)
  · intro other created
    by_cases mine : other = thread
    · exact mine ▸ listed thread List.mem_cons_self
    · rw [State.goto_pc_ne _ _ _ mine] at created
      exact known created
  · intro other member
    by_cases mine : other = thread
    · subst mine
      simp
    · rw [State.goto_pc_ne _ _ _ mine]
      exact (born other member).imp_left fun there =>
        (List.mem_cons.mp there).resolve_left mine
  · intro other member
    by_cases mine : other = thread
    · subst mine
      exact Or.inl ((joined other member).resolve_right (by simp [fresh]))
    · rw [State.goto_pc_ne _ _ _ mine]
      exact joined other member
  · exact wanted

theorem Roster.join (roster : Roster program s) {thread : Thread} {rest : List Thread}
    (first : s.toJoin = thread :: rest) (ended : s.pc thread = .finished)
    : Roster program { s with toJoin := rest } := by
  refine { roster with joined := fun other member => ?_, wanted := fun other member => ?_ }
  · by_cases mine : other = thread
    · exact Or.inr (mine ▸ ended)
    · refine (roster.joined other member).imp_left fun there => ?_
      rw [first] at there
      exact (List.mem_cons.mp there).resolve_left mine
  · exact roster.wanted other (first ▸ List.mem_cons_of_mem _ member)

/-- Creating a thread leaves the lock alone. -/
theorem Guarded.create (guarded : Guarded program s) (roster : Roster program s)
    {thread : Thread} {rest : List Thread} (first : s.toCreate = thread :: rest)
    : Guarded program ({ s with toCreate := rest }.goto thread .loop) := by
  have fresh := roster.unborn thread (first ▸ List.mem_cons_self)
  refine guarded.of_goto rfl rfl ?_
  cases thread <;> simp [State.mode_eq fresh, Thread.mode, Pc.inside]

end Roster

/-- In every reachable state the lock is in order and `main` keeps account of its threads. -/
theorem inOrder_of_reachable {program : Program} {s : State program.lock.Value}
    (reached : (system program).Reachable s)
    : Guarded program s ∧ Roster program s := by
  apply reached.invariant
  · intro _ same
    subst same
    have outside : (start program).mode = fun _ => .outside := by
      funext thread
      cases thread <;> rfl
    refine ⟨⟨?_, ?_⟩, Roster.start program⟩
    · rw [outside]
      exact program.lock.stands_initial
    · rw [outside]
      exact fun _ _ inside _ => absurd inside (by simp)
  · intro s action next ⟨guarded, roster⟩ taken
    cases Move.of_step taken with
    | create first => exact ⟨guarded.create roster first, roster.create first⟩
    | join _ first ended => exact ⟨⟨guarded.stands, guarded.exclusive⟩, roster.join first ended⟩
    | thread moves => exact ⟨guarded.threadMove moves, roster.threadMove moves⟩

end LinuxStudy.LockedCounter
