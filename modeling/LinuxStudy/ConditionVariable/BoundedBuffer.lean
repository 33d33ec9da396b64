import LinuxStudy.ConditionVariable.MutualExclusion

/-! The bounded buffer of `condition_variable.c` is a stack: it lists the produced and not
yet consumed items in production order, under every interleaving of the two threads.
-/

namespace LinuxStudy.ConditionVariable

open Transition Histories

/-- `buffer[0..count)` -/
def State.stored (s : State) : List Nat := s.buffer.take s.count.toNat

/-- The produced and not yet consumed items after a history, in production order. -/
def unconsumed (history : List (Event Nat)) : List Nat :=
  (pushes history).filter (· ∉ pops history)

/-- The access a thread is about to make fits the stack of the history so far. -/
def Worker.Fits (self : Worker) (stack : List Nat) (count index : Int) : Prop :=
  match self with
  | .producer =>
      stack.length < bufferSize ∧ index = stack.length ∧ count = stack.length + 1
  | .consumer => index + 1 = stack.length ∧ 0 ≤ index ∧ count = index

/-- What a thread at this program point knows about `count` and the flag. -/
def Knows (s : State) (self : Worker) : Pc → Prop
  | .checkExit => s.shouldExit = true ∨ self.role.blocked s.count = false
  | .loadCount => self.role.blocked s.count = false
  | .storeCount loaded => loaded = s.count ∧ self.role.blocked s.count = false
  | .touchCell index => self.Fits (stackOf s.history) s.count index
  | _ => True

def Pc.touching : Pc → Bool
  | .touchCell _ => true
  | _ => false

/-- The cells below the stack's length hold the stack, and outside the two statements that
move an item `count` is that length.
-/
structure Buffered (s : State) : Prop where
  size : s.buffer.length = bufferSize
  bounded : (stackOf s.history).length ≤ bufferSize
  cells : s.buffer.take (stackOf s.history).length = stackOf s.history
  settled
    : (∀ worker, (s.pc worker).touching = false)
      → s.count = (stackOf s.history).length
  knows : ∀ worker, Knows s worker (s.pc worker)
  disciplined : LastInFirstOut s.history
  produced : pushes s.history = List.range s.item
  inside : ∀ index ∈ s.accesses, 0 ≤ index ∧ index < bufferSize

/-- A program point outside the critical section knows nothing. -/
theorem knows_of_outside (s : State) (self : Worker) {pc : Pc} (outside : pc.holding = false)
    : Knows s self pc := by
  cases pc <;> simp_all [Pc.holding, Knows]

theorem touching_of_outside {pc : Pc} (outside : pc.holding = false)
    : pc.touching = false := by
  cases pc <;> simp_all [Pc.holding, Pc.touching]

/-- A thread that moves a program point without touching the data keeps the invariant, if it
knows what its new point requires.
-/
theorem Buffered.goto {s : State} (buffered : Buffered s) {self : Worker} {target : Pc}
    (leaves : (s.pc self).touching = false) (arrives : target.touching = false)
    (known : Knows s self target)
    : Buffered (s.goto self target) where
  size := buffered.size
  bounded := buffered.bounded
  cells := buffered.cells
  settled calm := buffered.settled fun worker => by
    by_cases mine : worker = self
    · exact mine ▸ leaves
    · simpa only [s.goto_pc_ne target mine] using calm worker
  knows worker := by
    by_cases mine : worker = self
    · subst mine
      rw [State.goto_pc_self]
      cases target <;> exact known
    · rw [s.goto_pc_ne target mine]
      have kept := buffered.knows worker
      revert kept
      cases s.pc worker <;> exact id
  disciplined := buffered.disciplined
  produced := buffered.produced
  inside := buffered.inside

/-- The mutex and `main`'s program point do not matter to the buffer. -/
theorem Buffered.mutex {s : State} (buffered : Buffered s) (mutex : Option Worker)
    : Buffered { s with mutex } :=
  { buffered with }

theorem Buffered.wake {s : State} (buffered : Buffered s) (woken : Worker)
    : Buffered (s.wake woken) := by
  unfold State.wake
  split
  next sleeping => exact buffered.goto (by simp [sleeping, Pc.touching]) rfl trivial
  next => exact buffered

-----------------------------------------------------------------------------------------
-- The two statements that move an item
-----------------------------------------------------------------------------------------

/-- Outside every critical section but one's own, nobody touches the buffer. -/
theorem Owned.calm {s : State} (owned : Owned s) {self : Worker}
    (inside : (s.pc self).holding = true) (still : (s.pc self).touching = false)
    (worker : Worker)
    : (s.pc worker).touching = false := by
  by_cases mine : worker = self
  · exact mine ▸ still
  · exact touching_of_outside (owned.other_outside inside mine)

/-- The store to `count` announces the access that follows it, by the test passed before.
-/
theorem Worker.fits_of_ready (self : Worker) {stack : List Nat} {count : Int}
    (bounded : stack.length ≤ bufferSize) (settled : count = stack.length)
    (ready : self.role.blocked count = false)
    : self.Fits stack (self.role.newCount count) (self.role.index count) := by
  cases self with
  | producer =>
      have room : count ≠ bufferSize := by simpa [Worker.role, producerRole] using ready
      have below : stack.length < bufferSize :=
        Nat.lt_of_le_of_ne bounded fun full => room (by rw [settled, full])
      exact ⟨below, settled, by simp [Worker.role, producerRole, settled]⟩
  | consumer =>
      have some : count ≠ 0 := by simpa [Worker.role, consumerRole] using ready
      simp only [Worker.Fits, Worker.role, consumerRole]
      exact ⟨by omega, by omega, trivial⟩

theorem Buffered.stores {s : State} (buffered : Buffered s) (owned : Owned s)
    {self : Worker} {loaded : Int} (here : s.pc self = .storeCount loaded)
    : Buffered ({ s with count := self.role.newCount loaded }.goto self
        (.touchCell (self.role.index loaded))) := by
  have inside : (s.pc self).holding = true := by simp [here, Pc.holding]
  have known : loaded = s.count ∧ self.role.blocked s.count = false := by
    simpa only [here, Knows] using buffered.knows self
  have settled := buffered.settled (owned.calm inside (by simp [here, Pc.touching]))
  refine { buffered with settled := ?_, knows := ?_ }
  · intro calm
    simpa [Pc.touching] using calm self
  · intro worker
    by_cases mine : worker = self
    · subst mine
      rw [State.goto_pc_self, known.1]
      exact worker.fits_of_ready buffered.bounded settled known.2
    · rw [State.goto_pc_ne _ _ mine]
      exact knows_of_outside _ _ (owned.other_outside inside mine)

/-- Writing the cell after the stack puts the item on top of it. -/
theorem take_set_append (buffer : List Nat) (index : Nat) (item : Nat)
    (bound : index < buffer.length)
    : (buffer.set index item).take (index + 1) = buffer.take index ++ [item] := by
  rw [List.take_add_one, List.take_set_of_le (Nat.le_refl index)]
  simp [bound]

/-- An access leaves the thread at its signal, where it knows nothing; so the data of the
invariant decide.
-/
theorem Buffered.of_access {s : State} (next : State) {self : Worker} {index : Int}
    (buffered : Buffered s) (owned : Owned s) (here : s.pc self = .touchCell index)
    (pc_eq : next.pc = s.pc) (accesses_eq : next.accesses = s.accesses ++ [index])
    (size : next.buffer.length = bufferSize)
    (bounded : (stackOf next.history).length ≤ bufferSize)
    (cells : next.buffer.take (stackOf next.history).length = stackOf next.history)
    (settled : next.count = (stackOf next.history).length)
    (disciplined : LastInFirstOut next.history)
    (produced : pushes next.history = List.range next.item)
    (inside : 0 ≤ index ∧ index < bufferSize)
    : Buffered (next.goto self .signal) where
  size := size
  bounded := bounded
  cells := cells
  settled _ := settled
  knows worker := by
    by_cases mine : worker = self
    · subst mine
      rw [State.goto_pc_self]
      trivial
    · rw [State.goto_pc_ne _ _ mine, pc_eq]
      exact knows_of_outside _ _ (owned.other_outside (by simp [here, Pc.holding]) mine)
  disciplined := disciplined
  produced := produced
  inside used member := by
    rcases List.mem_append.mp (accesses_eq ▸ member) with earlier | now
    · exact buffered.inside used earlier
    · exact List.mem_singleton.mp now ▸ inside

/-- `buffer[count++] = item++` pushes the next item. -/
theorem Buffered.produces {s : State} (buffered : Buffered s) (owned : Owned s)
    {index : Int} (here : s.pc .producer = .touchCell index)
    : Buffered ((producerRole.access s index).goto .producer .signal) := by
  have fits : Worker.producer.Fits (stackOf s.history) s.count index := by
    simpa only [here, Knows] using buffered.knows .producer
  obtain ⟨room, rfl, counted⟩ := fits
  have bound : (stackOf s.history).length < s.buffer.length := buffered.size ▸ room
  apply Buffered.of_access (producerRole.access s _) buffered owned here rfl rfl
  · simpa [producerRole] using buffered.size
  · simpa [producerRole] using Nat.succ_le_of_lt room
  · simp [producerRole, take_set_append _ _ _ bound, buffered.cells]
  · simp [producerRole, counted]
  · exact buffered.disciplined.push
  · simp [producerRole, buffered.produced, List.range_succ]
  · omega

/-- `buffer[--count]` pops the top of the stack. -/
theorem Buffered.consumes {s : State} (buffered : Buffered s) (owned : Owned s)
    {index : Int} (here : s.pc .consumer = .touchCell index)
    : Buffered ((consumerRole.access s index).goto .consumer .signal) := by
  have fits : Worker.consumer.Fits (stackOf s.history) s.count index := by
    simpa only [here, Knows] using buffered.knows .consumer
  obtain ⟨length, nonneg, counted⟩ := fits
  obtain ⟨top, rfl⟩ := Int.eq_ofNat_of_zero_le nonneg
  have height : (stackOf s.history).length = top + 1 := by omega
  have stack : stackOf s.history = s.buffer.take top ++ [s.buffer.getD top 0] := by
    have bound : top < s.buffer.length := by
      have size := buffered.size
      have bounded := buffered.bounded
      omega
    rw [← buffered.cells, height, List.take_add_one]
    simp [bound]
  have below : (stackOf s.history).dropLast = s.buffer.take top := by simp [stack]
  have short : top ≤ s.buffer.length := by
    have size := buffered.size
    have bounded := buffered.bounded
    omega
  apply Buffered.of_access (consumerRole.access s _) buffered owned here rfl rfl
  · simpa [consumerRole] using buffered.size
  · simp only [consumerRole, stackOf_popped, List.length_dropLast]
    have bounded := buffered.bounded
    omega
  · simp [consumerRole, below, short]
  · simp [consumerRole, counted, height]
  · exact buffered.disciplined.pop (by simp [stack])
  · simpa [consumerRole] using buffered.produced
  · have bounded := buffered.bounded
    omega

-----------------------------------------------------------------------------------------
-- Every step of every run
-----------------------------------------------------------------------------------------

/-- A move brings along what its target requires, from what the thread has just loaded. -/
theorem Moves.knows {s : State} {self : Worker} {source target : Pc}
    (along : Moves s self source target) (known : Knows s self source)
    : Knows s self target := by
  cases along with
  | leaveLoop _ | enterLoop _ | findBlocked _ | startWaiting _ | giveUp _ => trivial
  | findReady ready => exact Or.inr ready
  | stopWaiting exit => exact Or.inl exit
  | goOn stay => exact known.resolve_left (by simp [stay])
  | load => exact ⟨rfl, known⟩

theorem Moves.touching {s : State} {self : Worker} {source target : Pc}
    (along : Moves s self source target)
    : source.touching = false ∧ target.touching = false := by
  cases along <;> exact ⟨rfl, rfl⟩

theorem Buffered.threadStep {s next : State} {self : Worker} (buffered : Buffered s)
    (owned : Owned s) (taken : ThreadStep s self next)
    : Buffered next := by
  cases taken with
  | moves along =>
      have apart := along.touching
      exact buffered.goto apart.1 apart.2 (along.knows (buffered.knows self))
  | acquires queued _ =>
      have outside : (s.pc self).holding = false := by
        rcases queued with here | here <;> simp [here, Pc.holding]
      exact (buffered.mutex _).goto (touching_of_outside outside) rfl trivial
  | releases along =>
      have apart : (s.pc self).touching = false := by
        generalize s.pc self = source at along
        cases along <;> rfl
      exact (buffered.mutex _).goto apart (touching_of_outside along.outside)
        (knows_of_outside _ _ along.outside)
  | stores here => exact buffered.stores owned here
  | touches here =>
      cases self with
      | producer => exact buffered.produces owned here
      | consumer => exact buffered.consumes owned here
  | signals here =>
      refine (buffered.wake self.other).goto ?_ rfl trivial
      rcases s.wake_pc self.other self with same | ⟨sleeping, _⟩
      · simp [same, here, Pc.touching]
      · simp [here] at sleeping

/-- Setting the flag takes nothing away from what the threads know. -/
theorem Buffered.setExit {s : State} (buffered : Buffered s) (main : MainPc)
    : Buffered { s with main, shouldExit := true } where
  __ := buffered
  knows worker := by
    have kept := buffered.knows worker
    revert kept
    cases s.pc worker <;> simp_all [Knows]

/-- `main` starts threads, sets the flag and wakes; the buffer is not its business. -/
theorem Buffered.main {s next : State} (buffered : Buffered s) (unborn : Unborn s)
    (taken : main s = some next)
    : Buffered next := by
  have moved (main : MainPc) : Buffered { s with main } := { buffered with }
  cases here : s.main <;> simp only [ConditionVariable.main, here] at taken
  case createProducer =>
    obtain rfl := Option.some.inj taken
    exact (moved _).goto (by simp [unborn.producer.mpr here, Pc.touching]) rfl trivial
  case createConsumer =>
    obtain rfl := Option.some.inj taken
    exact (moved _).goto (by simp [unborn.consumer.mpr (Or.inr here), Pc.touching]) rfl
      trivial
  case sleeping => exact Option.some.inj taken ▸ buffered.setExit _
  case broadcasting => exact Option.some.inj taken ▸ ((moved _).wake _).wake _
  case joinProducer | joinConsumer =>
    obtain ⟨_, same⟩ := Option.ite_none_right_eq_some.mp taken
    exact Option.some.inj same ▸ moved _
  case exited => contradiction

/-- The invariant holds in every reachable state, spurious wake-ups included. -/
theorem buffered_of_reachable {s : State} (reached : system.Reachable s) : Buffered s := by
  refine System.ReachableBy.invariant ?_ ?_ reached
  · intro _ same
    subst same
    refine ⟨rfl, Nat.zero_le _, rfl, fun _ => rfl, fun _ => trivial, .nil, rfl, ?_⟩
    simp [start]
  · intro s action next before buffered _ taken
    obtain ⟨owned, unborn⟩ := owned_of_reachable before
    cases action with
    | main => exact buffered.main unborn taken
    | worker self =>
        exact buffered.threadStep owned
          (.of_threadFunc ((step_worker s self).symm.trans taken))
    | spurious self =>
        obtain ⟨sleeping, same⟩ := Option.ite_none_right_eq_some.mp taken
        obtain rfl := Option.some.inj same
        exact buffered.goto (by simp [sleeping, Pc.touching]) rfl trivial

-----------------------------------------------------------------------------------------
-- The bounded buffer
-----------------------------------------------------------------------------------------

/-- While the mutex is free nobody stands between the store to `count` and its access. -/
theorem Buffered.stored_eq {s : State} (buffered : Buffered s) (owned : Owned s)
    (free : s.mutex = none)
    : s.count = (stackOf s.history).length ∧ s.stored = stackOf s.history := by
  have calm : ∀ worker, (s.pc worker).touching = false := by
    intro worker
    apply touching_of_outside
    by_contra inside
    have held := (owned worker).mpr (by simpa using inside)
    simp [free] at held
  have counted := buffered.settled calm
  refine ⟨counted, ?_⟩
  rw [State.stored, counted, Int.toNat_natCast, buffered.cells]

/-- The items are pushed in increasing order, so they are distinct. -/
theorem Buffered.distinct {s : State} (buffered : Buffered s) : (pushes s.history).Nodup := by
  rw [buffered.produced]
  exact List.nodup_range

/-- The bounded buffer of `condition_variable.c`, in every reachable state: all accesses
stay inside the array; while the mutex is free, `buffer[0..count)` lists the produced and
not yet consumed items in increasing order and accounts, together with the consumed ones,
for exactly the items produced; and every consumption returned the newest unconsumed item.
-/
theorem boundedBuffer {s : State} (reached : system.Reachable s)
    : (∀ index ∈ s.accesses, 0 ≤ index ∧ index < bufferSize)
      ∧ (s.mutex = none
          → 0 ≤ s.count
            ∧ s.count ≤ bufferSize
            ∧ s.stored = unconsumed s.history
            ∧ s.stored.Pairwise (· < ·)
            ∧ (pops s.history ++ s.stored).Perm (List.range s.item))
      ∧ (∀ before item after,
          s.history = before ++ .popped item :: after
          → (unconsumed before).getLast? = some item) := by
  have buffered := buffered_of_reachable reached
  obtain ⟨owned, _⟩ := owned_of_reachable reached
  refine ⟨buffered.inside, fun free => ?_, fun before item after split => ?_⟩
  · obtain ⟨counted, stored⟩ := buffered.stored_eq owned free
    have bounded := buffered.bounded
    rw [stored]
    refine ⟨by omega, by omega, ?_, ?_, ?_⟩
    · exact buffered.disciplined.stack_eq_filter buffered.distinct
    · have ordered : (pushes s.history).Pairwise (· < ·) :=
        buffered.produced ▸ List.pairwise_lt_range
      exact ordered.sublist buffered.disciplined.stack_sublist
    · exact buffered.produced ▸ buffered.disciplined.accounted
  · exact LastInFirstOut.pop_newest (split ▸ buffered.disciplined)
      (split ▸ buffered.distinct)

/-- Both threads start, the producer stores item 0 and the consumer takes it. -/
def oneItem : List Action :=
  [.main, .main] ++ List.replicate 9 (.worker .producer)
    ++ List.replicate 9 (.worker .consumer)

/-- After one item has passed through the buffer, the buffer is empty again. -/
theorem boundedBuffer_oneItem
    : ∃ s : State, s.mutex = none ∧ s.item = 1 ∧ s.history = [.pushed 0, .popped 0]
        ∧ s.stored = unconsumed s.history := by
  have reached : system.Reachable _ := System.reachable_of_run start rfl oneItem rfl
  exact ⟨_, rfl, rfl, rfl, ((boundedBuffer reached).2.1 rfl).2.2.1⟩

end LinuxStudy.ConditionVariable
