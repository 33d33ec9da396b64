import LinuxStudy.Sync.Semaphore
import Mathlib.Data.Finset.Card
import Mathlib.Logic.Function.Basic

/-! Locks as the threads that use them see them: one thread inside alone, or any number of
threads that share. A lock brings the proof that its value keeps account of who is inside.
-/

namespace LinuxStudy.Sync

/-- How a thread is inside a lock. -/
inductive Mode
  | outside
  | alone
  | sharing
  deriving DecidableEq, Repr

/-- A lock with an exclusive and a shared mode. `Stands value mode` says that the value is the
one of a lock that these threads have entered.
-/
structure Lock (Thread : Type) [DecidableEq Thread] where
  Value : Type
  initial : Value
  wrlock : Thread → Value → Option Value
  rdlock : Thread → Value → Option Value
  unlock : Thread → Value → Value
  Stands : Value → (Thread → Mode) → Prop
  stands_initial : Stands initial fun _ => .outside
  stands_wrlock
    : ∀ {thread value next mode},
        Stands value mode
        → wrlock thread value = some next
        → (∀ other, mode other = .outside) ∧ Stands next (Function.update mode thread .alone)
  stands_rdlock
    : ∀ {thread value next mode},
        Stands value mode
        → mode thread = .outside
        → rdlock thread value = some next
        → (∀ other, mode other ≠ .alone)
          ∧ Stands next (Function.update mode thread .sharing)
  stands_unlock
    : ∀ {thread value mode},
        Stands value mode
        → mode thread ≠ .outside
        → Stands (unlock thread value) (Function.update mode thread .outside)

/-- Whoever is inside alone has no other thread inside. -/
def Exclusive {Thread : Type} (mode : Thread → Mode) : Prop :=
  ∀ thread other, mode thread = .alone → other ≠ thread → mode other = .outside

section Exclusive

variable {Thread : Type} [DecidableEq Thread] {lock : Lock Thread} {thread : Thread}
  {value next : lock.Value} {mode : Thread → Mode}

/-- The thread that takes the lock alone finds nobody inside. -/
theorem Exclusive.wrlock (stands : lock.Stands value mode)
    (taken : lock.wrlock thread value = some next)
    : Exclusive (Function.update mode thread .alone) := by
  obtain ⟨empty, _⟩ := lock.stands_wrlock stands taken
  intro one two inside different
  by_cases mine : one = thread
  · subst mine
    simp [different, empty]
  · simp [mine, empty] at inside

/-- A thread that enters to share finds nobody inside alone. -/
theorem Exclusive.rdlock (stands : lock.Stands value mode) (outside : mode thread = .outside)
    (taken : lock.rdlock thread value = some next)
    : Exclusive (Function.update mode thread .sharing) := by
  obtain ⟨shared, _⟩ := lock.stands_rdlock stands outside taken
  intro one two inside different
  by_cases mine : one = thread
  · subst mine
    simp at inside
  · simp [mine, shared] at inside

/-- A thread that leaves disturbs nobody. -/
theorem Exclusive.unlock (exclusive : Exclusive mode)
    : Exclusive (Function.update mode thread .outside) := by
  intro one two inside different
  by_cases mine : one = thread
  · subst mine
    simp at inside
  · rw [Function.update_of_ne mine] at inside
    by_cases theirs : two = thread
    · simp [theirs]
    · rw [Function.update_of_ne theirs]
      exact exclusive one two inside different

end Exclusive

-----------------------------------------------------------------------------------------
-- Locks without a shared mode
-----------------------------------------------------------------------------------------

section Binary

variable {Thread : Type} [DecidableEq Thread] {Value : Type}

/-- The value of a lock that is free or taken by one thread. -/
def BinaryStands (free : Value) (taken : Thread → Value) (value : Value)
    (mode : Thread → Mode) : Prop :=
  (value = free ∧ ∀ thread, mode thread = .outside)
  ∨ ∃ owner,
      value = taken owner
      ∧ mode owner = .alone
      ∧ ∀ other, other ≠ owner → mode other = .outside

/-- A lock whose value is `free`, or `taken` by the one thread inside. -/
def Lock.binary (free : Value) (taken : Thread → Value)
    (acquire : Thread → Value → Option Value) (release : Thread → Value → Value)
    (acquire_free : ∀ thread, acquire thread free = some (taken thread))
    (acquire_taken : ∀ thread owner, acquire thread (taken owner) = none)
    (release_taken : ∀ thread, release thread (taken thread) = free) : Lock Thread where
  Value := Value
  initial := free
  wrlock := acquire
  rdlock _ _ := none
  unlock := release
  Stands := BinaryStands free taken
  stands_initial := Or.inl ⟨rfl, fun _ => rfl⟩
  stands_wrlock := by
    intro thread value next mode stands entered
    rcases stands with ⟨rfl, empty⟩ | ⟨owner, rfl, _⟩
    · rw [acquire_free] at entered
      obtain rfl := Option.some.inj entered
      refine ⟨empty, Or.inr ⟨thread, rfl, by simp, fun other different => ?_⟩⟩
      simp [different, empty]
    · simp [acquire_taken] at entered
  stands_rdlock := by
    intro _ _ _ _ _ _ entered
    contradiction
  stands_unlock := by
    intro thread value mode stands inside
    rcases stands with ⟨_, empty⟩ | ⟨owner, rfl, _, others⟩
    · exact absurd (empty thread) inside
    · obtain rfl : thread = owner := by
        by_contra different
        exact inside (others thread different)
      refine Or.inl ⟨release_taken thread, fun other => ?_⟩
      by_cases mine : other = thread
      · simp [mine]
      · simp [mine, others]

/-- `pthread_spin_lock` on a word that is set while the lock is taken. -/
def spinLock : Lock Thread :=
  Lock.binary false (fun _ => true) (fun _ held => if held then none else some true)
    (fun _ _ => false) (fun _ => rfl) (fun _ _ => rfl) (fun _ => rfl)

/-- `pthread_mutex_lock` on a mutex that records its owner. -/
def mutexLock : Lock Thread :=
  Lock.binary none some (fun thread owner => match owner with
      | none => some (some thread)
      | some _ => none)
    (fun _ _ => none) (fun _ => rfl) (fun _ _ => rfl) (fun _ => rfl)

/-- A semaphore that starts at 1. -/
def semaphoreLock : Lock Thread :=
  Lock.binary 1 (fun _ => 0) (fun _ value => semWait value) (fun _ value => semPost value)
    (fun _ => rfl) (fun _ _ => rfl) (fun _ => rfl)

end Binary

-----------------------------------------------------------------------------------------
-- The reader-writer lock
-----------------------------------------------------------------------------------------

/-- A reader-writer lock counts its readers and knows whether a writer is inside. -/
structure RwValue where
  readers : Nat
  writer : Bool
  deriving DecidableEq, Repr

section ReaderWriter

variable {Thread : Type}

/-- The threads that share are as many as the lock has counted. -/
def RwValue.Stands (value : RwValue) (mode : Thread → Mode) : Prop :=
  (∃ inside : Finset Thread,
    (∀ thread, thread ∈ inside ↔ mode thread = .sharing) ∧ inside.card = value.readers)
  ∧ if value.writer then
      ∃ owner, mode owner = .alone ∧ ∀ other, other ≠ owner → mode other = .outside
    else ∀ thread, mode thread ≠ .alone

/-- With no reader counted nobody shares. -/
theorem RwValue.Stands.no_reader {value : RwValue} {mode : Thread → Mode}
    (stands : value.Stands mode) (none : value.readers = 0) (thread : Thread)
    : mode thread ≠ .sharing := by
  obtain ⟨⟨inside, same, count⟩, _⟩ := stands
  rw [none, Finset.card_eq_zero] at count
  intro shares
  have member := (same thread).mpr shares
  simp [count] at member

variable [DecidableEq Thread]

/-- Without a writer the lock admits one more reader. -/
theorem RwValue.Stands.rdlock {value : RwValue} {mode : Thread → Mode} {thread : Thread}
    (stands : value.Stands mode) (outside : mode thread = .outside)
    (free : value.writer = false)
    : RwValue.Stands { value with readers := value.readers + 1 }
        (Function.update mode thread .sharing) := by
  obtain ⟨⟨inside, same, count⟩, rest⟩ := stands
  have new : thread ∉ inside := by simp [same, outside]
  simp only [free] at rest
  refine ⟨⟨insert thread inside, fun other => ?_, ?_⟩, ?_⟩
  · by_cases mine : other = thread <;> simp [mine, same]
  · rw [Finset.card_insert_of_notMem new, count]
  · simp only [free]
    intro other
    by_cases mine : other = thread
    · simp [mine]
    · simpa [mine] using rest other

/-- A thread that leaves takes its share of the count with it. -/
theorem RwValue.Stands.leave {value : RwValue} {mode : Thread → Mode} {thread : Thread}
    (stands : value.Stands mode) (shares : mode thread = .sharing)
    (free : value.writer = false)
    : RwValue.Stands { value with readers := value.readers - 1 }
        (Function.update mode thread .outside) := by
  obtain ⟨⟨inside, same, count⟩, rest⟩ := stands
  have member : thread ∈ inside := (same thread).mpr shares
  simp only [free] at rest
  refine ⟨⟨inside.erase thread, fun other => ?_, ?_⟩, ?_⟩
  · by_cases mine : other = thread <;> simp [mine, same]
  · rw [Finset.card_erase_of_mem member, count]
  · simp only [free]
    intro other
    by_cases mine : other = thread
    · simp [mine]
    · simpa [mine] using rest other

/-- `pthread_rwlock_wrlock` waits for everybody, `pthread_rwlock_rdlock` for a writer. -/
def rwLock : Lock Thread where
  Value := RwValue
  initial := ⟨0, false⟩
  wrlock _ value :=
    if value.writer = false ∧ value.readers = 0 then some { value with writer := true } else none
  rdlock _ value :=
    if value.writer = false then some { value with readers := value.readers + 1 } else none
  unlock _ value :=
    if value.writer then { value with writer := false }
    else { value with readers := value.readers - 1 }
  Stands := RwValue.Stands
  stands_initial := ⟨⟨∅, by simp, rfl⟩, by simp⟩
  stands_wrlock := by
    intro thread value next mode stands entered
    obtain ⟨⟨free, none⟩, same⟩ := Option.ite_none_right_eq_some.mp entered
    obtain rfl := Option.some.inj same
    have alone : ∀ other, mode other ≠ .alone := by simpa [free] using stands.2
    have empty (other : Thread) : mode other = .outside := by
      have shares := stands.no_reader none other
      cases here : mode other <;> simp_all
    refine ⟨empty, ⟨∅, fun other => ?_, none.symm⟩, thread, by simp, fun other different => ?_⟩
    · by_cases mine : other = thread <;> simp [mine, empty]
    · simp [different, empty]
  stands_rdlock := by
    intro thread value next mode stands outside entered
    obtain ⟨free, same⟩ := Option.ite_none_right_eq_some.mp entered
    obtain rfl := Option.some.inj same
    exact ⟨by simpa [free] using stands.2, stands.rdlock outside free⟩
  stands_unlock := by
    intro thread value mode stands inside
    cases busy : value.writer with
    | true =>
        obtain ⟨⟨set, same, count⟩, owner⟩ := stands
        simp only [busy, if_true] at owner ⊢
        obtain ⟨owner, _, others⟩ := owner
        obtain rfl : thread = owner := by
          by_contra different
          exact inside (others thread different)
        refine ⟨⟨set, fun other => ?_, count⟩, ?_⟩
        · by_cases mine : other = thread
          · subst mine
            simp_all
          · simp [mine, same]
        · simp only [Bool.false_eq_true, if_false]
          intro other
          by_cases mine : other = thread
          · simp [mine]
          · simp [mine, others]
    | false =>
        have alone : mode thread ≠ .alone := by
          have rest := stands.2
          simp only [busy, Bool.false_eq_true, if_false] at rest
          exact rest thread
        have shares : mode thread = .sharing := by
          cases here : mode thread <;> simp_all
        simpa [busy] using stands.leave shares busy

end ReaderWriter

end LinuxStudy.Sync
