import LinuxStudy.LockedCounter.Model

/-! `rwlock_test3_writer_unlock_hungry.c`, `rwlockattr_solution.c` and
`rwlockattr_comparison.c`: readers and writers under a reader-writer lock of a kind. The
threads are those of the counting programs; what the kind decides is who gets the lock while a
writer waits for it, as the GNU C library decides it.
-/

namespace LinuxStudy.RwlockKinds

open Transition Sync LockedCounter

/-- What `pthread_rwlockattr_setkind_np` sets. -/
inductive Kind
  | preferReader -- `PTHREAD_RWLOCK_PREFER_READER_NP`, the default
  | preferWriter -- `PTHREAD_RWLOCK_PREFER_WRITER_NP`
  | preferWriterNonrecursive -- `PTHREAD_RWLOCK_PREFER_WRITER_NONRECURSIVE_NP`
  deriving DecidableEq, Repr

/-- A reader that finds others reading is held back while a writer waits. `PREFER_WRITER_NP`
does not do that: a thread that reads already could not read once more.
-/
def Kind.holdsReadersBack : Kind → Bool
  | .preferReader | .preferWriter => false
  | .preferWriterNonrecursive => true

/-- A writer that gives the lock back hands it to a writer that waits, if there is one. -/
def Kind.handsOver : Kind → Bool
  | .preferReader => false
  | .preferWriter | .preferWriterNonrecursive => true

/-- The counting program, the writers whose `pthread_rwlock_wrlock` has not returned, and how
many readers have taken the lock since each of them began to wait. While the lock is `promised`
a writer is the next to have it once nobody is inside.
-/
structure State (program : Program) where
  base : LockedCounter.State program.lock.Value
  waiting : List Nat
  promised : Bool
  overtaken : Nat → Nat

/-- No writer is inside the lock. -/
def State.withoutWriter {program : Program} (s : State program) (self : Thread) : Bool :=
  (program.lock.rdlock self s.base.lock).isSome

/-- Nobody is inside the lock. -/
def State.nobodyInside {program : Program} (s : State program) (self : Thread) : Bool :=
  (program.lock.wrlock self s.base.lock).isSome

/-- `pthread_rwlock_rdlock` does not return: the lock is about to go to a writer, or readers
are held back.
-/
def State.heldBack {program : Program} (kind : Kind) (s : State program) (self : Thread) : Bool :=
  (s.promised && s.nobodyInside self) || (kind.holdsReadersBack && !s.waiting.isEmpty)

/-- A writer that gets the lock waits no longer. Which writer gets a promised lock is left open:
one that waits, or one that asks just then.
-/
def writerTakes (kind : Kind) {program : Program} (s : State program) (i : Nat)
    (base : LockedCounter.State program.lock.Value) : State program :=
  match s.base.pc (.writer i) with
  | .acquire => { s with base, waiting := s.waiting.erase i, promised := false }
  | .release => { s with base, promised := kind.handsOver && !s.waiting.isEmpty }
  | _ => { s with base }

/-- A writer that cannot have the lock at once waits for it, until its call returns. If readers
have the lock it has it promised at once; if a writer has it, then when it wakes up and finds
that readers have come first.
-/
def writerWaits {program : Program} (s : State program) (i : Nat) : Option (State program) :=
  if s.base.pc (.writer i) = .acquire then
    if i ∉ s.waiting then
      some { s with
        waiting := i :: s.waiting
        promised := s.promised || s.withoutWriter (.writer i)
        overtaken := Function.update s.overtaken i 0 }
    else if s.promised = false ∧ s.withoutWriter (.writer i) then
      some { s with promised := true }
    else none
  else none

/-- A reader that takes the lock overtakes all writers that wait. -/
def step (kind : Kind) (program : Program) (s : State program) : Action → Option (State program)
  | .main => (LockedCounter.step program s.base .main).map fun base => { s with base }
  | .thread (.writer i) =>
      match LockedCounter.step program s.base (.thread (.writer i)) with
      | some base => some (writerTakes kind s i base)
      | none => writerWaits s i
  | .thread (.reader i) =>
      if s.base.pc (.reader i) = .acquire then
        if s.heldBack kind (.reader i) then none
        else
          (LockedCounter.step program s.base (.thread (.reader i))).map fun base =>
            { s with base, overtaken := fun writer => s.overtaken writer + 1 }
      else
        (LockedCounter.step program s.base (.thread (.reader i))).map fun base => { s with base }

def start (program : Program) : State program where
  base := LockedCounter.start program
  waiting := []
  promised := false
  overtaken := fun _ => 0

def system (kind : Kind) (program : Program) : System (State program) Action where
  Initial s := s = start program
  step := step kind program

-----------------------------------------------------------------------------------------
-- The programs
-----------------------------------------------------------------------------------------

/-- Readers are created before the writers, and both run under the reader-writer lock. -/
def readersFirst (writers readers writeCount readCount : Nat) : Program :=
  rwlockTest3 rwLock writers readers writeCount readCount

/-- `rwlock_test3_writer_unlock_hungry.c`, which sets `PREFER_WRITER_NP`. -/
def hungry : System (State (readersFirst 2 10 5 10)) Action :=
  system .preferWriter (readersFirst 2 10 5 10)

/-- `test_rwlock_attribute` in `rwlockattr_comparison.c`, which `main` calls with all three
kinds, one after the other, and which begins with a new lock and `shared_data` at 0.
-/
def testRwlockAttribute (attrKind : Kind) : System (State (readersFirst 2 8 2 3)) Action :=
  system attrKind (readersFirst 2 8 2 3)

end LinuxStudy.RwlockKinds
