import LinuxStudy.Sync.Lock
import LinuxStudy.Transition.Runs

/-! The programs of chapter 4 whose threads use one shared `int` under a lock:
`spinlock_basic_example.c`, `spinlock_simple_demo.c`, `signal_study_define.c` and the
reader-writer programs. The load, the store and the printing of the shared variable are steps
of their own.
-/

namespace LinuxStudy.LockedCounter

open Transition Sync

/-- The threads of a program, by their number. Writers raise the shared variable, readers
only print it.
-/
inductive Thread
  | writer (i : Nat)
  | reader (i : Nat)
  deriving DecidableEq, Repr

/-- Program points of the thread functions. -/
inductive Pc
  | unborn -- before `pthread_create`
  | loop -- the test of the `for` loop
  | acquire -- about to take the lock
  | load -- the load of the shared variable
  | store (loaded : Int32) -- the store of the loaded value plus one
  | print -- a `printf` of the shared variable under the lock
  | release -- about to give the lock back
  | finished
  deriving DecidableEq, Repr

/-- What the programs do differently. `prints` says that a writer prints the variable before
it gives the lock back.
-/
structure Program where
  lock : Lock Thread
  writers : Nat
  readers : Nat
  writeCount : Nat
  readCount : Nat
  prints : Bool
  readersFirst : Bool

/-- The iterations of a thread's loop. -/
def Program.count (program : Program) : Thread → Nat
  | .writer _ => program.writeCount
  | .reader _ => program.readCount

def Program.writerThreads (program : Program) : List Thread :=
  (List.range program.writers).map .writer

def Program.readerThreads (program : Program) : List Thread :=
  (List.range program.readers).map .reader

/-- The threads in the order in which `main` joins them. -/
def Program.threads (program : Program) : List Thread :=
  program.writerThreads ++ program.readerThreads

/-- The threads in the order in which `main` creates them. -/
def Program.creation (program : Program) : List Thread :=
  if program.readersFirst then program.readerThreads ++ program.writerThreads
  else program.writerThreads ++ program.readerThreads

/-- The state of a program. `rounds` is each thread's `i`. `completed` counts the critical
sections of writers, `printed` holds what the writers have printed, and `observed` what each
reader has printed, with the sections completed at that moment.
-/
structure State (Value : Type) where
  lock : Value
  counter : Int32
  pc : Thread → Pc
  rounds : Thread → Nat
  toCreate : List Thread
  toJoin : List Thread
  completed : Nat
  printed : List Int32
  observed : Thread → List (Int32 × Nat)

def State.goto {Value : Type} (s : State Value) (self : Thread) (pc : Pc) : State Value :=
  { s with pc := Function.update s.pc self pc }

/-- `i++` at the end of an iteration. -/
def State.nextRound {Value : Type} (s : State Value) (self : Thread) : State Value :=
  { s with rounds := Function.update s.rounds self (s.rounds self + 1) }

/-- The test of the `for` loop. -/
def loopTest (program : Program) (self : Thread) (s : State program.lock.Value)
    : State program.lock.Value :=
  s.goto self (if s.rounds self < program.count self then .acquire else .finished)

/-- One atomic step of a thread that raises the variable; `none` while it is blocked. -/
def writerThreadFunc (program : Program) (i : Nat) (s : State program.lock.Value)
    : Option (State program.lock.Value) :=
  let self := Thread.writer i
  match s.pc self with
  | .unborn | .finished => none
  | .loop => some (loopTest program self s)
  | .acquire =>
      (program.lock.wrlock self s.lock).map fun lock => { s with lock }.goto self .load
  | .load => some (s.goto self (.store s.counter))
  | .store loaded =>
      some ({ s with counter := loaded + 1 }.goto self
        (if program.prints then .print else .release))
  | .print => some ({ s with printed := s.printed ++ [s.counter] }.goto self .release)
  | .release =>
      some (({ s with
        lock := program.lock.unlock self s.lock
        completed := s.completed + 1 }.nextRound self).goto self .loop)

/-- One atomic step of a thread that only reads; `none` while it is blocked. -/
def readerThreadFunc (program : Program) (i : Nat) (s : State program.lock.Value)
    : Option (State program.lock.Value) :=
  let self := Thread.reader i
  match s.pc self with
  | .unborn | .finished | .load | .store _ => none
  | .loop => some (loopTest program self s)
  | .acquire =>
      (program.lock.rdlock self s.lock).map fun lock => { s with lock }.goto self .print
  | .print =>
      let seen := s.observed self ++ [(s.counter, s.completed)]
      some ({ s with observed := Function.update s.observed self seen }.goto self .release)
  | .release =>
      some (({ s with lock := program.lock.unlock self s.lock }.nextRound self).goto self .loop)

/-- `main` creates its threads one after the other and then joins them. -/
def main {Value : Type} (s : State Value) : Option (State Value) :=
  match s.toCreate, s.toJoin with
  | thread :: rest, _ => some ({ s with toCreate := rest }.goto thread .loop)
  | [], thread :: rest => if s.pc thread = .finished then some { s with toJoin := rest } else none
  | [], [] => none

/-- Who takes the next atomic step. -/
inductive Action
  | main
  | thread (self : Thread)
  deriving DecidableEq, Repr

def step (program : Program) (s : State program.lock.Value)
    : Action → Option (State program.lock.Value)
  | .main => main s
  | .thread (.writer i) => writerThreadFunc program i s
  | .thread (.reader i) => readerThreadFunc program i s

/-- The globals before `main` creates its threads. -/
def start (program : Program) : State program.lock.Value where
  lock := program.lock.initial
  counter := 0
  pc := fun _ => .unborn
  rounds := fun _ => 0
  toCreate := program.creation
  toJoin := program.threads
  completed := 0
  printed := []
  observed := fun _ => []

def system (program : Program) : System (State program.lock.Value) Action where
  Initial s := s = start program
  step := step program

/-- All threads have been joined. -/
def State.Joined {Value : Type} (s : State Value) : Prop := s.toCreate = [] ∧ s.toJoin = []

-----------------------------------------------------------------------------------------
-- The programs
-----------------------------------------------------------------------------------------

/-- `spinlock_worker`: `shared_counter++` under a spin lock. -/
def spinlockWorker (threadCount workCount : Nat) : Program where
  lock := spinLock
  writers := threadCount
  readers := 0
  writeCount := workCount
  readCount := 0
  prints := false
  readersFirst := false

/-- `mutex_worker`: `shared_counter++` under a mutex. -/
def mutexWorker (threadCount workCount : Nat) : Program where
  lock := mutexLock
  writers := threadCount
  readers := 0
  writeCount := workCount
  readCount := 0
  prints := false
  readersFirst := false

/-- `worker_thread`: the new value is printed before the spin lock is given back. -/
def workerThread (threadCount workCount : Nat) : Program where
  lock := spinLock
  writers := threadCount
  readers := 0
  writeCount := workCount
  readCount := 0
  prints := true
  readersFirst := false

/-- `plusOne`: the semaphore starts at 1. The source runs it once in each thread. -/
def plusOne (threadCount workCount : Nat) : Program where
  lock := semaphoreLock
  writers := threadCount
  readers := 0
  writeCount := workCount
  readCount := 0
  prints := false
  readersFirst := false

/-- `rwlock_test2_writer_unlock.c`: the writers are created first. -/
def rwlockTest2 (lock : Lock Thread) (writers readers writeCount readCount : Nat)
    : Program where
  lock := lock
  writers := writers
  readers := readers
  writeCount := writeCount
  readCount := readCount
  prints := true
  readersFirst := false

/-- `rwlock_test3_writer_unlock_hungry.c`: the readers are created first. -/
def rwlockTest3 (lock : Lock Thread) (writers readers writeCount readCount : Nat)
    : Program where
  lock := lock
  writers := writers
  readers := readers
  writeCount := writeCount
  readCount := readCount
  prints := true
  readersFirst := true

end LinuxStudy.LockedCounter
