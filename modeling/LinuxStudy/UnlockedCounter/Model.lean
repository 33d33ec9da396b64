import LinuxStudy.LockedCounter.Model

/-! `race_condition_test.c` and `rwlock_test_writer_unlock.c`: the threads that raise the
shared `int` take no lock. The second program has commented its lock calls out; its readers
still take the reader-writer lock.
-/

namespace LinuxStudy.UnlockedCounter

open Transition Sync LockedCounter

/-- One atomic step of a thread that raises the variable without a lock. -/
def writerThreadFunc (program : Program) (i : Nat) (s : State program.lock.Value)
    : Option (State program.lock.Value) :=
  let self := Thread.writer i
  match s.pc self with
  | .unborn | .finished => none
  | .loop => some (loopTest program self s)
  | .acquire => some (s.goto self .load) -- no `pthread_rwlock_wrlock`
  | .load => some (s.goto self (.store s.counter))
  | .store loaded =>
      some ({ s with counter := loaded + 1 }.goto self
        (if program.prints then .print else .release))
  | .print => some ({ s with printed := s.printed ++ [s.counter] }.goto self .release)
  | .release => -- no `pthread_rwlock_unlock`
      some (({ s with completed := s.completed + 1 }.nextRound self).goto self .loop)

def step (program : Program) (s : State program.lock.Value)
    : Action → Option (State program.lock.Value)
  | .main => main s
  | .thread (.writer i) => writerThreadFunc program i s
  | .thread (.reader i) => readerThreadFunc program i s

def system (program : Program) : System (State program.lock.Value) Action where
  Initial s := s = start program
  step := step program

/-- `race_condition_test.c`: `add_thread_func` adds one to `main`'s `result`. There is no
lock and no reader.
-/
def addThreadFunc (threadCount : Nat) : Program where
  lock := rwLock
  writers := threadCount
  readers := 0
  writeCount := 1
  readCount := 0
  prints := false
  readersFirst := false

/-- `rwlock_test_writer_unlock.c`: the writers print the variable and are created first. -/
def rwlockTest (writers readers writeCount readCount : Nat) : Program where
  lock := rwLock
  writers := writers
  readers := readers
  writeCount := writeCount
  readCount := readCount
  prints := true
  readersFirst := false

end LinuxStudy.UnlockedCounter
