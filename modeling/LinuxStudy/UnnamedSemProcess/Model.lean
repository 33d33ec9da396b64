import LinuxStudy.Sync.NamedSemaphore
import LinuxStudy.Transition.Relaunch

/-! `unnamed_sem_bin_process.c`: a parent and its child raise an `int` in shared memory under a
semaphore in shared memory. Both objects have names that outlive the processes, but every
launch stores 0 and initializes the semaphore anew.
-/

namespace LinuxStudy.UnnamedSemProcess

open Transition Posix Sync

def shmValueName : String := "/unnamed_sem_bin_process_condition"

def semValueName : String := "/unnamed_sem_bin_process"

/-- Program points of `main` up to `fork` and of the parent behind it. -/
inductive ParentPc
  | openValue -- `shm_open(shm_value_name, ..)`, `ftruncate` and `mmap`
  | openSem -- the same for `sem_value_name`
  | initValue -- `*shm_value = 0`
  | semInit -- `sem_init(sem_value, 1, 1)`
  | fork
  | semWait
  | load -- the load of `*shm_value`
  | store (tmp : Nat) -- `sleep(1)` and the store of `tmp`
  | semPost
  | waitpid
  | print
  | semDestroy
  | unlinkValue
  | unlinkSem
  | release -- `munmap` and `close`
  | exited
  deriving DecidableEq, Repr

/-- Program points of the child. -/
inductive ChildPc
  | unborn
  | semWait
  | load
  | store (tmp : Nat)
  | semPost
  | print
  | release
  | exited
  deriving DecidableEq, Repr

/-- One run of the program. A process that is cut off, by a kill or by an `exit(1)` of its own,
stays at its program point. `shmValue` and `semValue` are the mapped objects.
-/
structure Run where
  shmValue : Option Nat
  semValue : Option Nat
  parent : ParentPc
  parentCut : Bool
  child : ChildPc
  childCut : Bool
  parentPrinted : Option Nat
  childPrinted : Option Nat
  deriving DecidableEq, Repr

/-- A shared memory object holds the value of an `int` or of a semaphore; both are 0 in a new
one.
-/
abbrev Objects := NamedObjects String Nat

/-- The run about to call `shm_open`. -/
def fresh : Run where
  shmValue := none
  semValue := none
  parent := .openValue
  parentCut := false
  child := .unborn
  childCut := false
  parentPrinted := none
  childPrinted := none

/-- What `waitpid` waits for. -/
def Run.childGone (run : Run) : Bool := run.childCut || run.child = .exited

/-- One step of the parent that is not cut off. -/
def parentProcess (objects : Objects) (run : Run) : Option (Objects × Run) :=
  match run.parent with
  | .openValue =>
      let (shmValue, objects) := objects.openOrCreate shmValueName 0
      some (objects, { run with shmValue := some shmValue, parent := .openSem })
  | .openSem =>
      let (semValue, objects) := objects.openOrCreate semValueName 0
      some (objects, { run with semValue := some semValue, parent := .initValue })
  | .initValue =>
      run.shmValue.map fun shmValue =>
        (objects.write shmValue 0, { run with parent := .semInit })
  | .semInit =>
      run.semValue.map fun semValue => (objects.write semValue 1, { run with parent := .fork })
  | .fork => some (objects, { run with parent := .semWait, child := .semWait })
  | .semWait =>
      (run.semValue.bind (waitOn objects)).map fun objects =>
        (objects, { run with parent := .load })
  | .load =>
      (run.shmValue.bind objects.content?).map fun value =>
        (objects, { run with parent := .store (value + 1) })
  | .store tmp =>
      run.shmValue.map fun shmValue =>
        (objects.write shmValue tmp, { run with parent := .semPost })
  | .semPost =>
      (run.semValue.bind (postOn objects)).map fun objects =>
        (objects, { run with parent := .waitpid })
  | .waitpid => if run.childGone then some (objects, { run with parent := .print }) else none
  | .print =>
      (run.shmValue.bind objects.content?).map fun value =>
        (objects, { run with parentPrinted := some value, parent := .semDestroy })
  | .semDestroy => some (objects, { run with parent := .unlinkValue })
  -- a name that is free already ends the process with status 1
  | .unlinkValue =>
      if objects.names shmValueName = none then some (objects, { run with parentCut := true })
      else some (objects.unlink shmValueName, { run with parent := .unlinkSem })
  | .unlinkSem =>
      if objects.names semValueName = none then some (objects, { run with parentCut := true })
      else some (objects.unlink semValueName, { run with parent := .release })
  | .release => some (objects, { run with parent := .exited })
  | .exited => none

/-- One step of the child that is not cut off. -/
def childProcess (objects : Objects) (run : Run) : Option (Objects × Run) :=
  match run.child with
  | .unborn | .exited => none
  | .semWait =>
      (run.semValue.bind (waitOn objects)).map fun objects =>
        (objects, { run with child := .load })
  | .load =>
      (run.shmValue.bind objects.content?).map fun value =>
        (objects, { run with child := .store (value + 1) })
  | .store tmp =>
      run.shmValue.map fun shmValue =>
        (objects.write shmValue tmp, { run with child := .semPost })
  | .semPost =>
      (run.semValue.bind (postOn objects)).map fun objects =>
        (objects, { run with child := .print })
  | .print =>
      (run.shmValue.bind objects.content?).map fun value =>
        (objects, { run with childPrinted := some value, child := .release })
  | .release => some (objects, { run with child := .exited })

/-- The next statement of a process, or its end in front of it. -/
inductive Action
  | parent
  | child
  | cutParent
  | cutChild
  deriving DecidableEq, Repr

def step (objects : Objects) (run : Run) : Action → Option (Objects × Run)
  | .parent => if run.parentCut then none else parentProcess objects run
  | .child => if run.childCut then none else childProcess objects run
  | .cutParent =>
      if run.parentCut || run.parent = .exited then none
      else some (objects, { run with parentCut := true })
  | .cutChild =>
      if run.childGone || run.child = .unborn then none
      else some (objects, { run with childCut := true })

/-- The run has finished or was cut off. -/
def Run.ended (run : Run) : Bool := run.parent = .exited || run.parentCut || run.childCut

def program : Program Objects Run Action where
  fresh := fresh
  step := step
  ended := Run.ended

/-- Launch after launch on a machine on which no name is used at first. -/
abbrev system : System (Launches Objects Run) (LaunchAction Action) :=
  program.relaunched NamedObjects.empty

/-- Neither process of the run is there any more. -/
def Run.Gone (run : Run) : Prop :=
  (run.parentCut ∨ run.parent = .exited)
  ∧ (run.childCut ∨ run.child = .unborn ∨ run.child = .exited)

/-- What a run has to leave to the next one: none of its processes. Where they were cut off,
and what they have left in the two objects, does not matter.
-/
def HandsOn (_ : Objects) (run : Run) : Prop := run.Gone

instance (run : Run) : Decidable run.Gone := inferInstanceAs (Decidable (_ ∧ _))

instance (objects : Objects) (run : Run) : Decidable (HandsOn objects run) :=
  inferInstanceAs (Decidable run.Gone)

end LinuxStudy.UnnamedSemProcess
