import LinuxStudy.Sync.NamedSemaphore
import LinuxStudy.Transition.Relaunch

/-! `named_sem_bin_process.c`: a parent and its child pass one critical section each, guarded
by a named semaphore. The name and the value outlive the processes; only the parent's way to
the end removes the name.
-/

namespace LinuxStudy.NamedSemBinProcess

open Transition Posix Sync

def semName : String := "/named_sem_bin_process"

/-- Program points of `main` up to `fork` and of the parent behind it. -/
inductive ParentPc
  | semOpen
  | fork
  | semWait
  | critical -- `sleep(2)`
  | semPost
  | waitpid
  | semClose
  | semUnlink
  | exited
  deriving DecidableEq, Repr

/-- Program points of the child. -/
inductive ChildPc
  | unborn
  | semWait
  | critical -- `sleep(1)`
  | semPost
  | semClose
  | exited
  deriving DecidableEq, Repr

/-- One run of the program. A process that is cut off, by a kill or by an `exit(1)` of its own,
stays at its program point. `semValue` is what `sem_open` has returned, and `found` records the
value right behind it.
-/
structure Run where
  semValue : Option Nat
  parent : ParentPc
  parentCut : Bool
  child : ChildPc
  childCut : Bool
  found : Option Nat
  deriving DecidableEq, Repr

abbrev Objects := NamedObjects String Nat

/-- The run about to call `sem_open`. -/
def fresh : Run where
  semValue := none
  parent := .semOpen
  parentCut := false
  child := .unborn
  childCut := false
  found := none

/-- What `waitpid` waits for. -/
def Run.childGone (run : Run) : Bool := run.childCut || run.child = .exited

/-- One step of the parent that is not cut off. -/
def parentProcess (objects : Objects) (run : Run) : Option (Objects × Run) :=
  match run.parent with
  | .semOpen =>
      let (semValue, objects) := objects.openOrCreate semName 1
      some (objects, { run with
        semValue := some semValue
        found := objects.content? semValue
        parent := .fork })
  | .fork => some (objects, { run with parent := .semWait, child := .semWait })
  | .semWait =>
      (run.semValue.bind (waitOn objects)).map fun objects =>
        (objects, { run with parent := .critical })
  | .critical => some (objects, { run with parent := .semPost })
  | .semPost =>
      (run.semValue.bind (postOn objects)).map fun objects =>
        (objects, { run with parent := .waitpid })
  | .waitpid => if run.childGone then some (objects, { run with parent := .semClose }) else none
  | .semClose => some (objects, { run with parent := .semUnlink })
  -- if the name is free already, the exit status is 1
  | .semUnlink => some (objects.unlink semName, { run with parent := .exited })
  | .exited => none

/-- One step of the child that is not cut off. -/
def childProcess (objects : Objects) (run : Run) : Option (Objects × Run) :=
  match run.child with
  | .unborn | .exited => none
  | .semWait =>
      (run.semValue.bind (waitOn objects)).map fun objects =>
        (objects, { run with child := .critical })
  | .critical => some (objects, { run with child := .semPost })
  | .semPost =>
      (run.semValue.bind (postOn objects)).map fun objects =>
        (objects, { run with child := .semClose })
  | .semClose => some (objects, { run with child := .exited })

/-- The next statement of a process, or its end in front of it. -/
inductive Action
  | parent
  | child
  | cutParent
  | cutChild
  deriving DecidableEq, Repr

def step (objects : Objects) (run : Run) : Action → Option (Objects × Run)
  | .parent => if run.parentCut then none else parentProcess objects run
  | .child => if run.childCut then none else childProcess objects run
  | .cutParent =>
      if run.parentCut || run.parent = .exited then
        none
      else
        some (objects, { run with parentCut := true })
  | .cutChild =>
      if run.childGone || run.child = .unborn then
        none
      else
        some (objects, { run with childCut := true })

/-- The run has finished or was cut off. -/
def Run.ended (run : Run) : Bool := run.parent = .exited || run.parentCut || run.childCut

def program : Program Objects Run Action where
  fresh := fresh
  step := step
  ended := Run.ended

/-- Launch after launch on a machine on which no name is used at first. -/
abbrev system : System (Launches Objects Run) (LaunchAction Action) :=
  program.relaunched NamedObjects.empty

end LinuxStudy.NamedSemBinProcess
