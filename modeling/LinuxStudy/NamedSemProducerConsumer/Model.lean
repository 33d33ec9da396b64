import LinuxStudy.Sync.NamedSemaphore
import LinuxStudy.Transition.Relaunch

/-! `named_sem_producer_consumer.c`: a parent and its child take turns as producer and consumer
through two named semaphores. `shared_data` is a plain global, of which each process has its
own copy behind `fork`. The number of rounds is a parameter; the source has 5.
-/

namespace LinuxStudy.NamedSemProducerConsumer

open Transition Posix Sync

def emptySemName : String := "/named_sem_empty"
def fullSemName : String := "/named_sem_full"

/-- Program points of `main` up to `fork` and of the parent behind it. -/
inductive ParentPc
  | semOpenEmpty
  | semOpenFull
  | fork
  | loop -- `producer_process`: the test of the `for` loop
  | semWait
  | produce -- the store to `shared_data`
  | semPost
  | waitpid
  | semClose -- both
  | semUnlinkEmpty
  | semUnlinkFull
  | exited
  deriving DecidableEq, Repr

/-- Program points of the child. -/
inductive ChildPc
  | unborn
  | loop -- `consumer_process`: the test of the `for` loop
  | semWait
  | consume -- the load of `shared_data`
  | semPost
  | semClose -- both
  | exited
  deriving DecidableEq, Repr

/-- One run of the program. A process that is cut off, by a kill or by an `exit(1)` of its own,
stays at its program point. `parentData` and `childData` are `shared_data` in the memory of
each process, `producerRound` and `consumerRound` the two loops' `i`; `produced`, `consumed`,
`foundEmpty` and `foundFull` record the values stored, those loaded, and the values of the
semaphores right behind `sem_open`.
-/
structure Run where
  emptySem : Option Nat
  fullSem : Option Nat
  parent : ParentPc
  parentCut : Bool
  child : ChildPc
  childCut : Bool
  producerRound : Nat
  consumerRound : Nat
  parentData : Int
  childData : Int
  produced : List Int
  consumed : List Int
  foundEmpty : Option Nat
  foundFull : Option Nat
  deriving DecidableEq, Repr

abbrev Objects := NamedObjects String Nat

/-- The run about to call `sem_open`. -/
def fresh : Run where
  emptySem := none
  fullSem := none
  parent := .semOpenEmpty
  parentCut := false
  child := .unborn
  childCut := false
  producerRound := 0
  consumerRound := 0
  parentData := 0
  childData := 0
  produced := []
  consumed := []
  foundEmpty := none
  foundFull := none

/-- What `waitpid` waits for. -/
def Run.childGone (run : Run) : Bool := run.childCut || run.child = .exited

/-- One step of the parent that is not cut off; `random` is what `rand` returns, which only the
store looks at.
-/
def parentProcess (rounds random : Nat) (objects : Objects) (run : Run)
    : Option (Objects × Run) :=
  match run.parent with
  | .semOpenEmpty =>
      let (emptySem, objects) := objects.openOrCreate emptySemName 1
      some (objects, { run with
        emptySem := some emptySem
        foundEmpty := objects.content? emptySem
        parent := .semOpenFull })
  | .semOpenFull =>
      let (fullSem, objects) := objects.openOrCreate fullSemName 0
      some (objects, { run with
        fullSem := some fullSem
        foundFull := objects.content? fullSem
        parent := .fork })
  | .fork =>
      some (objects, { run with parent := .loop, child := .loop, childData := run.parentData })
  | .loop =>
      some (objects, { run with
        parent := if run.producerRound < rounds then .semWait else .waitpid })
  | .semWait =>
      (run.emptySem.bind (waitOn objects)).map fun objects =>
        (objects, { run with parent := .produce })
  | .produce =>
      let data : Int := (random % 1000 : Nat)
      some (objects, { run with
        parentData := data
        produced := run.produced ++ [data]
        parent := .semPost })
  | .semPost =>
      (run.fullSem.bind (postOn objects)).map fun objects =>
        (objects, { run with producerRound := run.producerRound + 1, parent := .loop })
  | .waitpid => if run.childGone then some (objects, { run with parent := .semClose }) else none
  | .semClose => some (objects, { run with parent := .semUnlinkEmpty })
  | .semUnlinkEmpty =>
      -- if the name is free already, the parent exits with status 1
      if objects.names emptySemName = none then
        some (objects, { run with parent := .exited })
      else
        some (objects.unlink emptySemName, { run with parent := .semUnlinkFull })
  | .semUnlinkFull => some (objects.unlink fullSemName, { run with parent := .exited })
  | .exited => none

/-- One step of the child that is not cut off. -/
def childProcess (rounds : Nat) (objects : Objects) (run : Run) : Option (Objects × Run) :=
  match run.child with
  | .unborn | .exited => none
  | .loop =>
      some (objects, { run with
        child := if run.consumerRound < rounds then .semWait else .semClose })
  | .semWait =>
      (run.fullSem.bind (waitOn objects)).map fun objects =>
        (objects, { run with child := .consume })
  | .consume =>
      some (objects, { run with consumed := run.consumed ++ [run.childData], child := .semPost })
  | .semPost =>
      (run.emptySem.bind (postOn objects)).map fun objects =>
        (objects, { run with consumerRound := run.consumerRound + 1, child := .loop })
  | .semClose => some (objects, { run with child := .exited })

/-- The next statement of a process, or its end in front of it. -/
inductive Action
  | parent (random : Nat)
  | child
  | cutParent
  | cutChild
  deriving DecidableEq, Repr

def step (rounds : Nat) (objects : Objects) (run : Run) : Action → Option (Objects × Run)
  | .parent random =>
      if run.parentCut then none else parentProcess rounds random objects run
  | .child => if run.childCut then none else childProcess rounds objects run
  | .cutParent =>
      if run.parentCut || run.parent = .exited then
        none
      else
        some (objects, { run with parentCut := true })
  | .cutChild =>
      if run.childGone || run.child = .unborn then
        none
      else
        some (objects, { run with childCut := true })

/-- The run has finished or was cut off. -/
def Run.ended (run : Run) : Bool := run.parent = .exited || run.parentCut || run.childCut

def program (rounds : Nat) : Program Objects Run Action where
  fresh := fresh
  step := step rounds
  ended := Run.ended

/-- Launch after launch on a machine on which no name is used at first. -/
abbrev system (rounds : Nat) : System (Launches Objects Run) (LaunchAction Action) :=
  (program rounds).relaunched NamedObjects.empty

/-- One run with freshly created semaphores. -/
abbrev aloneSystem (rounds : Nat) : System (Objects × Run) Action :=
  (program rounds).alone NamedObjects.empty

end LinuxStudy.NamedSemProducerConsumer
