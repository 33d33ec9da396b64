import LinuxStudy.Posix.NamedObjects
import LinuxStudy.Posix.Numerals
import LinuxStudy.Transition.Relaunch

/-! `father_son_mq_test.c`: a parent sends ten messages through a named queue, its child
receives ten times, and every call gives up after five seconds. The queue outlives the
processes; only the parent's way to the end removes its name.
-/

namespace LinuxStudy.FatherSonMq

open Transition Posix

/-- `attr.mq_maxmsg` -/
def maxMsg : Nat := 10

/-- The rounds of both loops. -/
def rounds : Nat := 10

def mqName : String := "/father_son_mq_test"

/-- `"Hello from father process! (pid=%d, round=%d)"` in round `i` -/
def greeting (pid i : Nat) : Bytes :=
  utf8 "Hello from father process! (pid=" ++ decimal pid ++ utf8 ", round=" ++ decimal (i + 1)
  ++ utf8 ")"

/-- Program points of `main` up to `fork` and of the parent behind it. -/
inductive ParentPc
  | mqOpen
  | fork
  | send (i : Nat) -- `mq_timedsend` in round `i`
  | sleep (i : Nat)
  | waitpid
  | mqClose
  | mqUnlink
  | exited
  deriving DecidableEq, Repr

/-- Program points of the child. -/
inductive ChildPc
  | unborn
  | receive (i : Nat) -- `mq_timedreceive` in round `i`
  | mqClose
  | exited
  deriving DecidableEq, Repr

/-- One run of the program. A process that is cut off, by a kill or by an `exit` of its own,
stays at its program point. `found` records the messages in the queue behind `mq_open`, `sent`
and `received` those that have passed the calls, and the two counts the calls that gave up.
-/
structure Run where
  pid : Nat
  mqdes : Option Nat
  parent : ParentPc
  parentCut : Bool
  child : ChildPc
  childCut : Bool
  found : List Bytes
  sent : List Bytes
  received : List Bytes
  sendTimeouts : Nat
  receiveTimeouts : Nat
  deriving DecidableEq, Repr

abbrev Objects := NamedObjects String (List Bytes)

/-- The run about to call `mq_open`. -/
def fresh : Run where
  pid := 0
  mqdes := none
  parent := .mqOpen
  parentCut := false
  child := .unborn
  childCut := false
  found := []
  sent := []
  received := []
  sendTimeouts := 0
  receiveTimeouts := 0

/-- What `waitpid` waits for. -/
def Run.childGone (run : Run) : Bool := run.childCut || run.child = .exited

/-- The queue of the run, with its messages. -/
def Run.queue? (run : Run) (objects : Objects) : Option (Nat × List Bytes) :=
  run.mqdes.bind fun queue => (objects.content? queue).map fun messages => (queue, messages)

/-- Where the parent goes on behind round `i`. -/
def ParentPc.behind (i : Nat) : ParentPc := if i + 1 < rounds then .send (i + 1) else .waitpid

/-- Where the child goes on behind round `i`. -/
def ChildPc.behind (i : Nat) : ChildPc := if i + 1 < rounds then .receive (i + 1) else .mqClose

/-- `mq_open` by a parent with this number. An existing queue keeps its messages. -/
def mqOpen (objects : Objects) (run : Run) (pid : Nat) : Option (Objects × Run) :=
  if run.parent = .mqOpen then
    let (queue, objects) := objects.openOrCreate mqName []
    some (objects, { run with
      pid
      mqdes := some queue
      found := (objects.content? queue).getD []
      parent := .fork })
  else none

/-- `mq_timedsend` finds room in the queue. -/
def send (objects : Objects) (run : Run) : Option (Objects × Run) :=
  match run.parent, run.queue? objects with
  | .send i, some (queue, messages) =>
      if messages.length < maxMsg then
        some (objects.write queue (messages ++ [greeting run.pid i]), { run with
          sent := run.sent ++ [greeting run.pid i]
          parent := .sleep i })
      else none
  | _, _ => none

/-- `mq_timedsend` gives up before the full queue; the loop goes on. -/
def sendTimesOut (objects : Objects) (run : Run) : Option (Objects × Run) :=
  match run.parent, run.queue? objects with
  | .send i, some (_, messages) =>
      if maxMsg ≤ messages.length then
        some (objects, { run with sendTimeouts := run.sendTimeouts + 1, parent := .sleep i })
      else none
  | _, _ => none

/-- The other statements of the parent. -/
def parentProcess (objects : Objects) (run : Run) : Option (Objects × Run) :=
  match run.parent with
  | .mqOpen | .send _ | .exited => none
  | .fork => some (objects, { run with parent := .send 0, child := .receive 0 })
  | .sleep i => some (objects, { run with parent := .behind i })
  | .waitpid => if run.childGone then some (objects, { run with parent := .mqClose }) else none
  | .mqClose => some (objects, { run with parent := .mqUnlink })
  | .mqUnlink => some (objects.unlink mqName, { run with parent := .exited })

/-- `mq_timedreceive` takes the first message, which is printed. -/
def receive (objects : Objects) (run : Run) : Option (Objects × Run) :=
  match run.child, run.queue? objects with
  | .receive i, some (queue, message :: rest) =>
      some (objects.write queue rest, { run with
        received := run.received ++ [message]
        child := .behind i })
  | _, _ => none

/-- `mq_timedreceive` gives up before the empty queue; the loop goes on. -/
def receiveTimesOut (objects : Objects) (run : Run) : Option (Objects × Run) :=
  match run.child, run.queue? objects with
  | .receive i, some (_, []) =>
      some (objects, { run with
        receiveTimeouts := run.receiveTimeouts + 1
        child := .behind i })
  | _, _ => none

/-- `mq_close` of the child and its end. -/
def childProcess (objects : Objects) (run : Run) : Option (Objects × Run) :=
  match run.child with
  | .mqClose => some (objects, { run with child := .exited })
  | .unborn | .receive _ | .exited => none

/-- The next statement of a process, or its end in front of it. -/
inductive Action
  | mqOpen (pid : Nat)
  | send
  | sendTimesOut
  | parent
  | receive
  | receiveTimesOut
  | child
  | cutParent
  | cutChild
  deriving DecidableEq, Repr

def step (objects : Objects) (run : Run) : Action → Option (Objects × Run)
  | .mqOpen pid => if run.parentCut then none else mqOpen objects run pid
  | .send => if run.parentCut then none else send objects run
  | .sendTimesOut => if run.parentCut then none else sendTimesOut objects run
  | .parent => if run.parentCut then none else parentProcess objects run
  | .receive => if run.childCut then none else receive objects run
  | .receiveTimesOut => if run.childCut then none else receiveTimesOut objects run
  | .child => if run.childCut then none else childProcess objects run
  | .cutParent =>
      if run.parentCut || run.parent = .exited then none
      else some (objects, { run with parentCut := true })
  | .cutChild =>
      if run.childGone || run.child = .unborn then none
      else some (objects, { run with childCut := true })

/-- The parent, which the shell waits for, has ended. -/
def Run.ended (run : Run) : Bool := run.parent = .exited || run.parentCut

def program : Program Objects Run Action where
  fresh := fresh
  step := step
  ended := Run.ended

/-- Launch after launch on a machine on which no name is used at first. -/
abbrev system : System (Launches Objects Run) (LaunchAction Action) :=
  program.relaunched NamedObjects.empty

-----------------------------------------------------------------------------------------
-- The end of a queue
-----------------------------------------------------------------------------------------

/-- The parent has the queue open. The end of a process closes it. -/
def Run.parentHolds (run : Run) : Bool :=
  !run.parentCut
  && match run.parent with
    | .fork | .send _ | .sleep _ | .waitpid | .mqClose => true
    | .mqOpen | .mqUnlink | .exited => false

/-- The child has the queue open. -/
def Run.childHolds (run : Run) : Bool :=
  !run.childCut
  && match run.child with
    | .receive _ | .mqClose => true
    | .unborn | .exited => false

/-- Some process of the run has this queue open. -/
def Run.holds (run : Run) (queue : Nat) : Bool :=
  run.mqdes = some queue && (run.parentHolds || run.childHolds)

/-- The queue exists: it has its name, or some process of some launch has it open. As soon as it
has neither, it is destroyed together with its messages.
-/
def present (s : Launches Objects Run) (queue : Nat) : Bool :=
  s.machine.names mqName = some queue || (s.current :: s.earlier).any (·.holds queue)

/-- The queue was created and is destroyed. -/
def Destroyed (s : Launches Objects Run) (queue : Nat) : Prop :=
  queue < s.machine.contents.length ∧ present s queue = false

end LinuxStudy.FatherSonMq
