import LinuxStudy.Posix.Pieces
import LinuxStudy.Transition.Runs

/-! `terminate_test.c`: two threads read the standard input, each until it is given a piece
that begins with its own letter, and `main` waits for both and prints what they hand over.
`fgets` locks its stream, so that every piece goes to one of them.
-/

namespace LinuxStudy.TerminateTest

open Posix Transition

/-- The size of `ans`. -/
def ansSize : Nat := 1024

/-- The two threads: `red_thread_func` and `white_thread_func`. -/
inductive Rose
  | red
  | white
  deriving DecidableEq, Repr

/-- `red_code` and `white_code`. -/
def Rose.code : Rose → UInt8
  | .red => 114 -- 'r'
  | .white => 119 -- 'w'

/-- `thread_result` -/
structure ThreadResult where
  p : String
  len : Nat
  deriving DecidableEq, Repr

/-- `resp` -/
def Rose.resp : Rose → String
  | .red => "红玫瑰收到回复，准备离开...\n"
  | .white => "白玫瑰收到回复，准备离开...\n"

/-- What a thread passes to `pthread_exit`. -/
def Rose.result (rose : Rose) : ThreadResult where
  p := rose.resp
  len := rose.resp.utf8ByteSize

/-- Program points of the thread functions. -/
inductive ThreadPc
  | unborn -- before `pthread_create`
  | malloc -- before the buffers are allocated
  | fgets -- at `fgets(ans, 1024, stdin)`
  | test -- at the comparison of `ans[0]`
  | exited
  deriving DecidableEq, Repr

/-- Program points of `main`. -/
inductive MainPc
  | create (rose : Rose)
  | join (rose : Rose)
  | print
  | returned
  deriving DecidableEq, Repr

inductive Printed
  | leaves (rose : Rose) -- "红玫瑰回复完毕,离开...\n"
  | waits (rose : Rose) -- "红玫瑰继续等待...\n"
  | result (rose : Rose) (p : String) -- "红玫瑰结果: %s\n"
  deriving DecidableEq, Repr

structure ThreadState where
  pc : ThreadPc
  ans : Bytes
  result : Option ThreadResult

/-- The process. `joined` holds `result_red` and `result_white`, and `log` records which thread
has read which piece.
-/
structure State where
  stdin : Bytes
  thread : Rose → ThreadState
  main : MainPc
  joined : Rose → Option ThreadResult
  log : List (Rose × Bytes)
  printed : List Printed

/-- What a launch finds: all that its standard input will ever hold, and the bytes that the
two buffers happen to hold when they are allocated.
-/
structure Launch where
  input : Bytes
  fresh : Rose → Bytes

def State.become (s : State) (rose : Rose) (thread : ThreadState) : State :=
  { s with thread := Function.update s.thread rose thread }

def State.print (s : State) (texts : List Printed) : State :=
  { s with printed := s.printed ++ texts }

/-- `red_thread_func` and `white_thread_func`. At the end of the input `fgets` leaves `ans` as
it is, and the loop goes on.
-/
def threadFunc (launch : Launch) (rose : Rose) (s : State) : Option State :=
  let self := s.thread rose
  match self.pc with
  | .unborn | .exited => none
  | .malloc => some (s.become rose { self with ans := launch.fresh rose, pc := .fgets })
  | .fgets =>
      let line := fgetsLine ansSize s.stdin
      if line = [] then some (s.become rose { self with pc := .test })
      else
        let s := { s with
          stdin := s.stdin.drop line.length
          log := s.log ++ [(rose, line)] }
        some (s.become rose { self with ans := overwrite self.ans (line ++ [0]), pc := .test })
  | .test =>
      if self.ans.head? = some rose.code then
        some ((s.become rose { self with result := some rose.result, pc := .exited }).print
          [.leaves rose])
      else some ((s.become rose { self with pc := .fgets }).print [.waits rose])

/-- `main` creates the red thread first, and then both are there to be joined. -/
def Rose.afterCreate : Rose → MainPc
  | .red => .create .white
  | .white => .join .red

/-- `main` joins the red thread first. -/
def Rose.afterJoin : Rose → MainPc
  | .red => .join .white
  | .white => .print

/-- `main` -/
def main (s : State) : Option State :=
  match s.main with
  | .create rose =>
      some ({ s with main := rose.afterCreate }.become rose
        { s.thread rose with pc := .malloc })
  | .join rose =>
      if (s.thread rose).pc = .exited then
        some { s with
          joined := Function.update s.joined rose (s.thread rose).result
          main := rose.afterJoin }
      else none
  | .print =>
      match s.joined .red, s.joined .white with
      | some red, some white =>
          some ({ s with main := .returned }.print [.result .red red.p, .result .white white.p])
      | _, _ => none
  | .returned => none

inductive Action
  | main
  | thread (rose : Rose)
  deriving DecidableEq, Repr

def step (launch : Launch) (s : State) : Action → Option State
  | .main => main s
  | .thread rose => threadFunc launch rose s

def start (launch : Launch) : State where
  stdin := launch.input
  thread := fun _ => { pc := .unborn, ans := [], result := none }
  main := .create .red
  joined := fun _ => none
  log := []
  printed := []

def system (launch : Launch) : System State Action where
  Initial s := s = start launch
  step := step launch

-----------------------------------------------------------------------------------------
-- What the threads read
-----------------------------------------------------------------------------------------

/-- The pieces that a thread has read, in the order in which it has read them. -/
def State.read (s : State) (rose : Rose) : List Bytes :=
  (s.log.filter fun entry => entry.1 = rose).map Prod.snd

/-- The piece begins with the thread's letter. -/
def Rose.answeredBy (rose : Rose) (piece : Bytes) : Prop := piece.head? = some rose.code

instance (rose : Rose) (piece : Bytes) : Decidable (rose.answeredBy piece) :=
  inferInstanceAs (Decidable (piece.head? = some rose.code))

/-- No buffer happens to begin with its thread's letter when it is allocated. -/
def Launch.Clean (launch : Launch) : Prop :=
  ∀ rose : Rose, ¬ rose.answeredBy (launch.fresh rose)

/-- The last piece that the thread has read begins with its letter, and no earlier one does. -/
def State.Answered (s : State) (rose : Rose) : Prop :=
  ∃ earlier last,
    s.read rose = earlier ++ [last]
    ∧ rose.answeredBy last
    ∧ ∀ piece ∈ earlier, ¬ rose.answeredBy piece

/-- No piece that the thread has read begins with its letter. -/
def State.Unanswered (s : State) (rose : Rose) : Prop :=
  ∀ piece ∈ s.read rose, ¬ rose.answeredBy piece

/-- The thread has left, or has its letter in its buffer and is about to leave. -/
def State.Settled (s : State) (rose : Rose) : Prop :=
  (s.thread rose).pc = .exited
  ∨ ((s.thread rose).pc = .test ∧ (s.thread rose).ans.head? = some rose.code)

instance (s : State) (rose : Rose) : Decidable (s.Settled rose) :=
  inferInstanceAs (Decidable (_ ∨ _))

/-- A piece that nobody has read yet begins with the thread's letter. -/
def State.Ahead (s : State) (rose : Rose) : Prop :=
  ∃ piece ∈ pieces ansSize s.stdin, rose.answeredBy piece

end LinuxStudy.TerminateTest
