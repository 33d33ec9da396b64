import LinuxStudy.Posix.Numerals
import LinuxStudy.Posix.Pipe
import LinuxStudy.Posix.StringReads
import LinuxStudy.Transition.Progress
import Mathlib.Data.Fin.Basic

/-! `unnamede_pipe_test.c` behind its `fork`: the parent writes its argument into the pipe and
waits for the child, which reads once and prints what it has read.
-/

namespace LinuxStudy.UnnamedPipe

open Transition Posix

/-- `sizeof(buffer)` and `sizeof(message)` -/
def bufSize : Nat := 1024

def messageSize : Nat := 2048

/-- `argv[1]` -/
structure Argument where
  bytes : Bytes
  nulFree : 0 ∉ bytes

/-- The child's `buffer`, which is not initialised. -/
structure Memory where
  bytes : Bytes
  size : bytes.length = bufSize

inductive ParentPc
  | closeRead -- at `close(pipefd[0])`
  | write (sent : Nat) -- inside `write`, with this many bytes in the pipe
  | waitpid
  | closeWrite -- at `close(pipefd[1])`
  | ended
  | killed -- by `SIGPIPE`
  deriving DecidableEq, Repr

inductive ChildPc
  | closeWrite -- at `close(pipefd[1])`
  | read
  | store (bytesRead : Nat) -- at `buffer[bytes_read] = '\0'`
  | print -- at `snprintf` and `write`
  | closeRead -- at `close(pipefd[0])`
  | ended
  deriving DecidableEq, Repr

/-- `content` is in the pipe. `stores` records the indices of the stores to `buffer`, and
`printed` what is written to the standard output, `none` where it is read from behind the end
of `buffer`.
-/
structure State where
  parent : ParentPc
  child : ChildPc
  content : Bytes
  buffer : Bytes
  stores : List Nat
  printed : List (Option Bytes)
  deriving DecidableEq, Repr

/-- What `getpid` returns. -/
abbrev Pid := Fin (2 ^ 31)

/-- "Child process read from pipe: %s, my pid is %d\n" -/
def report (pid : Pid) (text : Bytes) : Bytes :=
  utf8 "Child process read from pipe: " ++ text ++ utf8 ", my pid is " ++ decimal pid
    ++ [newline]

/-- The string that `snprintf` leaves in `message`. -/
def message (pid : Pid) (text : Bytes) : Bytes := (report pid text).take (messageSize - 1)

/-- Some process has the pipe open for reading, or for writing, besides the one that asks. -/
def State.readable (s : State) : Bool := s.child ≠ .ended

def State.writable (s : State) : Bool :=
  match s.parent with
  | .ended | .killed => false
  | _ => true

inductive Action
  | parentCloseRead
  | parentWriteNothing
  | parentWrite (n : Nat)
  | parentSigpipe
  | parentWaitpid
  | parentCloseWrite
  | childCloseWrite
  | childRead
  | childReadEnd
  | childStore
  | childPrint
  | childCloseRead
  deriving DecidableEq, Repr

-----------------------------------------------------------------------------------------
-- The parent
-----------------------------------------------------------------------------------------

def parentCloseRead (s : State) : Option State :=
  if s.parent = .closeRead then some { s with parent := .write 0 } else none

/-- `write` of no bytes returns at once. -/
def parentWriteNothing (argument : Argument) (s : State) : Option State :=
  if s.parent = .write 0 ∧ argument.bytes = [] then some { s with parent := .waitpid } else none

/-- `write` puts the next `n` bytes into the pipe and returns behind the last one. -/
def parentWrite (argument : Argument) (s : State) (n : Nat) : Option State :=
  match s.parent with
  | .write sent =>
      let total := argument.bytes.length
      if Transfers s.content total sent n ∧ s.readable = true then
        some { s with
          content := s.content ++ (argument.bytes.drop sent).take n
          parent := if sent + n = total then .waitpid else .write (sent + n) }
      else none
  | _ => none

/-- `write` into a pipe that nobody can read any more. -/
def parentSigpipe (argument : Argument) (s : State) : Option State :=
  match s.parent with
  | .write _ =>
      if argument.bytes ≠ [] ∧ s.readable = false then some { s with parent := .killed } else none
  | _ => none

def parentWaitpid (s : State) : Option State :=
  if s.parent = .waitpid ∧ s.child = .ended then some { s with parent := .closeWrite } else none

def parentCloseWrite (s : State) : Option State :=
  if s.parent = .closeWrite then some { s with parent := .ended } else none

-----------------------------------------------------------------------------------------
-- The child
-----------------------------------------------------------------------------------------

def childCloseWrite (s : State) : Option State :=
  if s.child = .closeWrite then some { s with child := .read } else none

/-- `read(pipefd[0], buffer, sizeof(buffer))` takes what is in the pipe. -/
def childRead (s : State) : Option State :=
  if s.child = .read ∧ s.content ≠ [] then
    let chunk := pipeRead bufSize s.content
    some { s with
      content := s.content.drop bufSize
      buffer := overwrite s.buffer chunk
      child := .store chunk.length }
  else none

/-- `read` returns 0 when the pipe is empty and nobody can write any more. -/
def childReadEnd (s : State) : Option State :=
  if s.child = .read ∧ s.content = [] ∧ s.writable = false then
    some { s with child := .store 0 }
  else none

/-- `buffer[bytes_read] = '\0'` -/
def childStore (s : State) : Option State :=
  match s.child with
  | .store bytesRead =>
      some { s with
        buffer := s.buffer.set bytesRead 0
        stores := s.stores ++ [bytesRead]
        child := .print }
  | _ => none

def childPrint (pid : Pid) (s : State) : Option State :=
  if s.child = .print then
    some { s with
      printed := s.printed ++ [(stringIn s.buffer).map (message pid)]
      child := .closeRead }
  else none

def childCloseRead (s : State) : Option State :=
  if s.child = .closeRead then some { s with child := .ended } else none

def step (pid : Pid) (argument : Argument) (s : State) : Action → Option State
  | .parentCloseRead => parentCloseRead s
  | .parentWriteNothing => parentWriteNothing argument s
  | .parentWrite n => parentWrite argument s n
  | .parentSigpipe => parentSigpipe argument s
  | .parentWaitpid => parentWaitpid s
  | .parentCloseWrite => parentCloseWrite s
  | .childCloseWrite => childCloseWrite s
  | .childRead => childRead s
  | .childReadEnd => childReadEnd s
  | .childStore => childStore s
  | .childPrint => childPrint pid s
  | .childCloseRead => childCloseRead s

/-- Behind `fork`. -/
def start (memory : Memory) : State where
  parent := .closeRead
  child := .closeWrite
  content := []
  buffer := memory.bytes
  stores := []
  printed := []

/-- `pid` is the child's. -/
def system (pid : Pid) (memory : Memory) (argument : Argument) : System State Action where
  Initial s := s = start memory
  step := step pid argument

end LinuxStudy.UnnamedPipe
