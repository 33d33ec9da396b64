import LinuxStudy.Posix.Bytes
import LinuxStudy.Transition.Runs
import Mathlib.Logic.Function.Basic

/-! `create_thread_test.c`: one thread stores what is typed into the cells of `buf`, the other
prints and clears them. Each step reads or writes one cell; the private indices move with it.
Both threads start at the head of their endless loops.
-/

namespace LinuxStudy.CreateThread

open Transition Posix

/-- `BUF_LEN` -/
def bufLen : Nat := 1024

/-- `(char)EOF`: neither 0 nor a newline. -/
def eofChar : UInt8 := 0xFF

/-- The characters `thread1_func` stores, `c && c != '\n'`. -/
def wanted (c : UInt8) : Bool := c ≠ 0 ∧ c ≠ newline

/-- Program points of `thread1_func`. -/
inductive InputPc
  | read -- `char c = fgetc(stdin)` and the test of `c`
  | store (c : UInt8) -- `buf[i++] = c`
  deriving DecidableEq, Repr

/-- Program points of `thread2_func`. -/
inductive OutputPc
  | test -- `if(buf[i])`; if not, `sleep(1)` and again
  | put -- `fputc(buf[i],stdout)`
  | newline -- `fputc('\n',stdout)`
  | clear -- `buf[i++] = '\0'`
  deriving DecidableEq, Repr

/-- The buffer, the rest of the standard input and the two threads. `written` and `printed`
record the characters stored and put out, without the newline that follows each.
-/
structure State where
  buf : Nat → UInt8
  stdin : Bytes
  input : InputPc
  inputIndex : Nat
  output : OutputPc
  outputIndex : Nat
  written : Bytes
  printed : Bytes

/-- `i++` with the test for the end of the buffer behind it. -/
def nextIndex (i : Nat) : Nat := if bufLen ≤ i + 1 then 0 else i + 1

/-- One atomic step of `thread1_func`; at the end of the input `fgetc` returns `EOF`. -/
def thread1Func (s : State) : State :=
  match s.input with
  | .read =>
      let (c, rest) := match s.stdin with
        | c :: rest => (c, rest)
        | [] => (eofChar, [])
      { s with stdin := rest, input := if wanted c then .store c else .read }
  | .store c =>
      { s with
        buf := Function.update s.buf s.inputIndex c
        written := s.written ++ [c]
        inputIndex := nextIndex s.inputIndex
        input := .read }

/-- One atomic step of `thread2_func`. -/
def thread2Func (s : State) : State :=
  match s.output with
  | .test => { s with output := if s.buf s.outputIndex ≠ 0 then .put else .test }
  | .put => { s with printed := s.printed ++ [s.buf s.outputIndex], output := .newline }
  | .newline => { s with output := .clear }
  | .clear =>
      { s with
        buf := Function.update s.buf s.outputIndex 0
        outputIndex := nextIndex s.outputIndex
        output := .test }

/-- Who takes the next atomic step. -/
inductive Action
  | thread1
  | thread2
  deriving DecidableEq, Repr

def step (s : State) : Action → Option State
  | .thread1 => some (thread1Func s)
  | .thread2 => some (thread2Func s)

/-- The buffer is cleared, the whole input is still to be read. -/
def start (input : Bytes) : State where
  buf := fun _ => 0
  stdin := input
  input := .read
  inputIndex := 0
  output := .test
  outputIndex := 0
  written := []
  printed := []

def system (input : Bytes) : System State Action where
  Initial s := s = start input
  step := step

end LinuxStudy.CreateThread
