import LinuxStudy.Posix.Pipe
import LinuxStudy.Transition.Progress

/-! `fifo_pipe_write.c` and `fifo_pipe_read.c` when both have opened the FIFO. The standard
input of the writer is given by the results of its reads. Of the output of the reader the model
has the bytes of the FIFO, without the labels around each piece.
-/

namespace LinuxStudy.FifoPipe

open Transition Posix

/-- `sizeof(buffer)`, in both programs. -/
def bufSize : Nat := 1024

/-- The bytes that one `read` of the standard input returns. -/
structure Piece where
  bytes : Bytes
  nonempty : 0 < bytes.length
  fits : bytes.length ≤ bufSize

/-- The writer's `buffer`, which is not initialised. -/
structure Memory where
  bytes : Bytes
  size : bytes.length = bufSize

/-- `"quit\n"` -/
def quitLine : Bytes := [113, 117, 105, 116, 10]

inductive WriterPc
  | read
  | store (readNum : Nat) -- at `buffer[read_num] = '\0'`
  | compare (readNum : Nat) -- at `strncmp(buffer, "quit\n", 5)`
  | write (readNum : Nat)
  | close
  | ended
  deriving DecidableEq, Repr

inductive ReaderPc
  | read
  | ended
  deriving DecidableEq, Repr

/-- `input` is what the writer's reads have still to return. `stores` records the indices of
the stores of a terminator, `written` the bytes put into the FIFO and `printed` the bytes
copied to the standard output of the reader.
-/
structure State where
  input : List Piece
  writer : WriterPc
  buffer : Bytes
  stores : List Nat
  written : Bytes
  content : Bytes
  reader : ReaderPc
  printed : Bytes

inductive Action
  | writerRead
  | writerReadEnd
  | writerStore
  | writerCompare
  | writerWrite
  | writerClose
  | readerRead
  | readerReadEnd
  deriving DecidableEq, Repr

-----------------------------------------------------------------------------------------
-- The writer
-----------------------------------------------------------------------------------------

def writerRead (s : State) : Option State :=
  match s.writer, s.input with
  | .read, piece :: input =>
      some { s with
        input
        buffer := overwrite s.buffer piece.bytes
        writer := .store piece.bytes.length }
  | _, _ => none

/-- `read` returns 0. -/
def writerReadEnd (s : State) : Option State :=
  match s.writer, s.input with
  | .read, [] => some { s with writer := .close }
  | _, _ => none

/-- `buffer[read_num] = '\0'` -/
def writerStore (s : State) : Option State :=
  match s.writer with
  | .store readNum =>
      some { s with
        buffer := s.buffer.set readNum 0
        stores := s.stores ++ [readNum]
        writer := .compare readNum }
  | _ => none

/-- `strncmp(buffer, "quit\n", 5)` is 0 when the first five bytes are these, of which none is a
NUL.
-/
def writerCompare (s : State) : Option State :=
  match s.writer with
  | .compare readNum =>
      some { s with
        writer := if s.buffer.take quitLine.length = quitLine then .close else .write readNum }
  | _ => none

/-- `write(fd, buffer, read_num)`, which is short enough not to be split. -/
def writerWrite (s : State) : Option State :=
  match s.writer with
  | .write readNum =>
      if Transfers s.content readNum 0 readNum then
        some { s with
          content := s.content ++ s.buffer.take readNum
          written := s.written ++ s.buffer.take readNum
          writer := .read }
      else none
  | _ => none

def writerClose (s : State) : Option State :=
  if s.writer = .close then some { s with writer := .ended } else none

-----------------------------------------------------------------------------------------
-- The reader
-----------------------------------------------------------------------------------------

def readerRead (s : State) : Option State :=
  if s.reader = .read ∧ s.content ≠ [] then
    some { s with
      content := s.content.drop bufSize
      printed := s.printed ++ pipeRead bufSize s.content }
  else none

/-- `read` returns 0 when the FIFO is empty and the writer has closed it. -/
def readerReadEnd (s : State) : Option State :=
  if s.reader = .read ∧ s.content = [] ∧ s.writer = .ended then
    some { s with reader := .ended }
  else none

def step (s : State) : Action → Option State
  | .writerRead => writerRead s
  | .writerReadEnd => writerReadEnd s
  | .writerStore => writerStore s
  | .writerCompare => writerCompare s
  | .writerWrite => writerWrite s
  | .writerClose => writerClose s
  | .readerRead => readerRead s
  | .readerReadEnd => readerReadEnd s

/-- Both programs have opened the FIFO. -/
def start (memory : Memory) (pieces : List Piece) : State where
  input := pieces
  writer := .read
  buffer := memory.bytes
  stores := []
  written := []
  content := []
  reader := .read
  printed := []

def system (memory : Memory) (pieces : List Piece) : System State Action where
  Initial s := s = start memory pieces
  step := step

-----------------------------------------------------------------------------------------
-- Lines
-----------------------------------------------------------------------------------------

/-- The standard input as a whole. -/
def stream (pieces : List Piece) : Bytes := pieces.flatMap Piece.bytes

/-- A line begins behind this text. -/
def LineStart (text : Bytes) : Prop := text = [] ∨ text.getLast? = some newline

instance (text : Bytes) : Decidable (LineStart text) := inferInstanceAs (Decidable (_ ∨ _))

/-- A line equal to `quit` begins at this position. -/
def QuitAt (text : Bytes) (i : Nat) : Prop := LineStart (text.take i) ∧ quitLine <+: text.drop i

instance (text : Bytes) (i : Nat) : Decidable (QuitAt text i) :=
  inferInstanceAs (Decidable (_ ∧ _))

/-- The bytes before the first line equal to `quit`, or all of them. -/
def beforeQuit (text : Bytes) : Bytes :=
  text.take (((List.range text.length).find? fun i => QuitAt text i).getD text.length)

end LinuxStudy.FifoPipe
