import LinuxStudy.Posix.StringReads
import LinuxStudy.Transition.Progress

/-! `socket_ipc_communication.c`: the loop of `server_func` with the client it has accepted. The
client may be any program; it takes the answers as long as it has not closed its socket.
-/

namespace LinuxStudy.SocketIpc

open Transition Posix

/-- `BUFFER_SIZE` -/
def bufferSize : Nat := 1024

/-- `"EOF"` and `"OK"` -/
def eofText : Bytes := [69, 79, 70]

def okText : Bytes := [79, 75]

/-- What `malloc` has left in `buffer`. -/
structure Memory where
  bytes : Bytes
  size : bytes.length = bufferSize

inductive Pc
  | memset
  | recv
  | strcmp
  | print
  | send -- at `strcpy` and `send`
  | ended -- behind the loop
  | dead -- by `handle_error` or `SIGPIPE`
  deriving DecidableEq, Repr

/-- What the server has done on the connection. -/
inductive Entry
  | result (bytes : Bytes)
  | ok
  deriving DecidableEq, Repr

/-- `unread` has arrived from the client; `eof` says that nothing more will come, and `gone`
that the client has closed its socket altogether. `result` is the last result of `recv`,
`printed` the texts shown behind "接收到客户端消息: ", and `beyond` says that `strcmp` or
`printf` has read behind the end of `buffer`.
-/
structure State where
  unread : Bytes
  eof : Bool
  gone : Bool
  pc : Pc
  buffer : Bytes
  result : Nat
  log : List Entry
  printed : List Bytes
  beyond : Bool
  deriving DecidableEq, Repr

inductive Action
  | arrive (bytes : Bytes)
  | halfClose
  | close
  | memset
  | recvData (n : Nat)
  | recvEnd
  | recvError
  | strcmp
  | print
  | send
  deriving DecidableEq, Repr

-----------------------------------------------------------------------------------------
-- The client
-----------------------------------------------------------------------------------------

def arrive (s : State) (bytes : Bytes) : Option State :=
  if s.eof = false ∧ bytes ≠ [] then some { s with unread := s.unread ++ bytes } else none

/-- `shutdown(fd, SHUT_WR)` -/
def halfClose (s : State) : Option State :=
  if s.eof = false then some { s with eof := true } else none

def close (s : State) : Option State :=
  if s.gone = false then some { s with eof := true, gone := true } else none

-----------------------------------------------------------------------------------------
-- The loop of `server_func`
-----------------------------------------------------------------------------------------

/-- `memset(buffer, 0, BUFFER_SIZE)` -/
def memset (s : State) : Option State :=
  if s.pc = .memset then some { s with buffer := List.replicate bufferSize 0, pc := .recv }
  else none

/-- `recv` returns `n` bytes. -/
def recvData (s : State) (n : Nat) : Option State :=
  if s.pc = .recv ∧ 0 < n ∧ n ≤ s.unread.length ∧ n ≤ bufferSize then
    some { s with
      unread := s.unread.drop n
      buffer := overwrite s.buffer (s.unread.take n)
      result := n
      log := s.log ++ [.result (s.unread.take n)]
      pc := .strcmp }
  else none

/-- `recv` returns 0 at the end of the stream, which is no error for `handle_error`. -/
def recvEnd (s : State) : Option State :=
  if s.pc = .recv ∧ s.unread = [] ∧ s.eof = true then
    some { s with result := 0, log := s.log ++ [.result []], pc := .strcmp }
  else none

/-- `recv` returns -1: the client has closed its socket with answers unread. -/
def recvError (s : State) : Option State :=
  if s.pc = .recv ∧ s.gone = true then some { s with pc := .dead } else none

/-- `strcmp(buffer, "EOF") != 0` -/
def strcmp (s : State) : Option State :=
  if s.pc = .strcmp then
    match strcmpIs s.buffer eofText with
    | some true => some { s with pc := .ended }
    | some false => some { s with pc := .print }
    | none => some { s with beyond := true, pc := .print }
  else none

/-- `printf("接收到客户端消息: %s\n", buffer)` -/
def print (s : State) : Option State :=
  if s.pc = .print then
    some { s with
      printed := s.printed ++ (stringIn s.buffer).toList
      beyond := s.beyond || (stringIn s.buffer).isNone
      pc := .send }
  else none

/-- `strcpy(buffer, "OK")` and `send`, which fails when the client has closed its socket. -/
def send (s : State) : Option State :=
  if s.pc = .send then
    let copied := { s with buffer := overwrite s.buffer (okText ++ [0]) }
    if s.gone then some { copied with pc := .dead }
    else some { copied with log := s.log ++ [.ok], pc := .memset }
  else none

def step (s : State) : Action → Option State
  | .arrive bytes => arrive s bytes
  | .halfClose => halfClose s
  | .close => close s
  | .memset => memset s
  | .recvData n => recvData s n
  | .recvEnd => recvEnd s
  | .recvError => recvError s
  | .strcmp => strcmp s
  | .print => print s
  | .send => send s

/-- The client has been accepted. -/
def start (memory : Memory) : State where
  unread := []
  eof := false
  gone := false
  pc := .memset
  buffer := memory.bytes
  result := 0
  log := []
  printed := []
  beyond := false

def system (memory : Memory) : System State Action where
  Initial s := s = start memory
  step := step

end LinuxStudy.SocketIpc
