import LinuxStudy.UdpConn.Server
import LinuxStudy.Transition.Runs

/-! `udp_conn_client.c` in conversation with `udp_conn_server.c`. The network loses no datagram
and keeps their order, so what is under way is told by what was sent and received.
-/

namespace LinuxStudy.UdpConn

open Transition Posix

inductive ClientPc
  | read -- at the prompt and `read(STDIN_FILENO, buffer, 1024)`
  | strip (buflen : Nat) -- at `buffer[buflen-1] == '\n'` and what follows up to `strcmp`
  | sendto (buflen : Nat) -- at `sendto`, the `printf` and the `memset`
  | recvfrom -- at `recvfrom(socketfd, buffer, 1024, ...)`
  | left -- behind the loop
  deriving DecidableEq, Repr

/-- Client, server and standard input. `sent` and `replies` record the datagrams the client has
sent and received, `printed` the data it shows; `sawEof` says that it has left its loop at the
line `EOF`, and `outside` that it stored a byte outside its buffer.
-/
structure State where
  stdin : Bytes
  client : ClientPc
  buffer : Bytes
  sent : List Bytes
  replies : List Bytes
  printed : List Bytes
  sawEof : Bool
  outside : Bool
  server : Server Unit

/-- `buffer[index] = byte` in the client. -/
def State.store (s : State) (index : Nat) (byte : UInt8) : State :=
  { s with
    buffer := s.buffer.set index byte
    outside := s.outside || decide (bufSize ≤ index) }

/-- `read` returns `n` bytes of what is left. -/
def read (s : State) (n : Nat) : Option State :=
  if s.client = .read ∧ 0 < n ∧ n ≤ s.stdin.length ∧ n ≤ bufSize then
    some { s with
      stdin := s.stdin.drop n
      buffer := overwrite s.buffer (s.stdin.take n)
      client := .strip n }
  else none

/-- `read` returns 0 at the end of the input. -/
def readEnd (s : State) : Option State :=
  if s.client = .read ∧ s.stdin = [] then some { s with client := .left } else none

/-- A newline at the end is replaced by the terminator, and the line is compared. -/
def strip (s : State) : Option State :=
  match s.client with
  | .strip buflen =>
      let newlineLast := s.buffer[buflen - 1]? = some newline
      let s := if newlineLast then s.store (buflen - 1) 0 else s
      let buflen := if newlineLast then buflen - 1 else buflen
      let s := s.store buflen 0
      if cString s.buffer = eof then some { s with client := .left, sawEof := true }
      else some { s with client := .sendto buflen }
  | _ => none

/-- `sendto` passes the line on, and the buffer is cleared. -/
def sendto (s : State) : Option State :=
  match s.client with
  | .sendto buflen =>
      some { s with
        sent := s.sent ++ [s.buffer.take buflen]
        printed := s.printed ++ [cString s.buffer]
        buffer := List.replicate bufSize 0
        client := .recvfrom }
  | _ => none

/-- `recvfrom` returns the next reply, which is shown and compared. -/
def recvfrom (s : State) : Option State :=
  if s.client = .recvfrom then
    (s.server.sent[s.replies.length]?).map fun message =>
      let tempResult := min message.2.length bufSize
      let s :=
        { s with
          buffer := overwrite s.buffer (message.2.take bufSize)
          replies := s.replies ++ [message.2] }
      if 0 < tempResult then
        let s := s.store tempResult 0
        { s with
          printed := s.printed ++ [cString s.buffer]
          client := if cString s.buffer = eof then .left else .read }
      else { s with client := .left }
  else none

/-- The server's `recvfrom` returns the next datagram. -/
def serverReceive (s : State) : Option State :=
  if s.server.pc = .recvfrom then
    (s.sent[s.server.received]?).bind fun payload =>
      if fits : payload.length ≤ maxPayload then
        some { s with server := s.server.receive ⟨(), payload, fits⟩ }
      else none
  else none

/-- The server tests what it has received and answers; the network takes its answer. -/
def serverRespond (s : State) : Option State :=
  match s.server.pc with
  | .test _ _ => some { s with server := s.server.respond false }
  | _ => none

inductive Action
  | read (n : Nat)
  | readEnd
  | strip
  | sendto
  | recvfrom
  | serverReceive
  | serverRespond
  deriving DecidableEq, Repr

def step (s : State) : Action → Option State
  | .read n => read s n
  | .readEnd => readEnd s
  | .strip => strip s
  | .sendto => sendto s
  | .recvfrom => recvfrom s
  | .serverReceive => serverReceive s
  | .serverRespond => serverRespond s

/-- Both sockets are open, and `malloc` has returned this memory to the client and to the server.
-/
def start (input memory serverMemory : Bytes) : State where
  stdin := input
  client := .read
  buffer := memory
  sent := []
  replies := []
  printed := []
  sawEof := false
  outside := false
  server := Server.start serverMemory

/-- The standard input is given; the memory holds anything. -/
def system (input : Bytes) : System State Action where
  Initial s :=
    ∃ memory serverMemory,
      memory.length = bufSize ∧ serverMemory.length = bufSize
      ∧ s = start input memory serverMemory
  step := step

end LinuxStudy.UdpConn
