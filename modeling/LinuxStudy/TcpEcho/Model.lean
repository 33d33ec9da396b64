import LinuxStudy.Transition.Runs
import LinuxStudy.Posix.Bytes

/-! One client of `tcp_echo_client.c`, with its `send_thread` and `recv_thread`, and the
connection loop of `tcp_echo_server.c`, connected by two reliable byte streams.
-/

namespace LinuxStudy.TcpEcho

open Transition Posix

/-- The size of `send_buf`, `recv_buf` and `buffer`. -/
def bufSize : Nat := 1024

/-- Inside `send_thread`. -/
inductive SendPc
  | fgets -- at `fgets(send_buf, sizeof(send_buf), stdin)`
  | measure -- at `int len = strlen(send_buf)` and the test behind it
  | send -- at `send(client_fd, send_buf, len, 0)`
  | shutdown -- at `shutdown(client_fd, SHUT_WR)`
  | finished
  deriving DecidableEq, Repr

/-- Inside `recv_thread`. -/
inductive RecvPc
  | recv -- at `memset` and `recv(client_fd, recv_buf, sizeof(recv_buf) - 1, 0)`
  | print -- at `printf("服务器: %s", recv_buf)`
  | shutdown -- at `shutdown(client_fd, SHUT_RD)`
  | finished
  deriving DecidableEq, Repr

/-- Inside the loop of the server for this connection. -/
inductive ServerPc
  | recv -- at `memset` and `recv(client_fd, buffer, sizeof(buffer) - 1, 0)`
  | print (recvLen : Nat) -- at the `printf` of the received data
  | send (recvLen : Nat) -- at `send(client_fd, buffer, recv_len, 0)`
  | close -- at `close(client_fd)`
  | closed
  deriving DecidableEq, Repr

/-- Client, server and the two streams between them. `sent`, `serverRead`, `echoed` and
`clientRead` record the bytes that have passed each `send` and `recv`, `printed` the payload
shown by the client and `logged` what the server shows. The flags say whether a `send` or a
`recv` of the client, or of the server, has failed.
-/
structure State where
  stdin : Bytes
  sendPc : SendPc
  sendBuf : Bytes
  uplink : Bytes
  uplinkEnded : Bool
  serverPc : ServerPc
  buffer : Bytes
  downlink : Bytes
  downlinkEnded : Bool
  recvPc : RecvPc
  recvBuf : Bytes
  sent : Bytes
  serverRead : Bytes
  echoed : Bytes
  clientRead : Bytes
  printed : Bytes
  logged : List Bytes
  clientFailed : Bool
  serverFailed : Bool
  deriving DecidableEq, Repr

-----------------------------------------------------------------------------------------
-- `send_thread`
-----------------------------------------------------------------------------------------

/-- `fgets` stores a line with its terminator, or returns `NULL` at the end of the input. -/
def fgets (s : State) : Option State :=
  if s.sendPc = .fgets then
    let line := fgetsLine bufSize s.stdin
    if line = [] then some { s with sendPc := .shutdown }
    else
      some { s with
        stdin := s.stdin.drop line.length
        sendBuf := overwrite s.sendBuf (line ++ [0])
        sendPc := .measure }
  else none

/-- `int len = strlen(send_buf); if (len == 0) continue;` -/
def measure (s : State) : Option State :=
  if s.sendPc = .measure then
    some { s with sendPc := if (cString s.sendBuf).length = 0 then .fgets else .send }
  else none

/-- `send` passes the whole string to the stream. -/
def clientSend (s : State) : Option State :=
  if s.sendPc = .send then
    let chunk := s.sendBuf.take (cString s.sendBuf).length
    some { s with
      uplink := s.uplink ++ chunk
      sent := s.sent ++ chunk
      sendPc := .fgets }
  else none

def clientSendFails (s : State) : Option State :=
  if s.sendPc = .send then some { s with sendPc := .shutdown, clientFailed := true } else none

/-- `shutdown(client_fd, SHUT_WR)`: the stream ends behind the bytes in flight. -/
def shutdownWrite (s : State) : Option State :=
  if s.sendPc = .shutdown then some { s with uplinkEnded := true, sendPc := .finished }
  else none

-----------------------------------------------------------------------------------------
-- The connection loop of the server
-----------------------------------------------------------------------------------------

/-- `recv` returns `n` bytes into the cleared buffer. -/
def serverRecv (s : State) (n : Nat) : Option State :=
  if s.serverPc = .recv ∧ 0 < n ∧ n ≤ s.uplink.length ∧ n ≤ bufSize - 1 then
    some { s with
      buffer := overwrite (List.replicate bufSize 0) (s.uplink.take n)
      uplink := s.uplink.drop n
      serverRead := s.serverRead ++ s.uplink.take n
      serverPc := .print n }
  else none

/-- The `printf` of the received data. -/
def serverPrint (s : State) : Option State :=
  match s.serverPc with
  | .print recvLen =>
      some { s with logged := s.logged ++ [cString s.buffer], serverPc := .send recvLen }
  | _ => none

/-- `send` passes all received bytes to the stream. -/
def serverSend (s : State) : Option State :=
  match s.serverPc with
  | .send recvLen =>
      some { s with
        downlink := s.downlink ++ s.buffer.take recvLen
        echoed := s.echoed ++ s.buffer.take recvLen
        serverPc := .recv }
  | _ => none

def serverSendFails (s : State) : Option State :=
  match s.serverPc with
  | .send _ => some { s with serverPc := .close, serverFailed := true }
  | _ => none

/-- `recv` returns 0: the client has shut down its side and all bytes are read. -/
def serverRecvEnd (s : State) : Option State :=
  if s.serverPc = .recv ∧ s.uplink = [] ∧ s.uplinkEnded = true then
    some { s with serverPc := .close }
  else none

def serverRecvFails (s : State) : Option State :=
  if s.serverPc = .recv then some { s with serverPc := .close, serverFailed := true } else none

/-- `close(client_fd)`: the stream ends behind the bytes in flight. -/
def serverClose (s : State) : Option State :=
  if s.serverPc = .close then some { s with downlinkEnded := true, serverPc := .closed }
  else none

-----------------------------------------------------------------------------------------
-- `recv_thread`
-----------------------------------------------------------------------------------------

/-- `recv` returns `n` bytes into the cleared buffer. -/
def clientRecv (s : State) (n : Nat) : Option State :=
  if s.recvPc = .recv ∧ 0 < n ∧ n ≤ s.downlink.length ∧ n ≤ bufSize - 1 then
    some { s with
      recvBuf := overwrite (List.replicate bufSize 0) (s.downlink.take n)
      downlink := s.downlink.drop n
      clientRead := s.clientRead ++ s.downlink.take n
      recvPc := .print }
  else none

/-- `printf("服务器: %s", recv_buf)` -/
def clientPrint (s : State) : Option State :=
  if s.recvPc = .print then
    some { s with printed := s.printed ++ cString s.recvBuf, recvPc := .recv }
  else none

/-- `recv` returns 0: the server has closed the connection and all bytes are read. -/
def clientRecvEnd (s : State) : Option State :=
  if s.recvPc = .recv ∧ s.downlink = [] ∧ s.downlinkEnded = true then
    some { s with recvPc := .shutdown }
  else none

def clientRecvFails (s : State) : Option State :=
  if s.recvPc = .recv then some { s with recvPc := .shutdown, clientFailed := true } else none

/-- `shutdown(client_fd, SHUT_RD)` and the end of the thread. -/
def shutdownRead (s : State) : Option State :=
  if s.recvPc = .shutdown then some { s with recvPc := .finished } else none

inductive Action
  | fgets
  | measure
  | clientSend
  | clientSendFails
  | shutdownWrite
  | serverRecv (n : Nat)
  | serverPrint
  | serverSend
  | serverSendFails
  | serverRecvEnd
  | serverRecvFails
  | serverClose
  | clientRecv (n : Nat)
  | clientPrint
  | clientRecvEnd
  | clientRecvFails
  | shutdownRead
  deriving DecidableEq, Repr

def step (s : State) : Action → Option State
  | .fgets => fgets s
  | .measure => measure s
  | .clientSend => clientSend s
  | .clientSendFails => clientSendFails s
  | .shutdownWrite => shutdownWrite s
  | .serverRecv n => serverRecv s n
  | .serverPrint => serverPrint s
  | .serverSend => serverSend s
  | .serverSendFails => serverSendFails s
  | .serverRecvEnd => serverRecvEnd s
  | .serverRecvFails => serverRecvFails s
  | .serverClose => serverClose s
  | .clientRecv n => clientRecv s n
  | .clientPrint => clientPrint s
  | .clientRecvEnd => clientRecvEnd s
  | .clientRecvFails => clientRecvFails s
  | .shutdownRead => shutdownRead s

/-- The connection is made, both threads start, and this is the standard input. -/
def start (input : Bytes) : State where
  stdin := input
  sendPc := .fgets
  sendBuf := List.replicate bufSize 0
  uplink := []
  uplinkEnded := false
  serverPc := .recv
  buffer := List.replicate bufSize 0
  downlink := []
  downlinkEnded := false
  recvPc := .recv
  recvBuf := List.replicate bufSize 0
  sent := []
  serverRead := []
  echoed := []
  clientRead := []
  printed := []
  logged := []
  clientFailed := false
  serverFailed := false

def system (input : Bytes) : System State Action where
  Initial s := s = start input
  step := step

end LinuxStudy.TcpEcho
