import LinuxStudy.SocketIpc.Serving

/-! The two sides of `socket_ipc_communication.c` together: `client_func` with the loop of
`server_func` that has accepted it.
-/

namespace LinuxStudy.SocketIpc.WithClient

open Transition Posix

/-- `"Hello,Server!"` -/
def helloText : Bytes := [72, 101, 108, 108, 111, 44, 83, 101, 114, 118, 101, 114, 33]

/-- Inside `client_func`, behind `connect`, and in `main` behind it. -/
inductive ClientPc
  | sendHello -- at `strcpy` and `send`
  | recvReply -- at `memset` and `recv`
  | printReply
  | sendEof
  | recvEnd
  | printEnd
  | close -- at `close(socketfd)` in `main`
  | gone
  | dead -- by `handle_error` or `SIGPIPE`
  deriving DecidableEq, Repr

/-- `unread` has arrived from the server. `printed` are the texts shown, and `beyond` says that
`printf` has read behind the end of `buffer`.
-/
structure Client where
  pc : ClientPc
  unread : Bytes
  buffer : Bytes
  printed : List Bytes
  beyond : Bool
  deriving DecidableEq, Repr

structure State where
  server : SocketIpc.State
  client : Client
  deriving DecidableEq, Repr

/-- The statement behind a `recv` or a `printf`. -/
def ClientPc.next : ClientPc → ClientPc
  | .recvReply => .printReply
  | .printReply => .sendEof
  | .recvEnd => .printEnd
  | .printEnd => .close
  | pc => pc

def ClientPc.receives (pc : ClientPc) : Bool := pc = .recvReply || pc = .recvEnd

def ClientPc.prints (pc : ClientPc) : Bool := pc = .printReply || pc = .printEnd

/-- The process ends, and its socket is closed with it. -/
def die (s : State) : State where
  server := { s.server with eof := true, gone := true }
  client := { s.client with pc := .dead }

/-- `strcpy(buffer, text)` and `send`, which is deadly when the server has left. -/
def send (s : State) (text : Bytes) (behind : ClientPc) : Option State :=
  let copied := { s with
    client := { s.client with buffer := overwrite s.client.buffer (text ++ [0]) } }
  if s.server.pc.left then some (die copied)
  else
    (arrive s.server text).map fun server =>
      { server, client := { copied.client with pc := behind } }

/-- `memset` and a `recv` that returns `n` bytes. -/
def recv (s : State) (n : Nat) : Option State :=
  if s.client.pc.receives ∧ 0 < n ∧ n ≤ s.client.unread.length ∧ n ≤ bufferSize then
    some { s with
      client := { s.client with
        buffer := overwrite (List.replicate bufferSize 0) (s.client.unread.take n)
        unread := s.client.unread.drop n
        pc := s.client.pc.next } }
  else none

/-- `recv` returns 0: the server has left, and all its answers are read. -/
def recvNothing (s : State) : Option State :=
  if s.client.pc.receives ∧ s.client.unread = [] ∧ s.server.pc.left then
    some { s with
      client := { s.client with
        buffer := List.replicate bufferSize 0
        pc := s.client.pc.next } }
  else none

/-- `recv` returns -1: the server has left with bytes unread. -/
def recvFails (s : State) : Option State :=
  if s.client.pc.receives ∧ s.server.pc.left ∧ s.server.unread ≠ [] then some (die s) else none

/-- `printf("接收到服务器消息: %s\n", buffer)` and the `printf` behind the second `recv`. -/
def print (s : State) : Option State :=
  if s.client.pc.prints then
    some { s with
      client := { s.client with
        printed := s.client.printed ++ (stringIn s.client.buffer).toList
        beyond := s.client.beyond || (stringIn s.client.buffer).isNone
        pc := s.client.pc.next } }
  else none

inductive ClientAction
  | send
  | recv (n : Nat)
  | recvNothing
  | recvFails
  | print
  | close
  deriving DecidableEq, Repr

/-- One statement of `client_func` and of the `close` behind it. -/
def clientFunc (s : State) : ClientAction → Option State
  | .send =>
      match s.client.pc with
      | .sendHello => send s helloText .recvReply
      | .sendEof => send s eofText .recvEnd
      | _ => none
  | .recv n => recv s n
  | .recvNothing => recvNothing s
  | .recvFails => recvFails s
  | .print => print s
  | .close =>
      if s.client.pc = .close then
        (close s.server).map fun server => { server, client := { s.client with pc := .gone } }
      else none

inductive ServerAction
  | memset
  | recvData (n : Nat)
  | recvEnd
  | recvError
  | strcmp
  | print
  | send
  deriving DecidableEq, Repr

/-- The same statement in the model of `server_func` alone. -/
def ServerAction.alone : ServerAction → SocketIpc.Action
  | .memset => .memset
  | .recvData n => .recvData n
  | .recvEnd => .recvEnd
  | .recvError => .recvError
  | .strcmp => .strcmp
  | .print => .print
  | .send => .send

/-- One statement of the loop of `server_func`. A `recv` fails when the client has closed its
socket with answers unread. An answer arrives at the client as long as it is there.
-/
def serverFunc (s : State) (action : ServerAction) : Option State :=
  if action = .recvError ∧ s.client.unread = [] then none
  else
    (SocketIpc.step s.server action.alone).map fun server =>
      { server
        client :=
          if action = .send ∧ s.server.gone = false then
            { s.client with unread := s.client.unread ++ okText }
          else s.client }

inductive Action
  | client (action : ClientAction)
  | server (action : ServerAction)
  deriving DecidableEq, Repr

def step (s : State) : Action → Option State
  | .client action => clientFunc s action
  | .server action => serverFunc s action

/-- The connection is made. Each process has its own `buffer`. -/
def start (server client : Memory) : State where
  server := SocketIpc.start server
  client :=
    { pc := .sendHello, unread := [], buffer := client.bytes, printed := [], beyond := false }

def system (server client : Memory) : System State Action where
  Initial s := s = start server client
  step := step

/-- The bytes of the results that a log lists. -/
def received : List Entry → Bytes
  | [] => []
  | .result bytes :: rest => bytes ++ received rest
  | .ok :: rest => received rest

/-- Every `recv` returns all that has arrived. -/
def WholeReads (s : State) : Action → Prop
  | .client (.recv n) => n = s.client.unread.length
  | .server (.recvData n) => n = s.server.unread.length
  | _ => True

end LinuxStudy.SocketIpc.WithClient
