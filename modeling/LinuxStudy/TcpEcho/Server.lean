import LinuxStudy.TcpEcho.Model
import Mathlib.Logic.Function.Basic

/-! `tcp_echo_server.c` with any number of clients: the accept loop with the connection loop
inside it. Clients are numbered in the order in which their connections are made. What a
client's kernel answers reaches the server before its next call, as it does on one machine.
-/

namespace LinuxStudy.TcpEcho.Server

open Transition Posix

/-- One client as the server's kernel sees it. `unread` are the bytes that have arrived and no
`recv` has taken, `pending` those that `send` has passed on and the client has not read. `fin`
says that the client has ended its side, `closed` that its socket is closed besides, so that its
kernel answers further bytes with a reset, and `reset` that the connection is reset. `received`
and `echoed` record all bytes that have arrived and all that `send` has passed on.
-/
structure Client where
  unread : Bytes := []
  pending : Bytes := []
  fin : Bool := false
  closed : Bool := false
  reset : Bool := false
  received : Bytes := []
  echoed : Bytes := []
  deriving DecidableEq, Repr

/-- Inside `main`, behind `listen`; the number is that of `client_fd`'s client. -/
inductive Pc
  | accept
  | recv (client : Nat) -- at `memset` and `recv(client_fd, buffer, sizeof(buffer) - 1, 0)`
  -- inside `send(client_fd, buffer, recv_len, 0)`, which has passed so many bytes on
  | send (client recvLen passed : Nat)
  | close (client : Nat) -- at `close(client_fd)`
  | dead
  deriving DecidableEq, Repr

/-- `waiting` are the connections that are made and not yet accepted, the oldest first. -/
structure State where
  pc : Pc
  buffer : Bytes
  waiting : List Nat
  arrived : Nat
  clients : Nat → Client

def State.set (s : State) (c : Nat) (client : Client) : State :=
  { s with clients := Function.update s.clients c client }

/-- The client whose connection the server has accepted. -/
def Pc.served : Pc → Option Nat
  | .recv c | .send c _ _ | .close c => some c
  | .accept | .dead => none

/-- All clients that are connected, in the order in which the server comes to them. -/
def State.line (s : State) : List Nat := s.pc.served.toList ++ s.waiting

/-- The client has its socket open, and the connection is not reset. -/
def Client.Open (client : Client) : Prop := client.closed = false ∧ client.reset = false

instance (client : Client) : Decidable client.Open := by
  unfold Client.Open
  infer_instance

-----------------------------------------------------------------------------------------
-- The clients
-----------------------------------------------------------------------------------------

/-- A new connection is complete and waits to be accepted. -/
def connect (s : State) : Option State :=
  if s.pc = .dead then none
  else some { s with waiting := s.waiting ++ [s.arrived], arrived := s.arrived + 1 }

/-- Bytes of a client arrive. -/
def arrive (s : State) (c : Nat) (bytes : Bytes) : Option State :=
  let client := s.clients c
  if c ∈ s.line ∧ client.fin = false ∧ client.reset = false then
    some (s.set c { client with
      unread := client.unread ++ bytes
      received := client.received ++ bytes })
  else none

/-- A client reads bytes of its echo. -/
def read (s : State) (c n : Nat) : Option State :=
  let client := s.clients c
  if c ∈ s.line ∧ client.Open ∧ 0 < n ∧ n ≤ client.pending.length then
    some (s.set c { client with pending := client.pending.drop n })
  else none

/-- A client shuts down its side and keeps its socket. -/
def shutdown (s : State) (c : Nat) : Option State :=
  if c ∈ s.line ∧ (s.clients c).Open then some (s.set c { s.clients c with fin := true })
  else none

/-- A client closes its socket. Bytes that are still on their way to it are answered with a
reset.
-/
def leave (s : State) (c : Nat) : Option State :=
  let client := s.clients c
  if c ∈ s.line ∧ client.Open then
    some (s.set c
      (if client.pending = [] then { client with fin := true, closed := true }
      else { client with fin := true, reset := true }))
  else none

/-- A client resets its connection, as when it closes its socket with bytes it has not read. -/
def abort (s : State) (c : Nat) : Option State :=
  if c ∈ s.line then some (s.set c { s.clients c with reset := true }) else none

-----------------------------------------------------------------------------------------
-- The server
-----------------------------------------------------------------------------------------

/-- `accept(server_fd, ...)` -/
def accept (s : State) : Option State :=
  match s.pc, s.waiting with
  | .accept, c :: waiting => some { s with pc := .recv c, waiting }
  | _, _ => none

/-- `handle_error("accept", client_fd)` ends the process, and with it all connections. -/
def acceptFails (s : State) : Option State :=
  if s.pc = .accept then some { s with pc := .dead, waiting := [] } else none

/-- `recv` returns all that has arrived and fits, also behind a reset. -/
def recv (s : State) : Option State :=
  match s.pc with
  | .recv c =>
      let client := s.clients c
      if client.unread ≠ [] then
        let n := min client.unread.length (bufSize - 1)
        let s := s.set c { client with unread := client.unread.drop n }
        some { s with
          buffer := overwrite (List.replicate bufSize 0) (client.unread.take n)
          pc := .send c n 0 }
      else none
  | _ => none

/-- `recv` returns 0. -/
def recvEnd (s : State) : Option State :=
  match s.pc with
  | .recv c =>
      let client := s.clients c
      if client.unread = [] ∧ client.fin = true then some { s with pc := .close c } else none
  | _ => none

/-- `recv` returns -1. -/
def recvFails (s : State) : Option State :=
  match s.pc with
  | .recv c =>
      let client := s.clients c
      if client.unread = [] ∧ client.fin = false ∧ client.reset = true then
        some { s with pc := .close c }
      else none
  | _ => none

/-- `send` passes `k` more bytes on. The two kernels hold `room` bytes of the echo for a client;
with more than that the call waits for the client to read.
-/
def send (room : Nat → Nat) (s : State) (k : Nat) : Option State :=
  match s.pc with
  | .send c recvLen passed =>
      let client := s.clients c
      if client.Open ∧ 0 < k ∧ k ≤ recvLen - passed ∧ client.pending.length + k ≤ room c then
        let chunk := ((s.buffer.take recvLen).drop passed).take k
        let s := s.set c { client with
          pending := client.pending ++ chunk
          echoed := client.echoed ++ chunk }
        some { s with
          pc := if passed + k = recvLen then .recv c else .send c recvLen (passed + k) }
      else none
  | _ => none

/-- `send` passes the rest on to a client that has closed its socket, whose kernel answers with a
reset.
-/
def sendAnswered (s : State) : Option State :=
  match s.pc with
  | .send c _ _ =>
      let client := s.clients c
      if client.closed = true ∧ client.reset = false then
        let s := s.set c { client with reset := true }
        some { s with pc := .recv c }
      else none
  | _ => none

/-- `send` on a connection that is reset. What was passed on before is the result; otherwise
it returns -1, or raises `SIGPIPE` if the client had ended its side before the reset. The program
neither handles nor ignores that signal.
-/
def sendBroken (s : State) : Option State :=
  match s.pc with
  | .send c _ passed =>
      let client := s.clients c
      if client.reset = true then
        if 0 < passed then some { s with pc := .recv c }
        else if client.fin = true then some { s with pc := .dead, waiting := [] }
        else some { s with pc := .close c }
      else none
  | _ => none

/-- `close(client_fd)` -/
def close (s : State) : Option State :=
  match s.pc with
  | .close _ => some { s with pc := .accept }
  | _ => none

inductive Action
  | connect
  | arrive (c : Nat) (bytes : Bytes)
  | read (c n : Nat)
  | shutdown (c : Nat)
  | leave (c : Nat)
  | abort (c : Nat)
  | accept
  | acceptFails
  | recv
  | recvEnd
  | recvFails
  | send (k : Nat)
  | sendAnswered
  | sendBroken
  | close
  deriving DecidableEq, Repr

def step (room : Nat → Nat) (s : State) : Action → Option State
  | .connect => connect s
  | .arrive c bytes => arrive s c bytes
  | .read c n => read s c n
  | .shutdown c => shutdown s c
  | .leave c => leave s c
  | .abort c => abort s c
  | .accept => accept s
  | .acceptFails => acceptFails s
  | .recv => recv s
  | .recvEnd => recvEnd s
  | .recvFails => recvFails s
  | .send k => send room s k
  | .sendAnswered => sendAnswered s
  | .sendBroken => sendBroken s
  | .close => close s

/-- The steps of the server, as opposed to those of a client. -/
def Action.isServer : Action → Bool
  | .connect | .arrive .. | .read .. | .shutdown _ | .leave _ | .abort _ => false
  | .accept | .acceptFails | .recv | .recvEnd | .recvFails | .send _ | .sendAnswered
  | .sendBroken | .close => true

/-- The server waits for its first client. -/
def start : State where
  pc := .accept
  buffer := List.replicate bufSize 0
  waiting := []
  arrived := 0
  clients := fun _ => {}

def system (room : Nat → Nat) : System State Action where
  Initial s := s = start
  step := step room

end LinuxStudy.TcpEcho.Server
