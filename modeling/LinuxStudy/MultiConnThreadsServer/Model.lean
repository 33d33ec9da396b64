import LinuxStudy.Transition.Runs
import LinuxStudy.MultiConn.Connection
import LinuxStudy.Posix.DescriptorTable
import Mathlib.Logic.Function.Basic

/-! `multi_conn_threads_server.c`: the accept loop of `main` and one detached thread for each
client, interleaved call by call. All threads get the address of the one variable `clientfd`
of `main`. The server starts at its first `accept`.
-/

namespace LinuxStudy.MultiConnThreadsServer

open Transition Posix MultiConn

/-- Inside `read_from_write_thread`. -/
inductive Pc
  | start -- at `int clientfd = *(int *)arg`
  | allocate -- at the two calls of `malloc`
  | recv -- at `recv(clientfd, read_buf, 1024, 0)`
  | send -- at `send(clientfd, write_buf, strlen(write_buf), 0)`
  | closing -- at `close(clientfd)`
  | finished
  deriving DecidableEq, Repr

/-- A detached thread. `clientfd` is its own variable, where `none` stands for a negative
number; `connection` records which connection `main` accepted last before it was created.
-/
structure Thread where
  connection : Nat
  clientfd : Option Nat := none
  readBuf : Bytes := List.replicate bufSize 0
  pc : Pc := .start
  deriving DecidableEq, Repr

/-- Inside the `while` loop of `main`. -/
inductive MainPc
  | accept
  | check -- at `handle_error("accept", clientfd)`
  | create -- at `pthread_create`
  | dead
  deriving DecidableEq, Repr

/-- The process and its sockets. `clientfd` is the variable of `main`; `accepted` lists the
connections in the order of the calls of `accept`; `printed` is the text shown for each
descriptor.
-/
structure State where
  socketfd : Nat
  main : MainPc
  clientfd : Option Nat
  table : Table File
  threads : List Thread
  backlog : List Nat
  connected : Nat
  connections : Nat → Connection
  accepted : List Nat
  printed : List (Option Nat × Bytes)

def State.setConnection (s : State) (c : Nat) (connection : Connection) : State :=
  { s with connections := Function.update s.connections c connection }

def State.setThread (s : State) (i : Nat) (thread : Thread) : State :=
  { s with threads := s.threads.set i thread }

/-- The connection behind a thread's descriptor, if it is one. -/
def State.connection? (s : State) (clientfd : Option Nat) : Option Nat :=
  match clientfd.bind s.table.lookup with
  | some (.client c) => some c
  | _ => none

/-- A client connects; its connection waits in the accept queue. -/
def connect (s : State) : State :=
  { s with
    connected := s.connected + 1
    backlog := s.backlog ++ [s.connected]
    connections := Function.update s.connections s.connected {} }

-----------------------------------------------------------------------------------------
-- The calls of `main`
-----------------------------------------------------------------------------------------

/-- `accept` takes the first waiting connection under the lowest free number. -/
def acceptClient (s : State) : Option State :=
  match s.main, s.backlog with
  | .accept, c :: rest =>
      some { s with
        backlog := rest
        table := s.table.allocate (.client c)
        clientfd := some s.table.lowestFree
        accepted := s.accepted ++ [c]
        main := .check }
  | _, _ => none

/-- `accept` returns -1, which is stored like any other result. -/
def acceptFails (s : State) : Option State :=
  if s.main = .accept then some { s with clientfd := none, main := .check } else none

/-- `handle_error("accept", clientfd)` -/
def checkAccept (s : State) : Option State :=
  if s.main = .check then
    some { s with main := if s.clientfd = none then .dead else .create }
  else none

/-- `pthread_create(&pid_read, NULL, read_from_write_thread, (void *)&clientfd)` -/
def createThread (s : State) : Option State :=
  if s.main = .create then
    (s.accepted.getLast?).map fun c =>
      { s with threads := s.threads ++ [{ connection := c }], main := .accept }
  else none

/-- `pthread_create` fails. `handle_error` tests `pid_read < 0`, which is false for the
unsigned `pthread_t`, and the loop goes on.
-/
def createFails (s : State) : Option State :=
  if s.main = .create then some { s with main := .accept } else none

-----------------------------------------------------------------------------------------
-- The calls of a thread
-----------------------------------------------------------------------------------------

inductive Call
  | readArgument
  | allocate
  | allocateFails
  | recvData (n : Nat)
  | recvEnd
  | recvError
  | sendReply (k : Nat)
  | sendFails
  | close
  deriving DecidableEq, Repr

/-- `int clientfd = *(int *)arg` reads the variable of `main`. -/
def readArgument (s : State) (i : Nat) (thread : Thread) : Option State :=
  if thread.pc = .start then
    some (s.setThread i { thread with clientfd := s.clientfd, pc := .allocate })
  else none

/-- Both calls of `malloc` succeed, or one fails and the thread gives up its client. -/
def allocate (s : State) (i : Nat) (thread : Thread) (succeeds : Bool) : Option State :=
  if thread.pc = .allocate then
    some (s.setThread i { thread with pc := if succeeds then .recv else .closing })
  else none

/-- `recv` returns `n` bytes, and the buffer is shown as a string. -/
def recvData (s : State) (i : Nat) (thread : Thread) (n : Nat) : Option State :=
  if thread.pc = .recv then
    (s.connection? thread.clientfd).bind fun c =>
      let connection := s.connections c
      if connection.offers n then
        let readBuf := overwrite thread.readBuf (connection.unread.take n)
        some { (s.setConnection c (connection.takes n)).setThread i
            { thread with readBuf, pc := .send } with
          printed := s.printed ++ [(thread.clientfd, cString readBuf)] }
      else none
  else none

/-- `recv` returns 0. -/
def recvEnd (s : State) (i : Nat) (thread : Thread) : Option State :=
  if thread.pc = .recv then
    (s.connection? thread.clientfd).bind fun c =>
      if (s.connections c).ended then some (s.setThread i { thread with pc := .closing })
      else none
  else none

/-- `recv` returns -1. -/
def recvError (s : State) (i : Nat) (thread : Thread) : Option State :=
  if thread.pc = .recv then some (s.setThread i { thread with pc := .closing }) else none

/-- `send` accepts the first `k` bytes of the reply; any positive count continues the loop. -/
def sendReply (s : State) (i : Nat) (thread : Thread) (k : Nat) : Option State :=
  if thread.pc = .send then
    (s.connection? thread.clientfd).bind fun c =>
      let connection := s.connections c
      if 0 < k ∧ k ≤ reply.length ∧ connection.reset = false then
        some ((s.setConnection c (connection.answers k)).setThread i { thread with pc := .recv })
      else none
  else none

/-- `send` on a connection reset by its peer, or on no connection: it returns -1 and
`handle_error("send", send_count)` exits, or `SIGPIPE` ends the process first.
-/
def sendFails (s : State) (thread : Thread) : Option State :=
  if thread.pc = .send then
    match s.connection? thread.clientfd with
    | some c => if (s.connections c).reset = true then some { s with main := .dead } else none
    | none => some { s with main := .dead }
  else none

/-- `close(clientfd)` and the end of the thread. -/
def close (s : State) (i : Nat) (thread : Thread) : Option State :=
  if thread.pc = .closing then
    let table := match thread.clientfd with
      | some fd => s.table.close fd
      | none => s.table
    some { s.setThread i { thread with pc := .finished } with table }
  else none

/-- Thread `i` makes its next call. -/
def readFromWriteThread (s : State) (i : Nat) (thread : Thread) : Call → Option State
  | .readArgument => readArgument s i thread
  | .allocate => allocate s i thread true
  | .allocateFails => allocate s i thread false
  | .recvData n => recvData s i thread n
  | .recvEnd => recvEnd s i thread
  | .recvError => recvError s i thread
  | .sendReply k => sendReply s i thread k
  | .sendFails => sendFails s thread
  | .close => close s i thread

inductive Action
  | connect
  | arrive (c : Nat) (bytes : Bytes)
  | endStream (c : Nat)
  | resetPeer (c : Nat)
  | acceptClient
  | acceptFails
  | checkAccept
  | createThread
  | createFails
  | thread (i : Nat) (call : Call)
  deriving DecidableEq, Repr

def step (s : State) : Action → Option State
  | .connect => some (connect s)
  | .arrive c bytes =>
      let connection := s.connections c
      if c < s.connected ∧ connection.streaming ∧ bytes ≠ [] then
        some (s.setConnection c { connection with unread := connection.unread ++ bytes })
      else none
  | .endStream c =>
      if c < s.connected ∧ (s.connections c).streaming then
        some (s.setConnection c { s.connections c with eof := true })
      else none
  | .resetPeer c =>
      if c < s.connected ∧ (s.connections c).reset = false then
        some (s.setConnection c { s.connections c with reset := true })
      else none
  | .acceptClient => acceptClient s
  | .acceptFails => acceptFails s
  | .checkAccept => checkAccept s
  | .createThread => createThread s
  | .createFails => createFails s
  | .thread i call =>
      if s.main = .dead then none
      else (s.threads[i]?).bind fun thread => readFromWriteThread s i thread call

/-- The server listens, has no other socket and no thread. -/
structure Started (s : State) : Prop where
  server : s.table.lookup s.socketfd = some .listening
  no_clients : ∀ fd c, s.table.lookup fd ≠ some (.client c)
  main : s.main = .accept
  threads : s.threads = []
  backlog : s.backlog = []
  connected : s.connected = 0
  connections : ∀ c, s.connections c = {}
  accepted : s.accepted = []
  printed : s.printed = []

/-- A server whose listening socket follows the standard descriptors. -/
def start : State where
  socketfd := 3
  main := .accept
  clientfd := none
  table := ⟨[some .standard, some .standard, some .standard, some .listening]⟩
  threads := []
  backlog := []
  connected := 0
  connections := fun _ => {}
  accepted := []
  printed := []

theorem start_started : Started start where
  server := rfl
  no_clients fd c := by
    rcases fd with _ | _ | _ | _ | fd <;> simp [start, Table.lookup]
  main := rfl
  threads := rfl
  backlog := rfl
  connected := rfl
  connections _ := rfl
  accepted := rfl
  printed := rfl

def system : System State Action where
  Initial := Started
  step := step

end LinuxStudy.MultiConnThreadsServer
