import LinuxStudy.Transition.Runs
import LinuxStudy.MultiConn.Connection
import LinuxStudy.Posix.DescriptorTable
import Mathlib.Algebra.GroupWithZero.Nat
import Mathlib.Logic.Function.Basic

/-! `multi_conn_process_server.c`: the accept loop of the parent, one forked child for each
client, and `zombie_handler` on `SIGCHLD`. Every process has a descriptor table of its own,
copied by `fork`. The server starts at its first `accept`.
-/

namespace LinuxStudy.MultiConnProcessServer

open Transition Posix MultiConn

/-- How a child ended, as `waitpid` reports it. -/
inductive Status
  | exited (code : Nat)
  | signaled (signal : Nat)
  deriving DecidableEq, Repr

/-- The branch of `main` for `pid == 0`, with `read_from_write_thread` inside it. -/
inductive ChildPc
  | closeListening -- at `close(socketfd)`
  | allocate -- at the two calls of `malloc`
  | recv -- at `recv(clientfd, read_buf, 1024, 0)`
  | send -- at `send(clientfd, write_buf, strlen(write_buf), 0)`
  | handlerClose -- at `close(clientfd)` in `read_from_write_thread`
  | secondClose -- at `close(clientfd)` behind the call
  | exit -- at `_exit(0)`
  | zombie (status : Status)
  | reaped
  deriving DecidableEq, Repr

/-- A child with its own descriptor table. Its number in the list of children stands for its
process number; `connection` records which connection the parent accepted last before `fork`.
-/
structure Child where
  connection : Nat
  clientfd : Option Nat
  table : Table File
  readBuf : Bytes := List.replicate bufSize 0
  pc : ChildPc := .closeListening
  deriving DecidableEq, Repr

/-- The `while` loop of the parent. -/
inductive MainPc
  | accept
  | interrupted -- inside `accept` when a signal was caught
  | testResult -- at `clientfd < 0`
  | testErrno -- at `errno == EINTR`
  | fork
  | closeClient -- at `close(clientfd)` of the parent
  | dead
  deriving DecidableEq, Repr

/-- Inside `zombie_handler`; `SIGCHLD` is blocked unless the handler is `idle`. -/
inductive HandlerPc
  | idle
  | waitpid -- at the condition of the `while` loop
  | report (pid : Nat) (status : Status) -- in the loop, at `printf` and `fflush`
  | returning -- behind the loop
  deriving DecidableEq, Repr

/-- The values of `errno` that the program can tell apart. -/
inductive Errno
  | interrupted -- `EINTR`
  | noChild -- `ECHILD`
  | other
  deriving DecidableEq, Repr

/-- The parent, its children and the sockets. `accepted` lists the connections in the order of
the calls of `accept`, `released` those the parent has closed after `fork`, `reaped` the
children in the order in which `waitpid` returned them.
-/
structure State where
  socketfd : Nat
  main : MainPc
  clientfd : Option Nat
  errno : Errno
  table : Table File
  children : List Child
  handler : HandlerPc
  pending : Bool
  backlog : List Nat
  connected : Nat
  connections : Nat → Connection
  accepted : List Nat
  released : List Nat
  reaped : List Nat
  reports : List (Nat × Status)
  printed : List (Option Nat × Bytes)

def State.setConnection (s : State) (c : Nat) (connection : Connection) : State :=
  { s with connections := Function.update s.connections c connection }

def State.setChild (s : State) (i : Nat) (child : Child) : State :=
  { s with children := s.children.set i child }

/-- `close(fd)` in one process; a negative number closes nothing. -/
def closeFd (table : Table File) (fd : Option Nat) : Table File :=
  match fd with
  | some fd => table.close fd
  | none => table

/-- The connection behind a child's descriptor, if it is one. -/
def Child.connection? (child : Child) : Option Nat :=
  match child.clientfd.bind child.table.lookup with
  | some (.client c) => some c
  | _ => none

/-- How many descriptors of all processes refer to a connection. -/
def State.references (s : State) (c : Nat) : Nat :=
  s.table.references (.client c)
  + (s.children.map fun child => child.table.references (.client c)).sum

/-- A client connects; its connection waits in the accept queue. -/
def connect (s : State) : State :=
  { s with
    connected := s.connected + 1
    backlog := s.backlog ++ [s.connected]
    connections := Function.update s.connections s.connected {} }

-----------------------------------------------------------------------------------------
-- The parent
-----------------------------------------------------------------------------------------

/-- The parent runs only while its handler does not. -/
def State.at (s : State) (pc : MainPc) : Prop := s.main = pc ∧ s.handler = .idle

instance (s : State) (pc : MainPc) : Decidable (s.at pc) := by
  unfold State.at
  infer_instance

/-- `accept` takes the first waiting connection under the lowest free number. -/
def acceptClient (s : State) : Option State :=
  match s.backlog with
  | c :: rest =>
      if s.at .accept then
        some { s with
          backlog := rest
          table := s.table.allocate (.client c)
          clientfd := some s.table.lowestFree
          accepted := s.accepted ++ [c]
          main := .testResult }
      else none
  | [] => none

/-- `accept` returns -1: interrupted by a signal, or with any other error. -/
def acceptFails (s : State) (errno : Errno) : Option State :=
  if s.at .interrupted ∧ errno = .interrupted ∨ s.at .accept ∧ errno = .other then
    some { s with clientfd := none, errno, main := .testResult }
  else none

/-- `if(clientfd < 0)` -/
def testResult (s : State) : Option State :=
  if s.at .testResult then
    some { s with main := if s.clientfd = none then .testErrno else .fork }
  else none

/-- `if(errno == EINTR) continue`, and otherwise `handle_error` ends the server: its
descriptors are closed, and `init` takes over its children and collects the ended ones.
-/
def testErrno (s : State) : Option State :=
  if s.at .testErrno then
    if s.errno = .interrupted then some { s with main := .accept }
    else
      some { s with
        main := .dead
        table := .empty
        children := s.children.map fun child =>
          match child.pc with
          | .zombie _ => { child with pc := .reaped }
          | _ => child }
  else none

/-- `fork` copies the descriptor table and the variables. -/
def forkChild (s : State) : Option State :=
  if s.at .fork then
    (s.accepted.getLast?).map fun connection =>
      { s with
        children :=
          s.children ++ [{ connection, clientfd := s.clientfd, table := s.table }]
        main := .closeClient }
  else none

/-- `fork` returns -1, which leads to the parent's branch. -/
def forkFails (s : State) : Option State :=
  if s.at .fork then some { s with main := .closeClient } else none

/-- `close(clientfd)` of the parent. -/
def closeClient (s : State) : Option State :=
  if s.at .closeClient then
    some { s with
      table := closeFd s.table s.clientfd
      released := s.released ++ s.accepted.getLast?.toList
      main := .accept }
  else none

-----------------------------------------------------------------------------------------
-- Signals
-----------------------------------------------------------------------------------------

/-- The pending `SIGCHLD` is delivered. It interrupts `accept` or, as with `SA_RESTART`,
does not.
-/
def deliverSignal (s : State) (interrupts : Bool) : Option State :=
  if s.pending = true ∧ s.handler = .idle ∧ s.main ≠ .dead
      ∧ (interrupts = true → s.main = .accept) then
    some { s with
      pending := false
      handler := .waitpid
      main := if interrupts then .interrupted else s.main }
  else none

/-- `waitpid(-1, &status, WNOHANG)` reaps an ended child. -/
def waitpidReaps (s : State) (pid : Nat) : Option State :=
  if s.handler = .waitpid then
    (s.children[pid]?).bind fun child =>
      match child.pc with
      | .zombie status =>
          some { s.setChild pid { child with pc := .reaped } with
            reaped := s.reaped ++ [pid]
            handler := .report pid status }
      | _ => none
  else none

/-- A child that the parent has not reaped. -/
def Child.unreaped (child : Child) : Prop := child.pc ≠ .reaped

instance (child : Child) : Decidable child.unreaped := by
  unfold Child.unreaped
  infer_instance

/-- An ended child that the parent has not reaped. -/
def Child.ended (child : Child) : Prop := ∃ status, child.pc = .zombie status

instance (child : Child) : Decidable child.ended :=
  match here : child.pc with
  | .zombie status => isTrue ⟨status, here⟩
  | .closeListening | .allocate | .recv | .send | .handlerClose | .secondClose | .exit
  | .reaped => isFalse (by simp [Child.ended, here])

/-- `waitpid` finds no ended child: it returns 0, or -1 with `ECHILD` when there is no child
at all.
-/
def waitpidDone (s : State) : Option State :=
  if s.handler = .waitpid ∧ ∀ child ∈ s.children, ¬ child.ended then
    some { s with
      handler := .returning
      errno := if ∃ child ∈ s.children, child.unreaped then s.errno else .noChild }
  else none

/-- The `printf` for a child that exited or was killed, and `fflush`. -/
def reportChild (s : State) : Option State :=
  match s.handler with
  | .report pid status =>
      some { s with handler := .waitpid, reports := s.reports ++ [(pid, status)] }
  | _ => none

def handlerReturns (s : State) : Option State :=
  if s.handler = .returning then some { s with handler := .idle } else none

-----------------------------------------------------------------------------------------
-- A child
-----------------------------------------------------------------------------------------

inductive Call
  | closeListening
  | allocate
  | allocateFails
  | recvData (n : Nat)
  | recvEnd
  | recvError
  | sendReply (k : Nat)
  | sendFails
  | handlerClose
  | secondClose
  | exit
  | killed (signal : Nat)
  deriving DecidableEq, Repr

/-- A child ends: its descriptors are closed and the parent gets `SIGCHLD`. Without a parent
it is collected by `init`.
-/
def endChild (s : State) (i : Nat) (child : Child) (status : Status) : State :=
  if s.main = .dead then s.setChild i { child with table := .empty, pc := .reaped }
  else
    { s.setChild i { child with table := .empty, pc := .zombie status } with pending := true }

/-- `close(socketfd)` -/
def closeListening (s : State) (i : Nat) (child : Child) : Option State :=
  if child.pc = .closeListening then
    some (s.setChild i { child with table := child.table.close s.socketfd, pc := .allocate })
  else none

/-- Both calls of `malloc` succeed, or one fails and the handler gives up. -/
def allocate (s : State) (i : Nat) (child : Child) (succeeds : Bool) : Option State :=
  if child.pc = .allocate then
    some (s.setChild i { child with pc := if succeeds then .recv else .handlerClose })
  else none

/-- `recv` returns `n` bytes, and the buffer is shown as a string. -/
def recvData (s : State) (i : Nat) (child : Child) (n : Nat) : Option State :=
  if child.pc = .recv then
    child.connection?.bind fun c =>
      let connection := s.connections c
      if connection.offers n then
        let readBuf := overwrite child.readBuf (connection.unread.take n)
        some { (s.setConnection c (connection.takes n)).setChild i
            { child with readBuf, pc := .send } with
          printed := s.printed ++ [(child.clientfd, cString readBuf)] }
      else none
  else none

/-- `recv` returns 0. -/
def recvEnd (s : State) (i : Nat) (child : Child) : Option State :=
  if child.pc = .recv then
    child.connection?.bind fun c =>
      if (s.connections c).ended then some (s.setChild i { child with pc := .handlerClose })
      else none
  else none

/-- `recv` returns -1. -/
def recvError (s : State) (i : Nat) (child : Child) : Option State :=
  if child.pc = .recv then some (s.setChild i { child with pc := .handlerClose }) else none

/-- `send` accepts the first `k` bytes of the reply; any positive count continues the loop. -/
def sendReply (s : State) (i : Nat) (child : Child) (k : Nat) : Option State :=
  if child.pc = .send then
    child.connection?.bind fun c =>
      let connection := s.connections c
      if 0 < k ∧ k ≤ reply.length ∧ connection.reset = false then
        some ((s.setConnection c (connection.answers k)).setChild i { child with pc := .recv })
      else none
  else none

/-- `send` returns -1 and `handle_error("send", send_count)` exits with `EXIT_FAILURE`. -/
def sendFails (s : State) (i : Nat) (child : Child) : Option State :=
  if child.pc = .send then some (endChild s i child (.exited 1)) else none

/-- `close(clientfd)` at the end of the handler. -/
def handlerClose (s : State) (i : Nat) (child : Child) : Option State :=
  if child.pc = .handlerClose then
    some (s.setChild i
      { child with table := closeFd child.table child.clientfd, pc := .secondClose })
  else none

/-- `close(clientfd)` again, behind the call of the handler. -/
def secondClose (s : State) (i : Nat) (child : Child) : Option State :=
  if child.pc = .secondClose then
    some (s.setChild i { child with table := closeFd child.table child.clientfd, pc := .exit })
  else none

/-- `_exit(0)` -/
def exit (s : State) (i : Nat) (child : Child) : Option State :=
  if child.pc = .exit then some (endChild s i child (.exited 0)) else none

/-- A signal ends the child at any point. -/
def killed (s : State) (i : Nat) (child : Child) (signal : Nat) : Option State :=
  if child.unreaped ∧ ¬ child.ended then some (endChild s i child (.signaled signal)) else none

/-- Child `i` makes its next call. -/
def childStep (s : State) (i : Nat) (child : Child) : Call → Option State
  | .closeListening => closeListening s i child
  | .allocate => allocate s i child true
  | .allocateFails => allocate s i child false
  | .recvData n => recvData s i child n
  | .recvEnd => recvEnd s i child
  | .recvError => recvError s i child
  | .sendReply k => sendReply s i child k
  | .sendFails => sendFails s i child
  | .handlerClose => handlerClose s i child
  | .secondClose => secondClose s i child
  | .exit => exit s i child
  | .killed signal => killed s i child signal

inductive Action
  | connect
  | arrive (c : Nat) (bytes : Bytes)
  | endStream (c : Nat)
  | resetPeer (c : Nat)
  | acceptClient
  | acceptFails (errno : Errno)
  | testResult
  | testErrno
  | forkChild
  | forkFails
  | closeClient
  | deliverSignal (interrupts : Bool)
  | waitpidReaps (pid : Nat)
  | waitpidDone
  | reportChild
  | handlerReturns
  | child (i : Nat) (call : Call)
  deriving DecidableEq, Repr

def step (s : State) : Action → Option State
  | .connect => some (connect s)
  | .arrive c bytes =>
      let connection := s.connections c
      if c < s.connected ∧ connection.streaming ∧ bytes ≠ [] then
        some (s.setConnection c { connection with unread := connection.unread ++ bytes })
      else none
  | .endStream c =>
      if c < s.connected ∧ (s.connections c).streaming then
        some (s.setConnection c { s.connections c with eof := true })
      else none
  | .resetPeer c =>
      if c < s.connected ∧ (s.connections c).reset = false then
        some (s.setConnection c { s.connections c with reset := true })
      else none
  | .acceptClient => acceptClient s
  | .acceptFails errno => acceptFails s errno
  | .testResult => testResult s
  | .testErrno => testErrno s
  | .forkChild => forkChild s
  | .forkFails => forkFails s
  | .closeClient => closeClient s
  | .deliverSignal interrupts => deliverSignal s interrupts
  | .waitpidReaps pid => waitpidReaps s pid
  | .waitpidDone => waitpidDone s
  | .reportChild => reportChild s
  | .handlerReturns => handlerReturns s
  | .child i call => (s.children[i]?).bind fun child => childStep s i child call

/-- The server listens, has no other socket and no child. -/
structure Started (s : State) : Prop where
  server : ∀ fd, s.table.lookup fd = some .listening ↔ fd = s.socketfd
  no_clients : ∀ fd c, s.table.lookup fd ≠ some (.client c)
  main : s.main = .accept
  children : s.children = []
  handler : s.handler = .idle
  pending : s.pending = false
  backlog : s.backlog = []
  connected : s.connected = 0
  connections : ∀ c, s.connections c = {}
  accepted : s.accepted = []
  released : s.released = []
  reaped : s.reaped = []
  reports : s.reports = []
  printed : s.printed = []

/-- A server whose listening socket follows the standard descriptors. -/
def start : State where
  socketfd := 3
  main := .accept
  clientfd := none
  errno := .other
  table := ⟨[some .standard, some .standard, some .standard, some .listening]⟩
  children := []
  handler := .idle
  pending := false
  backlog := []
  connected := 0
  connections := fun _ => {}
  accepted := []
  released := []
  reaped := []
  reports := []
  printed := []

theorem start_started : Started start where
  server fd := by
    rcases fd with _ | _ | _ | _ | fd <;> simp [start, Table.lookup]
  no_clients fd c := by
    rcases fd with _ | _ | _ | _ | fd <;> simp [start, Table.lookup]
  main := rfl
  children := rfl
  handler := rfl
  pending := rfl
  backlog := rfl
  connected := rfl
  connections _ := rfl
  accepted := rfl
  released := rfl
  reaped := rfl
  reports := rfl
  printed := rfl

def system : System State Action where
  Initial := Started
  step := step

end LinuxStudy.MultiConnProcessServer
