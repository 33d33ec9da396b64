import LinuxStudy.Posix.Numerals
import LinuxStudy.TcpEcho.EndToEnd

/-! `tcp_echo_client.c` as a whole with `tcp_echo_server.c`: any number of workers share one
standard input, and the server comes to their connections one after the other.
-/

namespace LinuxStudy.TcpEcho.ManyClients

open Transition Posix

/-- `client_count`, from the arguments behind the program's name. -/
def clientCount : List Bytes → Nat
  | [] => 1
  | argument :: _ => if atoi argument ≤ 0 then 1 else (atoi argument).toNat

/-- The second argument of `listen`. -/
def backlog : Nat := 10

/-- Inside `client_worker`. -/
inductive WorkerPc
  | unborn
  | connect -- at `socket` and `connect`
  | running -- `send_thread` and `recv_thread` run, at the two joins
  | closed -- behind `close(client_fd)`
  deriving DecidableEq, Repr

/-- A worker with its two threads and its connection. The connection has no input of its own:
its `stdin` stays empty, and `fgets` reads the input of the process.
-/
structure Worker where
  pc : WorkerPc
  connection : TcpEcho.State
  deriving DecidableEq, Repr

/-- `created` and `joined` are the counters of the two loops of `main`. `waiting` are the
connections that are made and not accepted, and `serving` is the server's `client_fd`. `reads`
lists who has called `fgets` and what it has returned.
-/
structure State where
  stdin : Bytes
  created : Nat
  joined : Nat
  workers : List Worker
  waiting : List Nat
  serving : Option Nat
  reads : List (Nat × Bytes)
  deriving DecidableEq, Repr

/-- `pthread_create` for each worker, then `pthread_join`. -/
def main (s : State) : Option State :=
  match s.workers[s.created]? with
  | some worker =>
      some { s with
        workers := s.workers.set s.created { worker with pc := .connect }
        created := s.created + 1 }
  | none =>
      match s.workers[s.joined]? with
      | some worker => if worker.pc = .closed then some { s with joined := s.joined + 1 } else none
      | none => none

/-- `connect` returns; until there is room for the connection it waits. -/
def connect (s : State) (i : Nat) : Option State :=
  s.workers[i]?.bind fun worker =>
    if worker.pc = .connect ∧ s.waiting.length < backlog then
      some { s with
        workers := s.workers.set i { worker with pc := .running }
        waiting := s.waiting ++ [i] }
    else none

/-- `accept` returns the connection that has waited longest. -/
def accept (s : State) : Option State :=
  match s.serving, s.waiting with
  | none, i :: waiting => some { s with serving := some i, waiting }
  | _, _ => none

/-- Who makes a call on a connection. -/
def isServer : TcpEcho.Action → Bool
  | .serverRecv _ | .serverPrint | .serverSend | .serverSendFails | .serverRecvEnd
  | .serverRecvFails | .serverClose => true
  | _ => false

/-- A `send` has returned when what is left of its stream fits into the connection. -/
def returned (capacity : Nat) (connection : TcpEcho.State) : TcpEcho.Action → Bool
  | .fgets => connection.uplink.length ≤ capacity
  | .serverRecv _ | .serverRecvEnd | .serverRecvFails => connection.downlink.length ≤ capacity
  | _ => true

/-- A statement of a sending or receiving thread, or of the server's loop for the connection it
has accepted.
-/
def onConnection (capacity : Nat) (s : State) (i : Nat) (action : TcpEcho.Action)
    : Option State :=
  s.workers[i]?.bind fun worker =>
    if worker.pc = .running ∧ returned capacity worker.connection action = true
        ∧ (isServer action = true → s.serving = some i) then
      (TcpEcho.step { worker.connection with stdin := s.stdin } action).map fun next =>
        { s with
          stdin := next.stdin
          workers := s.workers.set i { worker with connection := { next with stdin := [] } }
          serving := if action = .serverClose then none else s.serving
          reads :=
            if action = .fgets then s.reads ++ [(i, fgetsLine bufSize s.stdin)] else s.reads }
    else none

/-- Both joins return, and `close(client_fd)`. -/
def close (s : State) (i : Nat) : Option State :=
  s.workers[i]?.bind fun worker =>
    if worker.pc = .running ∧ worker.connection.sendPc = .finished
        ∧ worker.connection.recvPc = .finished then
      some { s with workers := s.workers.set i { worker with pc := .closed } }
    else none

inductive Action
  | main
  | connect (i : Nat)
  | accept
  | onConnection (i : Nat) (action : TcpEcho.Action)
  | close (i : Nat)
  deriving DecidableEq, Repr

def step (capacity : Nat) (s : State) : Action → Option State
  | .main => main s
  | .connect i => connect s i
  | .accept => accept s
  | .onConnection i action => onConnection capacity s i action
  | .close i => close s i

/-- The server waits in `accept`, and `main` of the client is about to create its workers. -/
def start (arguments : List Bytes) (input : Bytes) : State where
  stdin := input
  created := 0
  joined := 0
  workers := List.replicate (clientCount arguments) ⟨.unborn, TcpEcho.start []⟩
  waiting := []
  serving := none
  reads := []

/-- A connection holds at most `capacity` bytes in each direction. -/
def system (capacity : Nat) (arguments : List Bytes) (input : Bytes) : System State Action where
  Initial s := s = start arguments input
  step := step capacity

-----------------------------------------------------------------------------------------
-- What is said about the workers
-----------------------------------------------------------------------------------------

/-- What the `fgets` of a worker have returned, one behind the other. -/
def State.typed (s : State) (i : Nat) : Bytes :=
  ((s.reads.filter (·.1 = i)).map Prod.snd).flatten

/-- No `send` and no `recv` fails. -/
def Succeeds (_ : State) : Action → Prop
  | .onConnection _ action =>
      action ≠ .clientSendFails ∧ action ≠ .clientRecvFails ∧ action ≠ .serverSendFails
        ∧ action ≠ .serverRecvFails
  | _ => True

instance (s : State) (action : Action) : Decidable (Succeeds s action) := by
  unfold Succeeds
  split <;> infer_instance

end LinuxStudy.TcpEcho.ManyClients
