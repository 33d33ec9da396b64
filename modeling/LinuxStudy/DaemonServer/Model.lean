import LinuxStudy.Posix.Bytes
import LinuxStudy.Transition.Runs
import Mathlib.Logic.Function.Basic

/-! `daemon_server.c`: `main` from the registration of its signal handler on, call by call,
with its clients and the signals it gets. Several instances on one machine share the PID file
and the ports.
-/

namespace LinuxStudy.DaemonServer

open Transition Posix

/-- `sizeof(buffer)` in `handle_client` -/
def bufSize : Nat := 1024

/-- The bytes of "收到消息\n" in UTF-8. -/
def reply : Bytes :=
  [0xE6, 0x94, 0xB6, 0xE5, 0x88, 0xB0, 0xE6, 0xB6, 0x88, 0xE6, 0x81, 0xAF, 0x0A]

/-- The server's end of one connection. `received` and `replied` record the bytes returned by
`recv` and accepted by `send`.
-/
structure Connection where
  unread : Bytes := []
  eof : Bool := false
  reset : Bool := false
  received : Bytes := []
  replied : Bytes := []
  deriving DecidableEq, Repr

/-- `recv` would not block: bytes, an end of stream or an error wait to be read. -/
def Connection.readable (connection : Connection) : Bool :=
  !connection.unread.isEmpty || connection.eof || connection.reset

/-- Program points of `main`; the connection in `clientfd` goes along. -/
inductive Pc
  | createDaemon
  | writePidFile
  | socket
  | bind
  | listen
  | giveUp -- `remove_pid_file()` after a call that failed
  | test -- `while (keep_running)`
  | enterAccept -- `keep_running` has been tested, `accept` not been entered
  | accept -- inside `accept`
  | announce (client : Nat) -- the connection is logged
  | recv (client : Nat) -- inside `recv` of `handle_client`
  | reply (client : Nat) -- the message is logged and answered
  | closeClient (client : Nat)
  | removePidFile
  | closeSocket
  | ended -- `return 0`
  | failed -- `exit(EXIT_FAILURE)`
  | killed -- by `SIGPIPE`
  deriving DecidableEq, Repr

/-- One process and its clients; connections are numbered as they arrive. `accepted` lists
the connections in the order of the calls of `accept`, `stoppedAt` records how many had
arrived when `keep_running` was cleared. `hung` says that a handler waits for ever, inside
`ctime`, for the lock that the interrupted `ctime` holds, and `lost` that an ancestor inside
`create_daemon`, which exits without any clean-up, has handled a request to stop.
-/
structure Server where
  pid : Nat
  port : Nat
  daemonMode : Bool
  keepRunning : Bool
  pc : Pc
  backlog : List Nat
  connected : Nat
  connections : Nat → Connection
  accepted : List Nat
  stoppedAt : Option Nat
  hung : Bool
  lost : Bool

inductive Signal
  | term
  | int
  | hup
  deriving DecidableEq, Repr

-----------------------------------------------------------------------------------------
-- The calls of `main`
-----------------------------------------------------------------------------------------

/-- A call at one point of `main` that leads to another. -/
def Server.goes (s : Server) (here there : Pc) : Option Server :=
  if s.pc = here then some { s with pc := there } else none

/-- Where `main` goes on after a failed `socket`, `bind` or `listen`: only a daemon has a PID
file to remove.
-/
def Server.afterFailure (s : Server) : Pc := if s.daemonMode then .giveUp else .failed

/-- The clean-up behind the loop. -/
def Server.cleanUp (s : Server) : Pc := if s.daemonMode then .removePidFile else .closeSocket

def Server.setConnection (s : Server) (c : Nat) (connection : Connection) : Server :=
  { s with connections := Function.update s.connections c connection }

/-- `accept` takes the first waiting connection. -/
def accept (s : Server) : Option Server :=
  match s.pc, s.backlog with
  | .accept, c :: rest =>
      some { s with backlog := rest, accepted := s.accepted ++ [c], pc := .announce c }
  | _, _ => none

def announce (s : Server) : Option Server :=
  match s.pc with
  | .announce c => some { s with pc := .recv c }
  | _ => none

/-- `recv` returns `n` bytes, any non-empty part of what has arrived that fits. -/
def recvData (s : Server) (n : Nat) : Option Server :=
  match s.pc with
  | .recv c =>
      let connection := s.connections c
      if 0 < n ∧ n ≤ connection.unread.length ∧ n ≤ bufSize - 1 then
        some { s.setConnection c { connection with
            unread := connection.unread.drop n
            received := connection.received ++ connection.unread.take n } with
          pc := .reply c }
      else none
  | _ => none

/-- `recv` returns 0 at the end of the stream, or -1 on a connection reset by its peer; the
connection is closed without an answer.
-/
def recvNothing (s : Server) : Option Server :=
  match s.pc with
  | .recv c =>
      let connection := s.connections c
      if connection.unread = [] ∧ connection.eof = true ∨ connection.reset = true then
        some { s with pc := .closeClient c }
      else none
  | _ => none

/-- `send` accepts the first `k` bytes of the reply. -/
def sendReply (s : Server) (k : Nat) : Option Server :=
  match s.pc with
  | .reply c =>
      let connection := s.connections c
      if 0 < k ∧ k ≤ reply.length ∧ connection.reset = false then
        some { s.setConnection c { connection with
            replied := connection.replied ++ reply.take k } with
          pc := .closeClient c }
      else none
  | _ => none

/-- `send` on a connection reset by its peer: the call returns -1, or `SIGPIPE` ends the
process.
-/
def sendBroken (s : Server) (signalled : Bool) : Option Server :=
  match s.pc with
  | .reply c =>
      if (s.connections c).reset = true then
        some { s with pc := if signalled then .killed else .closeClient c }
      else none
  | _ => none

def closeClient (s : Server) : Option Server :=
  match s.pc with
  | .closeClient _ => some { s with pc := .test }
  | _ => none

-----------------------------------------------------------------------------------------
-- Signals and clients
-----------------------------------------------------------------------------------------

def signalHandler (s : Server) : Signal → Server
  | .term | .int =>
      { s with keepRunning := false, stoppedAt := some (s.stoppedAt.getD s.connected) }
  | .hup => s

/-- The process exists. -/
def Pc.alive : Pc → Bool
  | .ended | .failed | .killed => false
  | _ => true

/-- The listening socket takes connections. -/
def Pc.listening : Pc → Bool
  | .createDaemon | .writePidFile | .socket | .bind | .listen | .giveUp => false
  | pc => pc.alive

/-- The call that a signal ends with `EINTR`; without that it is restarted. -/
def Pc.interrupted : Pc → Option Pc
  | .accept => some .test
  | .recv c => some (.closeClient c)
  | _ => none

/-- A request to stop. -/
def Signal.stops : Signal → Bool
  | .term | .int => true
  | .hup => false

/-- Points at which `main` calls `write_log`, before the call or behind it. -/
def Server.logs (s : Server) : Bool :=
  match s.pc with
  | .writePidFile | .socket | .giveUp | .listen | .announce _ | .reply _ => true
  | .accept | .removePidFile => s.daemonMode
  | .closeSocket => !s.daemonMode
  | _ => false

/-- A signal is delivered: the handler runs, and a blocking call may return `EINTR`. -/
def deliver (s : Server) (signum : Signal) (interrupts : Bool) : Option Server :=
  if s.pc.alive then
    let handled := signalHandler s signum
    if interrupts then s.pc.interrupted.map fun pc => { handled with pc } else some handled
  else none

/-- A signal is delivered while the `ctime` of a `write_log` runs, which `main` has called, or the
handler of another signal. The new handler does not get through its own `ctime`.
-/
def deliverInCtime (s : Server) (signum : Signal) : Option Signal → Option Server
  | none =>
      if s.logs = true ∧ s.hung = false then some { signalHandler s signum with hung := true }
      else none
  | some first =>
      if s.pc.alive = true ∧ s.hung = false ∧ first ≠ signum then
        some { signalHandler (signalHandler s first) signum with hung := true }
      else none

/-- A client connects; its connection waits in the accept queue. -/
def connect (s : Server) : Option Server :=
  if s.pc.listening then
    some { s with
      connected := s.connected + 1
      backlog := s.backlog ++ [s.connected]
      connections := Function.update s.connections s.connected {} }
  else none

/-- The client may still send. -/
def Server.streaming (s : Server) (c : Nat) : Prop :=
  c < s.connected ∧ (s.connections c).eof = false ∧ (s.connections c).reset = false

instance (s : Server) (c : Nat) : Decidable (s.streaming c) := by
  unfold Server.streaming
  infer_instance

inductive Event
  | createDaemon
  | createDaemonFails
  | writePidFile
  | writePidFileFails
  | socket
  | socketFails
  | bind
  | bindFails
  | listen
  | listenFails
  | giveUp
  | test
  | enterAccept
  | accept
  | acceptFails
  | announce
  | recvData (n : Nat)
  | recvNothing
  | sendReply (k : Nat)
  | sendBroken (signalled : Bool)
  | closeClient
  | removePidFile
  | closeSocket
  | signal (signum : Signal) (interrupts : Bool)
  | signalInCtime (signum : Signal) (outer : Option Signal)
  | signalAncestor (signum : Signal)
  | connect
  | arrive (c : Nat) (bytes : Bytes)
  | endStream (c : Nat)
  | resetPeer (c : Nat)
  deriving DecidableEq, Repr

/-- The events that `main` takes part in: its calls, and a signal that ends one of them. -/
def Event.ofMain : Event → Bool
  | .signal _ interrupts => interrupts
  | .signalInCtime _ _ | .signalAncestor _ | .connect | .arrive _ _ | .endStream _
  | .resetPeer _ => false
  | _ => true

/-- What an event does. Inside `create_daemon` a `signal` goes to the process that becomes the
daemon or that is still going to fork it, a `signalAncestor` to one that has forked it.
-/
def happens (s : Server) : Event → Option Server
  | .createDaemon => s.goes .createDaemon .writePidFile
  | .createDaemonFails => s.goes .createDaemon .failed
  | .writePidFile => s.goes .writePidFile .socket
  | .writePidFileFails => s.goes .writePidFile .failed
  | .socket => s.goes .socket .bind
  | .socketFails => s.goes .socket s.afterFailure
  | .bind => s.goes .bind .listen
  | .bindFails => s.goes .bind s.afterFailure
  | .listen => s.goes .listen .test
  | .listenFails => s.goes .listen s.afterFailure
  | .giveUp => s.goes .giveUp .failed
  | .test => s.goes .test (if s.keepRunning then .enterAccept else s.cleanUp)
  | .enterAccept => s.goes .enterAccept .accept
  | .accept => accept s
  | .acceptFails => s.goes .accept .test
  | .announce => announce s
  | .recvData n => recvData s n
  | .recvNothing => recvNothing s
  | .sendReply k => sendReply s k
  | .sendBroken signalled => sendBroken s signalled
  | .closeClient => closeClient s
  | .removePidFile => s.goes .removePidFile .closeSocket
  | .closeSocket => s.goes .closeSocket .ended
  | .signal signum interrupts => deliver s signum interrupts
  | .signalInCtime signum outer => deliverInCtime s signum outer
  | .signalAncestor signum =>
      if s.pc = .createDaemon then some { s with lost := s.lost || signum.stops } else none
  | .connect => connect s
  | .arrive c bytes =>
      let connection := s.connections c
      if s.streaming c ∧ bytes ≠ [] then
        some (s.setConnection c { connection with unread := connection.unread ++ bytes })
      else none
  | .endStream c =>
      if s.streaming c then some (s.setConnection c { s.connections c with eof := true })
      else none
  | .resetPeer c =>
      if c < s.connected ∧ (s.connections c).reset = false then
        some (s.setConnection c { s.connections c with reset := true })
      else none

/-- A process that is hung makes no call any more. -/
def step (s : Server) (event : Event) : Option Server :=
  if s.hung = true ∧ event.ofMain = true then none else happens s event

/-- The handler is registered; a server in the foreground has no PID file. -/
def launch (pid port : Nat) (daemonMode : Bool) : Server where
  pid := pid
  port := port
  daemonMode := daemonMode
  keepRunning := true
  pc := if daemonMode then .createDaemon else .socket
  backlog := []
  connected := 0
  connections := fun _ => {}
  accepted := []
  stoppedAt := none
  hung := false
  lost := false

/-- One server with its clients. -/
def system (pid port : Nat) (daemonMode : Bool) : System Server Event where
  Initial s := s = launch pid port daemonMode
  step := step

-----------------------------------------------------------------------------------------
-- Several instances
-----------------------------------------------------------------------------------------

/-- All instances that were ever started, in that order, and the content of the PID file. A
daemon's `pid` is the one it has after `create_daemon`. `found` records the PID file as each
instance found it before `write_pid_file`, and `failures` the file before and after each start
that failed behind that.
-/
structure Machine where
  servers : List Server
  pidFile : Option Nat
  found : Nat → Option Nat
  failures : List (Option Nat × Option Nat)

/-- The instance has the port: its `bind` has succeeded and its socket is open. -/
def Server.bound (s : Server) : Bool := s.pc = .listen || s.pc.listening

/-- What a call of the `i`th instance does to the PID file. -/
def Machine.pidFileAfter (m : Machine) (server : Server) : Event → Option Nat
  | .writePidFile => some server.pid
  | .giveUp | .removePidFile => none
  | _ => m.pidFile

inductive MachineEvent
  | launch (pid port : Nat) (daemonMode : Bool)
  | server (i : Nat) (event : Event)
  deriving DecidableEq, Repr

/-- One event of the `i`th instance; `bind` succeeds only on a free port. -/
def serverStep (m : Machine) (i : Nat) (event : Event) : Option Machine :=
  m.servers[i]?.bind fun server =>
    if event = .bind ∧ ∃ other ∈ m.servers, other.bound = true ∧ other.port = server.port then
      none
    else
      (step server event).map fun next =>
        { servers := m.servers.set i next
          pidFile := m.pidFileAfter server event
          found :=
            if event = .writePidFile then Function.update m.found i m.pidFile else m.found
          failures :=
            if event = .giveUp then m.failures ++ [(m.found i, m.pidFileAfter server event)]
            else m.failures }

def machineStep (m : Machine) : MachineEvent → Option Machine
  | .launch pid port daemonMode =>
      -- the number of no living process
      if ∀ other ∈ m.servers, other.pc.alive = true → other.pid ≠ pid then
        some { m with servers := m.servers ++ [launch pid port daemonMode] }
      else none
  | .server i event => serverStep m i event

/-- No instance has been started and there is no PID file. -/
def machineStart : Machine where
  servers := []
  pidFile := none
  found := fun _ => none
  failures := []

def machine : System Machine MachineEvent where
  Initial m := m = machineStart
  step := machineStep

end LinuxStudy.DaemonServer
