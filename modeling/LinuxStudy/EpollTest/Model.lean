import LinuxStudy.Transition.Runs
import LinuxStudy.Posix.Bytes
import LinuxStudy.Posix.DescriptorTable
import LinuxStudy.Posix.EpollInstance
import Mathlib.Logic.Function.Basic

/-! The event loop of `epoll_test.c` with the kernel and the clients around it. Every action
is one client or kernel event, or one call of `main` with the result the kernel gives it.
The server starts behind the registration of its listening socket.
-/

namespace LinuxStudy.EpollTest

open Transition Posix

/-- `MAX_EVENTS` -/
def maxEvents : Nat := 10

/-- `BUF_SIZE` -/
def bufSize : Nat := 1024

/-- What a descriptor of the server refers to; connections are numbered as clients connect.
-/
inductive File
  | standard
  | listening
  | epoll
  | client (connection : Nat)
  deriving DecidableEq, Repr

/-- The server's end of one connection. `received`, `offered` and `echoed` record the bytes
returned by `recv`, the buffers passed to `send` and the bytes it accepted.
-/
structure Connection where
  unread : Bytes := []
  eof : Bool := false
  reset : Bool := false
  nonblock : Bool := false
  received : Bytes := []
  offered : List Bytes := []
  echoed : Bytes := []
  deriving DecidableEq, Repr

/-- `recv` would not block: bytes, an end of stream or an error wait to be read. -/
def Connection.readable (connection : Connection) : Bool :=
  !connection.unread.isEmpty || connection.eof || connection.reset

/-- `events[i]`: the user data, and the file the event was generated for. -/
structure Event where
  data : Nat
  source : File
  deriving DecidableEq, Repr

/-- Inside the `else` branch of the event loop, on descriptor `client`. -/
inductive Stage
  | recv -- at `recv(client, buf, sizeof(buf) - 1, 0)`
  | print (len : Nat) -- `buf[len] = '\0'` and the `printf` after it
  | echo (len : Nat) -- at `send(client, buf, len, 0)`
  | closing -- at `close(client)`
  | deleting -- at `epoll_ctl(epoll_fd, EPOLL_CTL_DEL, client, NULL)`
  deriving DecidableEq, Repr

inductive Pc
  | loop -- head of the `for` loop; at `epoll_wait` when the batch is used up
  | accept
  | setNonblock (clientFd : Nat) -- the two calls of `fcntl`
  | register (clientFd : Nat) -- `epoll_ctl(epoll_fd, EPOLL_CTL_ADD, client_fd, &ev)`
  | closeRejected (clientFd : Nat) -- `close(client_fd)` after a failed registration
  | serve (client : Nat) (stage : Stage)
  | dead
  deriving DecidableEq, Repr

/-- The process and its sockets. `batch` holds `events[i..nfds)`; `source` and `finished`
record for which file the event in work was generated and which connections the server is
done with; `printed` is the text shown for each descriptor.
-/
structure State where
  serverFd : Nat
  epollFd : Nat
  pc : Pc
  batch : List Event
  buf : Bytes
  table : Table File
  epoll : EpollInstance File
  backlog : List Nat
  connected : Nat
  connections : Nat → Connection
  source : File
  finished : List Nat
  printed : List (Nat × Bytes)

/-- The registered entries of these files, in the order of the list. -/
def State.entries (s : State) (files : List File) : List (Registration File) :=
  files.filterMap fun file => s.epoll.interest.find? fun entry => entry.file = file

/-- Level-triggered readiness: only the listening socket is registered that way. -/
def State.levelReady (s : State) (file : File) : Bool :=
  file = .listening && !s.backlog.isEmpty

def State.setConnection (s : State) (c : Nat) (connection : Connection) : State :=
  { s with connections := Function.update s.connections c connection }

/-- The connection behind a descriptor, if it is one. -/
def State.connection? (s : State) (fd : Nat) : Option Nat :=
  match s.table.lookup fd with
  | some (.client c) => some c
  | _ => none

/-- A client connects; its connection waits in the accept queue. -/
def connect (s : State) : State :=
  { s with
    connected := s.connected + 1
    backlog := s.backlog ++ [s.connected]
    connections := Function.update s.connections s.connected {} }

/-- The network changes the server's end of a connection and epoll hears of it. -/
def deliver (s : State) (c : Nat) (connection : Connection) : State :=
  { s.setConnection c connection with epoll := s.epoll.notify (.client c) }

/-- A client may still send on its connection. -/
def State.streaming (s : State) (c : Nat) : Prop :=
  c < s.connected ∧ (s.connections c).eof = false ∧ (s.connections c).reset = false

instance (s : State) (c : Nat) : Decidable (s.streaming c) := by
  unfold State.streaming
  infer_instance

-----------------------------------------------------------------------------------------
-- The calls of `main`
-----------------------------------------------------------------------------------------

/-- `epoll_wait` reports the entries of the listed files, at most `MAX_EVENTS` of them and
each at most once.
-/
def epollWait (s : State) (files : List File) : Option State :=
  let entries := s.entries files
  if s.pc = .loop ∧ s.batch = [] ∧ files.Nodup ∧ entries ≠ [] ∧ entries.length ≤ maxEvents
      ∧ ∀ entry ∈ entries, s.epoll.reports s.levelReady entry = true then
    some { s with
      batch := entries.map fun entry => ⟨entry.data, entry.file⟩
      epoll := s.epoll.deliver entries }
  else none

/-- The next iteration of the `for` loop chooses its branch. -/
def nextEvent (s : State) : Option State :=
  match s.pc, s.batch with
  | .loop, event :: rest =>
      some { s with
        batch := rest
        source := event.source
        pc := if event.data = s.serverFd then .accept else .serve event.data .recv }
  | _, _ => none

/-- `accept` takes the first waiting connection under the lowest free number. -/
def acceptClient (s : State) : Option State :=
  match s.pc, s.backlog with
  | .accept, c :: rest =>
      some { s with
        backlog := rest
        table := s.table.allocate (.client c)
        pc := .setNonblock s.table.lowestFree }
  | _, _ => none

def setNonblock (s : State) : Option State :=
  match s.pc with
  | .setNonblock fd =>
      (s.connection? fd).map fun c =>
        { s.setConnection c { s.connections c with nonblock := true } with pc := .register fd }
  | _ => none

/-- `ev.events = EPOLLIN | EPOLLET; ev.data.fd = client_fd` -/
def registerClient (s : State) : Option State :=
  match s.pc with
  | .register fd =>
      (s.connection? fd).map fun c =>
        { s with
          epoll := s.epoll.add ⟨fd, .client c, fd, true⟩ (s.connections c).readable
          pc := .loop }
  | _ => none

/-- `close`: the number is free again and epoll forgets its entry. -/
def State.closeFd (s : State) (fd : Nat) : State :=
  { s with table := s.table.close fd, epoll := s.epoll.remove fd }

/-- The server is done with the connection behind this descriptor. -/
def State.finish (s : State) (fd : Nat) : State :=
  { s with finished := s.finished ++ (s.connection? fd).toList }

/-- A failed registration: the connection is given up. -/
def registerFails (s : State) : Option State :=
  match s.pc with
  | .register fd => some { s.finish fd with pc := .closeRejected fd }
  | _ => none

def closeRejected (s : State) : Option State :=
  match s.pc with
  | .closeRejected fd => some { s.closeFd fd with pc := .loop }
  | _ => none

/-- `recv` returns `n` bytes, any non-empty part of what has arrived that fits. -/
def recvData (s : State) (n : Nat) : Option State :=
  match s.pc with
  | .serve fd .recv =>
      (s.connection? fd).bind fun c =>
        let connection := s.connections c
        if 0 < n ∧ n ≤ connection.unread.length ∧ n ≤ bufSize - 1 then
          let chunk := connection.unread.take n
          some { s.setConnection c { connection with
              unread := connection.unread.drop n
              received := connection.received ++ chunk } with
            buf := overwrite s.buf chunk
            pc := .serve fd (.print n) }
        else none
  | _ => none

/-- `recv` returns 0: the end of the stream, after all its bytes. -/
def recvEnd (s : State) : Option State :=
  match s.pc with
  | .serve fd .recv =>
      (s.connection? fd).bind fun c =>
        if (s.connections c).unread = [] ∧ (s.connections c).eof = true then
          some { s.finish fd with pc := .serve fd .closing }
        else none
  | _ => none

/-- `recv` returns -1 with `EAGAIN`: nothing to read on a non-blocking socket. -/
def recvAgain (s : State) : Option State :=
  match s.pc with
  | .serve fd .recv =>
      (s.connection? fd).bind fun c =>
        if (s.connections c).readable = false ∧ (s.connections c).nonblock = true then
          some { s with pc := .loop }
        else none
  | _ => none

/-- `recv` returns -1 with any other error. -/
def recvError (s : State) : Option State :=
  match s.pc with
  | .serve fd .recv => some { s.finish fd with pc := .serve fd .closing }
  | _ => none

/-- `buf[len] = '\0'` and `printf` of the buffer as a string. -/
def printChunk (s : State) : Option State :=
  match s.pc with
  | .serve fd (.print len) =>
      let buf := s.buf.set len 0
      some { s with
        buf
        printed := s.printed ++ [(fd, cString buf)]
        pc := .serve fd (.echo len) }
  | _ => none

/-- `send(client, buf, len, 0)` accepts the first `k` bytes; 0 stands for the -1 of a send
buffer that is full. The code looks at neither.
-/
def sendChunk (s : State) (k : Nat) : Option State :=
  match s.pc with
  | .serve fd (.echo len) =>
      (s.connection? fd).bind fun c =>
        let connection := s.connections c
        if k ≤ len ∧ (k = 0 → connection.nonblock = true) ∧ connection.reset = false then
          some { s.setConnection c { connection with
              offered := connection.offered ++ [s.buf.take len]
              echoed := connection.echoed ++ (s.buf.take len).take k } with
            pc := .serve fd .recv }
        else none
  | _ => none

/-- `send` on a connection reset by its peer: the call returns -1, or `SIGPIPE` ends the
process.
-/
def sendBroken (s : State) (signalled : Bool) : Option State :=
  match s.pc with
  | .serve fd (.echo len) =>
      (s.connection? fd).bind fun c =>
        let connection := s.connections c
        if connection.reset = true then
          some { s.setConnection c { connection with
              offered := connection.offered ++ [s.buf.take len] } with
            pc := if signalled then .dead else .serve fd .recv }
        else none
  | _ => none

def closeClient (s : State) : Option State :=
  match s.pc with
  | .serve fd .closing => some { s.closeFd fd with pc := .serve fd .deleting }
  | _ => none

/-- `EPOLL_CTL_DEL` fails on a closed number and otherwise removes its entry. -/
def deleteClient (s : State) : Option State :=
  match s.pc with
  | .serve fd .deleting =>
      some { s with
        epoll := if s.table.lookup fd = none then s.epoll else s.epoll.remove fd
        pc := .loop }
  | _ => none

inductive Action
  | connect
  | arrive (c : Nat) (bytes : Bytes)
  | endStream (c : Nat)
  | resetPeer (c : Nat)
  | epollWait (files : List File)
  | epollWaitFails
  | nextEvent
  | acceptClient
  | acceptFails
  | setNonblock
  | registerClient
  | registerFails
  | closeRejected
  | recvData (n : Nat)
  | recvEnd
  | recvAgain
  | recvError
  | printChunk
  | sendChunk (k : Nat)
  | sendBroken (signalled : Bool)
  | closeClient
  | deleteClient
  deriving DecidableEq, Repr

def step (s : State) : Action → Option State
  | .connect => some (connect s)
  | .arrive c bytes =>
      let connection := s.connections c
      if s.streaming c ∧ bytes ≠ [] then
        some (deliver s c { connection with unread := connection.unread ++ bytes })
      else none
  | .endStream c =>
      if s.streaming c then some (deliver s c { s.connections c with eof := true }) else none
  | .resetPeer c =>
      if c < s.connected ∧ (s.connections c).reset = false then
        some (deliver s c { s.connections c with reset := true })
      else none
  | .epollWait files => epollWait s files
  | .epollWaitFails => if s.pc = .loop ∧ s.batch = [] then some { s with pc := .dead } else none
  | .nextEvent => nextEvent s
  | .acceptClient => acceptClient s
  | .acceptFails => if s.pc = .accept then some { s with pc := .loop } else none
  | .setNonblock => setNonblock s
  | .registerClient => registerClient s
  | .registerFails => registerFails s
  | .closeRejected => closeRejected s
  | .recvData n => recvData s n
  | .recvEnd => recvEnd s
  | .recvAgain => recvAgain s
  | .recvError => recvError s
  | .printChunk => printChunk s
  | .sendChunk k => sendChunk s k
  | .sendBroken signalled => sendBroken s signalled
  | .closeClient => closeClient s
  | .deleteClient => deleteClient s

/-- The server has opened its two descriptors beside the standard ones, registered the
listening socket level-triggered and has no client yet.
-/
structure Started (s : State) : Prop where
  server : ∀ fd, s.table.lookup fd = some .listening ↔ fd = s.serverFd
  instance_open : s.table.lookup s.epollFd = some .epoll
  no_clients : ∀ fd c, s.table.lookup fd ≠ some (.client c)
  interest : s.epoll = ⟨[⟨s.serverFd, .listening, s.serverFd, false⟩], []⟩
  pc : s.pc = .loop
  batch : s.batch = []
  backlog : s.backlog = []
  connected : s.connected = 0
  connections : ∀ c, s.connections c = {}
  buf : s.buf.length = bufSize
  finished : s.finished = []
  printed : s.printed = []

/-- A server whose listening socket and epoll instance follow the standard descriptors. -/
def start : State where
  serverFd := 3
  epollFd := 4
  pc := .loop
  batch := []
  buf := List.replicate bufSize 0
  table := ⟨[some .standard, some .standard, some .standard, some .listening, some .epoll]⟩
  epoll := ⟨[⟨3, .listening, 3, false⟩], []⟩
  backlog := []
  connected := 0
  connections := fun _ => {}
  source := .standard
  finished := []
  printed := []

def system : System State Action where
  Initial := Started
  step := step

end LinuxStudy.EpollTest
