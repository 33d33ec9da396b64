import LinuxStudy.Posix.Pieces
import LinuxStudy.Posix.StringReads
import LinuxStudy.Transition.Runs

/-! `single_conn_server.c` and `single_conn_client.c` behind `accept` and `connect`: on either
side one thread passes the standard input on and another one shows what the other side has
passed on, and `main` waits for both. The connection is a reliable byte stream in each
direction that holds a bounded number of bytes.
-/

namespace LinuxStudy.SingleConn

open Posix Transition

/-- The size of `write_buf` and `read_buf`. -/
def bufSize : Nat := 1024

/-- Inside `write_to_client` and `write_to_server`. -/
inductive WritePc
  | allocate -- at `malloc`
  | fgets -- at `fgets(write_buf, 1024, stdin)`
  | send (rest : Bytes) -- inside `send`, with what the connection has not taken yet
  | shutdown -- at `shutdown(client_socketfd, SHUT_WR)`
  | returned
  deriving DecidableEq, Repr

/-- Inside `read_from_client` and `read_from_server`. -/
inductive ReadPc
  | allocate -- at `malloc`
  | recv -- at `recv(client_socketfd, read_buf, 1024, 0)`
  | returned
  deriving DecidableEq, Repr

/-- What a process prints. A received text is shown as a string, which has no end when the
buffer holds no NUL byte.
-/
inductive Printed
  | received (text : Option Bytes) -- `"接收到数据: %s"`
  | puts (text : Option Bytes) -- `fputs(read_buf, stdout)`
  | sent (text : Bytes) -- `"发送数据: %s"`
  | nothingSent -- `"客户端关闭连接\n"`
  | inputEnded -- `"客户端关闭连接,不再写入，关闭连接\n"`
  | releases -- `"释放资源\n"`
  deriving DecidableEq, Repr

/-- One of the two processes. `sent` and `received` record the bytes that have passed `send`
and `recv`; `ended` says that the process is gone and its socket closed.
-/
structure Peer where
  write : WritePc
  read : ReadPc
  stdin : Bytes
  writeBuf : Bytes
  readBuf : Bytes
  sent : Bytes
  writeClosed : Bool
  received : Bytes
  printed : List Printed
  ended : Bool
  deriving DecidableEq, Repr

def Peer.print (peer : Peer) (texts : List Printed) : Peer :=
  { peer with printed := peer.printed ++ texts }

/-- Bytes of the other process that are still on their way. -/
def Peer.arriving (self other : Peer) : Bytes := other.sent.drop self.received.length

/-- The other end was closed before it had read everything, so that the connection is reset. -/
def Peer.isReset (self other : Peer) : Prop :=
  other.ended = true ∧ other.received.length < self.sent.length

instance (self other : Peer) : Decidable (self.isReset other) := by
  unfold Peer.isReset
  infer_instance

-----------------------------------------------------------------------------------------
-- `read_from_client` and `read_from_server`
-----------------------------------------------------------------------------------------

inductive ReadCall
  | malloc
  | mallocFails
  | recv (n : Nat)
  | recvEnd
  | recvFails
  deriving DecidableEq, Repr

/-- The thread that shows what arrives. Its buffer is never cleared, so that behind a short
message the rest of an earlier one is shown.
-/
def readFrom (self other : Peer) : ReadCall → Option Peer
  | .malloc => if self.read = .allocate then some { self with read := .recv } else none
  | .mallocFails => if self.read = .allocate then some { self with ended := true } else none
  | .recv n =>
      let chunk := (self.arriving other).take n
      if self.read = .recv ∧ 0 < n ∧ n ≤ (self.arriving other).length ∧ n ≤ bufSize then
        let buffer := overwrite self.readBuf chunk
        some ({ self with
          readBuf := buffer
          received := self.received ++ chunk }.print
            [.received (stringIn buffer), .puts (stringIn buffer)])
      else none
  | .recvEnd =>
      if self.read = .recv
          ∧ (other.writeClosed = true ∨ other.ended = true)
          ∧ self.arriving other = [] then
        some { self with read := .returned }
      else none
  | .recvFails =>
      if self.read = .recv ∧ self.isReset other then some { self with ended := true } else none

-----------------------------------------------------------------------------------------
-- `write_to_client` and `write_to_server`
-----------------------------------------------------------------------------------------

inductive WriteCall
  | malloc
  | mallocFails
  | fgets
  | send (n : Nat)
  | sendReturns
  | sendFails
  | shutdown
  deriving DecidableEq, Repr

/-- The thread that passes the standard input on. `send` blocks while the connection holds
`capacity` bytes, and can fail once the other end is closed. An empty string is passed on as
nothing, and the loop goes on.
-/
def writeTo (capacity : Nat) (self other : Peer) : WriteCall → Option Peer
  | .malloc => if self.write = .allocate then some { self with write := .fgets } else none
  | .mallocFails => if self.write = .allocate then some { self with ended := true } else none
  | .fgets =>
      if self.write = .fgets then
        let line := fgetsLine bufSize self.stdin
        if line = [] then some ({ self with write := .shutdown }.print [.inputEnded])
        else
          let buffer := overwrite self.writeBuf (line ++ [0])
          some { self with
            stdin := self.stdin.drop line.length
            writeBuf := buffer
            write := .send (cString buffer) }
      else none
  | .send n =>
      match self.write with
      | .send rest =>
          if 0 < n ∧ n ≤ rest.length
              ∧ (other.ended = true
                ∨ self.sent.length + n ≤ other.received.length + capacity) then
            some { self with sent := self.sent ++ rest.take n, write := .send (rest.drop n) }
          else none
      | _ => none
  | .sendReturns =>
      if self.write = .send [] then
        let text := cString self.writeBuf
        some ({ self with write := .fgets }.print
          [if text = [] then .nothingSent else .sent text])
      else none
  | .sendFails =>
      match self.write with
      | .send _ => if other.ended = true then some { self with ended := true } else none
      | _ => none
  | .shutdown =>
      if self.write = .shutdown then
        some { self with writeClosed := true, write := .returned }
      else none

/-- `close` behind the two calls of `pthread_join` -/
def main (self : Peer) : Option Peer :=
  if self.read = .returned ∧ self.write = .returned then
    some ({ self with ended := true }.print [.releases])
  else none

-----------------------------------------------------------------------------------------
-- The two programs
-----------------------------------------------------------------------------------------

inductive Call
  | read (call : ReadCall)
  | write (call : WriteCall)
  | close
  deriving DecidableEq, Repr

def readFromClient (server client : Peer) : ReadCall → Option Peer := readFrom server client

def writeToClient (capacity : Nat) (server client : Peer) : WriteCall → Option Peer :=
  writeTo capacity server client

def readFromServer (client server : Peer) : ReadCall → Option Peer := readFrom client server

def writeToServer (capacity : Nat) (client server : Peer) : WriteCall → Option Peer :=
  writeTo capacity client server

inductive Side
  | server
  | client
  deriving DecidableEq, Repr

def Side.other : Side → Side
  | .server => .client
  | .client => .server

/-- One step of `single_conn_server.c`. -/
def serverStep (capacity : Nat) (server client : Peer) : Call → Option Peer
  | .read call => readFromClient server client call
  | .write call => writeToClient capacity server client call
  | .close => main server

/-- One step of `single_conn_client.c`. -/
def clientStep (capacity : Nat) (client server : Peer) : Call → Option Peer
  | .read call => readFromServer client server call
  | .write call => writeToServer capacity client server call
  | .close => main client

structure Action where
  side : Side
  call : Call
  deriving DecidableEq, Repr

/-- The two processes. -/
abbrev State := Side → Peer

def step (capacity : Nat) (s : State) (action : Action) : Option State :=
  if (s action.side).ended = true then none
  else
    match action.side with
    | .server =>
        (serverStep capacity (s .server) (s .client) action.call).map (Function.update s .server)
    | .client =>
        (clientStep capacity (s .client) (s .server) action.call).map (Function.update s .client)

/-- A process behind `accept` or `connect`, with this standard input and this memory for its
buffers.
-/
def Peer.start (stdin writeBuf readBuf : Bytes) : Peer where
  write := .allocate
  read := .allocate
  stdin := stdin
  writeBuf := writeBuf
  readBuf := readBuf
  sent := []
  writeClosed := false
  received := []
  printed := []
  ended := false

/-- This is typed on the two sides, up to the end of the input. -/
def system (capacity : Nat) (typed : Side → Bytes) : System State Action where
  Initial s :=
    ∀ side,
      ∃ writeBuf readBuf,
        writeBuf.length = bufSize
        ∧ readBuf.length = bufSize
        ∧ s side = .start (typed side) writeBuf readBuf
  step := step capacity

/-- What of a typed text passes `send`: of every piece that `fgets` reads, the string. -/
def spoken (typed : Bytes) : Bytes := (pieces bufSize typed).flatMap cString

end LinuxStudy.SingleConn
