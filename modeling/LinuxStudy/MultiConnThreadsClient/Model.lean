import LinuxStudy.Posix.Bytes

/-! `multi_conn_threads_client.c` behind `connect`: `write_to_server` and `read_from_server` run
as two threads, and `main` waits for both of them. What the server has sent is an argument of
the calls that read it.
-/

namespace LinuxStudy.MultiConnThreadsClient

open Posix

/-- The size of `write_buf` and `read_buf`. -/
def bufSize : Nat := 1024

/-- Inside `write_to_server`. -/
inductive WritePc
  | allocate -- at `malloc`
  | fgets -- at `fgets(write_buf, 1024, stdin)`
  | send -- at `send(client_socketfd, write_buf, strlen(write_buf), 0)`
  | shutdown -- at `shutdown(client_socketfd, SHUT_WR)`
  | returned
  deriving DecidableEq, Repr

/-- Inside `read_from_server`. -/
inductive ReadPc
  | allocate -- at `malloc` and the `memset` behind it
  | recv -- at `recv(client_socketfd, read_buf, 1024, 0)`
  | returned
  deriving DecidableEq, Repr

/-- `sent` and `received` record the bytes that have passed `send` and `recv`, and `printed` the
texts shown behind `"接收到服务器消息: "`. `ended` says that the process is gone and its socket
closed.
-/
structure Client where
  write : WritePc
  read : ReadPc
  stdin : Bytes
  writeBuf : Bytes
  readBuf : Bytes
  sent : Bytes
  writeClosed : Bool
  received : Bytes
  printed : List Bytes
  ended : Bool
  deriving DecidableEq, Repr

inductive Call
  | allocateWrite
  | allocateRead
  | allocateFails
  | fgets
  | send
  | sendFails
  | shutdown
  | recv (n : Nat)
  | recvEnd
  | recvFails
  | close
  deriving DecidableEq, Repr

-----------------------------------------------------------------------------------------
-- `write_to_server`
-----------------------------------------------------------------------------------------

def allocateWrite (client : Client) : Option Client :=
  if client.write = .allocate then some { client with write := .fgets } else none

/-- `fgets` stores a line with its terminator, or returns `NULL` at the end of the input. -/
def fgets (client : Client) : Option Client :=
  if client.write = .fgets then
    let line := fgetsLine bufSize client.stdin
    if line = [] then some { client with write := .shutdown }
    else
      some { client with
        stdin := client.stdin.drop line.length
        writeBuf := overwrite client.writeBuf (line ++ [0])
        write := .send }
  else none

/-- `send` passes the whole string on. It returns 0 for the empty string, which ends the loop.
-/
def send (client : Client) : Option Client :=
  if client.write = .send then
    let text := cString client.writeBuf
    some { client with
      sent := client.sent ++ text
      write := if text = [] then .shutdown else .fgets }
  else none

/-- `exit(EXIT_FAILURE)` behind `perror("send")`, or `SIGPIPE` -/
def sendFails (client : Client) : Option Client :=
  if client.write = .send then some { client with ended := true } else none

def shutdown (client : Client) : Option Client :=
  if client.write = .shutdown then some { client with writeClosed := true, write := .returned }
  else none

-----------------------------------------------------------------------------------------
-- `read_from_server`
-----------------------------------------------------------------------------------------

def allocateRead (client : Client) : Option Client :=
  if client.read = .allocate then
    some { client with readBuf := List.replicate bufSize 0, read := .recv }
  else none

/-- `recv` returns `n` of the bytes that the server has sent; they are shown as a string, and
the buffer is cleared.
-/
def recv (client : Client) (stream : Bytes) (n : Nat) : Option Client :=
  if client.read = .recv then
    let arrived := stream.drop client.received.length
    if 0 < n ∧ n ≤ arrived.length ∧ n ≤ bufSize then
      some { client with
        readBuf := List.replicate bufSize 0
        received := client.received ++ arrived.take n
        printed := client.printed ++ [cString (overwrite client.readBuf (arrived.take n))] }
    else none
  else none

/-- `recv` returns 0: the server has closed the connection and all bytes are read. -/
def recvEnd (client : Client) (stream : Bytes) : Option Client :=
  if client.read = .recv ∧ stream.drop client.received.length = [] then
    some { client with read := .returned }
  else none

def recvFails (client : Client) : Option Client :=
  if client.read = .recv then some { client with read := .returned } else none

-----------------------------------------------------------------------------------------
-- The process
-----------------------------------------------------------------------------------------

/-- `malloc` fails in one of the threads, which ends the process. -/
def allocateFails (client : Client) : Option Client :=
  if client.write = .allocate ∨ client.read = .allocate then some { client with ended := true }
  else none

/-- `close(client_socketfd)` behind the two calls of `pthread_join` -/
def close (client : Client) : Option Client :=
  if client.write = .returned ∧ client.read = .returned then some { client with ended := true }
  else none

/-- The next call of one of the threads. -/
def call (client : Client) (stream : Bytes) : Call → Option Client
  | .allocateWrite => allocateWrite client
  | .allocateRead => allocateRead client
  | .allocateFails => allocateFails client
  | .fgets => fgets client
  | .send => send client
  | .sendFails => sendFails client
  | .shutdown => shutdown client
  | .recv n => recv client stream n
  | .recvEnd => recvEnd client stream
  | .recvFails => recvFails client
  | .close => close client

/-- Both threads are created; this standard input and this memory for the two buffers. -/
def Client.start (stdin writeBuf readBuf : Bytes) : Client where
  write := .allocate
  read := .allocate
  stdin := stdin
  writeBuf := writeBuf
  readBuf := readBuf
  sent := []
  writeClosed := false
  received := []
  printed := []
  ended := false

end LinuxStudy.MultiConnThreadsClient
