import LinuxStudy.Posix.Bytes

/-! `daemon_client.c` behind `connect`: its loop reads a line, sends it and takes the result of
one `recv` for the reply. What the server has sent is an argument of the steps that read it.
-/

namespace LinuxStudy.DaemonClient

open Posix

/-- The size of `buffer`. -/
def bufSize : Nat := 1024

/-- `"quit"` -/
def quit : Bytes := [113, 117, 105, 116]

/-- `"EOF"` -/
def eof : Bytes := [69, 79, 70]

/-- Why the loop was left. -/
inductive Ending
  | typedQuit
  | endOfInput
  | sendFailed
  | recvFailed
  | serverClosed
  deriving DecidableEq, Repr

inductive Pc
  | fgets -- at the prompt, `fgets` and what follows up to the test of `len`
  | send (len : Nat) -- at `send(socketfd, buffer, len, 0)`
  | recv (sendLen : Nat) -- at `memset` and `recv(socketfd, buffer, sizeof(buffer) - 1, 0)`
  | left (ending : Ending)
  deriving DecidableEq, Repr

/-- `sent` and `received` record the bytes that have passed `send` and `recv`, `messages` the
arguments of `send`, and `printed` the texts shown behind `"接收: "`.
-/
structure Client where
  pc : Pc
  stdin : Bytes
  buffer : Bytes
  sent : Bytes
  received : Bytes
  messages : List Bytes
  printed : List Bytes
  deriving DecidableEq, Repr

/-- A newline at the end of the string is replaced by the terminator. -/
def stripNewline (buffer : Bytes) : Bytes :=
  let len := (cString buffer).length
  if 0 < len ∧ buffer[len - 1]? = some newline then buffer.set (len - 1) 0 else buffer

/-- `fgets`, the removal of the newline, and the two `strcmp`. -/
def fgets (client : Client) : Option Client :=
  if client.pc = .fgets then
    let line := fgetsLine bufSize client.stdin
    if line = [] then some { client with pc := .left .endOfInput }
    else
      let buffer := stripNewline (overwrite client.buffer (line ++ [0]))
      let len := (cString buffer).length
      some { client with
        stdin := client.stdin.drop line.length
        buffer
        pc :=
          if cString buffer = quit ∨ cString buffer = eof then .left .typedQuit
          else if len = 0 then .fgets
          else .send len }
  else none

/-- `send` passes the whole string on. -/
def send (client : Client) : Option Client :=
  match client.pc with
  | .send len =>
      some { client with
        sent := client.sent ++ client.buffer.take len
        messages := client.messages ++ [client.buffer.take len]
        pc := .recv len }
  | _ => none

def sendFails (client : Client) : Option Client :=
  match client.pc with
  | .send _ => some { client with pc := .left .sendFailed }
  | _ => none

/-- `recv` returns `n` of the bytes that the server has sent; they are shown as a string. -/
def recv (client : Client) (stream : Bytes) (n : Nat) : Option Client :=
  match client.pc with
  | .recv _ =>
      let arrived := stream.drop client.received.length
      if 0 < n ∧ n ≤ arrived.length ∧ n ≤ bufSize - 1 then
        let buffer := (overwrite (List.replicate bufSize 0) (arrived.take n)).set n 0
        some { client with
          buffer
          received := client.received ++ arrived.take n
          printed := client.printed ++ [cString buffer]
          pc := .fgets }
      else none
  | _ => none

/-- `recv` returns 0: the server has closed the connection and all bytes are read. -/
def recvEnd (client : Client) (stream : Bytes) : Option Client :=
  match client.pc with
  | .recv _ =>
      if stream.drop client.received.length = [] then
        some { client with pc := .left .serverClosed }
      else none
  | _ => none

def recvFails (client : Client) : Option Client :=
  match client.pc with
  | .recv _ => some { client with pc := .left .recvFailed }
  | _ => none

/-- Connected, with this standard input and this memory as the buffer. -/
def Client.start (stdin memory : Bytes) : Client where
  pc := .fgets
  stdin := stdin
  buffer := memory
  sent := []
  received := []
  messages := []
  printed := []

end LinuxStudy.DaemonClient
