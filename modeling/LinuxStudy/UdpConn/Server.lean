import LinuxStudy.Posix.Bytes

/-! `udp_conn_server.c`: one datagram is received, tested and answered in each round of the
loop, all in the same buffer.
-/

namespace LinuxStudy.UdpConn

open Posix

/-- `malloc(sizeof(char) * 1024)` -/
def bufSize : Nat := 1024

/-- The most that a UDP datagram carries. -/
def maxPayload : Nat := 65507

/-- `"EOF"` -/
def eof : Bytes := [69, 79, 70]

/-- `"OK"` -/
def ok : Bytes := [79, 75]

structure Datagram (Address : Type) where
  sender : Address
  payload : Bytes
  fits : payload.length ≤ maxPayload

inductive ServerPc (Address : Type)
  | recvfrom -- at `memset` and `recvfrom(socketfd, buffer, 1024, ...)`
  | test (tempResult : Nat) (client : Address) -- at `temp_result > 0` and what follows
  | left -- behind the loop
  | failed -- `exit(EXIT_FAILURE)` of `handle_error`
  deriving DecidableEq, Repr

/-- The server's memory. `received` counts the datagrams, `printed` and `sent` record the data
shown and the datagrams sent, and `outside` says that a byte was stored outside the buffer.
-/
structure Server (Address : Type) where
  buffer : Bytes
  pc : ServerPc Address
  received : Nat
  printed : List (Address × Bytes)
  sent : List (Address × Bytes)
  outside : Bool

variable {Address : Type}

/-- `buffer[index] = byte` -/
def Server.store (s : Server Address) (index : Nat) (byte : UInt8) : Server Address :=
  { s with
    buffer := s.buffer.set index byte
    outside := s.outside || decide (bufSize ≤ index) }

/-- `recvfrom` cuts a longer datagram to the 1024 bytes asked for. -/
def Server.receive (s : Server Address) (datagram : Datagram Address) : Server Address :=
  { s with
    buffer := overwrite (List.replicate bufSize 0) (datagram.payload.take bufSize)
    received := s.received + 1
    pc := .test (min datagram.payload.length bufSize) datagram.sender }

/-- `printf`, `strcpy(buffer, "OK")` and `sendto`, which may be refused by the kernel. -/
def Server.reply (s : Server Address) (client : Address) (refused : Bool) : Server Address :=
  let buffer := overwrite s.buffer (ok ++ [0])
  { s with
    buffer
    printed := s.printed ++ [(client, cString s.buffer)]
    sent := if refused then s.sent else s.sent ++ [(client, cString buffer)]
    pc := if refused then .failed else .recvfrom }

/-- The branches behind `recvfrom`. -/
def Server.respond (s : Server Address) (refused : Bool) : Server Address :=
  match s.pc with
  | .test tempResult client =>
      if 0 < tempResult then
        let terminated := s.store tempResult 0
        if cString terminated.buffer ≠ eof then terminated.reply client refused
        else { terminated with pc := .left }
      else { s with pc := .left }
  | _ => s

/-- A datagram, and whether the kernel refuses to send to its sender. -/
structure Request (Address : Type) extends Datagram Address where
  refused : Bool

/-- One round of the loop. -/
def Server.round (s : Server Address) (request : Request Address) : Server Address :=
  (s.receive request.toDatagram).respond request.refused

/-- The loop, as long as it receives. -/
def Server.serve : Server Address → List (Request Address) → Server Address
  | s, [] => s
  | s, request :: rest =>
      match s.pc with
      | .recvfrom => (s.round request).serve rest
      | _ => s

/-- The socket is bound; `malloc` has returned this memory. -/
def Server.start (memory : Bytes) : Server Address where
  buffer := memory
  pc := .recvfrom
  received := 0
  printed := []
  sent := []
  outside := false

end LinuxStudy.UdpConn
