import LinuxStudy.DaemonClient.Typing
import LinuxStudy.DaemonServer.Model

/-! `daemon_client.c` connected to `daemon_server.c`, which has no other client and gets no
signal. Both directions of the connection are reliable byte streams.
-/

namespace LinuxStudy.DaemonClient.WithDaemonServer

open Transition Posix

/-- The number of the only connection. -/
def connection : Nat := 0

/-- The client and the server; `arrived` counts the bytes of the client that have reached the
server, `logged` records the texts of the messages that the server has logged, and `closed`
says that it has closed the connection.
-/
structure State where
  client : Client
  server : DaemonServer.Server
  arrived : Nat
  logged : List Bytes
  closed : Bool

/-- The server's end of the connection. -/
def State.served (s : State) : DaemonServer.Connection := s.server.connections connection

/-- The events of the server's model that are calls of its loop. -/
def isCall : DaemonServer.Event → Bool
  | .test | .enterAccept | .accept | .acceptFails | .announce | .recvData _ | .recvNothing
  | .sendReply _ | .sendBroken _ | .closeClient => true
  | _ => false

/-- What is logged in front of a reply: the buffer as a string. -/
def State.loggedBy (s : State) : DaemonServer.Event → List Bytes
  | .sendReply _ | .sendBroken _ => s.logged ++ [cString s.served.received]
  | _ => s.logged

def State.closedBy (s : State) : DaemonServer.Event → Bool
  | .closeClient => true
  | _ => s.closed

/-- The server has closed the connection and has bytes of the client left that it did not read,
so that the client's end is reset.
-/
def State.reset (s : State) : Prop :=
  s.closed = true ∧ s.served.received.length < s.client.sent.length

instance (s : State) : Decidable s.reset := by
  unfold State.reset
  infer_instance

inductive Action
  | fgets
  | send
  | sendFails
  | recv (n : Nat)
  | recvEnd
  | recvFails
  | arrive (n : Nat)
  | hangUp
  | server (event : DaemonServer.Event)
  deriving DecidableEq, Repr

def step (s : State) : Action → Option State
  | .fgets => (fgets s.client).map fun client => { s with client }
  | .send => (send s.client).map fun client => { s with client }
  | .sendFails =>
      if s.reset then (sendFails s.client).map fun client => { s with client } else none
  | .recv n => (recv s.client s.served.replied n).map fun client => { s with client }
  | .recvEnd =>
      if s.closed then
        (recvEnd s.client s.served.replied).map fun client => { s with client }
      else none
  | .recvFails =>
      if s.reset then (recvFails s.client).map fun client => { s with client } else none
  -- the network brings the next bytes of the client to the server
  | .arrive n =>
      let bytes := (s.client.sent.drop s.arrived).take n
      (DaemonServer.step s.server (.arrive connection bytes)).map fun server =>
        { s with server, arrived := s.arrived + bytes.length }
  -- `close(socketfd)` behind the loop
  | .hangUp =>
      match s.client.pc with
      | .left _ =>
          if s.arrived = s.client.sent.length then
            (DaemonServer.step s.server (.endStream connection)).map fun server =>
              { s with server }
          else none
      | _ => none
  | .server event =>
      if isCall event then
        (DaemonServer.step s.server event).map fun server =>
          { s with server, logged := s.loggedBy event, closed := s.closedBy event }
      else none

/-- The client has just connected to a server that is at this point of its loop. -/
def start (stdin memory : Bytes) (server : DaemonServer.Server) (pc : DaemonServer.Pc)
    : State where
  client := .start stdin memory
  server := { server with pc, backlog := [connection], connected := 1 }
  arrived := 0
  logged := []
  closed := false

/-- These messages will be typed and then "quit". -/
def system (messages : List Bytes) : System State Action where
  Initial s :=
    ∃ memory pid port daemonMode pc,
      memory.length = bufSize
      ∧ (pc = .test ∨ pc = .enterAccept ∨ pc = .accept)
      ∧ s = start (typed (messages ++ [quit])) memory
              (DaemonServer.launch pid port daemonMode) pc
  step := step

end LinuxStudy.DaemonClient.WithDaemonServer
