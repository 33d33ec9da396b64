import LinuxStudy.DaemonClient.Typing
import LinuxStudy.EpollTest.Model

/-! `daemon_client.c` connected to `epoll_test.c`, which may have any number of other clients.
Both directions of the connection are reliable byte streams.
-/

namespace LinuxStudy.DaemonClient.WithEpollTest

open Transition Posix

/-- The client, the server and the number of the client's connection there; `arrived` counts the
bytes of the client that have reached the server.
-/
structure State where
  client : Client
  server : EpollTest.State
  connection : Nat
  arrived : Nat

/-- The server's end of the connection. -/
def State.served (s : State) : EpollTest.Connection := s.server.connections s.connection

/-- The bytes that the server has sent to the client. -/
def State.echoed (s : State) : Bytes := s.served.echoed

/-- The server has closed the connection, or the kernel has when the process died. -/
def State.closed (s : State) : Prop :=
  s.connection ∈ s.server.finished ∨ s.server.pc = .dead

instance (s : State) : Decidable s.closed := by
  unfold State.closed
  infer_instance

/-- The connection is closed with bytes of the client that were not read, so that the client's
end is reset.
-/
def State.reset (s : State) : Prop :=
  s.closed ∧ s.served.received.length < s.client.sent.length

instance (s : State) : Decidable s.reset := by
  unfold State.reset
  infer_instance

/-- The events of the server's model that this connection's client causes. -/
def causedBy (connection : Nat) : EpollTest.Action → Bool
  | .arrive c _ | .endStream c | .resetPeer c => c = connection
  | _ => false

inductive Action
  | fgets
  | send
  | sendFails
  | recv (n : Nat)
  | recvEnd
  | recvFails
  | arrive (n : Nat)
  | hangUp
  | server (action : EpollTest.Action)
  deriving DecidableEq, Repr

def step (s : State) : Action → Option State
  | .fgets => (fgets s.client).map fun client => { s with client }
  | .send => (send s.client).map fun client => { s with client }
  | .sendFails =>
      if s.reset then (sendFails s.client).map fun client => { s with client } else none
  | .recv n => (recv s.client s.echoed n).map fun client => { s with client }
  | .recvEnd =>
      if s.closed then (recvEnd s.client s.echoed).map fun client => { s with client } else none
  | .recvFails =>
      if s.reset then (recvFails s.client).map fun client => { s with client } else none
  -- the network brings the next bytes of the client to the server
  | .arrive n =>
      let bytes := (s.client.sent.drop s.arrived).take n
      (EpollTest.step s.server (.arrive s.connection bytes)).map fun server =>
        { s with server, arrived := s.arrived + bytes.length }
  -- `close(socketfd)` behind the loop
  | .hangUp =>
      match s.client.pc with
      | .left _ =>
          if s.arrived = s.client.sent.length then
            (EpollTest.step s.server (.endStream s.connection)).map fun server => { s with server }
          else none
      | _ => none
  | .server action =>
      if causedBy s.connection action then none
      else (EpollTest.step s.server action).map fun server => { s with server }

/-- The client has just connected to this server. -/
def start (stdin memory : Bytes) (server : EpollTest.State) : State where
  client := .start stdin memory
  server := EpollTest.connect server
  connection := server.connected
  arrived := 0

/-- These lines will be typed, and the server is in any state in which it runs. -/
def system (lines : List Bytes) : System State Action where
  Initial s :=
    ∃ memory server,
      memory.length = bufSize
      ∧ EpollTest.system.Reachable server
      ∧ server.pc ≠ .dead
      ∧ s = start (typed lines) memory server
  step := step

end LinuxStudy.DaemonClient.WithEpollTest
