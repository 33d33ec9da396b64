import LinuxStudy.MultiConnThreadsClient.Model
import LinuxStudy.MultiConnThreadsServer.Model

/-! `multi_conn_threads_client.c` connected to `multi_conn_threads_server.c`, which has just
created the thread for this client and has no other one. Both directions of the connection are
reliable byte streams.
-/

namespace LinuxStudy.MultiConnThreadsClient.WithServer

open Transition Posix

/-- The number of the only connection. -/
def connection : Nat := 0

/-- The client and the server; `arrived` counts the bytes of the client that have reached the
server.
-/
structure State where
  client : Client
  server : MultiConnThreadsServer.State
  arrived : Nat

/-- The server's end of the connection. -/
def State.served (s : State) : MultiConn.Connection := s.server.connections connection

/-- The thread has closed the connection, or its process has ended. -/
def State.hungUp (s : State) : Prop :=
  s.server.main = .dead ∨ s.server.threads.map (·.pc) = [.finished]

/-- The server's end is closed with bytes of the client that were not read, so that the client's
end is reset.
-/
def State.reset (s : State) : Prop :=
  s.hungUp ∧ s.served.received.length < s.client.sent.length

/-- The network lets the call of the client come out like this. -/
def State.allows (s : State) : Call → Prop
  | .sendFails | .recvFails => s.reset
  | .recvEnd => s.hungUp
  | _ => True

instance (s : State) (call : Call) : Decidable (s.allows call) := by
  unfold State.allows State.reset State.hungUp
  split <;> infer_instance

inductive Action
  | client (call : Call)
  | arrive (n : Nat)
  | endStream
  | resetPeer
  | handler (call : MultiConnThreadsServer.Call)
  deriving DecidableEq, Repr

def step (s : State) : Action → Option State
  | .client call =>
      if s.client.ended = false ∧ s.allows call then
        (MultiConnThreadsClient.call s.client s.served.replied call).map fun client =>
          { s with client }
      else none
  -- the network brings the next bytes of the client to the server
  | .arrive n =>
      let bytes := (s.client.sent.drop s.arrived).take n
      (MultiConnThreadsServer.step s.server (.arrive connection bytes)).map fun server =>
        { s with server, arrived := s.arrived + bytes.length }
  -- behind `shutdown` or the end of the process
  | .endStream =>
      if (s.client.writeClosed ∨ s.client.ended) ∧ s.arrived = s.client.sent.length then
        (MultiConnThreadsServer.step s.server (.endStream connection)).map fun server =>
          { s with server }
      else none
  | .resetPeer =>
      if s.client.ended then
        (MultiConnThreadsServer.step s.server (.resetPeer connection)).map fun server =>
          { s with server }
      else none
  | .handler call =>
      (MultiConnThreadsServer.step s.server (.thread 0 call)).map fun server =>
        { s with server }

/-- The server has accepted the client and created its thread. -/
def accepting : List MultiConnThreadsServer.Action :=
  [.connect, .acceptClient, .checkAccept, .createThread]

def start (stdin writeBuf readBuf : Bytes) (server : MultiConnThreadsServer.State) : State where
  client := .start stdin writeBuf readBuf
  server := server
  arrived := 0

/-- This is typed, up to the end of the input. -/
def system (stdin : Bytes) : System State Action where
  Initial s :=
    ∃ idle server writeBuf readBuf,
      MultiConnThreadsServer.Started idle
      ∧ MultiConnThreadsServer.system.exec idle accepting = some server
      ∧ writeBuf.length = bufSize
      ∧ readBuf.length = bufSize
      ∧ s = start stdin writeBuf readBuf server
  step := step

end LinuxStudy.MultiConnThreadsClient.WithServer
