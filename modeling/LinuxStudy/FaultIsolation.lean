import LinuxStudy.EpollTest.Isolation
import LinuxStudy.MultiConnThreadsServer.Isolation

/-! Fault isolation of the two servers that serve many clients in one process. Both look at a
client's failure only where `recv` reports it; a `send` to a client that has reset its
connection takes the whole process with it.
-/

namespace LinuxStudy

open Transition

/-- Whatever client `k` does, at any point of any run with any number of clients, both servers
stay alive and treat all others as if it had not done it: `epoll_test` as long as no `send`
raises a signal, `multi_conn_threads_server` as long as no `send` fails at all, each thread
has read its argument before the next `accept`, and `accept` itself does not fail.
-/
theorem faultIsolation (k : Nat)
    : (∀ start actions s,
        EpollTest.Started start
        → (EpollTest.system.restrict EpollTest.NoSignal).exec start actions = some s
        → EpollTest.FaultIsolated start actions s k)
      ∧ ∀ start actions s,
          MultiConnThreadsServer.Started start
          → (MultiConnThreadsServer.system.restrict MultiConnThreadsServer.NoFailure).exec
              start actions
            = some s
          → MultiConnThreadsServer.FaultIsolated start actions s k := by
  constructor
  · intro start actions s started run
    exact EpollTest.faultIsolated_of_exec started run k
  · intro start actions s started run
    exact MultiConnThreadsServer.faultIsolated_of_exec started run k

/-- Two clients are registered; the server has read a byte of client 0 and is about to send it
back when client 0 resets its connection.
-/
def EpollTest.resetBeforeSend : List EpollTest.Action :=
  [.connect, .epollWait [.listening], .nextEvent, .acceptClient, .setNonblock, .registerClient,
    .connect, .epollWait [.listening], .nextEvent, .acceptClient, .setNonblock, .registerClient,
    .arrive 1 [98], .arrive 0 [97], .epollWait [.client 0, .client 1], .nextEvent, .recvData 1,
    .printChunk, .resetPeer 0]

/-- `send` returns -1, client 0 is given up, and client 1 gets its echo. -/
def EpollTest.refused : List EpollTest.Action :=
  EpollTest.resetBeforeSend
  ++ [.sendBroken false, .recvError, .closeClient, .deleteClient, .nextEvent, .recvData 1,
    .printChunk, .sendChunk 1, .recvAgain]

/-- Two clients have their threads, and client 0 has sent a byte. -/
def MultiConnThreadsServer.twoClients : List MultiConnThreadsServer.Action :=
  [.connect, .acceptClient, .checkAccept, .createThread, .thread 0 .readArgument,
    .thread 0 .allocate, .connect, .acceptClient, .checkAccept, .createThread,
    .thread 1 .readArgument, .thread 1 .allocate, .arrive 1 [98], .arrive 0 [97]]

/-- Client 0 resets its connection after its reply, and client 1 gets its own. -/
def MultiConnThreadsServer.resetAfterReply : List MultiConnThreadsServer.Action :=
  MultiConnThreadsServer.twoClients
  ++ [.thread 0 (.recvData 1), .thread 0 (.sendReply 7), .resetPeer 0, .thread 0 .recvError,
    .thread 0 .close, .thread 1 (.recvData 1), .thread 1 (.sendReply 7)]

/-- Client 1 is answered in both servers while client 0 fails. -/
theorem faultIsolation_answered
    : (∃ s, (s.connections 1).echoed = [98]
          ∧ EpollTest.FaultIsolated EpollTest.start EpollTest.refused s 0)
      ∧ ∃ s, (s.connections 1).replied = MultiConn.reply
          ∧ MultiConnThreadsServer.FaultIsolated MultiConnThreadsServer.start
              MultiConnThreadsServer.resetAfterReply s 0 := by
  constructor
  · have run : ((EpollTest.system.restrict EpollTest.NoSignal).exec EpollTest.start
        EpollTest.refused).isSome := by decide
    exact ⟨_, rfl, (faultIsolation 0).1 _ _ _ EpollTest.start_started (Option.some_get run).symm⟩
  · have run : ((MultiConnThreadsServer.system.restrict MultiConnThreadsServer.NoFailure).exec
        MultiConnThreadsServer.start MultiConnThreadsServer.resetAfterReply).isSome := by decide
    exact ⟨_, rfl, (faultIsolation 0).2 _ _ _ MultiConnThreadsServer.start_started
      (Option.some_get run).symm⟩

/-- Client 0 resets its connection between the server's `recv` and its `send`: in both servers
the `send` ends the process, and client 1 loses its connection with it.
-/
theorem faultIsolation_sendKills
    : (¬ ∀ start actions s,
          EpollTest.Started start
          → EpollTest.system.exec start actions = some s
          → ∀ k, EpollTest.FaultIsolated start actions s k)
      ∧ ¬ ∀ start actions s,
          MultiConnThreadsServer.Started start
          → MultiConnThreadsServer.system.exec start actions = some s
          → ∀ k, MultiConnThreadsServer.FaultIsolated start actions s k := by
  constructor
  · intro always
    have run : (EpollTest.system.exec EpollTest.start
        (EpollTest.resetBeforeSend ++ [.sendBroken true])).isSome := by decide
    have isolated := always _ _ _ EpollTest.start_started (Option.some_get run).symm 0
    exact isolated.1 rfl
  · intro always
    have run : (MultiConnThreadsServer.system.exec MultiConnThreadsServer.start
        (MultiConnThreadsServer.twoClients
          ++ [.thread 0 (.recvData 1), .resetPeer 0, .thread 0 .sendFails])).isSome := by decide
    have isolated := always _ _ _ MultiConnThreadsServer.start_started (Option.some_get run).symm 0
    exact isolated.1 rfl

end LinuxStudy
