import LinuxStudy.MultiConnThreadsClient.WithServer
import LinuxStudy.MultiConnThreadsServer.Handlers

/-! Acknowledgements against lines: `read_from_write_thread` answers every `recv`, whatever it
returns, so the two agree as long as every `recv` completes exactly one line.
-/

namespace LinuxStudy.MultiConnThreadsClient.WithServer

open Transition Posix

-----------------------------------------------------------------------------------------
-- The balance
-----------------------------------------------------------------------------------------

/-- The complete lines that the thread has received. -/
def State.completeLines (s : State) : Nat := s.served.received.count newline

/-- The complete acknowledgements that it has sent; the newline is the last byte of one. -/
def State.acknowledgements (s : State) : Nat := s.served.replied.count newline

/-- Whether the thread has an answer to send. -/
def State.pending (s : State) : Nat := s.server.threads.countP (·.pc = .send)

/-- By how much the lines are ahead of the acknowledgements. -/
def State.balance (s : State) : Int := s.completeLines - s.acknowledgements - s.pending

/-- A `recv` of the thread completes exactly one line, and its `send` passes the whole answer.
-/
def OneLineEach (s : State) : Action → Prop
  | .handler (.recvData n) => (s.served.unread.take n).count newline = 1
  | .handler (.sendReply k) => k = MultiConn.reply.length
  | _ => True

instance (s : State) (action : Action) : Decidable (OneLineEach s action) := by
  unfold OneLineEach
  split <;> infer_instance

/-- The only thread serves the only connection. -/
structure Served (s : State) : Prop where
  handled : MultiConnThreadsServer.Handled s.server
  alone : s.server.threads.map (·.connection) = [connection]

section Step

variable {s next : State}

theorem Served.only {thread : MultiConnThreadsServer.Thread} (served : Served s)
    (found : s.server.threads[0]? = some thread)
    : s.server.threads = [thread] ∧ thread.connection = connection := by
  obtain ⟨other, only, mine⟩ := List.map_eq_singleton_iff.mp served.alone
  obtain rfl : other = thread := by simpa [only] using found
  exact ⟨only, mine⟩

/-- A call of the thread on a connection is one on its own. -/
theorem Served.own {thread : MultiConnThreadsServer.Thread} {c : Nat} (served : Served s)
    (found : s.server.threads[0]? = some thread) (serving : thread.serving)
    (opened : s.server.connection? thread.clientfd = some c)
    : c = connection := by
  have right := served.handled.right found serving
  rw [opened] at right
  exact (Option.some.inj right).trans (served.only found).2

/-- What `recv` returns counts with its newlines, and one answer is due for it. -/
theorem Served.balance_recvData {n : Nat} (served : Served s)
    (taken : step s (.handler (.recvData n)) = some next)
    : next.balance + 1 = s.balance + (s.served.unread.take n).count newline := by
  obtain ⟨server, made, rfl⟩ := Option.map_eq_some_iff.mp taken
  cases MultiConnThreadsServer.Move.of_step made with
  | thread alive found call =>
      cases call with
      | recvData here opened offers =>
          obtain rfl := served.own found ⟨by simp [here], by simp [here]⟩ opened
          obtain ⟨only, -⟩ := served.only found
          simp [State.balance, State.completeLines, State.acknowledgements, State.pending,
            State.served, only, here, MultiConnThreadsServer.State.setThread,
            MultiConnThreadsServer.State.setConnection, MultiConnThreadsServer.Thread.stores,
            MultiConn.Connection.takes]
          omega

/-- A whole answer is one acknowledgement. -/
theorem Served.balance_sendReply (served : Served s)
    (taken : step s (.handler (.sendReply MultiConn.reply.length)) = some next)
    : next.balance = s.balance := by
  obtain ⟨server, made, rfl⟩ := Option.map_eq_some_iff.mp taken
  cases MultiConnThreadsServer.Move.of_step made with
  | thread alive found call =>
      cases call with
      | sendReply here opened positive part whole =>
          obtain rfl := served.own found ⟨by simp [here], by simp [here]⟩ opened
          obtain ⟨only, -⟩ := served.only found
          have last : MultiConn.reply.count newline = 1 := by decide
          simp [State.balance, State.completeLines, State.acknowledgements, State.pending,
            State.served, only, here, MultiConnThreadsServer.State.setThread,
            MultiConnThreadsServer.State.setConnection, MultiConn.Connection.answers, last]
          omega

/-- The other calls of the thread receive and send nothing. -/
theorem Served.balance_other {call : MultiConnThreadsServer.Call} (served : Served s)
    (recv : ∀ n, call ≠ .recvData n) (send : ∀ k, call ≠ .sendReply k)
    (taken : step s (.handler call) = some next)
    : next.balance = s.balance := by
  obtain ⟨server, made, rfl⟩ := Option.map_eq_some_iff.mp taken
  cases MultiConnThreadsServer.Move.of_step made with
  | thread alive found call =>
      obtain ⟨only, -⟩ := served.only found
      cases call with
      | recvData => exact absurd rfl (recv _)
      | sendReply => exact absurd rfl (send _)
      | sendFails => rfl
      | readArgument here | allocate here | allocateFails here | recvEnd here | recvError here
      | close here =>
          simp [State.balance, State.completeLines, State.acknowledgements, State.pending,
            State.served, only, here, MultiConnThreadsServer.State.setThread]

/-- The connection keeps what was received and answered when the network acts on it. -/
theorem balance_of_setConnection {after : MultiConn.Connection} {client : Client} {arrived : Nat}
    (received : after.received = s.served.received) (replied : after.replied = s.served.replied)
    : State.balance
        { s with client, server := s.server.setConnection connection after, arrived }
      = s.balance := by
  simp [State.balance, State.completeLines, State.acknowledgements, State.pending, State.served,
    MultiConnThreadsServer.State.setConnection] at received replied ⊢
  rw [received, replied]

/-- A step that completes one line, or sends one whole answer, keeps the balance. -/
theorem Served.balance_kept {action : Action} (served : Served s) (each : OneLineEach s action)
    (taken : step s action = some next)
    : next.balance = s.balance := by
  cases action with
  | client call =>
      obtain ⟨-, taken⟩ := Option.ite_none_right_eq_some.mp taken
      obtain ⟨client, made, rfl⟩ := Option.map_eq_some_iff.mp taken
      rfl
  | arrive n =>
      obtain ⟨server, made, rfl⟩ := Option.map_eq_some_iff.mp taken
      cases MultiConnThreadsServer.Move.of_step made
      exact balance_of_setConnection rfl rfl
  | endStream | resetPeer =>
      obtain ⟨-, taken⟩ := Option.ite_none_right_eq_some.mp taken
      obtain ⟨server, made, rfl⟩ := Option.map_eq_some_iff.mp taken
      cases MultiConnThreadsServer.Move.of_step made
      exact balance_of_setConnection rfl rfl
  | handler call =>
      cases call
      case recvData n =>
        have due := served.balance_recvData taken
        have one : (s.served.unread.take n).count newline = 1 := each
        omega
      case sendReply k =>
        obtain rfl : k = MultiConn.reply.length := each
        exact served.balance_sendReply taken
      all_goals exact served.balance_other (by simp) (by simp) taken

/-- The server takes a step that leaves the threads their connections. -/
theorem Served.server {server : MultiConnThreadsServer.State} {arrived : Nat}
    {action : MultiConnThreadsServer.Action} (served : Served s)
    (inTime : MultiConnThreadsServer.ReadFirst s.server action)
    (move : MultiConnThreadsServer.Move s.server action server)
    (threads : server.threads.map (·.connection) = s.server.threads.map (·.connection))
    : Served { s with server, arrived } :=
  ⟨served.handled.move inTime move, threads.trans served.alone⟩

theorem Served.kept {action : Action} (served : Served s) (taken : step s action = some next)
    : Served next := by
  cases action with
  | client call =>
      obtain ⟨-, taken⟩ := Option.ite_none_right_eq_some.mp taken
      obtain ⟨client, made, rfl⟩ := Option.map_eq_some_iff.mp taken
      exact ⟨served.handled, served.alone⟩
  | arrive n =>
      obtain ⟨server, made, rfl⟩ := Option.map_eq_some_iff.mp taken
      have move := MultiConnThreadsServer.Move.of_step made
      apply served.server (by exact trivial) move
      cases move
      rfl
  | endStream | resetPeer =>
      obtain ⟨-, taken⟩ := Option.ite_none_right_eq_some.mp taken
      obtain ⟨server, made, rfl⟩ := Option.map_eq_some_iff.mp taken
      have move := MultiConnThreadsServer.Move.of_step made
      apply served.server (by exact trivial) move
      cases move
      rfl
  | handler call =>
      obtain ⟨server, made, rfl⟩ := Option.map_eq_some_iff.mp taken
      have move := MultiConnThreadsServer.Move.of_step made
      apply served.server (by exact trivial) move
      cases move with
      | thread alive found call => exact (call.keeps found).1

end Step

/-- What the server looks like when it has created the thread. -/
theorem server_of_exec {idle server : MultiConnThreadsServer.State}
    (started : MultiConnThreadsServer.Started idle)
    (run : MultiConnThreadsServer.system.exec idle accepting = some server)
    : MultiConnThreadsServer.Handled server
      ∧ server.threads = [{ connection }]
      ∧ server.connections connection = {} := by
  obtain ⟨connected, connects, run⟩ := System.exec_cons_eq_some.mp run
  obtain ⟨accepted, accepts, run⟩ := System.exec_cons_eq_some.mp run
  obtain ⟨checked, checks, run⟩ := System.exec_cons_eq_some.mp run
  obtain ⟨created, creates, same⟩ := System.exec_cons_eq_some.mp run
  obtain rfl := Option.some.inj same
  have connects : MultiConnThreadsServer.Move idle .connect connected := .of_step connects
  have accepts : MultiConnThreadsServer.Move connected .acceptClient accepted := .of_step accepts
  have checks : MultiConnThreadsServer.Move accepted .checkAccept checked := .of_step checks
  have creates : MultiConnThreadsServer.Move checked .createThread created := .of_step creates
  have silent : connected.threads = [] := by
    cases connects
    exact started.threads
  have first : ∀ thread ∈ connected.threads, thread.pc ≠ .start := by simp [silent]
  have handled := started.handled.move (by exact trivial) connects
  replace handled := handled.move (by exact first) accepts
  replace handled := handled.move (by exact trivial) checks
  replace handled := handled.move (by exact trivial) creates
  refine ⟨handled, ?_⟩
  cases connects
  cases accepts with
  | @acceptClient c rest here waiting =>
      obtain ⟨rfl, -⟩ : 0 = c ∧ [] = rest := by
        simpa [MultiConnThreadsServer.connect, started.backlog, started.connected] using waiting
      cases checks with
      | checkFailed _ failed => simp at failed
      | checkAccept =>
          cases creates with
          | @createThread c _ last =>
              obtain rfl : 0 = c := by
                simpa [MultiConnThreadsServer.connect, started.accepted] using last
              constructor
              · simp [silent, connection]
              · simp [MultiConnThreadsServer.connect, started.connected, connection]

theorem served_of_reachable {stdin : Bytes} {s : State} (reached : (system stdin).Reachable s)
    : Served s := by
  apply reached.invariant
  · intro _ ⟨idle, server, _, _, started, run, _, _, same⟩
    obtain ⟨handled, threads, -⟩ := server_of_exec started run
    subst same
    exact ⟨handled, by simp [start, threads]⟩
  · exact fun _ _ _ served taken => served.kept taken

/-- In every run in which each `recv` completes one line, lines and acknowledgements agree up to
the answer that is due.
-/
theorem balance_of_reachableBy {stdin : Bytes} {s : State}
    (reached : (system stdin).ReachableBy OneLineEach s)
    : s.balance = 0 := by
  apply reached.invariant
  · intro _ ⟨idle, server, _, _, started, run, _, _, same⟩
    obtain ⟨-, threads, fresh⟩ := server_of_exec started run
    subst same
    simp [State.balance, State.completeLines, State.acknowledgements, State.pending, State.served,
      start, threads, fresh]
  · intro s action next before balance each taken
    exact ((served_of_reachable before.reachable).balance_kept each taken).trans balance

/-- The same from any state on, with the balance that it has. -/
theorem balance_of_exec {stdin : Bytes} {s final : State} {actions : List Action}
    (served : Served s)
    (run : ((system stdin).restrict OneLineEach).exec s actions = some final)
    : final.balance = s.balance := by
  have kept (t : State) (action : Action) (next : State)
      (holds : Served t ∧ t.balance = s.balance)
      (taken : ((system stdin).restrict OneLineEach).step t action = some next)
      : Served next ∧ next.balance = s.balance := by
    obtain ⟨each, taken⟩ := Option.ite_none_right_eq_some.mp taken
    exact ⟨holds.1.kept taken, (holds.1.balance_kept each taken).trans holds.2⟩
  exact (System.exec_invariant kept ⟨served, rfl⟩ run).2

-----------------------------------------------------------------------------------------
-- The lines that are typed
-----------------------------------------------------------------------------------------

/-- How far `write_to_server` has come with an input without NULs, of which no byte is lost. -/
inductive Typing (stdin : Bytes) (client : Client) : Prop
  | reading (here : client.write = .allocate ∨ client.write = .fgets)
    (split : client.sent ++ client.stdin = stdin)
  | sending (here : client.write = .send) (some : cString client.writeBuf ≠ [])
    (split : client.sent ++ cString client.writeBuf ++ client.stdin = stdin)
  | finished (here : client.write = .shutdown ∨ client.write = .returned)
    (all : client.sent = stdin)

theorem Typing.kept {stdin stream : Bytes} {client next : Client} {call : Call}
    (typing : Typing stdin client) (nulFree : 0 ∉ stdin)
    (taken : MultiConnThreadsClient.call client stream call = some next)
    : Typing stdin next := by
  cases call with
  | allocateWrite =>
      obtain ⟨here, same⟩ := Option.ite_none_right_eq_some.mp taken
      obtain rfl := Option.some.inj same
      cases typing with
      | reading _ split => exact .reading (Or.inr rfl) split
      | sending there | finished there => simp [here] at there
  | fgets =>
      obtain ⟨here, same⟩ := Option.ite_none_right_eq_some.mp taken
      cases typing with
      | reading _ split =>
          have isFront := fgetsLine_prefix bufSize client.stdin
          have front := List.prefix_iff_eq_append.mp isFront
          split at same
          next nothing =>
            obtain rfl := Option.some.inj same
            have all : client.stdin = [] := by
              by_contra more
              exact fgetsLine_ne_nil (by decide) more nothing
            rw [all, List.append_nil] at split
            exact .finished (Or.inl rfl) split
          next some =>
            obtain rfl := Option.some.inj same
            generalize fgetsLine bufSize client.stdin = line at *
            have free : 0 ∉ line := fun member => nulFree <| by
              rw [← split, ← front]
              simp [member]
            have text : cString (overwrite client.writeBuf (line ++ [0])) = line := by
              simpa [overwrite] using cString_append_zero free
            refine .sending rfl (by rwa [text]) ?_
            rw [text, List.append_assoc, front, split]
      | sending there | finished there => simp [here] at there
  | send =>
      obtain ⟨here, same⟩ := Option.ite_none_right_eq_some.mp taken
      obtain rfl := Option.some.inj same
      cases typing with
      | sending _ some split => 
          rw [if_neg some]
          exact .reading (Or.inr rfl) split
      | reading there | finished there => simp [here] at there
  | shutdown =>
      obtain ⟨here, same⟩ := Option.ite_none_right_eq_some.mp taken
      obtain rfl := Option.some.inj same
      cases typing with
      | finished _ all => exact .finished (Or.inr rfl) all
      | reading there | sending there => simp [here] at there
  | allocateRead | allocateFails | sendFails | recvEnd | recvFails | close =>
      obtain ⟨-, same⟩ := Option.ite_none_right_eq_some.mp taken
      obtain rfl := Option.some.inj same
      cases typing with
      | reading here split => exact .reading here split
      | sending here some split => exact .sending here some split
      | finished here all => exact .finished here all
  | recv n =>
      obtain ⟨-, taken⟩ := Option.ite_none_right_eq_some.mp taken
      obtain ⟨-, same⟩ := Option.ite_none_right_eq_some.mp taken
      obtain rfl := Option.some.inj same
      cases typing with
      | reading here split => exact .reading here split
      | sending here some split => exact .sending here some split
      | finished here all => exact .finished here all

theorem typing_of_reachable {stdin : Bytes} {s : State} (nulFree : 0 ∉ stdin)
    (reached : (system stdin).Reachable s)
    : Typing stdin s.client := by
  apply reached.invariant
  · intro _ ⟨idle, server, _, _, _, _, _, _, same⟩
    exact same ▸ .reading (Or.inl rfl) rfl
  · intro s action next typing taken
    cases action with
    | client call =>
        obtain ⟨-, taken⟩ := Option.ite_none_right_eq_some.mp taken
        obtain ⟨client, made, rfl⟩ := Option.map_eq_some_iff.mp taken
        exact typing.kept nulFree made
    | arrive | handler =>
        obtain ⟨server, made, rfl⟩ := Option.map_eq_some_iff.mp taken
        exact typing
    | endStream | resetPeer =>
        obtain ⟨-, taken⟩ := Option.ite_none_right_eq_some.mp taken
        obtain ⟨server, made, rfl⟩ := Option.map_eq_some_iff.mp taken
        exact typing

-----------------------------------------------------------------------------------------
-- One acknowledgement for each line
-----------------------------------------------------------------------------------------

/-- `write_to_server` is behind its `shutdown`. -/
def State.inputEnded (s : State) : Prop := s.client.write = .returned

/-- The thread has received all that the client has sent, and has no answer left to send. -/
def State.allRead (s : State) : Prop := s.served.received = s.client.sent ∧ s.pending = 0

/-- There are never more acknowledgements than complete lines, and in the end as many as lines
were sent; without NULs in the input these are the lines that were typed.
-/
structure AcknowledgesEach (stdin : Bytes) (s : State) : Prop where
  atMost : s.acknowledgements ≤ s.completeLines
  sent : s.inputEnded → s.allRead → s.acknowledgements = s.client.sent.count newline
  typed
    : 0 ∉ stdin → s.inputEnded → s.allRead → s.acknowledgements = stdin.count newline

/-- What the balance is when everything is read. -/
theorem balance_of_allRead {s : State} (all : s.allRead)
    : s.balance = s.client.sent.count newline - s.acknowledgements := by
  obtain ⟨received, pending⟩ := all
  simp [State.balance, State.completeLines, received, pending]

/-- The thread acknowledges each line once in every run in which each of its `recv` completes one
line and each of its `send` passes the whole answer. A run in which a single `recv` completes
none, or more than one, ends with another number of acknowledgements.
-/
theorem acknowledgesEach (stdin : Bytes)
    : (∀ s, (system stdin).ReachableBy OneLineEach s → AcknowledgesEach stdin s)
      ∧ ∀ s n next actions final,
          (system stdin).ReachableBy OneLineEach s
          → ¬OneLineEach s (.handler (.recvData n))
          → (system stdin).step s (.handler (.recvData n)) = some next
          → ((system stdin).restrict OneLineEach).exec next actions = some final
          → final.inputEnded
          → final.allRead
          → ¬AcknowledgesEach stdin final := by
  constructor
  · intro s reached
    have balance := balance_of_reachableBy reached
    have sent (all : s.allRead) : s.acknowledgements = s.client.sent.count newline := by
      have ahead := balance_of_allRead all
      omega
    refine ⟨?_, fun _ all => sent all, fun nulFree ended all => ?_⟩
    · rw [State.balance] at balance
      omega
    · cases typing_of_reachable nulFree reached.reachable with
      | finished _ typed => rw [sent all, typed]
      | reading here | sending here =>
          simp [State.inputEnded] at ended
          simp [ended] at here
  · intro s n next actions final reached broken taken run ended all acknowledges
    have served := served_of_reachable reached.reachable
    have before := balance_of_reachableBy reached
    have moved : step s (.handler (.recvData n)) = some next := taken
    have due := served.balance_recvData moved
    have after := balance_of_exec (served.kept moved) run
    have ahead := balance_of_allRead all
    have equal := acknowledges.sent ended all
    have other : (s.served.unread.take n).count newline ≠ 1 := broken
    omega

/-- A server that has created the thread of its first client. -/
def greeting : MultiConnThreadsServer.State :=
  (MultiConnThreadsServer.system.exec MultiConnThreadsServer.start accepting).get rfl

def connected (stdin : Bytes) : State :=
  start stdin (List.replicate bufSize 0) (List.replicate bufSize 0) greeting

theorem connected_initial (stdin : Bytes) : (system stdin).Initial (connected stdin) :=
  ⟨_, greeting, _, _, MultiConnThreadsServer.start_started, rfl, List.length_replicate,
    List.length_replicate, rfl⟩

/-- All threads are in front of their loops. -/
def begins : List Action :=
  [.client .allocateWrite, .client .allocateRead, .handler .readArgument, .handler .allocate]

/-- The thread answers what has arrived, `n` bytes of it. -/
def answers (n : Nat) : List Action := [.handler (.recvData n), .handler (.sendReply 7)]

/-- The client has read its input and shuts its end down. -/
def ends : List Action := [.client .fgets, .client .shutdown, .endStream, .handler .recvEnd]

/-- "a" and "b" arrive line by line. -/
theorem acknowledgesEach_lineByLine
    : ∃ s : State,
        s.inputEnded
        ∧ s.allRead
        ∧ s.acknowledgements = 2
        ∧ AcknowledgesEach [97, 10, 98, 10] s := by
  have reached := System.reachable_restrict_iff.mp (@System.reachable_of_run _ _
    ((system [97, 10, 98, 10]).restrict OneLineEach) (connected [97, 10, 98, 10])
    (connected_initial _)
    (begins ++ [.client .fgets, .client .send, .arrive 2] ++ answers 2
      ++ [.client .fgets, .client .send, .arrive 2] ++ answers 2 ++ ends) rfl)
  refine ⟨_, ?_, ⟨?_, ?_⟩, ?_, (acknowledgesEach _).1 _ reached⟩ <;> rfl

/-- "hi" is acknowledged when its first byte has arrived, and "a" and "b" are acknowledged once
when they arrive together.
-/
theorem acknowledgesEach_splitAndMerged
    : (∃ s, (system [104, 105, 10]).Reachable s
        ∧ s.completeLines = 0
        ∧ s.acknowledgements = 1
        ∧ ¬AcknowledgesEach [104, 105, 10] s)
      ∧ ∃ s, (system [97, 10, 98, 10]).Reachable s
          ∧ s.inputEnded
          ∧ s.allRead
          ∧ s.acknowledgements = 1
          ∧ ¬AcknowledgesEach [97, 10, 98, 10] s := by
  constructor
  · have reached := @System.reachable_of_run _ _ (system [104, 105, 10]) (connected [104, 105, 10])
      (connected_initial _)
      (begins ++ [.client .fgets, .client .send, .arrive 1] ++ answers 1) rfl
    refine ⟨_, reached, rfl, rfl, fun acknowledges => ?_⟩
    exact absurd acknowledges.atMost (by decide)
  · have reached := @System.reachable_of_run _ _ (system [97, 10, 98, 10])
      (connected [97, 10, 98, 10]) (connected_initial _)
      (begins ++ [.client .fgets, .client .send, .client .fgets, .client .send, .arrive 4]
        ++ answers 4 ++ ends) rfl
    refine ⟨_, reached, rfl, ⟨rfl, rfl⟩, rfl, fun acknowledges => ?_⟩
    exact absurd (acknowledges.sent rfl ⟨rfl, rfl⟩) (by decide)

end LinuxStudy.MultiConnThreadsClient.WithServer
