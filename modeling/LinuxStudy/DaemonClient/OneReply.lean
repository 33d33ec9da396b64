import LinuxStudy.DaemonClient.WithDaemonServer
import LinuxStudy.DaemonServer.Steps

/-! How `daemon_client.c` and `daemon_server.c` get on with each other. The client sends one
message after the other, the server takes one `recv`, answers it and closes the connection.
-/

namespace LinuxStudy.DaemonClient.WithDaemonServer

open Transition Posix

-----------------------------------------------------------------------------------------
-- The streams, and where the server has the connection
-----------------------------------------------------------------------------------------

/-- The server is at the head of its loop. -/
def inLoop (pc : DaemonServer.Pc) : Prop := pc = .test ∨ pc = .enterAccept ∨ pc = .accept

/-- The server accepts the connection once, answers it at most once and closes it. -/
inductive Place (s : State) : Prop
  | queued (backlog : s.server.backlog = [connection]) (here : inLoop s.server.pc)
    (replied : s.served.replied = []) (closed : s.closed = false)
  | served (backlog : s.server.backlog = [])
    (here
      : s.server.pc = .announce connection
        ∨ s.server.pc = .recv connection
        ∨ s.server.pc = .reply connection)
    (replied : s.served.replied = []) (closed : s.closed = false)
  | closing (backlog : s.server.backlog = []) (here : s.server.pc = .closeClient connection)
    (short : s.served.replied.length ≤ DaemonServer.reply.length) (closed : s.closed = false)
  | gone (backlog : s.server.backlog = []) (here : inLoop s.server.pc)
    (short : s.served.replied.length ≤ DaemonServer.reply.length) (closed : s.closed = true)

/-- The two streams. Nobody resets the connection, and the client ends its stream behind its
loop.
-/
structure Streams (s : State) : Prop where
  place : Place s
  running : s.server.keepRunning = true
  whole : s.served.reset = false
  ended : s.served.eof = true → ∃ ending, s.client.pc = .left ending
  uplink : s.served.received ++ s.served.unread = s.client.sent.take s.arrived
  bound : s.arrived ≤ s.client.sent.length
  downlink : s.client.received <+: s.served.replied
  shown : s.client.printed.flatten.length ≤ s.client.received.length

theorem Place.of_eq {s next : State} (place : Place s)
    (backlog : next.server.backlog = s.server.backlog) (pc : next.server.pc = s.server.pc)
    (replied : next.served.replied = s.served.replied) (closed : next.closed = s.closed)
    : Place next := by
  cases place with
  | queued line here silent opened =>
      exact .queued (backlog.trans line) (pc ▸ here) (replied.trans silent) (closed.trans opened)
  | served line here silent opened =>
      exact .served (backlog.trans line) (pc ▸ here) (replied.trans silent) (closed.trans opened)
  | closing line here short opened =>
      exact .closing (backlog.trans line) (pc.trans here) (replied ▸ short) (closed.trans opened)
  | gone line here short shut =>
      exact .gone (backlog.trans line) (pc ▸ here) (replied ▸ short) (closed.trans shut)

section Step

variable {s next : State}

/-- A step of the client, which sends at the end of its stream and reads the next bytes. -/
theorem Streams.client {client : Client} (streams : Streams s)
    (going : ∀ ending, s.client.pc = .left ending → client.pc = .left ending)
    (sent : s.client.sent <+: client.sent) (received : client.received <+: s.served.replied)
    (shown : client.printed.flatten.length ≤ client.received.length)
    : Streams { s with client } := by
  obtain ⟨place, running, whole, ended, uplink, bound, -, -⟩ := streams
  refine ⟨place.of_eq rfl rfl rfl rfl, running, whole, fun eof => ?_, ?_,
    Nat.le_trans bound sent.length_le, received, shown⟩
  · obtain ⟨ending, left⟩ := ended eof
    exact ⟨ending, going ending left⟩
  · obtain ⟨more, same⟩ := sent
    refine uplink.trans ?_
    dsimp only
    rw [← same, List.take_append_of_le_length bound]

/-- A failed call of the client, or the end of the server's stream. -/
theorem Streams.leave {ending : Ending} (streams : Streams s)
    (inside : ∀ ending, s.client.pc ≠ .left ending)
    : Streams { s with client := { s.client with pc := .left ending } } :=
  streams.client (fun other left => absurd left (inside other)) List.prefix_rfl streams.downlink
    streams.shown

/-- A call of the server, with what it does to the log and to the connection. -/
def State.after (s : State) (server : DaemonServer.Server) (event : DaemonServer.Event) : State :=
  { s with server, logged := s.loggedBy event, closed := s.closedBy event }

/-- Behind `accept` and in front of the reply the connection is the only one, and open. -/
theorem Place.serving {c : Nat} (place : Place s)
    (here
      : s.server.pc = .announce c ∨ s.server.pc = .recv c ∨ s.server.pc = .reply c)
    : c = connection
      ∧ s.server.backlog = []
      ∧ s.served.replied = []
      ∧ s.closed = false := by
  cases place with
  | served backlog there replied closed =>
      refine ⟨?_, backlog, replied, closed⟩
      rcases here with here | here | here
      all_goals simpa [here] using there
  | queued _ there => rcases here with here | here | here <;> simp [inLoop, here] at there
  | closing _ there => rcases here with here | here | here <;> simp [here] at there
  | gone _ there => rcases here with here | here | here <;> simp [inLoop, here] at there

/-- The calls of the server, by where it has the connection. -/
theorem Place.call {server : DaemonServer.Server} {event : DaemonServer.Event}
    (place : Place s) (running : s.server.keepRunning = true) (whole : s.served.reset = false)
    (call : isCall event = true) (move : DaemonServer.Move s.server event server)
    : Place (s.after server event) := by
  cases move
  case test here =>
    cases place with
    | queued backlog _ replied closed =>
        exact .queued backlog (by simp [inLoop, State.after, running]) replied closed
    | gone backlog _ short closed =>
        exact .gone backlog (by simp [inLoop, State.after, running]) short closed
    | served _ there | closing _ there => simp [here] at there
  case enterAccept here | acceptFails here =>
    cases place with
    | queued backlog _ replied closed =>
        exact .queued backlog (by simp [inLoop, State.after]) replied closed
    | gone backlog _ short closed =>
        exact .gone backlog (by simp [inLoop, State.after]) short closed
    | served _ there | closing _ there => simp [here] at there
  case accept c rest here waiting =>
    cases place with
    | queued backlog _ replied closed =>
        obtain ⟨rfl, rfl⟩ := List.cons.inj (waiting.symm.trans backlog)
        exact .served rfl (Or.inl rfl) replied closed
    | gone backlog => simp [waiting] at backlog
    | served _ there | closing _ there => simp [here] at there
  case announce c here =>
    obtain ⟨rfl, backlog, replied, closed⟩ := place.serving (Or.inl here)
    exact .served backlog (Or.inr (Or.inl rfl)) replied closed
  case recvData c n here _ _ _ =>
    obtain ⟨rfl, backlog, replied, closed⟩ := place.serving (Or.inr (Or.inl here))
    refine .served backlog (Or.inr (Or.inr rfl)) ?_ closed
    simpa [State.after, State.served, DaemonServer.Server.setConnection] using replied
  case recvNothing c here _ =>
    obtain ⟨rfl, backlog, replied, closed⟩ := place.serving (Or.inr (Or.inl here))
    have short : s.served.replied.length ≤ DaemonServer.reply.length := by simp [replied]
    exact .closing backlog rfl short closed
  case sendReply c k here positive part _ =>
    obtain ⟨rfl, backlog, replied, closed⟩ := place.serving (Or.inr (Or.inr here))
    refine .closing backlog rfl ?_ closed
    have short : (s.served.replied ++ DaemonServer.reply.take k).length
        ≤ DaemonServer.reply.length := by
      rw [replied, List.nil_append]
      exact List.length_take_le' k DaemonServer.reply
    simpa [State.after, State.served, DaemonServer.Server.setConnection] using short
  case sendBroken c signalled here broken =>
    obtain ⟨rfl, -⟩ := place.serving (Or.inr (Or.inr here))
    simp [State.served, broken] at whole
  case closeClient c here =>
    cases place with
    | closing backlog there short closed => exact .gone backlog (Or.inl rfl) short rfl
    | served _ there => simp [here] at there
    | queued _ there | gone _ there => simp [inLoop, here] at there
  all_goals contradiction

/-- What the calls of the server do to its end of the connection. -/
theorem served_of_call {server : DaemonServer.Server} {event : DaemonServer.Event}
    (call : isCall event = true) (move : DaemonServer.Move s.server event server)
    : server.keepRunning = s.server.keepRunning
      ∧ (server.connections connection).reset = s.served.reset
      ∧ (server.connections connection).eof = s.served.eof
      ∧ (server.connections connection).received ++ (server.connections connection).unread
        = s.served.received ++ s.served.unread
      ∧ s.served.replied <+: (server.connections connection).replied := by
  cases move
  case recvData c n here _ _ _ =>
    by_cases mine : connection = c
    · subst mine
      simp [State.served, DaemonServer.Server.setConnection]
    · simp [State.served, DaemonServer.Server.setConnection, mine]
  case sendReply c k here _ _ _ =>
    by_cases mine : connection = c
    · subst mine
      simp [State.served, DaemonServer.Server.setConnection]
    · simp [State.served, DaemonServer.Server.setConnection, mine]
  case signal | interrupt | signalInCtime | signalInHandler | signalAncestor | connect | arrive
      | endStream | resetPeer =>
    contradiction
  all_goals exact ⟨rfl, rfl, rfl, rfl, List.prefix_rfl⟩

theorem Streams.call {server : DaemonServer.Server} {event : DaemonServer.Event}
    (streams : Streams s) (call : isCall event = true)
    (move : DaemonServer.Move s.server event server)
    : Streams (s.after server event) := by
  obtain ⟨place, running, whole, ended, uplink, bound, downlink, shown⟩ := streams
  obtain ⟨keepRunning, reset, eof, arrived, replied⟩ := served_of_call call move
  exact ⟨place.call running whole call move, keepRunning.trans running, reset.trans whole,
    fun atEnd => ended (eof.symm.trans atEnd), arrived.trans uplink, bound,
    downlink.trans replied, shown⟩

/-- Bytes of the client reach the server. -/
theorem Streams.arrive {server : DaemonServer.Server} {n : Nat} (streams : Streams s)
    (move
      : DaemonServer.Move s.server
          (.arrive connection ((s.client.sent.drop s.arrived).take n)) server)
    : Streams { s with
        server
        arrived := s.arrived + ((s.client.sent.drop s.arrived).take n).length } := by
  obtain ⟨place, running, whole, ended, uplink, bound, downlink, shown⟩ := streams
  cases move
  have self (connection' : DaemonServer.Connection)
      : (s.server.setConnection connection connection').connections connection = connection' := by
    simp [DaemonServer.Server.setConnection]
  refine ⟨place.of_eq rfl rfl ?_ rfl, running, ?_, ?_, ?_, ?_, ?_, shown⟩
  all_goals simp only [State.served, self] at uplink ⊢
  · exact whole
  · exact ended
  · rw [← List.append_assoc, uplink, take_append_arriving]
  · exact arriving_le bound n
  · exact downlink

/-- The client closes its socket. -/
theorem Streams.hangUp {server : DaemonServer.Server} (streams : Streams s)
    (left : ∃ ending, s.client.pc = .left ending)
    (move : DaemonServer.Move s.server (.endStream connection) server)
    : Streams { s with server } := by
  obtain ⟨place, running, whole, ended, uplink, bound, downlink, shown⟩ := streams
  cases move
  have self (connection' : DaemonServer.Connection)
      : (s.server.setConnection connection connection').connections connection = connection' := by
    simp [DaemonServer.Server.setConnection]
  refine ⟨place.of_eq rfl rfl ?_ rfl, running, ?_, fun _ => left, ?_, bound, ?_, shown⟩
  all_goals simp only [State.served, self] at uplink ⊢
  · exact whole
  · exact uplink
  · exact downlink

/-- Reading a line shows nothing. -/
theorem printed_of_fgets {client next : Client} (taken : fgets client = some next)
    : next.printed = client.printed := by
  obtain ⟨-, same⟩ := Option.ite_none_right_eq_some.mp taken
  dsimp only at same
  split at same
  · exact Option.some.inj same ▸ rfl
  · exact Option.some.inj same ▸ rfl

theorem Streams.kept {action : Action} (streams : Streams s)
    (taken : step s action = some next)
    : Streams next := by
  cases action with
  | fgets =>
      obtain ⟨client, made, rfl⟩ := Option.map_eq_some_iff.mp taken
      obtain ⟨sent, received⟩ := fgets_frame made
      have here := (Option.ite_none_right_eq_some.mp made).1
      exact streams.client (fun _ left => by simp [here] at left) (sent ▸ List.prefix_rfl)
        (received ▸ streams.downlink) (received ▸ printed_of_fgets made ▸ streams.shown)
  | send =>
      obtain ⟨client, made, rfl⟩ := Option.map_eq_some_iff.mp taken
      obtain ⟨len, here, rfl⟩ := send_eq_some made
      exact streams.client (fun _ left => by simp [here] at left) (List.prefix_append _ _)
        streams.downlink streams.shown
  | sendFails =>
      obtain ⟨-, taken⟩ := Option.ite_none_right_eq_some.mp taken
      obtain ⟨client, made, rfl⟩ := Option.map_eq_some_iff.mp taken
      obtain ⟨⟨len, here⟩, rfl⟩ := sendFails_eq_some made
      exact streams.leave (by simp [here])
  | recv n =>
      obtain ⟨client, made, rfl⟩ := Option.map_eq_some_iff.mp taken
      obtain ⟨_, chunk, here, _, _, _, _, _, sent, received, printed⟩ := recv_eq_some made
      have taken := received_prefix streams.downlink made
      refine streams.client (fun _ left => by simp [here] at left) (sent ▸ List.prefix_rfl) taken ?_
      have shown := streams.shown
      have text := (prefix_cString chunk).length_le
      simp only [printed, received, List.flatten_append, List.flatten_cons, List.flatten_nil,
        List.append_nil, List.length_append]
      omega
  | recvEnd =>
      obtain ⟨-, taken⟩ := Option.ite_none_right_eq_some.mp taken
      obtain ⟨client, made, rfl⟩ := Option.map_eq_some_iff.mp taken
      obtain ⟨⟨len, here⟩, -, rfl⟩ := recvEnd_eq_some made
      exact streams.leave (by simp [here])
  | recvFails =>
      obtain ⟨-, taken⟩ := Option.ite_none_right_eq_some.mp taken
      obtain ⟨client, made, rfl⟩ := Option.map_eq_some_iff.mp taken
      obtain ⟨⟨len, here⟩, rfl⟩ := recvFails_eq_some made
      exact streams.leave (by simp [here])
  | arrive n =>
      obtain ⟨server, made, rfl⟩ := Option.map_eq_some_iff.mp taken
      exact streams.arrive (.of_step made)
  | hangUp =>
      simp only [step] at taken
      split at taken
      next ending left =>
        obtain ⟨-, taken⟩ := Option.ite_none_right_eq_some.mp taken
        obtain ⟨server, made, rfl⟩ := Option.map_eq_some_iff.mp taken
        exact streams.hangUp ⟨ending, left⟩ (.of_step made)
      next => contradiction
  | server event =>
      obtain ⟨call, taken⟩ := Option.ite_none_right_eq_some.mp taken
      obtain ⟨server, made, rfl⟩ := Option.map_eq_some_iff.mp taken
      exact streams.call call (.of_step made)

theorem streams_of_reachable {messages : List Bytes} (reached : (system messages).Reachable s)
    : Streams s := by
  apply reached.invariant
  · intro _ ⟨memory, pid, port, daemonMode, pc, _, here, same⟩
    subst same
    have open_ (atEnd : (false : Bool) = true) : ∃ ending, Pc.fgets = .left ending := by
      contradiction
    exact ⟨.queued rfl here rfl rfl, rfl, rfl, open_, rfl, Nat.le_refl _, List.nil_prefix,
      Nat.le_refl _⟩
  · intro s action next streams taken
    exact streams.kept taken

end Step

-----------------------------------------------------------------------------------------
-- At most one message
-----------------------------------------------------------------------------------------

/-- The server's `recv` returns all that the client has sent, its `send` passes the whole reply
on, and the client's `recv` returns the whole reply.
-/
def WholeExchange (s : State) : Action → Prop
  | .recv n => n = DaemonServer.reply.length
  | .server (.recvData n) => n = s.client.sent.length
  | .server (.sendReply k) => k = DaemonServer.reply.length
  | _ => True

instance (s : State) (action : Action) : Decidable (WholeExchange s action) := by
  unfold WholeExchange
  split <;> infer_instance

/-- What the server has made of the message. -/
inductive Stage (s : State) : Prop
  | idle (received : s.served.received = []) (replied : s.served.replied = [])
    (logged : s.logged = []) (closed : s.closed = false)
    (before : s.server.pc ≠ .reply connection ∧ s.server.pc ≠ .closeClient connection)
  | asked (here : s.server.pc = .reply connection) (received : s.served.received = s.client.sent)
    (some : s.client.sent ≠ []) (replied : s.served.replied = []) (logged : s.logged = [])
  | answered (behind : s.server.pc = .closeClient connection ∨ s.closed = true)
    (received : s.served.received = s.client.sent) (some : s.client.sent ≠ [])
    (replied : s.served.replied = DaemonServer.reply)
    (logged : s.logged = [cString s.client.sent])
  | unasked (behind : s.server.pc = .closeClient connection ∨ s.closed = true)
    (left : ∃ ending, s.client.pc = .left ending) (received : s.served.received = [])
    (sent : s.client.sent = []) (replied : s.served.replied = []) (logged : s.logged = [])

/-- How far the client is with its only message, or without one. -/
inductive Phase (messages : List Bytes) (client : Client) : Prop
  | typing (here : client.pc = .fgets) (awaits : Awaits (messages ++ [quit]) client.stdin)
    (sent : client.sent = []) (received : client.received = []) (printed : client.printed = [])
  | sending {message} (only : messages = [message]) (here : client.pc = .send message.length)
    (awaits : Awaits [quit] client.stdin) (text : client.buffer.take message.length = message)
    (sent : client.sent = []) (received : client.received = []) (printed : client.printed = [])
  | waiting {message} (only : messages = [message]) (here : client.pc = .recv message.length)
    (awaits : Awaits [quit] client.stdin) (sent : client.sent = message)
    (received : client.received = []) (printed : client.printed = [])
  | thanked {message} (only : messages = [message]) (here : client.pc = .fgets)
    (awaits : Awaits [quit] client.stdin) (sent : client.sent = message)
    (received : client.received = DaemonServer.reply)
    (printed : client.printed = [DaemonServer.reply])
  | left (here : client.pc = .left .typedQuit) (sent : client.sent = messages.flatten)
    (received : client.received = (messages.map fun _ => DaemonServer.reply).flatten)
    (printed : client.printed = messages.map fun _ => DaemonServer.reply)

section Exchange

variable {messages : List Bytes} {client : Client} {s next : State}

/-- A client that has left without a reply had nothing to send. -/
theorem Phase.sent_of_silent (phase : Phase messages client)
    (left : ∃ ending, client.pc = .left ending) (silent : client.received = [])
    : client.sent = [] := by
  obtain ⟨ending, left⟩ := left
  cases phase with
  | left _ sent received =>
      cases messages with
      | nil => exact sent
      | cons message rest => simp [received, DaemonServer.reply] at silent
  | typing _ _ sent | sending _ _ _ _ sent => exact sent
  | waiting _ here | thanked _ here => simp [left] at here

/-- A call of the server that is neither behind `recv` nor in front of `close`, before or after
it.
-/
theorem Stage.passes (stage : Stage s)
    (before : s.server.pc ≠ .reply connection ∧ s.server.pc ≠ .closeClient connection)
    (behind : next.server.pc ≠ .reply connection ∧ next.server.pc ≠ .closeClient connection)
    (served : next.served = s.served) (client : next.client = s.client)
    (logged : next.logged = s.logged) (closed : next.closed = s.closed)
    : Stage next := by
  cases stage with
  | idle received replied noLog opened _ =>
      exact .idle (served ▸ received) (served ▸ replied) (logged.trans noLog)
        (closed.trans opened) behind
  | asked here => exact absurd here before.1
  | answered either received some replied log =>
      have shut := either.resolve_left before.2
      exact .answered (Or.inr (closed.trans shut)) (by rw [served, client, received])
        (client ▸ some) (served ▸ replied) (by rw [logged, client, log])
  | unasked either left received sent replied noLog =>
      have shut := either.resolve_left before.2
      exact .unasked (Or.inr (closed.trans shut)) (client ▸ left) (served ▸ received)
        (client ▸ sent) (served ▸ replied) (logged.trans noLog)

/-- The calls of the server. -/
theorem Stage.call {server : DaemonServer.Server} {event : DaemonServer.Event}
    (stage : Stage s) (phase : Phase messages s.client) (streams : Streams s)
    (call : isCall event = true) (whole : WholeExchange s (.server event))
    (move : DaemonServer.Move s.server event server)
    : Stage (s.after server event) := by
  have place := streams.place
  cases move
  case test here =>
    refine stage.passes ⟨by simp [here], by simp [here]⟩ ?_ rfl rfl rfl rfl
    simp [State.after, streams.running]
  case enterAccept here | acceptFails here | accept here _ | announce here =>
    refine stage.passes ⟨by simp [here], by simp [here]⟩ ?_ rfl rfl rfl rfl
    simp [State.after]
  case recvData c n here positive available _ =>
    obtain ⟨rfl, -, -, opened⟩ := place.serving (Or.inr (Or.inl here))
    cases stage with
    | idle received replied logged closed =>
        have same : s.served.unread = s.client.sent.take s.arrived := by
          simpa [received] using streams.uplink
        have all : s.client.sent.length ≤ s.served.unread.length := whole ▸ available
        have unread : s.served.unread = s.client.sent := by
          rw [same, List.length_take] at all
          rw [same, List.take_of_length_le (by omega)]
        have some : s.client.sent ≠ [] := List.ne_nil_of_length_pos (whole ▸ positive)
        refine .asked rfl ?_ some ?_ logged
        · simp only [State.served] at received unread
          simp [State.after, State.served, DaemonServer.Server.setConnection, received, unread,
            whole.symm ▸ List.take_length]
        · simpa [State.after, State.served, DaemonServer.Server.setConnection] using replied
    | asked there => simp [here] at there
    | answered behind | unasked behind => simp [here, opened] at behind
  case recvNothing c here nothing =>
    obtain ⟨rfl, -, -, opened⟩ := place.serving (Or.inr (Or.inl here))
    cases stage with
    | idle received replied logged closed =>
        have eof : s.served.eof = true := by
          rcases nothing with ⟨-, eof⟩ | broken
          · exact eof
          · exact absurd (streams.whole.symm.trans broken) (by decide)
        have left := streams.ended eof
        have silent : s.client.received = [] :=
          List.eq_nil_of_prefix_nil (replied ▸ streams.downlink)
        exact .unasked (Or.inl rfl) left received (phase.sent_of_silent left silent) replied logged
    | asked there => simp [here] at there
    | answered behind | unasked behind => simp [here, opened] at behind
  case sendReply c k here positive part _ =>
    obtain ⟨rfl, -, -, opened⟩ := place.serving (Or.inr (Or.inr here))
    cases stage with
    | idle _ _ _ _ before => exact absurd here before.1
    | asked _ received some replied logged =>
        refine .answered (Or.inl rfl) ?_ some ?_ ?_
        · simpa [State.after, State.served, DaemonServer.Server.setConnection] using received
        · simp only [State.served] at replied
          simp [State.after, State.served, DaemonServer.Server.setConnection, replied,
            whole.symm ▸ List.take_length]
        · simp [State.after, State.loggedBy, logged, received]
    | answered behind | unasked behind => simp [here, opened] at behind
  case sendBroken c signalled here broken =>
    obtain ⟨rfl, -⟩ := place.serving (Or.inr (Or.inr here))
    have unbroken := streams.whole
    simp [State.served, broken] at unbroken
  case closeClient c here =>
    cases stage with
    | idle _ _ _ _ before =>
        cases place with
        | closing _ there => exact absurd there before.2
        | served _ there => simp [here] at there
        | queued _ there | gone _ there => simp [inLoop, here] at there
    | asked there => simp [here] at there
    | answered _ received some replied logged =>
        exact .answered (Or.inr rfl) received some replied logged
    | unasked _ left received sent replied logged =>
        exact .unasked (Or.inr rfl) left received sent replied logged
  all_goals contradiction

/-- What the stage says does not change without the server. -/
theorem Stage.of_eq (stage : Stage s) (pc : next.server.pc = s.server.pc)
    (received : next.served.received = s.served.received)
    (replied : next.served.replied = s.served.replied) (logged : next.logged = s.logged)
    (closed : next.closed = s.closed) (sent : next.client.sent = s.client.sent)
    (going : ∀ ending, s.client.pc = .left ending → next.client.pc = .left ending)
    : Stage next := by
  cases stage with
  | idle nothing silent noLog opened before =>
      exact .idle (received.trans nothing) (replied.trans silent) (logged.trans noLog)
        (closed.trans opened) (pc ▸ before)
  | asked here all some silent noLog =>
      exact .asked (pc.trans here) (by rw [received, all, sent]) (sent ▸ some)
        (replied.trans silent) (logged.trans noLog)
  | answered either all some reply log =>
      exact .answered (by rwa [pc, closed]) (by rw [received, all, sent]) (sent ▸ some)
        (replied.trans reply) (by rw [logged, log, sent])
  | unasked either left nothing unsent silent noLog =>
      obtain ⟨ending, left⟩ := left
      exact .unasked (by rwa [pc, closed]) ⟨ending, going ending left⟩
        (received.trans nothing) (sent.trans unsent) (replied.trans silent) (logged.trans noLog)

/-- A step of the client that sends nothing. -/
theorem Stage.clientStep {after : Client} (stage : Stage s) (sent : after.sent = s.client.sent)
    (inside : ∀ ending, s.client.pc ≠ .left ending)
    : Stage { s with client := after } :=
  stage.of_eq rfl rfl rfl rfl rfl sent fun ending left => absurd left (inside ending)

/-- Nothing has happened at the server as long as the client has sent nothing and is there. -/
theorem Stage.send {after : Client} (stage : Stage s) (nothing : s.client.sent = [])
    (inside : ∀ ending, s.client.pc ≠ .left ending)
    : Stage { s with client := after } := by
  cases stage with
  | idle received replied logged closed before =>
      exact .idle received replied logged closed before
  | asked _ _ some | answered _ _ some => exact absurd nothing some
  | unasked _ left =>
      obtain ⟨ending, left⟩ := left
      exact absurd left (inside ending)

/-- With a reply on its way or the connection closed, a client that is still there has its
answer.
-/
theorem Stage.isAnswered (stage : Stage s) (place : Place s)
    (either : s.served.replied ≠ [] ∨ s.closed = true)
    (inside : ∀ ending, s.client.pc ≠ .left ending)
    : s.served.replied = DaemonServer.reply ∧ s.served.received = s.client.sent := by
  cases stage with
  | idle _ replied _ closed => simp [replied, closed] at either
  | asked here _ _ replied =>
      obtain ⟨-, -, -, opened⟩ := place.serving (Or.inr (Or.inr here))
      simp [replied, opened] at either
  | answered _ received _ replied => exact ⟨replied, received⟩
  | unasked _ left =>
      obtain ⟨ending, left⟩ := left
      exact absurd left (inside ending)

/-- A message as it can be typed at the prompt; the client takes it for one. -/
structure Message (message : Bytes) : Prop where
  newlineFree : newline ∉ message
  nonempty : message ≠ []
  other : ¬(message = quit ∨ message = eof)

theorem line_quit : Line quit := ⟨by decide, by decide, by decide, by decide⟩

theorem Phase.fgetsStep {after : Client} (phase : Phase messages client)
    (few : messages.length ≤ 1)
    (good : ∀ message ∈ messages, Line message ∧ ¬(message = quit ∨ message = eof))
    (taken : DaemonClient.fgets client = some after)
    : Phase messages after := by
  have here := (Option.ite_none_right_eq_some.mp taken).1
  have last : ∀ line ∈ [quit].head?, Line line := by simpa using line_quit
  cases phase with
  | typing _ awaits sent received printed =>
      match messages with
      | [] =>
          cases reads_of_fgets last awaits taken with
          | newline => exact .typing rfl (Or.inl rfl) sent received printed
          | command => exact .left rfl sent received printed
          | line _ _ _ _ other => exact absurd (Or.inl rfl) other
      | [message] =>
          have first : ∀ line ∈ ([message] ++ [quit]).head?, Line line := by
            simpa using (good message (.head _)).1
          cases reads_of_fgets first awaits taken with
          | newline => exact .typing rfl (Or.inl rfl) sent received printed
          | command _ _ ends => exact absurd ends (good message (.head _)).2
          | line _ _ rest text _ => exact .sending rfl rfl rest text sent received printed
      | _ :: _ :: _ => simp at few
  | thanked only _ awaits sent received printed =>
      cases reads_of_fgets last awaits taken with
      | newline => exact .thanked only rfl (Or.inl rfl) sent received printed
      | command =>
          refine .left rfl ?_ ?_ ?_
          · simp [only, sent]
          · simp [only, received]
          · simp [only, printed]
      | line _ _ _ _ other => exact absurd (Or.inl rfl) other
  | sending _ there | waiting _ there | left there => simp [here] at there

theorem Phase.sendStep {after : Client} (phase : Phase messages client)
    (taken : DaemonClient.send client = some after)
    : client.sent = [] ∧ Phase messages after := by
  obtain ⟨len, here, rfl⟩ := send_eq_some taken
  cases phase with
  | sending only there awaits text sent received printed =>
      obtain rfl := Pc.send.inj (here.symm.trans there)
      exact ⟨sent, .waiting only rfl awaits (by rw [sent, text]; rfl) received printed⟩
  | typing there | waiting _ there | thanked _ there | left there => simp [here] at there

/-- The whole reply is received and shown. -/
theorem Phase.recvStep {n : Nat} {after : Client} (phase : Phase messages s.client)
    (stage : Stage s) (place : Place s) (whole : n = DaemonServer.reply.length)
    (taken : DaemonClient.recv s.client s.served.replied n = some after)
    : Phase messages after := by
  obtain ⟨_, chunk, here, chunk_, length, positive, pc, stdin, sent', received', printed'⟩ :=
    recv_eq_some taken
  cases phase with
  | waiting only there awaits sent received printed =>
      have some : s.served.replied ≠ [] := fun nothing => by
        rw [nothing, List.drop_nil, List.take_nil] at chunk_
        rw [chunk_, whole] at length
        contradiction
      obtain ⟨replied, -⟩ := stage.isAnswered place (Or.inl some) (by simp [here])
      rw [replied, received, whole] at chunk_
      replace chunk_ : chunk = DaemonServer.reply := chunk_
      have text : cString DaemonServer.reply = DaemonServer.reply := by decide
      exact .thanked only pc (stdin ▸ awaits) (sent'.trans sent)
        (by rw [received', received, chunk_]; rfl)
        (by rw [printed', printed, chunk_, text]; rfl)
  | typing there | sending _ there | thanked _ there | left there => simp [here] at there

/-- The two sides of the conversation. -/
structure Exchange (messages : List Bytes) (s : State) : Prop where
  stage : Stage s
  phase : Phase messages s.client

theorem Exchange.kept {action : Action} (exchange : Exchange messages s) (streams : Streams s)
    (few : messages.length ≤ 1)
    (good : ∀ message ∈ messages, Line message ∧ ¬(message = quit ∨ message = eof))
    (whole : WholeExchange s action) (taken : step s action = some next)
    : Exchange messages next := by
  obtain ⟨stage, phase⟩ := exchange
  cases action with
  | fgets =>
      obtain ⟨after, made, rfl⟩ := Option.map_eq_some_iff.mp taken
      have here := (Option.ite_none_right_eq_some.mp made).1
      exact ⟨stage.clientStep (fgets_frame made).1 (by simp [here]),
        phase.fgetsStep few good made⟩
  | send =>
      obtain ⟨after, made, rfl⟩ := Option.map_eq_some_iff.mp taken
      obtain ⟨_, here, -⟩ := send_eq_some made
      obtain ⟨nothing, sent⟩ := phase.sendStep made
      exact ⟨stage.send nothing (by simp [here]), sent⟩
  | sendFails =>
      obtain ⟨⟨-, unread⟩, taken⟩ := Option.ite_none_right_eq_some.mp taken
      obtain ⟨after, made, rfl⟩ := Option.map_eq_some_iff.mp taken
      obtain ⟨⟨_, here⟩, -⟩ := sendFails_eq_some made
      cases phase with
      | sending _ _ _ _ sent => simp [sent] at unread
      | typing there | waiting _ there | thanked _ there | left there => simp [here] at there
  | recv n =>
      obtain ⟨after, made, rfl⟩ := Option.map_eq_some_iff.mp taken
      obtain ⟨_, _, here, _, _, _, _, _, sent, _⟩ := recv_eq_some made
      exact ⟨stage.clientStep sent (by simp [here]),
        phase.recvStep stage streams.place whole made⟩
  | recvEnd =>
      obtain ⟨closed, taken⟩ := Option.ite_none_right_eq_some.mp taken
      obtain ⟨after, made, rfl⟩ := Option.map_eq_some_iff.mp taken
      obtain ⟨⟨_, here⟩, nothing, -⟩ := recvEnd_eq_some made
      obtain ⟨replied, -⟩ := stage.isAnswered streams.place (Or.inr closed) (by simp [here])
      cases phase with
      | waiting _ _ _ _ received => simp [replied, received, DaemonServer.reply] at nothing
      | typing there | sending _ there | thanked _ there | left there => simp [here] at there
  | recvFails =>
      obtain ⟨⟨closed, unread⟩, taken⟩ := Option.ite_none_right_eq_some.mp taken
      obtain ⟨after, made, rfl⟩ := Option.map_eq_some_iff.mp taken
      obtain ⟨⟨_, here⟩, -⟩ := recvFails_eq_some made
      obtain ⟨-, received⟩ := stage.isAnswered streams.place (Or.inr closed) (by simp [here])
      simp [received] at unread
  | arrive n =>
      obtain ⟨server, made, rfl⟩ := Option.map_eq_some_iff.mp taken
      cases DaemonServer.Move.of_step made
      refine ⟨stage.of_eq rfl ?_ ?_ rfl rfl rfl fun _ left => left, phase⟩
      all_goals simp [State.served, DaemonServer.Server.setConnection]
  | hangUp =>
      simp only [step] at taken
      split at taken
      next =>
        obtain ⟨-, taken⟩ := Option.ite_none_right_eq_some.mp taken
        obtain ⟨server, made, rfl⟩ := Option.map_eq_some_iff.mp taken
        cases DaemonServer.Move.of_step made
        refine ⟨stage.of_eq rfl ?_ ?_ rfl rfl rfl fun _ left => left, phase⟩
        all_goals simp [State.served, DaemonServer.Server.setConnection]
      next => contradiction
  | server event =>
      obtain ⟨call, taken⟩ := Option.ite_none_right_eq_some.mp taken
      obtain ⟨server, made, rfl⟩ := Option.map_eq_some_iff.mp taken
      exact ⟨stage.call phase streams call whole (.of_step made), phase⟩

theorem exchange_of_reachableBy (few : messages.length ≤ 1)
    (good : ∀ message ∈ messages, Line message ∧ ¬(message = quit ∨ message = eof))
    (reached : (system messages).ReachableBy WholeExchange s)
    : Exchange messages s := by
  apply reached.invariant
  · intro _ ⟨memory, pid, port, daemonMode, pc, _, here, same⟩
    subst same
    refine ⟨.idle rfl rfl rfl rfl ?_, .typing rfl (Or.inl rfl) rfl rfl rfl⟩
    rcases here with rfl | rfl | rfl <;> simp [start]
  · intro s action next before exchange whole taken
    exact exchange.kept (streams_of_reachable before.reachable) few good whole taken

end Exchange

-----------------------------------------------------------------------------------------
-- The promise
-----------------------------------------------------------------------------------------

/-- Each message is answered by one complete reply and logged whole, and the client leaves its
loop by "quit" behind the last one.
-/
structure RepliesToEach (messages : List Bytes) (s : State) : Prop where
  complete : ∀ text ∈ s.client.printed, text = DaemonServer.reply
  atMost : s.client.printed.length ≤ messages.length
  logs : s.logged <+: messages
  ends
    : ∀ ending,
        s.client.pc = .left ending
        → ending = .typedQuit
          ∧ s.client.printed.length = messages.length
          ∧ s.logged = messages

section Promise

variable {messages : List Bytes} {s : State}

/-- The log holds the message that was answered, or nothing. -/
theorem Stage.logs (stage : Stage s)
    : (s.logged = [] ∧ s.served.replied = [])
      ∨ (s.logged = [cString s.client.sent] ∧ s.client.sent ≠ []) := by
  cases stage with
  | idle _ replied logged | asked _ _ _ replied logged | unasked _ _ _ _ replied logged =>
      exact Or.inl ⟨logged, replied⟩
  | answered _ _ some _ logged => exact Or.inr ⟨logged, some⟩

theorem Phase.sends {client : Client} (phase : Phase messages client)
    : client.sent = [] ∨ client.sent = messages.flatten := by
  cases phase with
  | typing _ _ sent | sending _ _ _ _ sent => exact Or.inl sent
  | waiting only _ _ sent | thanked only _ _ sent => exact Or.inr (by simp [only, sent])
  | left _ sent => exact Or.inr sent

theorem Phase.prints {client : Client} (phase : Phase messages client)
    : client.printed = [] ∨ client.printed = messages.map fun _ => DaemonServer.reply := by
  cases phase with
  | typing _ _ _ _ printed | sending _ _ _ _ _ _ printed | waiting _ _ _ _ _ printed =>
      exact Or.inl printed
  | thanked only _ _ _ _ printed => exact Or.inr (by simp [only, printed])
  | left _ _ _ printed => exact Or.inr printed

/-- What is logged is the message. -/
theorem Exchange.logged (exchange : Exchange messages s) (few : messages.length ≤ 1)
    (nulFree : ∀ message ∈ messages, 0 ∉ message)
    : s.logged = [] ∧ s.served.replied = [] ∨ s.logged = messages := by
  refine exchange.stage.logs.imp_right fun ⟨logged, nonempty⟩ => ?_
  have sent := exchange.phase.sends.resolve_left nonempty
  match messages with
  | [] => exact absurd sent nonempty
  | [message] =>
      have text : cString message = message := cString_of_nulFree (nulFree message (.head _))
      rw [logged, sent, List.flatten_singleton, text]
  | _ :: _ :: _ => simp at few

theorem Exchange.replies (exchange : Exchange messages s) (streams : Streams s)
    (few : messages.length ≤ 1) (nulFree : ∀ message ∈ messages, 0 ∉ message)
    : RepliesToEach messages s := by
  have prints := exchange.phase.prints
  have logs := exchange.logged few nulFree
  constructor
  case complete =>
    intro text shown
    rcases prints with none | all
    · simp [none] at shown
    · obtain ⟨_, -, same⟩ := List.mem_map.mp (all ▸ shown)
      exact same.symm
  case atMost =>
    rcases prints with none | all
    · simp [none]
    · simp [all]
  case logs =>
    rcases logs with ⟨none, -⟩ | all
    · exact none ▸ List.nil_prefix
    · exact all ▸ List.prefix_rfl
  case ends =>
    intro ending left
    cases exchange.phase with
    | left here _ received printed =>
        refine ⟨Pc.left.inj (left.symm.trans here), by simp [printed], ?_⟩
        rcases logs with ⟨logged, unanswered⟩ | all
        · -- the replies that were received have been sent
          have nothing := List.eq_nil_of_prefix_nil (unanswered ▸ streams.downlink)
          cases messages with
          | nil => exact logged
          | cons => simp [received, DaemonServer.reply] at nothing
        · exact all
    | typing here | sending _ here | waiting _ here | thanked _ here => simp [left] at here

/-- The server sends at most one reply. -/
theorem Streams.shown_le (streams : Streams s)
    : s.client.printed.flatten.length ≤ DaemonServer.reply.length := by
  have received := streams.downlink.length_le
  have shown := streams.shown
  cases streams.place with
  | queued _ _ replied | served _ _ replied =>
      rw [replied, List.length_nil] at received
      omega
  | closing _ _ short | gone _ _ short => omega

/-- With a second message there are not enough replies. -/
theorem Streams.notEnough {ending : Ending} (streams : Streams s) (many : 2 ≤ messages.length)
    (left : s.client.pc = .left ending)
    : ¬RepliesToEach messages s := by
  intro ⟨complete, _, _, ends⟩
  obtain ⟨-, each, -⟩ := ends ending left
  have copies := List.eq_replicate_of_mem complete
  have shown := streams.shown_le
  rw [copies, List.length_flatten, List.map_replicate, List.sum_replicate_nat, each]
    at shown
  have replies := Nat.mul_le_mul_right DaemonServer.reply.length many
  have size : DaemonServer.reply.length = 13 := rfl
  omega

end Promise

end LinuxStudy.DaemonClient.WithDaemonServer
