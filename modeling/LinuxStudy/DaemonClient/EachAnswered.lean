import LinuxStudy.DaemonClient.OneReply
import LinuxStudy.Transition.Progress

/-! That `daemon_client.c` and `daemon_server.c` get to the end of a conversation with at most
one message: whichever of their steps come next, the client leaves its loop by "quit" with
everything answered and logged.
-/

namespace LinuxStudy.DaemonClient.WithDaemonServer

open Transition Posix

/-- The client has left its loop by "quit" with a complete reply shown for each message, and the
server has logged each message whole.
-/
structure Done (messages : List Bytes) (s : State) : Prop where
  left : s.client.pc = .left .typedQuit
  printed : s.client.printed = messages.map fun _ => DaemonServer.reply
  logged : s.logged = messages

/-- Besides, `accept` does not fail. -/
def Smooth (s : State) (action : Action) : Prop :=
  WholeExchange s action ∧ action ≠ .server .acceptFails

instance (s : State) (action : Action) : Decidable (Smooth s action) := by
  unfold Smooth
  infer_instance

section Completion

variable {messages : List Bytes} {s next : State}

/-- What was replied was logged, so a client that has left by "quit" is done. -/
theorem Exchange.done_of_left {ending : Ending} (exchange : Exchange messages s)
    (streams : Streams s) (few : messages.length ≤ 1)
    (nulFree : ∀ message ∈ messages, 0 ∉ message) (left : s.client.pc = .left ending)
    : Done messages s := by
  have logs := (exchange.replies streams few nulFree).ends ending left
  cases exchange.phase with
  | left here _ _ printed => exact ⟨here, printed, logs.2.2⟩
  | typing here | sending _ here | waiting _ here | thanked _ here => simp [left] at here

/-- A client that is done has been replied to in every respect. -/
theorem Done.replies (done : Done messages s) : RepliesToEach messages s where
  complete text shown := by
    obtain ⟨_, -, same⟩ := List.mem_map.mp (done.printed ▸ shown)
    exact same.symm
  atMost := by simp [done.printed]
  logs := done.logged ▸ List.prefix_rfl
  ends ending left := by
    refine ⟨Pc.left.inj (left.symm.trans done.left), by simp [done.printed], done.logged⟩

-----------------------------------------------------------------------------------------
-- Every step brings the end nearer
-----------------------------------------------------------------------------------------

/-- What the server has still to do until it waits in `accept` behind its only connection. -/
def serverRank : Bool → DaemonServer.Pc → Nat
  | false, .test => 10
  | false, .enterAccept => 9
  | false, .accept => 8
  | _, .announce _ => 7
  | _, .recv _ => 6
  | _, .reply _ => 5
  | _, .closeClient _ => 4
  | true, .test => 3
  | true, .enterAccept => 2
  | true, .accept => 1
  | _, _ => 0

def State.cost (s : State) : Nat :=
  bufSize * s.client.cost + (s.client.sent.length - s.arrived) + serverRank s.closed s.server.pc
    + (!s.served.eof).toNat

/-- A step of the client that sends nothing. -/
theorem cost_lt_of_client {client : Client} (sent : client.sent = s.client.sent)
    (less : client.cost < s.client.cost)
    : { s with client }.cost < s.cost := by
  simp only [State.cost, State.served, sent, bufSize]
  omega

/-- A step of the client to another point of its loop, or out of it. -/
theorem cost_lt_of_pc {client : Client} (sent : client.sent = s.client.sent)
    (stdin : client.stdin = s.client.stdin) (less : client.pc.rank < s.client.pc.rank)
    : { s with client }.cost < s.cost :=
  cost_lt_of_client sent (by simp only [Client.cost, stdin]; omega)

/-- The calls of the server lead to `accept`, where it stays. -/
theorem serverRank_lt {server : DaemonServer.Server} {event : DaemonServer.Event}
    (place : Place s) (running : s.server.keepRunning = true) (call : isCall event = true)
    (accepts : event ≠ .acceptFails) (move : DaemonServer.Move s.server event server)
    : serverRank (s.closedBy event) server.pc < serverRank s.closed s.server.pc := by
  cases move
  case test here | enterAccept here =>
    cases shut : s.closed <;> simp [here, running, shut, State.closedBy, serverRank]
  case accept c rest here waiting =>
    cases place with
    | queued _ _ _ closed => simp [here, serverRank, closed]
    | gone backlog => simp [waiting] at backlog
    | served _ there | closing _ there => simp [here] at there
  case sendBroken c signalled here _ =>
    rw [here]
    cases signalled <;> simp [serverRank]
  case announce here | recvData here _ _ _ | recvNothing here _ | sendReply here _ _ _
      | closeClient here =>
    simp [here, State.closedBy, serverRank]
  all_goals contradiction

/-- Every step in which nothing is cut brings the end nearer. -/
theorem Exchange.cost_lt {action : Action} (exchange : Exchange messages s)
    (streams : Streams s)
    (good : ∀ message ∈ messages, Line message ∧ ¬(message = quit ∨ message = eof))
    (smooth : Smooth s action) (taken : step s action = some next)
    : next.cost < s.cost := by
  obtain ⟨_, accepts⟩ := smooth
  cases action with
  | fgets =>
      obtain ⟨after, made, rfl⟩ := Option.map_eq_some_iff.mp taken
      exact cost_lt_of_client (fgets_frame made).1 (fgets_cost made)
  | send =>
      obtain ⟨after, made, rfl⟩ := Option.map_eq_some_iff.mp taken
      obtain ⟨len, here, rfl⟩ := send_eq_some made
      have short : (s.client.buffer.take len).length < bufSize := by
        cases exchange.phase with
        | sending only there _ text =>
            obtain rfl := Pc.send.inj (here.symm.trans there)
            rw [text]
            exact (good _ (only ▸ .head _)).1.fits
        | typing there | waiting _ there | thanked _ there | left there =>
            simp [here] at there
      simp only [State.cost, State.served, Client.cost, here, Pc.rank, List.length_append, bufSize]
        at short ⊢
      omega
  | sendFails =>
      obtain ⟨-, taken⟩ := Option.ite_none_right_eq_some.mp taken
      obtain ⟨after, made, rfl⟩ := Option.map_eq_some_iff.mp taken
      obtain ⟨⟨_, here⟩, rfl⟩ := sendFails_eq_some made
      exact cost_lt_of_pc rfl rfl (by simp [here, Pc.rank])
  | recv n =>
      obtain ⟨after, made, rfl⟩ := Option.map_eq_some_iff.mp taken
      obtain ⟨_, _, here, _, _, _, pc, stdin, sent, _⟩ := recv_eq_some made
      exact cost_lt_of_pc sent stdin (by simp [here, pc, Pc.rank])
  | recvEnd =>
      obtain ⟨-, taken⟩ := Option.ite_none_right_eq_some.mp taken
      obtain ⟨after, made, rfl⟩ := Option.map_eq_some_iff.mp taken
      obtain ⟨⟨_, here⟩, -, rfl⟩ := recvEnd_eq_some made
      exact cost_lt_of_pc rfl rfl (by simp [here, Pc.rank])
  | recvFails =>
      obtain ⟨-, taken⟩ := Option.ite_none_right_eq_some.mp taken
      obtain ⟨after, made, rfl⟩ := Option.map_eq_some_iff.mp taken
      obtain ⟨⟨_, here⟩, rfl⟩ := recvFails_eq_some made
      exact cost_lt_of_pc rfl rfl (by simp [here, Pc.rank])
  | arrive n =>
      obtain ⟨server, made, rfl⟩ := Option.map_eq_some_iff.mp taken
      have bound := arriving_le streams.bound n
      cases DaemonServer.Move.of_step made with
      | arrive _ nonempty =>
          have some := List.length_pos_of_ne_nil nonempty
          simp only [State.cost, State.served, DaemonServer.Server.setConnection,
            Function.update_self] at bound ⊢
          omega
  | hangUp =>
      simp only [step] at taken
      split at taken
      next =>
        obtain ⟨-, taken⟩ := Option.ite_none_right_eq_some.mp taken
        obtain ⟨server, made, rfl⟩ := Option.map_eq_some_iff.mp taken
        cases DaemonServer.Move.of_step made with
        | endStream streaming =>
            simp [State.cost, State.served, DaemonServer.Server.setConnection, streaming.2.1]
      next => contradiction
  | server event =>
      obtain ⟨call, taken⟩ := Option.ite_none_right_eq_some.mp taken
      obtain ⟨server, made, rfl⟩ := Option.map_eq_some_iff.mp taken
      have move := DaemonServer.Move.of_step made
      have lower := serverRank_lt streams.place streams.running call (by simpa using accepts) move
      obtain ⟨_, _, eof, _⟩ := served_of_call call move
      simp only [State.cost, State.served] at eof ⊢
      rw [eof]
      omega

-----------------------------------------------------------------------------------------
-- Some step is possible
-----------------------------------------------------------------------------------------

/-- Some step is possible in which nothing is cut. -/
def Possible (s : State) : Prop := ∃ action next, Smooth s action ∧ step s action = some next

/-- The server gets no signal, and the connection exists from the beginning on. -/
structure Undisturbed (s : State) : Prop where
  awake : s.server.hung = false
  known : connection < s.server.connected

/-- A call of the server that is possible. -/
theorem possible_of_server {event : DaemonServer.Event} (undisturbed : Undisturbed s)
    (call : isCall event = true) (smooth : Smooth s (.server event))
    (enabled : (DaemonServer.happens s.server event).isSome)
    : Possible s := by
  obtain ⟨server, taken⟩ := Option.isSome_iff_exists.mp enabled
  have possible : ∃ next, step s (.server event) = some next := by
    simp [step, call, DaemonServer.step, undisturbed.awake, taken]
  obtain ⟨next, taken⟩ := possible
  exact ⟨.server event, next, smooth, taken⟩

theorem undisturbed_of_reachable (reached : (system messages).Reachable s) : Undisturbed s := by
  apply reached.invariant
  · intro _ ⟨_, _, _, _, _, _, _, same⟩
    subst same
    exact ⟨rfl, Nat.one_pos⟩
  · intro s action next ⟨awake, known⟩ taken
    have later {event : DaemonServer.Event} {server : DaemonServer.Server}
        (other : ∀ signum outer, event ≠ .signalInCtime signum outer)
        (moved : DaemonServer.step s.server event = some server)
        : server.hung = false ∧ connection < server.connected := by
      have move := DaemonServer.Move.of_step moved
      exact ⟨(move.hung_eq other).trans awake, Nat.lt_of_lt_of_le known move.connected_le⟩
    cases action with
    | server event =>
        obtain ⟨call, taken⟩ := Option.ite_none_right_eq_some.mp taken
        obtain ⟨server, made, rfl⟩ := Option.map_eq_some_iff.mp taken
        obtain ⟨awake, known⟩ := later (fun _ _ same => by simp [same, isCall] at call) made
        exact ⟨awake, known⟩
    | arrive n =>
        obtain ⟨server, made, rfl⟩ := Option.map_eq_some_iff.mp taken
        obtain ⟨awake, known⟩ := later (by simp) made
        exact ⟨awake, known⟩
    | hangUp =>
        replace taken : step s .hangUp = some next := taken
        simp only [step] at taken
        split at taken
        next =>
          obtain ⟨-, taken⟩ := Option.ite_none_right_eq_some.mp taken
          obtain ⟨server, made, rfl⟩ := Option.map_eq_some_iff.mp taken
          obtain ⟨awake, known⟩ := later (by simp) made
          exact ⟨awake, known⟩
        next => contradiction
    | fgets | send | recv _ =>
        obtain ⟨client, _, rfl⟩ := Option.map_eq_some_iff.mp taken
        exact ⟨awake, known⟩
    | sendFails | recvEnd | recvFails =>
        obtain ⟨-, taken⟩ := Option.ite_none_right_eq_some.mp taken
        obtain ⟨client, _, rfl⟩ := Option.map_eq_some_iff.mp taken
        exact ⟨awake, known⟩

/-- The next bytes of the client come to the server, as long as the client is there. -/
theorem Streams.possible_arrive (streams : Streams s) (undisturbed : Undisturbed s)
    (inside : ∀ ending, s.client.pc ≠ .left ending) (under : s.arrived < s.client.sent.length)
    : Possible s := by
  have open_ : s.served.eof = false := by
    by_contra atEnd
    obtain ⟨ending, left⟩ := streams.ended (by simpa using atEnd)
    exact inside ending left
  have streaming : s.server.streaming connection := ⟨undisturbed.known, open_, streams.whole⟩
  have some : (s.client.sent.drop s.arrived).take 1 ≠ [] := by
    apply List.ne_nil_of_length_pos
    simp only [List.length_take, List.length_drop]
    omega
  have possible : ∃ next, step s (.arrive 1) = Option.some next := by
    simp [step, DaemonServer.step, DaemonServer.happens, undisturbed.awake, streaming, some]
  obtain ⟨next, taken⟩ := possible
  exact ⟨.arrive 1, next, ⟨trivial, by simp⟩, taken⟩

/-- A message that has not been read yet comes to the server, which gets to its `recv`. -/
theorem Streams.serve (streams : Streams s) (undisturbed : Undisturbed s)
    (received : s.served.received = []) (some : s.client.sent ≠ [])
    (fits : s.client.sent.length < bufSize) (inside : ∀ ending, s.client.pc ≠ .left ending)
    (before : s.server.pc ≠ .reply connection ∧ s.server.pc ≠ .closeClient connection)
    (closed : s.closed = false)
    : Possible s := by
  rcases Nat.lt_or_eq_of_le streams.bound with under | all
  · exact streams.possible_arrive undisturbed inside under
  · have unread : s.served.unread = s.client.sent := by
      simpa [received, all] using streams.uplink
    cases streams.place with
    | queued backlog here replied _ =>
        rcases here with here | here | here
        · exact @possible_of_server _ .test undisturbed rfl ⟨trivial, by simp⟩
            (by simp [DaemonServer.happens, DaemonServer.Server.goes, here])
        · exact @possible_of_server _ .enterAccept undisturbed rfl ⟨trivial, by simp⟩
            (by simp [DaemonServer.happens, DaemonServer.Server.goes, here])
        · exact @possible_of_server _ .accept undisturbed rfl ⟨trivial, by simp⟩
            (by simp [DaemonServer.happens, DaemonServer.accept, here, backlog])
    | served _ here =>
        rcases here with here | here | here
        · exact @possible_of_server _ .announce undisturbed rfl ⟨trivial, by simp⟩
            (by simp [DaemonServer.happens, DaemonServer.announce, here])
        · have positive := List.length_pos_of_ne_nil some
          have room : s.client.sent.length ≤ DaemonServer.bufSize - 1 :=
            Nat.le_sub_one_of_lt fits
          simp only [State.served] at unread
          have receives
              : (DaemonServer.happens s.server (.recvData s.client.sent.length)).isSome := by
            simp [DaemonServer.happens, DaemonServer.recvData, here, unread, positive, room]
          have smooth : Smooth s (.server (.recvData s.client.sent.length)) := ⟨rfl, by simp⟩
          exact possible_of_server undisturbed rfl smooth receives
        · exact absurd here before.1
    | closing _ here => exact absurd here before.2
    | gone _ _ _ shut => simp [closed] at shut

/-- The client goes on, or the server does what the client waits for. -/
theorem Exchange.progress (exchange : Exchange messages s) (streams : Streams s)
    (undisturbed : Undisturbed s)
    (good : ∀ message ∈ messages, Line message ∧ ¬(message = quit ∨ message = eof))
    : (∃ ending, s.client.pc = .left ending) ∨ Possible s := by
  obtain ⟨stage, phase⟩ := exchange
  cases phase with
  | typing here | thanked _ here =>
      have possible : ∃ next, step s .fgets = some next := by
        simp only [step, fgets, here, if_true]
        split <;> exact ⟨_, rfl⟩
      obtain ⟨next, taken⟩ := possible
      exact .inr ⟨.fgets, next, ⟨trivial, by simp⟩, taken⟩
  | sending _ here =>
      have possible : ∃ next, step s .send = some next := by simp [step, send, here]
      obtain ⟨next, taken⟩ := possible
      exact .inr ⟨.send, next, ⟨trivial, by simp⟩, taken⟩
  | left here => exact .inl ⟨_, here⟩
  | @waiting message only here _ sent received =>
      have line : Line s.client.sent := sent ▸ (good message (by simp [only])).1
      have inside : ∀ ending, s.client.pc ≠ .left ending := by simp [here]
      right
      cases stage with
      | idle nothing _ _ closed before =>
          exact streams.serve undisturbed nothing line.nonempty line.fits inside before closed
      | asked there =>
          have whole := streams.whole
          simp only [State.served] at whole
          have sends
              : (DaemonServer.happens s.server (.sendReply DaemonServer.reply.length)).isSome := by
            simp [DaemonServer.happens, DaemonServer.sendReply, there, whole, DaemonServer.reply]
          have smooth : Smooth s (.server (.sendReply DaemonServer.reply.length)) :=
            ⟨rfl, by simp⟩
          exact possible_of_server undisturbed rfl smooth sends
      | answered _ _ _ replied =>
          have all : (s.served.replied.drop s.client.received.length).length
              = DaemonServer.reply.length := by
            rw [replied, received]
            rfl
          obtain ⟨client, made⟩ := exists_recv here (by decide) (Nat.le_of_eq all.symm) (by decide)
          have taken : step s (.recv DaemonServer.reply.length) = some { s with client } :=
            Option.map_eq_some_iff.mpr ⟨client, made, rfl⟩
          exact ⟨.recv DaemonServer.reply.length, _, ⟨rfl, by simp⟩, taken⟩
      | unasked _ left =>
          obtain ⟨ending, left⟩ := left
          exact absurd left (inside ending)

/-- Whichever steps come next, the conversation gets to its end. -/
theorem Exchange.inevitable (exchange : Exchange messages s) (few : messages.length ≤ 1)
    (good : ∀ message ∈ messages, Line message ∧ ¬(message = quit ∨ message = eof))
    (reached : (system messages).Reachable s)
    : (system messages).Inevitable Smooth (Done messages) s := by
  refine System.Inevitable.of_measure
    (fun s => (system messages).Reachable s ∧ Exchange messages s) State.cost ?_ ?_ ?_
    ⟨reached, exchange⟩
  · intro s action next ⟨reached, exchange⟩ smooth taken
    have streams := streams_of_reachable reached
    exact ⟨reached.next taken, exchange.kept streams few good smooth.1 taken⟩
  · intro s ⟨reached, exchange⟩
    have streams := streams_of_reachable reached
    have nulFree (message : Bytes) (member : message ∈ messages) := (good message member).1.nulFree
    refine (exchange.progress streams (undisturbed_of_reachable reached) good).imp_left ?_
    intro ⟨ending, left⟩
    exact exchange.done_of_left streams few nulFree left
  · intro s action next ⟨reached, exchange⟩ smooth taken
    exact exchange.cost_lt (streams_of_reachable reached) good smooth taken

-----------------------------------------------------------------------------------------
-- One message, and more
-----------------------------------------------------------------------------------------

/-- With at most one message, which fits into the client's buffer and has no NUL, the client
gets its reply in every run in which the message and the reply pass in one piece: from every
state of such a run, every order of further steps leads to the end of the conversation. With
more messages no run brings it to the end with all of them answered.
-/
theorem repliesToEach (good : ∀ message ∈ messages, Message message)
    : (messages.length ≤ 1
        → (∀ message ∈ messages, 0 ∉ message ∧ message.length < bufSize)
        → ∀ s,
            (system messages).ReachableBy WholeExchange s
            → RepliesToEach messages s ∧ (system messages).Inevitable Smooth (Done messages) s)
      ∧ (2 ≤ messages.length
        → ∀ s,
            (system messages).Reachable s
            → ¬Done messages s
              ∧ ∀ ending, s.client.pc = .left ending → ¬RepliesToEach messages s) := by
  constructor
  · intro few plain s reached
    have lines : ∀ message ∈ messages, Line message ∧ ¬(message = quit ∨ message = eof) := by
      intro message member
      obtain ⟨newlineFree, nonempty, other⟩ := good message member
      obtain ⟨nulFree, fits⟩ := plain message member
      exact ⟨⟨nulFree, newlineFree, nonempty, fits⟩, other⟩
    have exchange := exchange_of_reachableBy few lines reached
    have nulFree (message : Bytes) (member : message ∈ messages) := (plain message member).1
    exact ⟨exchange.replies (streams_of_reachable reached.reachable) few nulFree,
      exchange.inevitable few lines reached.reachable⟩
  · intro many s reached
    have streams := streams_of_reachable reached
    exact ⟨fun done => streams.notEnough many done.left done.replies,
      fun ending left => streams.notEnough many left⟩

/-- The server waits in `accept` and has room for these messages. -/
def waiting (messages : List Bytes) : State :=
  start (typed (messages ++ [quit])) (List.replicate bufSize 0)
    (DaemonServer.launch 1 9999 false) .accept

theorem waiting_initial (messages : List Bytes) : (system messages).Initial (waiting messages) :=
  ⟨_, 1, 9999, false, .accept, List.length_replicate, Or.inr (Or.inr rfl), rfl⟩

/-- The client sends a message of two bytes and gets its reply. -/
def firstMessage : List Action :=
  [.fgets, .send, .server .accept, .server .announce, .arrive 2, .server (.recvData 2),
    .server (.sendReply 13), .recv 13, .server .closeClient]

/-- "hi" is answered: from the beginning on that is inevitable. -/
theorem repliesToEach_hi
    : (∃ s : State, s.client.pc = .left .typedQuit ∧ RepliesToEach [[104, 105]] s)
      ∧ (system [[104, 105]]).Inevitable Smooth (Done [[104, 105]]) (waiting [[104, 105]]) := by
  have reached := System.reachable_restrict_iff.mp (@System.reachable_of_run _ _
    ((system [[104, 105]]).restrict WholeExchange) (waiting [[104, 105]]) (waiting_initial _)
    (firstMessage ++ [.fgets]) rfl)
  have good : ∀ message ∈ [[104, 105]], Message message := by
    intro message member
    obtain rfl := List.mem_singleton.mp member
    exact ⟨by decide, by decide, by decide⟩
  have replies := (repliesToEach good).1 (by decide) (by decide)
  exact ⟨⟨_, rfl, (replies _ reached).1⟩, (replies _ (.initial (waiting_initial _))).2⟩

/-- "hi" is answered, and for "you" the client finds the connection closed. -/
theorem repliesToEach_hiYou
    : ∃ s, (system [[104, 105], [121, 111, 117]]).Reachable s
        ∧ s.client.pc = .left .serverClosed
        ∧ s.client.printed.length = 1
        ∧ s.logged = [[104, 105]]
        ∧ ¬RepliesToEach [[104, 105], [121, 111, 117]] s := by
  have reached := @System.reachable_of_run _ _ (system [[104, 105], [121, 111, 117]])
    (waiting [[104, 105], [121, 111, 117]]) (waiting_initial _)
    (firstMessage ++ [.fgets, .send, .recvEnd]) rfl
  refine ⟨_, reached, rfl, rfl, rfl, fun replies => ?_⟩
  exact absurd (replies.ends _ rfl).1 (by decide)

end Completion

end LinuxStudy.DaemonClient.WithDaemonServer
