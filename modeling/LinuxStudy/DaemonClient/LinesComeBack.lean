import LinuxStudy.DaemonClient.EchoedLines
import LinuxStudy.Transition.Progress

/-! That `daemon_client.c` gets its lines back from `epoll_test.c`. As long as the server runs
and does not give the connection up, the client comes to the end of its input, whichever steps of
the two come next.
-/

namespace LinuxStudy.DaemonClient.WithEpollTest

open Transition Posix

/-- Besides, the server runs on, does not give this connection up, and its `send` on it accepts
the whole buffer.
-/
def Served (s : State) (action : Action) : Prop :=
  WholeReply s action
  ∧ match action with
    | .server action => EpollTest.Attends s.connection s.server action
    | _ => True

instance (s : State) (action : Action) : Decidable (Served s action) := by
  unfold Served
  refine @instDecidableAnd _ _ inferInstance ?_
  split <;> infer_instance

/-- The steps of this client and its network, and the calls of a server that no other client
disturbs.
-/
def Undisturbed (s : State) (action : Action) : Prop :=
  Served s action
  ∧ match action with
    | .server action => EpollTest.Faultless s.server action
    | _ => True

/-- The client has come to the end of its input with all of its lines printed. -/
structure EchoedAll (lines : List Bytes) (s : State) : Prop where
  left : s.client.pc = .left .endOfInput
  printed : s.client.printed = lines

section Completion

variable {lines : List Bytes} {s next : State} {action : Action}

/-- The client is in its loop. -/
def State.Inside (s : State) : Prop := ∀ ending, s.client.pc ≠ .left ending

/-- Who has left the loop stays away. -/
theorem inside_of_step (taken : step s action = some next) (inside : next.Inside) : s.Inside := by
  intro ending left
  cases action with
  | fgets =>
      obtain ⟨client, made, rfl⟩ := Option.map_eq_some_iff.mp taken
      have here := (Option.ite_none_right_eq_some.mp made).1
      simp [left] at here
  | send =>
      obtain ⟨client, made, rfl⟩ := Option.map_eq_some_iff.mp taken
      obtain ⟨_, here, -⟩ := send_eq_some made
      simp [left] at here
  | recv n =>
      obtain ⟨client, made, rfl⟩ := Option.map_eq_some_iff.mp taken
      obtain ⟨_, _, here, _⟩ := recv_eq_some made
      simp [left] at here
  | sendFails =>
      obtain ⟨-, taken⟩ := Option.ite_none_right_eq_some.mp taken
      obtain ⟨client, made, rfl⟩ := Option.map_eq_some_iff.mp taken
      exact inside _ (by rw [(sendFails_eq_some made).2])
  | recvEnd =>
      obtain ⟨-, taken⟩ := Option.ite_none_right_eq_some.mp taken
      obtain ⟨client, made, rfl⟩ := Option.map_eq_some_iff.mp taken
      exact inside _ (by rw [(recvEnd_eq_some made).2.2])
  | recvFails =>
      obtain ⟨-, taken⟩ := Option.ite_none_right_eq_some.mp taken
      obtain ⟨client, made, rfl⟩ := Option.map_eq_some_iff.mp taken
      exact inside _ (by rw [(recvFails_eq_some made).2])
  | arrive n =>
      obtain ⟨server, made, rfl⟩ := Option.map_eq_some_iff.mp taken
      exact inside ending left
  | hangUp =>
      simp only [step, left] at taken
      obtain ⟨-, taken⟩ := Option.ite_none_right_eq_some.mp taken
      obtain ⟨server, made, rfl⟩ := Option.map_eq_some_iff.mp taken
      exact inside ending left
  | server action =>
      obtain ⟨-, taken⟩ := Option.ite_none_left_eq_some.mp taken
      obtain ⟨server, made, rfl⟩ := Option.map_eq_some_iff.mp taken
      exact inside ending left

-----------------------------------------------------------------------------------------
-- The connection is there
-----------------------------------------------------------------------------------------

/-- The connection is not reset, and its stream ends only behind the client's loop. -/
structure Linked (s : State) : Prop where
  whole : s.served.reset = false
  unended : s.Inside → s.served.eof = false

/-- A step that changes neither flag of the connection. -/
theorem Linked.of_eq (linked : Linked s) (eof : next.served.eof = s.served.eof)
    (reset : next.served.reset = s.served.reset) (stays : next.Inside → s.Inside)
    : Linked next :=
  ⟨reset.trans linked.whole, fun inside => eof.trans (linked.unended (stays inside))⟩

theorem Linked.kept (linked : Linked s) (streams : Streams s) (taken : step s action = some next)
    : Linked next := by
  have stays := inside_of_step taken
  cases action with
  | fgets | send | recv n =>
      obtain ⟨client, made, rfl⟩ := Option.map_eq_some_iff.mp taken
      exact linked.of_eq rfl rfl stays
  | sendFails | recvEnd | recvFails =>
      obtain ⟨-, taken⟩ := Option.ite_none_right_eq_some.mp taken
      obtain ⟨client, made, rfl⟩ := Option.map_eq_some_iff.mp taken
      exact linked.of_eq rfl rfl stays
  | arrive n =>
      obtain ⟨server, made, rfl⟩ := Option.map_eq_some_iff.mp taken
      have flags := (EpollTest.Move.of_step made).flags streams.known (by simp) (by simp)
      exact linked.of_eq flags.1 flags.2 stays
  | hangUp =>
      simp only [step] at taken
      split at taken
      next ending left =>
        obtain ⟨-, taken⟩ := Option.ite_none_right_eq_some.mp taken
        obtain ⟨server, made, rfl⟩ := Option.map_eq_some_iff.mp taken
        refine ⟨?_, fun inside => absurd left (inside ending)⟩
        cases EpollTest.Move.of_step made with
        | endStream =>
            have whole := linked.whole
            simpa [State.served, EpollTest.deliver, EpollTest.State.setConnection] using whole
      next => contradiction
  | server action =>
      obtain ⟨other, taken⟩ := Option.ite_none_left_eq_some.mp taken
      obtain ⟨server, made, rfl⟩ := Option.map_eq_some_iff.mp taken
      have flags := (EpollTest.Move.of_step made).flags streams.known
        (fun same => other (by simp [same, causedBy]))
        (fun same => other (by simp [same, causedBy]))
      exact linked.of_eq flags.1 flags.2 stays

theorem linked_of_reachable (reached : (system lines).Reachable s) : Linked s := by
  refine System.ReachableBy.invariant ?_ ?_ reached
  · intro _ ⟨memory, server, _, _, _, same⟩
    subst same
    constructor <;> simp [State.served, start, EpollTest.connect]
  · intro s action next before linked _ taken
    exact linked.kept (streams_of_reachable before) taken

/-- The server attends to the connection while its client is in the loop. -/
def Waited (s : State) : Prop := s.Inside → EpollTest.Attended s.connection s.server

theorem Waited.kept (waited : Waited s) (streams : Streams s) (linked : Linked s)
    (served : Served s action) (taken : step s action = some next)
    : Waited next := by
  intro inside
  have before := inside_of_step taken inside
  have attended := waited before
  have chunked := (EpollTest.echoing_of_reachable streams.reached).chunked
  have unended := linked.unended before
  cases action with
  | fgets | send | recv n =>
      obtain ⟨client, made, rfl⟩ := Option.map_eq_some_iff.mp taken
      exact attended
  | sendFails | recvEnd | recvFails => exact served.1.elim
  | arrive n =>
      obtain ⟨server, made, rfl⟩ := Option.map_eq_some_iff.mp taken
      have attends : EpollTest.Attends s.connection s.server
          (.arrive s.connection ((s.client.sent.drop s.arrived).take n)) :=
        trivial
      exact attended.move chunked attends unended (.of_step made)
  | hangUp =>
      simp only [step] at taken
      split at taken
      next ending left => exact absurd left (before ending)
      next => contradiction
  | server action =>
      obtain ⟨-, taken⟩ := Option.ite_none_left_eq_some.mp taken
      obtain ⟨server, made, rfl⟩ := Option.map_eq_some_iff.mp taken
      exact attended.move chunked served.2 unended (.of_step made)

/-- A connection that has just been made waits to be accepted. -/
theorem attended_connect {server : EpollTest.State}
    (reached : EpollTest.system.Reachable server) (alive : server.pc ≠ .dead)
    : EpollTest.Attended server.connected (EpollTest.connect server) where
  alive := alive
  known := Nat.lt_succ_self _
  placed := Or.inl (List.mem_append_right _ (List.mem_singleton.mpr rfl))
  stays fd found := by
    have old := ((EpollTest.books_of_reachable reached).wired.known found).1
    exact absurd old (Nat.lt_irrefl _)
  complete := by simp [EpollTest.Connection.Complete, EpollTest.connect]

theorem waited_of_reachableBy (reached : (system lines).ReachableBy Served s) : Waited s := by
  refine System.ReachableBy.invariant ?_ ?_ reached
  · intro _ ⟨memory, server, _, reached, alive, same⟩ _
    subst same
    exact attended_connect reached alive
  · intro s action next before waited served taken
    exact waited.kept (streams_of_reachable before.reachable)
      (linked_of_reachable before.reachable) served taken

-----------------------------------------------------------------------------------------
-- Every step brings the end nearer
-----------------------------------------------------------------------------------------

/-- The client's own work, its bytes on their way, the server's work, and the end of the
stream.
-/
def State.cost (s : State) : Nat :=
  9 * bufSize * s.client.cost + 9 * (s.client.sent.length - s.arrived) + s.server.work
    + 6 * (!s.served.eof).toNat

/-- A step of the client that sends nothing. -/
theorem cost_lt_of_client {client : Client} (sent : client.sent = s.client.sent)
    (less : client.cost < s.client.cost)
    : { s with client }.cost < s.cost := by
  simp only [State.cost, State.served, sent, bufSize]
  omega

/-- The network brings bytes to the server, or the end of the stream. -/
theorem cost_lt_of_deliver {server : EpollTest.State} {n : Nat} (streams : Streams s)
    (taken
      : EpollTest.step s.server (.arrive s.connection ((s.client.sent.drop s.arrived).take n))
        = some server)
    : { s with
        server
        arrived := s.arrived + ((s.client.sent.drop s.arrived).take n).length }.cost < s.cost := by
  have books := (EpollTest.watchful_of_reachable streams.reached).books
  have bound := arriving_le streams.bound n
  have work := EpollTest.work_deliver books streams.known
    { s.served with unread := s.served.unread ++ (s.client.sent.drop s.arrived).take n }
  cases EpollTest.Move.of_step taken with
  | arrive streaming nonempty =>
      have some := List.length_pos_of_ne_nil nonempty
      simp only [State.served, List.length_append] at work
      simp only [State.cost, State.served, EpollTest.deliver, EpollTest.State.setConnection,
        Function.update_self] at bound work ⊢
      omega

theorem cost_lt_of_hangUp {server : EpollTest.State} (streams : Streams s)
    (taken : EpollTest.step s.server (.endStream s.connection) = some server)
    : { s with server }.cost < s.cost := by
  have books := (EpollTest.watchful_of_reachable streams.reached).books
  have work := EpollTest.work_deliver books streams.known { s.served with eof := true }
  cases EpollTest.Move.of_step taken with
  | endStream streaming =>
      simp only [State.cost, State.served, EpollTest.deliver, EpollTest.State.setConnection,
        Function.update_self, streaming.2.1, Bool.not_true, Bool.not_false, Bool.toNat_true,
        Bool.toNat_false] at work ⊢
      omega

/-- A call of the server does some of its work. -/
theorem cost_lt_of_server {server : EpollTest.State} {action : EpollTest.Action}
    (streams : Streams s) (other : causedBy s.connection action ≠ true)
    (faultless : EpollTest.Faultless s.server action)
    (taken : EpollTest.step s.server action = some server)
    : { s with server }.cost < s.cost := by
  have move := EpollTest.Move.of_step taken
  have less := (EpollTest.watchful_of_reachable streams.reached).work_lt faultless move
  have flags := move.flags streams.known (fun same => other (by simp [same, causedBy]))
    (fun same => other (by simp [same, causedBy]))
  simp only [State.cost, State.served, flags.1]
  omega

/-- Every step of an undisturbed run brings the end nearer. -/
theorem Dialogue.cost_lt (dialogue : Dialogue lines s.client)
    (good : ∀ line ∈ lines, Message line) (streams : Streams s)
    (undisturbed : Undisturbed s action) (taken : step s action = some next)
    : next.cost < s.cost := by
  cases action with
  | fgets =>
      obtain ⟨client, made, rfl⟩ := Option.map_eq_some_iff.mp taken
      exact cost_lt_of_client (fgets_frame made).1 (fgets_cost made)
  | send =>
      obtain ⟨client, made, rfl⟩ := Option.map_eq_some_iff.mp taken
      obtain ⟨len, here, rfl⟩ := send_eq_some made
      have short : (s.client.buffer.take len).length < bufSize := by
        cases dialogue with
        | send there split _ text =>
            obtain rfl := Pc.send.inj (here.symm.trans there)
            rw [text]
            exact (good _ (split ▸ List.mem_append_right _ (.head _))).1.fits
        | fgets there | recv there | left there => simp [here] at there
      simp only [State.cost, State.served, Client.cost, here, Pc.rank, List.length_append, bufSize]
        at short ⊢
      omega
  | recv n =>
      obtain ⟨client, made, rfl⟩ := Option.map_eq_some_iff.mp taken
      obtain ⟨_, _, here, _, _, _, pc, stdin, sent, _⟩ := recv_eq_some made
      refine cost_lt_of_client sent ?_
      simp [Client.cost, stdin, pc, here, Pc.rank]
  | sendFails | recvEnd | recvFails => exact undisturbed.1.1.elim
  | arrive n =>
      obtain ⟨server, made, rfl⟩ := Option.map_eq_some_iff.mp taken
      exact cost_lt_of_deliver streams made
  | hangUp =>
      simp only [step] at taken
      split at taken
      next =>
        obtain ⟨-, taken⟩ := Option.ite_none_right_eq_some.mp taken
        obtain ⟨server, made, rfl⟩ := Option.map_eq_some_iff.mp taken
        exact cost_lt_of_hangUp streams made
      next => contradiction
  | server action =>
      obtain ⟨other, taken⟩ := Option.ite_none_left_eq_some.mp taken
      obtain ⟨server, made, rfl⟩ := Option.map_eq_some_iff.mp taken
      exact cost_lt_of_server streams other undisturbed.2 made

-----------------------------------------------------------------------------------------
-- Some step is possible
-----------------------------------------------------------------------------------------

/-- Some step of an undisturbed run is possible. -/
def Possible (s : State) : Prop :=
  ∃ action next, Undisturbed s action ∧ step s action = some next

/-- A call of the server that is possible, and that no client has a part in. -/
theorem possible_of_server {server : EpollTest.State} {action : EpollTest.Action}
    (faultless : EpollTest.Faultless s.server action)
    (attends : EpollTest.Attends s.connection s.server action)
    (taken : EpollTest.step s.server action = some server)
    : Possible s := by
  have other : ¬(causedBy s.connection action = true) := by
    cases action
    case arrive | endStream | resetPeer => exact faultless.elim
    all_goals simp [causedBy]
  refine ⟨.server action, { s with server }, ⟨⟨trivial, attends⟩, faultless⟩, ?_⟩
  simp [step, other, taken]

/-- The next bytes of the client come to the server. -/
theorem Streams.possible_arrive (streams : Streams s) (linked : Linked s) (inside : s.Inside)
    (under : s.arrived < s.client.sent.length)
    : Possible s := by
  have streaming : s.server.streaming s.connection :=
    ⟨streams.known, linked.unended inside, linked.whole⟩
  have some : (s.client.sent.drop s.arrived).take 1 ≠ [] := by
    apply List.ne_nil_of_length_pos
    simp only [List.length_take, List.length_drop]
    omega
  have possible : ∃ next, step s (.arrive 1) = Option.some next := by
    simp [step, EpollTest.step, streaming, some]
  obtain ⟨next, taken⟩ := possible
  exact ⟨.arrive 1, next, ⟨⟨trivial, trivial⟩, trivial⟩, taken⟩

/-- The client goes on, the network does, or the server does what the client waits for. -/
theorem Dialogue.progress (dialogue : Dialogue lines s.client)
    (good : ∀ line ∈ lines, Message line) (streams : Streams s) (linked : Linked s)
    (waited : Waited s)
    : EchoedAll lines s ∨ Possible s := by
  cases dialogue with
  | left here all => exact .inl ⟨here, all⟩
  | fgets here =>
      have possible : ∃ next, step s .fgets = some next := by
        simp only [step, DaemonClient.fgets, here, if_true]
        split <;> exact ⟨_, rfl⟩
      obtain ⟨next, taken⟩ := possible
      exact .inr ⟨.fgets, next, ⟨⟨trivial, trivial⟩, trivial⟩, taken⟩
  | send here =>
      have possible : ∃ next, step s .send = some next := by simp [step, DaemonClient.send, here]
      obtain ⟨next, taken⟩ := possible
      exact .inr ⟨.send, next, ⟨⟨trivial, trivial⟩, trivial⟩, taken⟩
  | @recv line rest here split _ sent received =>
      have inside : s.Inside := by simp [State.Inside, here]
      have line_ := (good line (split ▸ List.mem_append_right _ (.head _))).1
      right
      rcases Nat.lt_or_eq_of_le streams.bound with under | all
      · exact streams.possible_arrive linked inside under
      · have arrived : s.served.arrived = s.client.sent := by
          have uplink := streams.uplink
          rw [all, List.take_length] at uplink
          exact uplink
        have offered := (EpollTest.echoing_of_reachable streams.reached).offered
        rcases (waited inside).progress (EpollTest.watchful_of_reachable streams.reached) offered
          linked.whole with back | ⟨action, server, faultless, attends, taken⟩
        · -- the whole line has come back
          have echo : s.echoed.drop s.client.received.length = line := by
            have same : s.echoed = s.client.sent := back.trans arrived
            rw [same, sent, received, List.drop_left' rfl]
          have fits : line.length ≤ bufSize - 1 := Nat.le_sub_one_of_lt line_.fits
          obtain ⟨client, made⟩ := exists_recv here (List.length_pos_of_ne_nil line_.nonempty)
            (Nat.le_of_eq (congrArg List.length echo).symm) fits
          have taken : step s (.recv line.length) = some { s with client } :=
            Option.map_eq_some_iff.mpr ⟨client, made, rfl⟩
          exact ⟨.recv line.length, _, ⟨⟨here, trivial⟩, trivial⟩, taken⟩
        · exact possible_of_server faultless attends taken

/-- Whichever steps come next, all lines come back. -/
theorem inevitable_echoedAll (good : ∀ line ∈ lines, Message line)
    (reached : (system lines).ReachableBy Served s)
    : (system lines).Inevitable Undisturbed (EchoedAll lines) s := by
  refine System.Inevitable.of_measure ((system lines).ReachableBy Served) State.cost ?_ ?_ ?_
    reached
  · exact fun _ _ _ reached undisturbed taken => reached.step undisturbed.1 taken
  · intro s reached
    have dialogue := dialogue_of_reachableBy good (reached.mono fun _ _ served => served.1)
    exact dialogue.progress good (streams_of_reachable reached.reachable)
      (linked_of_reachable reached.reachable) (waited_of_reachableBy reached)
  · intro s action next reached undisturbed taken
    have dialogue := dialogue_of_reachableBy good (reached.mono fun _ _ served => served.1)
    exact dialogue.cost_lt good (streams_of_reachable reached.reachable) undisturbed taken

/-- The client prints its own lines in every run in which each of its `recv` returns the whole
echo of the line it has just sent and no call of it fails or finds the connection closed; the
first step of it that is different breaks that. If moreover the server runs on, does not give
the connection up and its sends are whole, then from every state of the run each order of further
steps that no other client disturbs leads to the end with all lines printed.
-/
theorem echoesLines (good : ∀ line ∈ lines, Message line)
    : (∀ s, (system lines).ReachableBy WholeReply s → EchoesLines lines s)
      ∧ (∀ s,
          (system lines).ReachableBy Served s
          → (system lines).Inevitable Undisturbed (EchoedAll lines) s)
      ∧ ∀ s action next,
          (system lines).ReachableBy WholeReply s
          → ¬WholeReply s action
          → (system lines).step s action = some next
          → ¬EchoesLines lines next := by
  refine ⟨fun s reached => (dialogue_of_reachableBy good reached).echoes,
    fun s reached => inevitable_echoedAll good reached, ?_⟩
  intro s action next reached broken taken
  exact (dialogue_of_reachableBy good reached).breaks (streams_of_reachable reached.reachable)
    broken taken

/-- The client types "ab" and the server accepts it. -/
def typesAb : List Action :=
  [.fgets, .send, .arrive 2, .server (.epollWait [.listening]), .server .nextEvent,
    .server .acceptClient, .server .setNonblock, .server .registerClient,
    .server (.epollWait [.client 0]), .server .nextEvent]

/-- Connected to a server without other clients. -/
def connected (lines : List Bytes) : State :=
  start (typed lines) (List.replicate bufSize 0) EpollTest.start

theorem connected_initial (lines : List Bytes) : (system lines).Initial (connected lines) :=
  ⟨_, EpollTest.start, List.length_replicate, .initial EpollTest.start_started, by decide, rfl⟩

/-- "ab" comes back in one piece, and "c" before the server has come back to `epoll_wait`. From
the state behind "ab" that is inevitable.
-/
theorem echoesLines_whole
    : (∃ s : State, s.client.pc = .left .endOfInput ∧ EchoesLines [[97, 98], [99]] s)
      ∧ ∃ s : State,
          s.client.printed = [[97, 98]]
          ∧ (system [[97, 98], [99]]).Inevitable Undisturbed (EchoedAll [[97, 98], [99]]) s := by
  have good : ∀ line ∈ [[97, 98], [99]], Message line := by
    intro line member
    simp only [List.mem_cons, List.not_mem_nil, or_false] at member
    rcases member with rfl | rfl
    · exact ⟨⟨by decide, by decide, by decide, by decide⟩, by decide⟩
    · exact ⟨⟨by decide, by decide, by decide, by decide⟩, by decide⟩
  have first := System.reachable_restrict_iff.mp (@System.reachable_of_run _ _
    ((system [[97, 98], [99]]).restrict Served) (connected [[97, 98], [99]])
    (connected_initial _)
    (typesAb ++ [.server (.recvData 2), .server .printChunk, .server (.sendChunk 2), .recv 2])
    rfl)
  have second := System.reachable_restrict_iff.mp (@System.reachable_of_run _ _
    ((system [[97, 98], [99]]).restrict WholeReply) (connected [[97, 98], [99]])
    (connected_initial _)
    (typesAb ++ [.server (.recvData 2), .server .printChunk, .server (.sendChunk 2), .recv 2]
      ++ [.fgets, .send, .arrive 1, .server (.recvData 1), .server .printChunk,
        .server (.sendChunk 1), .recv 1, .server .recvAgain, .fgets]) rfl)
  exact ⟨⟨_, rfl, (echoesLines good).1 _ second⟩, ⟨_, rfl, (echoesLines good).2.1 _ first⟩⟩

/-- The server's `recv` returns the line in two pieces, and the client prints the first one as
the reply.
-/
theorem echoesLines_cut
    : ∃ s, (system [[97, 98]]).Reachable s
        ∧ s.client.printed = [[97]]
        ∧ ¬EchoesLines [[97, 98]] s := by
  have reached := @System.reachable_of_run _ _ (system [[97, 98]]) (connected [[97, 98]])
    (connected_initial _)
    (typesAb ++ [.server (.recvData 1), .server .printChunk, .server (.sendChunk 1), .recv 1]) rfl
  refine ⟨_, reached, rfl, fun echoes => ?_⟩
  exact absurd echoes.replies (by decide)

end Completion

end LinuxStudy.DaemonClient.WithEpollTest
