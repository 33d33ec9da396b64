import LinuxStudy.DaemonClient.WithEpollTest
import LinuxStudy.EpollTest.Attended

/-! What `daemon_client.c` prints when `epoll_test.c` sends its lines back. The client takes the
result of one `recv` for the reply, so the replies are its lines as long as every `recv` returns
the whole echo.
-/

namespace LinuxStudy.DaemonClient.WithEpollTest

open Transition Posix

-----------------------------------------------------------------------------------------
-- The two streams
-----------------------------------------------------------------------------------------

/-- What the server has got of the client's bytes, and the client of the server's. -/
structure Streams (s : State) : Prop where
  reached : EpollTest.system.Reachable s.server
  known : s.connection < s.server.connected
  uplink : (s.server.connections s.connection).arrived = s.client.sent.take s.arrived
  bound : s.arrived ≤ s.client.sent.length
  downlink : s.client.received <+: s.echoed

/-- Not more can be echoed than was sent, and as much only if it is the same. -/
theorem Streams.echoed_eq_sent {s : State} (streams : Streams s)
    (enough : s.client.sent.length ≤ s.echoed.length)
    : s.echoed = s.client.sent := by
  obtain ⟨reached, known, uplink, bound, -⟩ := streams
  have length : (s.server.connections s.connection).arrived.length ≤ s.echoed.length := by
    rw [uplink, List.length_take]
    omega
  have same := EpollTest.echoed_eq_arrived reached known length
  rw [State.echoed, State.served, same, uplink, List.length_take] at enough
  rw [State.echoed, State.served, same, uplink, List.take_of_length_le (by omega)]

theorem Streams.echoed_length_le {s : State} (streams : Streams s)
    : s.echoed.length ≤ s.client.sent.length := by
  have most := EpollTest.echoed_length_le streams.reached streams.known
  rw [streams.uplink, List.length_take] at most
  exact Nat.le_trans most (Nat.min_le_right _ _)

/-- An event of the server that this client has no part in. -/
theorem Streams.server {s : State} {server : EpollTest.State} {action : EpollTest.Action}
    (streams : Streams s) (other : ∀ bytes, action ≠ .arrive s.connection bytes)
    (taken : EpollTest.step s.server action = some server)
    : Streams { s with server } := by
  obtain ⟨reached, known, uplink, bound, downlink⟩ := streams
  have move := EpollTest.Move.of_step taken
  have chunked := (EpollTest.echoing_of_reachable reached).chunked
  exact ⟨reached.next taken, Nat.lt_of_lt_of_le known move.connected.1,
    (move.arrived known other).trans uplink, bound, downlink.trans (move.echoed chunked known)⟩

/-- Bytes of the client reach the server. -/
theorem Streams.arrive {s : State} {server : EpollTest.State} {n : Nat} (streams : Streams s)
    (taken
      : EpollTest.step s.server (.arrive s.connection ((s.client.sent.drop s.arrived).take n))
        = some server)
    : Streams { s with
        server
        arrived := s.arrived + ((s.client.sent.drop s.arrived).take n).length } := by
  obtain ⟨reached, known, uplink, bound, downlink⟩ := streams
  have reached' := EpollTest.reachable_step reached taken
  have move := EpollTest.Move.of_step taken
  have chunked := (EpollTest.echoing_of_reachable reached).chunked
  refine ⟨reached', Nat.lt_of_lt_of_le known move.connected.1, ?_, ?_,
    downlink.trans (move.echoed chunked known)⟩
  · cases move
    simp only [EpollTest.deliver, EpollTest.State.setConnection, Function.update_self,
      EpollTest.Connection.arrived] at uplink ⊢
    rw [← List.append_assoc, uplink, take_append_arriving]
  · exact arriving_le bound n

/-- The client's steps send at the end of its stream and read the next bytes of the other. -/
theorem Streams.client {s : State} {client : Client} (streams : Streams s)
    (sent : s.client.sent <+: client.sent) (received : client.received <+: s.echoed)
    : Streams { s with client } := by
  obtain ⟨reached, known, uplink, bound, -⟩ := streams
  refine ⟨reached, known, ?_, Nat.le_trans bound sent.length_le, received⟩
  obtain ⟨more, same⟩ := sent
  rw [uplink]
  dsimp only
  rw [← same, List.take_append_of_le_length bound]

theorem Streams.kept {s next : State} {action : Action} (streams : Streams s)
    (taken : step s action = some next)
    : Streams next := by
  cases action with
  | fgets =>
      obtain ⟨client, made, rfl⟩ := Option.map_eq_some_iff.mp taken
      obtain ⟨sent, received⟩ := fgets_frame made
      exact streams.client (sent ▸ List.prefix_rfl) (received ▸ streams.downlink)
  | send =>
      obtain ⟨client, made, rfl⟩ := Option.map_eq_some_iff.mp taken
      obtain ⟨len, -, rfl⟩ := send_eq_some made
      exact streams.client (List.prefix_append _ _) streams.downlink
  | recv n =>
      obtain ⟨client, made, rfl⟩ := Option.map_eq_some_iff.mp taken
      obtain ⟨_, _, _, _, _, _, _, _, sent, _⟩ := recv_eq_some made
      have received := received_prefix streams.downlink made
      exact streams.client (sent ▸ List.prefix_rfl) received
  | recvEnd =>
      obtain ⟨-, taken⟩ := Option.ite_none_right_eq_some.mp taken
      obtain ⟨client, made, rfl⟩ := Option.map_eq_some_iff.mp taken
      obtain ⟨-, -, rfl⟩ := recvEnd_eq_some made
      exact streams.client List.prefix_rfl streams.downlink
  | sendFails =>
      obtain ⟨-, taken⟩ := Option.ite_none_right_eq_some.mp taken
      obtain ⟨client, made, rfl⟩ := Option.map_eq_some_iff.mp taken
      obtain ⟨-, rfl⟩ := sendFails_eq_some made
      exact streams.client List.prefix_rfl streams.downlink
  | recvFails =>
      obtain ⟨-, taken⟩ := Option.ite_none_right_eq_some.mp taken
      obtain ⟨client, made, rfl⟩ := Option.map_eq_some_iff.mp taken
      obtain ⟨-, rfl⟩ := recvFails_eq_some made
      exact streams.client List.prefix_rfl streams.downlink
  | arrive n =>
      obtain ⟨server, made, rfl⟩ := Option.map_eq_some_iff.mp taken
      exact streams.arrive made
  | hangUp =>
      simp only [step] at taken
      split at taken
      next =>
        obtain ⟨-, taken⟩ := Option.ite_none_right_eq_some.mp taken
        obtain ⟨server, made, rfl⟩ := Option.map_eq_some_iff.mp taken
        exact streams.server (by simp) made
      next => contradiction
  | server action =>
      obtain ⟨other, taken⟩ := Option.ite_none_left_eq_some.mp taken
      obtain ⟨server, made, rfl⟩ := Option.map_eq_some_iff.mp taken
      refine streams.server (fun bytes same => other ?_) made
      simp [same, causedBy]

-----------------------------------------------------------------------------------------
-- The dialogue
-----------------------------------------------------------------------------------------

/-- How far the client has come with these lines: the lines in front are printed as they were
typed, and the one at hand is sent or about to be sent.
-/
inductive Dialogue (lines : List Bytes) (client : Client) : Prop
  | fgets {rest} (here : client.pc = .fgets) (split : lines = client.printed ++ rest)
    (awaits : Awaits rest client.stdin) (sent : client.sent = client.printed.flatten)
    (received : client.received = client.printed.flatten)
  | send {line rest} (here : client.pc = .send line.length)
    (split : lines = client.printed ++ line :: rest) (awaits : Awaits rest client.stdin)
    (text : client.buffer.take line.length = line)
    (sent : client.sent = client.printed.flatten)
    (received : client.received = client.printed.flatten)
  | recv {line rest} (here : client.pc = .recv line.length)
    (split : lines = client.printed ++ line :: rest) (awaits : Awaits rest client.stdin)
    (sent : client.sent = client.printed.flatten ++ line)
    (received : client.received = client.printed.flatten)
  | left (here : client.pc = .left .endOfInput) (all : client.printed = lines)

/-- A `recv` of the client returns as many bytes as the line it has just sent has, and no call
of it fails or finds the connection closed.
-/
def WholeReply (s : State) : Action → Prop
  | .recv n => s.client.pc = .recv n
  | .sendFails | .recvEnd | .recvFails => False
  | _ => True

instance (s : State) (action : Action) : Decidable (WholeReply s action) := by
  unfold WholeReply
  split <;> infer_instance

/-- What the client takes for a line that it can send. -/
def Message (line : Bytes) : Prop := Line line ∧ ¬(line = quit ∨ line = eof)

section Step

variable {lines : List Bytes} {client next : Client}

theorem Dialogue.fgetsStep (dialogue : Dialogue lines client)
    (good : ∀ line ∈ lines, Message line) (taken : DaemonClient.fgets client = some next)
    : Dialogue lines next := by
  have here := (Option.ite_none_right_eq_some.mp taken).1
  cases dialogue with
  | @fgets rest _ split awaits sent received =>
      have front : ∀ line ∈ rest.head?, Line line := fun line first =>
        (good line (split ▸ List.mem_append_right _ (List.mem_of_mem_head? first))).1
      cases reads_of_fgets front awaits taken with
      | ended => exact .left rfl (split.trans (List.append_nil _)).symm
      | newline buffer _ => exact .fgets rfl split (Or.inl rfl) sent received
      | command _ _ ends =>
          have message := good _ (split ▸ List.mem_append_right _ (.head _))
          exact absurd ends message.2
      | line _ _ more text _ => exact .send rfl split more text sent received
  | send there | recv there | left there => simp [here] at there

theorem Dialogue.sendStep (dialogue : Dialogue lines client)
    (taken : DaemonClient.send client = some next)
    : Dialogue lines next := by
  obtain ⟨len, here, rfl⟩ := send_eq_some taken
  cases dialogue with
  | send there split awaits text sent received =>
      obtain rfl := Pc.send.inj (here.symm.trans there)
      exact .recv rfl split awaits (by rw [sent, text]) received
  | fgets there | recv there | left there => simp [here] at there

/-- The whole echo is the line. -/
theorem Dialogue.recvStep {s : State} {n : Nat} (dialogue : Dialogue lines s.client)
    (good : ∀ line ∈ lines, Message line) (streams : Streams s) (here : s.client.pc = .recv n)
    (taken : DaemonClient.recv s.client s.echoed n = some next)
    : Dialogue lines next := by
  obtain ⟨_, chunk, -, chunk_, length, positive, pc, stdin, sent', received', printed⟩ :=
    recv_eq_some taken
  cases dialogue with
  | @recv line rest there split awaits sent received =>
      obtain rfl := Pc.recv.inj (here.symm.trans there)
      have message := good line (split ▸ List.mem_append_right _ (.head _))
      have whole : s.echoed = s.client.sent := by
        refine streams.echoed_eq_sent ?_
        rw [chunk_, List.length_take, List.length_drop] at length
        rw [sent, ← received, List.length_append]
        omega
      rw [whole, sent, received, List.drop_left' rfl, List.take_length] at chunk_
      rw [chunk_, cString_of_nulFree message.1.nulFree] at printed
      rw [chunk_] at received'
      refine .fgets pc ?_ (stdin ▸ awaits) ?_ ?_
      · rw [split, printed, List.append_assoc]
        rfl
      · simp [sent', sent, printed]
      · simp [received', received, printed]
  | fgets there | send there | left there => simp [here] at there

end Step

theorem Dialogue.kept {lines : List Bytes} {s next : State} {action : Action}
    (dialogue : Dialogue lines s.client) (good : ∀ line ∈ lines, Message line)
    (streams : Streams s) (whole : WholeReply s action) (taken : step s action = some next)
    : Dialogue lines next.client := by
  cases action with
  | fgets =>
      obtain ⟨client, made, rfl⟩ := Option.map_eq_some_iff.mp taken
      exact dialogue.fgetsStep good made
  | send =>
      obtain ⟨client, made, rfl⟩ := Option.map_eq_some_iff.mp taken
      exact dialogue.sendStep made
  | recv n =>
      obtain ⟨client, made, rfl⟩ := Option.map_eq_some_iff.mp taken
      exact dialogue.recvStep good streams whole made
  | sendFails | recvEnd | recvFails => exact whole.elim
  | arrive n =>
      obtain ⟨server, made, rfl⟩ := Option.map_eq_some_iff.mp taken
      exact dialogue
  | hangUp =>
      simp only [step] at taken
      split at taken
      next =>
        obtain ⟨-, taken⟩ := Option.ite_none_right_eq_some.mp taken
        obtain ⟨server, made, rfl⟩ := Option.map_eq_some_iff.mp taken
        exact dialogue
      next => contradiction
  | server action =>
      obtain ⟨-, taken⟩ := Option.ite_none_left_eq_some.mp taken
      obtain ⟨server, made, rfl⟩ := Option.map_eq_some_iff.mp taken
      exact dialogue

theorem start_streams {stdin memory : Bytes} {server : EpollTest.State}
    (reached : EpollTest.system.Reachable server)
    : Streams (start stdin memory server) := by
  have connect : EpollTest.step server .connect = some (EpollTest.connect server) := rfl
  refine ⟨EpollTest.reachable_step reached connect, Nat.lt_succ_self _, ?_, Nat.le_refl _,
    List.nil_prefix⟩
  simp [start, EpollTest.connect, EpollTest.Connection.arrived, Client.start]

theorem streams_of_reachable {lines : List Bytes} {s : State}
    (reached : (system lines).Reachable s)
    : Streams s := by
  apply reached.invariant
  · intro _ ⟨memory, server, _, reached, _, same⟩
    exact same ▸ start_streams reached
  · intro s action next streams taken
    exact streams.kept taken

theorem dialogue_of_reachableBy {lines : List Bytes} (good : ∀ line ∈ lines, Message line)
    {s : State} (reached : (system lines).ReachableBy WholeReply s)
    : Dialogue lines s.client := by
  apply reached.invariant
  · intro _ ⟨memory, server, _, _, _, same⟩
    exact same ▸ .fgets rfl rfl (Or.inl rfl) rfl rfl
  · intro s action next before dialogue whole taken
    exact dialogue.kept good (streams_of_reachable before.reachable) whole taken

-----------------------------------------------------------------------------------------
-- The replies
-----------------------------------------------------------------------------------------

/-- The text printed for each line is the line, and a client that has left its loop has come to
the end of its input with all of them printed.
-/
structure EchoesLines (lines : List Bytes) (s : State) : Prop where
  replies : s.client.printed <+: lines
  ends
    : ∀ ending,
        s.client.pc = .left ending → ending = .endOfInput ∧ s.client.printed = lines

theorem Dialogue.echoes {lines : List Bytes} {s : State}
    (dialogue : Dialogue lines s.client)
    : EchoesLines lines s := by
  cases dialogue with
  | fgets here split | send here split | recv here split =>
      exact ⟨⟨_, split.symm⟩, by simp [here]⟩
  | left here all =>
      exact ⟨all ▸ List.prefix_rfl, fun ending at_ => ⟨Pc.left.inj (at_.symm.trans here), all⟩⟩

/-- A `recv` that returns less than the line prints something else. -/
theorem Dialogue.cut {lines : List Bytes} {s next : State} {n : Nat}
    (dialogue : Dialogue lines s.client) (streams : Streams s) (cut : s.client.pc ≠ .recv n)
    (taken : step s (.recv n) = some next)
    : ¬EchoesLines lines next := by
  obtain ⟨client, made, rfl⟩ := Option.map_eq_some_iff.mp taken
  obtain ⟨_, chunk, here, chunk_, length, -, -, -, -, -, printed⟩ := recv_eq_some made
  cases dialogue with
  | @recv line rest there split awaits sent received =>
      rintro ⟨⟨more, replies⟩, -⟩
      have most := streams.echoed_length_le
      have other : n ≠ line.length := fun same => cut (same ▸ there)
      rw [chunk_, List.length_take, List.length_drop] at length
      rw [sent, ← received, List.length_append] at most
      rw [printed, split, List.append_assoc, List.append_cancel_left_eq] at replies
      -- the text printed is shorter than the line
      have text := (List.cons.inj replies).1
      have bound := (prefix_cString chunk).length_le
      rw [text, chunk_, List.length_take, List.length_drop] at bound
      omega
  | fgets there | send there | left there => simp [here] at there

/-- A call that fails or finds the connection closed leaves the loop too early. -/
theorem not_echoesLines_of_left {lines : List Bytes} {s : State} {ending : Ending}
    (left : s.client.pc = .left ending) (early : ending ≠ .endOfInput)
    : ¬EchoesLines lines s :=
  fun echoes => early (echoes.ends ending left).1

/-- The first step of the client that returns less, fails or finds the connection closed breaks
the echo.
-/
theorem Dialogue.breaks {lines : List Bytes} {s next : State} {action : Action}
    (dialogue : Dialogue lines s.client) (streams : Streams s) (broken : ¬WholeReply s action)
    (taken : step s action = some next)
    : ¬EchoesLines lines next := by
  cases action
  case recv n => exact dialogue.cut streams broken taken
  case sendFails =>
    obtain ⟨-, taken⟩ := Option.ite_none_right_eq_some.mp taken
    obtain ⟨client, made, rfl⟩ := Option.map_eq_some_iff.mp taken
    obtain ⟨-, rfl⟩ := sendFails_eq_some made
    exact not_echoesLines_of_left rfl (by simp)
  case recvEnd =>
    obtain ⟨-, taken⟩ := Option.ite_none_right_eq_some.mp taken
    obtain ⟨client, made, rfl⟩ := Option.map_eq_some_iff.mp taken
    obtain ⟨-, -, rfl⟩ := recvEnd_eq_some made
    exact not_echoesLines_of_left rfl (by simp)
  case recvFails =>
    obtain ⟨-, taken⟩ := Option.ite_none_right_eq_some.mp taken
    obtain ⟨client, made, rfl⟩ := Option.map_eq_some_iff.mp taken
    obtain ⟨-, rfl⟩ := recvFails_eq_some made
    exact not_echoesLines_of_left rfl (by simp)
  all_goals exact absurd trivial broken

end LinuxStudy.DaemonClient.WithEpollTest
