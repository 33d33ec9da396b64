import LinuxStudy.MultiConnProcessServer.Ownership
import LinuxStudy.Transition.Projection

/-! Fault isolation of `multi_conn_process_server.c`. Any run, with children that fail or are
killed, signals, interrupted calls of `accept` and even the end of the parent, is compared with
the run in which one client says nothing after it has connected and no signal comes: all other
clients are served in the same way in both.
-/

namespace LinuxStudy.MultiConnProcessServer

open Transition Posix MultiConn

/-- The step is one of client `k`, or a call of its child. -/
def State.concerns (s : State) (k : Nat) : Action → Prop
  | .arrive c _ | .endStream c | .resetPeer c => c = k
  | .child i _ => (s.children[i]?).map (·.connection) = some k
  | _ => False

instance (s : State) (k : Nat) (action : Action) : Decidable (s.concerns k action) :=
  match action with
  | .arrive c _ | .endStream c | .resetPeer c => inferInstanceAs (Decidable (c = k))
  | .child i _ => inferInstanceAs (Decidable ((s.children[i]?).map (·.connection) = some k))
  | .connect | .acceptClient | .acceptFails _ | .testResult | .testErrno | .forkChild
  | .forkFails | .closeClient | .deliverSignal _ | .waitpidReaps _ | .waitpidDone
  | .reportChild | .handlerReturns => inferInstanceAs (Decidable False)

/-- The step belongs to `zombie_handler` or to an `accept` that has failed. -/
def State.disturbed (s : State) : Action → Prop
  | .deliverSignal _ | .waitpidReaps _ | .waitpidDone | .reportChild | .handlerReturns
  | .acceptFails _ | .testErrno => True
  | .testResult => s.clientfd = none
  | _ => False

instance (s : State) (action : Action) : Decidable (s.disturbed action) :=
  match action with
  | .deliverSignal _ | .waitpidReaps _ | .waitpidDone | .reportChild | .handlerReturns
  | .acceptFails _ | .testErrno => inferInstanceAs (Decidable True)
  | .testResult => inferInstanceAs (Decidable (s.clientfd = none))
  | .connect | .arrive _ _ | .endStream _ | .resetPeer _ | .acceptClient | .forkChild
  | .forkFails | .closeClient | .child _ _ => inferInstanceAs (Decidable False)

/-- What is left of a step when client `k` says nothing and no signal comes. -/
def withoutClient (k : Nat) (s : State) (action : Action) : Option Action :=
  if s.concerns k action ∨ s.disturbed action then none else some action

/-- Where a child is, unless it has ended. -/
def ChildPc.point : ChildPc → Option ChildPc
  | .zombie _ | .reaped => none
  | .closeListening => some .closeListening
  | .allocate => some .allocate
  | .recv => some .recv
  | .send => some .send
  | .handlerClose => some .handlerClose
  | .secondClose => some .secondClose
  | .exit => some .exit

/-- Where the parent would be if nothing had disturbed its calls of `accept`. -/
def State.undisturbed (s : State) : MainPc :=
  match s.main with
  | .accept | .interrupted | .testErrno | .dead => .accept
  | .testResult => if s.clientfd = none then .accept else .testResult
  | .fork => .fork
  | .closeClient => .closeClient

-----------------------------------------------------------------------------------------
-- Agreement on all other clients
-----------------------------------------------------------------------------------------

/-- Two children of the same connection, which do the same unless it is connection `k`. Only how
they have ended may differ.
-/
structure Alike (k : Nat) (one two : Child) : Prop where
  connection : one.connection = two.connection
  same
    : one.connection ≠ k
      → one.pc.point = two.pc.point
        ∧ one.clientfd = two.clientfd
        ∧ one.table = two.table
        ∧ one.readBuf = two.readBuf

/-- Two states agree on everything but connection `k` and the signals. -/
structure Agree (k : Nat) (s t : State) : Prop where
  main : t.main = s.undisturbed
  handler : t.handler = .idle
  clientfd : s.main.holding = true → s.clientfd ≠ none → t.clientfd = s.clientfd
  table : s.main ≠ .dead → t.table = s.table
  socketfd : t.socketfd = s.socketfd
  backlog : t.backlog = s.backlog
  connected : t.connected = s.connected
  accepted : t.accepted = s.accepted
  connections : ∀ c, c ≠ k → s.connections c = t.connections c
  count : s.children.length = t.children.length
  children
    : ∀ {i : Nat} {one two : Child},
        s.children[i]? = some one → t.children[i]? = some two → Alike k one two

theorem Alike.refl (k : Nat) (child : Child) : Alike k child child :=
  ⟨rfl, fun _ => ⟨rfl, rfl, rfl, rfl⟩⟩

theorem ChildPc.point_eq_some {pc point : ChildPc} (here : pc.point = some point)
    : pc = point := by
  cases pc <;> simp_all [ChildPc.point]

theorem Child.running.point {child : Child} (running : child.running)
    : child.pc.point = some child.pc := by
  obtain ⟨unreaped, alive⟩ := running
  cases here : child.pc
  case zombie status => exact absurd ⟨status, here⟩ alive
  case reaped => exact absurd here unreaped
  all_goals rfl

/-- Children of other connections that have not ended are the same in both. -/
theorem Alike.eq_of_point {k : Nat} {one two : Child} (alike : Alike k one two)
    (different : one.connection ≠ k) {pc : ChildPc} (here : one.pc = pc)
    (running : pc.point = some pc)
    : two = one := by
  obtain ⟨point, clientfd, table, readBuf⟩ := alike.same different
  rw [here, running] at point
  have there := ChildPc.point_eq_some point.symm
  cases one
  cases two
  simp only [Child.mk.injEq]
  exact ⟨alike.connection.symm, clientfd.symm, table.symm, readBuf.symm, there.trans here.symm⟩

theorem Agree.counterpart {k : Nat} {s t : State} (agree : Agree k s t) {i : Nat} {one : Child}
    (found : s.children[i]? = some one)
    : ∃ two, t.children[i]? = some two ∧ Alike k one two := by
  have bound : i < t.children.length := agree.count ▸ (List.getElem?_eq_some_iff.mp found).1
  have there : t.children[i]? = some t.children[i] := List.getElem?_eq_getElem bound
  exact ⟨_, there, agree.children found there⟩

/-- Replacing counterparts by counterparts keeps all of them. -/
theorem Agree.children_set {k : Nat} {s t : State} (agree : Agree k s t) {i : Nat}
    {new new' : Child} (alike : Alike k new new') {j : Nat} {one two : Child}
    (found : (s.children.set i new)[j]? = some one)
    (also : (t.children.set i new')[j]? = some two)
    : Alike k one two := by
  rw [List.getElem?_set] at found also
  split at found
  next here =>
    rw [if_pos here] at also
    obtain ⟨_, same⟩ := Option.ite_none_right_eq_some.mp found
    obtain ⟨_, same'⟩ := Option.ite_none_right_eq_some.mp also
    exact Option.some.inj same ▸ Option.some.inj same' ▸ alike
  next elsewhere =>
    rw [if_neg elsewhere] at also
    exact agree.children found also

/-- A child of the first state alone may be replaced by one that still agrees. -/
theorem Agree.children_own {k : Nat} {s t : State} (agree : Agree k s t) {i : Nat}
    {child new : Child} (here : s.children[i]? = some child)
    (alike : ∀ two, Alike k child two → Alike k new two) {j : Nat} {one two : Child}
    (found : (s.children.set i new)[j]? = some one) (also : t.children[j]? = some two)
    : Alike k one two := by
  rw [List.getElem?_set] at found
  split at found
  next same =>
    obtain ⟨_, same'⟩ := Option.ite_none_right_eq_some.mp found
    obtain rfl := Option.some.inj same'
    exact alike two (agree.children here (same ▸ also))
  next => exact agree.children found also

-----------------------------------------------------------------------------------------
-- What a child's call touches
-----------------------------------------------------------------------------------------

theorem ChildMove.handler {s next : State} {i : Nat} {child : Child} {call : Call}
    (taken : ChildMove s i child call next)
    : next.handler = s.handler := by
  have ended (status : Status) : (endChild s i child status).handler = s.handler := by
    unfold endChild
    split <;> rfl
  cases taken
  case sendFails | exit | killed => exact ended _
  all_goals rfl

theorem ChildMove.to_call {s next : State} {i : Nat} {child : Child} {call : Call}
    (taken : ChildMove s i child call next)
    : childStep s i child call = some next := by
  cases taken with
  | closeListening here => simp [childStep, MultiConnProcessServer.closeListening, here]
  | allocate here | allocateFails here => simp [childStep, MultiConnProcessServer.allocate, here]
  | recvData here open_ offers =>
      simp [childStep, MultiConnProcessServer.recvData, here, open_, offers]
  | recvEnd here open_ ended =>
      simp [childStep, MultiConnProcessServer.recvEnd, here, open_, ended]
  | recvError here => simp [childStep, MultiConnProcessServer.recvError, here]
  | sendReply here open_ positive part whole =>
      simp [childStep, MultiConnProcessServer.sendReply, here, open_, positive, part, whole]
  | sendFails here => simp [childStep, MultiConnProcessServer.sendFails, here]
  | handlerClose here => simp [childStep, MultiConnProcessServer.handlerClose, here]
  | secondClose here => simp [childStep, MultiConnProcessServer.secondClose, here]
  | exit here => simp [childStep, MultiConnProcessServer.exit, here]
  | killed here => simp [childStep, MultiConnProcessServer.killed, here.1, here.2]

/-- The connection behind a child's descriptor is its own. -/
theorem Child.OwnTable.connection?_eq {socketfd c : Nat} {child : Child}
    (own : child.OwnTable socketfd) (open_ : child.connection? = some c)
    : c = child.connection := by
  unfold Child.connection? at open_
  split at open_
  next other found =>
    obtain ⟨fd, _, lookup⟩ := Option.bind_eq_some_iff.mp found
    obtain rfl := Option.some.inj open_
    exact ((own.clients fd other).mp lookup).2.2
  next => contradiction

/-- A call of a child changes no connection but its own. -/
theorem ChildMove.connections {s next : State} {i : Nat} {child : Child} {call : Call}
    (taken : ChildMove s i child call next) (own : child.OwnTable s.socketfd) {c : Nat}
    (different : c ≠ child.connection)
    : next.connections c = s.connections c := by
  have ended (status : Status) : (endChild s i child status).connections = s.connections := by
    unfold endChild
    split <;> rfl
  cases taken
  case sendFails | exit | killed => rw [ended]
  case recvData open_ _ | sendReply open_ _ _ _ =>
    have mine := own.connection?_eq open_
    simp [State.setConnection, State.setChild, mine, different]
  all_goals rfl

-----------------------------------------------------------------------------------------
-- Steps for client `k`, for the signals and for all others
-----------------------------------------------------------------------------------------

/-- The parent is where it was, and holds what it held. -/
structure SameParent (s next : State) : Prop where
  socketfd : next.socketfd = s.socketfd
  main : next.main = s.main
  clientfd : next.clientfd = s.clientfd
  table : next.table = s.table
  accepted : next.accepted = s.accepted
  backlog : next.backlog = s.backlog
  connected : next.connected = s.connected
  handler : next.handler = s.handler

theorem ChildMove.sameParent {s next : State} {i : Nat} {child : Child} {call : Call}
    (taken : ChildMove s i child call next)
    : SameParent s next := by
  obtain ⟨socketfd, main, clientfd, table, accepted, _, backlog, connected⟩ := taken.parent
  exact ⟨socketfd, main, clientfd, table, accepted, backlog, connected, taken.handler⟩

theorem SameParent.refl (s : State) : SameParent s s :=
  ⟨rfl, rfl, rfl, rfl, rfl, rfl, rfl, rfl⟩

theorem SameParent.setConnection (s : State) (c : Nat) (connection : Connection)
    : SameParent s (s.setConnection c connection) :=
  ⟨rfl, rfl, rfl, rfl, rfl, rfl, rfl, rfl⟩

/-- Steps of the network and of children. -/
theorem Agree.beside {k : Nat} {s next t after : State} (agree : Agree k s t)
    (left : SameParent s next) (right : SameParent t after)
    (connections : ∀ c, c ≠ k → next.connections c = after.connections c)
    (count : next.children.length = after.children.length)
    (children
      : ∀ {i : Nat} {one two : Child},
          next.children[i]? = some one → after.children[i]? = some two → Alike k one two)
    : Agree k next after where
  main := by
    rw [right.main, agree.main, State.undisturbed, State.undisturbed, left.main, left.clientfd]
  handler := right.handler.trans agree.handler
  clientfd := by
    rw [left.main, left.clientfd, right.clientfd]
    exact agree.clientfd
  table := by
    rw [left.main, left.table, right.table]
    exact agree.table
  socketfd := by rw [left.socketfd, right.socketfd, agree.socketfd]
  backlog := by rw [left.backlog, right.backlog, agree.backlog]
  connected := by rw [left.connected, right.connected, agree.connected]
  accepted := by rw [left.accepted, right.accepted, agree.accepted]
  connections := connections
  count := count
  children := children

/-- What client `k` does, and a call of its child, leave the others alone. -/
theorem Agree.concerned {k : Nat} {s next t : State} {action : Action} (agree : Agree k s t)
    (owned : Owned s) (taken : step s action = some next) (concerned : s.concerns k action)
    : Agree k next t := by
  cases action with
  | arrive c bytes | endStream c | resetPeer c =>
      obtain rfl : c = k := concerned
      obtain ⟨_, same⟩ := Option.ite_none_right_eq_some.mp taken
      obtain rfl := Option.some.inj same
      refine agree.beside (.setConnection s c _) (.refl t) (fun other different => ?_) agree.count
        agree.children
      rw [← agree.connections other different]
      exact Function.update_of_ne different _ _
  | child i call =>
      obtain ⟨child, found, taken⟩ := Option.bind_eq_some_iff.mp taken
      have moves := ChildMove.of_call taken
      have own := owned.children child (List.mem_of_getElem? found)
      have mine : child.connection = k := by simpa [State.concerns, found] using concerned
      obtain ⟨new, children, _, connection⟩ := own.move moves
      refine agree.beside moves.sameParent (.refl t) (fun c different => ?_) ?_ ?_
      · rw [moves.connections own (mine ▸ different), agree.connections c different]
      · rw [children, List.length_set, agree.count]
      · intro j one two there also
        refine agree.children_own found (fun two alike => ?_) (children ▸ there) also
        exact ⟨connection.trans alike.connection, fun other => absurd (connection.trans mine) other⟩
  | _ => exact concerned.elim

/-- Children that have ended agree, however they are listed. -/
theorem Alike.of_ended {k : Nat} {one two new : Child} (alike : Alike k one two)
    (same : new.connection = one.connection ∧ new.clientfd = one.clientfd
      ∧ new.table = one.table ∧ new.readBuf = one.readBuf)
    (point : new.pc.point = one.pc.point)
    : Alike k new two := by
  obtain ⟨connection, clientfd, table, readBuf⟩ := same
  refine ⟨connection.trans alike.connection, fun different => ?_⟩
  obtain ⟨where_, fd, files, buffer⟩ := alike.same (connection ▸ different)
  exact ⟨point.trans where_, clientfd.trans fd, table.trans files, readBuf.trans buffer⟩

/-- Signals and failing calls of `accept` leave all clients alone. -/
theorem Agree.disturbed {k : Nat} {s next t : State} {action : Action} (agree : Agree k s t)
    (taken : step s action = some next) (disturbed : s.disturbed action)
    : Agree k next t := by
  have main := agree.main
  cases action with
  | deliverSignal interrupts =>
      obtain ⟨⟨_, _, alive, during⟩, same⟩ := Option.ite_none_right_eq_some.mp taken
      obtain rfl := Option.some.inj same
      cases interrupts with
      | false =>
          exact { agree with
            main := by simpa [State.undisturbed] using main
            clientfd := by simpa using agree.clientfd
            table := fun _ => agree.table alive }
      | true =>
          have here := during rfl
          exact { agree with
            main := by simpa [State.undisturbed, here] using main
            clientfd := by simp [MainPc.holding]
            table := fun _ => agree.table alive }
  | waitpidReaps pid =>
      obtain ⟨_, taken⟩ := Option.ite_none_right_eq_some.mp taken
      obtain ⟨child, found, taken⟩ := Option.bind_eq_some_iff.mp taken
      split at taken
      next status ended =>
        obtain rfl := Option.some.inj taken
        refine { agree with
          main := main
          count := by simpa [State.setChild] using agree.count
          children := fun {i one two} there also =>
            agree.children_own found (fun two alike => ?_) there also }
        exact alike.of_ended ⟨rfl, rfl, rfl, rfl⟩ (by rw [ended]; rfl)
      next => contradiction
  | waitpidDone | handlerReturns =>
      obtain ⟨_, same⟩ := Option.ite_none_right_eq_some.mp taken
      obtain rfl := Option.some.inj same
      exact { agree with main := main }
  | reportChild =>
      simp only [step, reportChild] at taken
      split at taken
      next =>
        obtain rfl := Option.some.inj taken
        exact { agree with main := main }
      next => contradiction
  | acceptFails errno =>
      obtain ⟨here, same⟩ := Option.ite_none_right_eq_some.mp taken
      obtain rfl := Option.some.inj same
      have alive : s.main ≠ .dead := by
        rcases here with ⟨here, _⟩ | ⟨here, _⟩ <;> simp [here.1]
      have before : s.undisturbed = .accept := by
        rcases here with ⟨here, _⟩ | ⟨here, _⟩ <;> simp [State.undisturbed, here.1]
      exact { agree with
        main := main.trans before
        clientfd := fun _ failed => absurd rfl failed
        table := fun _ => agree.table alive }
  | testResult =>
      obtain ⟨here, same⟩ := Option.ite_none_right_eq_some.mp taken
      obtain rfl := Option.some.inj same
      have failed : s.clientfd = none := disturbed
      exact { agree with
        main := by simpa [State.undisturbed, here.1, failed] using main
        clientfd := fun _ some_ => absurd failed some_
        table := fun _ => agree.table (by simp [here.1]) }
  | testErrno =>
      obtain ⟨here, taken⟩ := Option.ite_none_right_eq_some.mp taken
      split at taken
      next =>
        obtain rfl := Option.some.inj taken
        exact { agree with
          main := by simpa [State.undisturbed, here.1] using main
          clientfd := by simp [MainPc.holding]
          table := fun _ => agree.table (by simp [here.1]) }
      next =>
        obtain rfl := Option.some.inj taken
        refine { agree with
          main := by simpa [State.undisturbed, here.1] using main
          clientfd := by simp [MainPc.holding]
          table := fun alive => absurd rfl alive
          count := by simpa using agree.count
          children := fun {i one two} there also => ?_ }
        rw [List.getElem?_map] at there
        obtain ⟨child, found, rfl⟩ := Option.map_eq_some_iff.mp there
        refine (agree.children found also).of_ended ?_ ?_
        · split <;> exact ⟨rfl, rfl, rfl, rfl⟩
        · split
          next ended => rw [ended]; rfl
          next => rfl
  | connect | arrive | endStream | resetPeer | acceptClient | forkChild | forkFails | closeClient
  | child => exact disturbed.elim

/-- Two children at the same call, on connections that are the same. -/
theorem Agree.both {k : Nat} {s t next after : State} (agree : Agree k s t) {i : Nat}
    {one two new new' : Child} {call : Call} (left : ChildMove s i one call next)
    (right : ChildMove t i two call after)
    (children : next.children = s.children.set i new ∧ after.children = t.children.set i new')
    (alike : Alike k new new')
    (connections : ∀ c, c ≠ k → next.connections c = after.connections c)
    : Agree k next after := by
  refine agree.beside left.sameParent right.sameParent connections ?_ ?_
  · rw [children.1, children.2, List.length_set, List.length_set, agree.count]
  · intro j one two found also
    exact agree.children_set alike (children.1 ▸ found) (children.2 ▸ also)

/-- A child ends in both, whatever becomes of its record. -/
theorem Agree.bothEnd {k : Nat} {s t : State} (agree : Agree k s t) {i : Nat} {one : Child}
    {call : Call} {status : Status} (left : ChildMove s i one call (endChild s i one status))
    (right : ChildMove t i one call (endChild t i one status))
    : Agree k (endChild s i one status) (endChild t i one status) := by
  have ended (u : State)
      : ∃ pc : ChildPc,
          (endChild u i one status).children
            = u.children.set i { one with table := .empty, pc }
          ∧ (endChild u i one status).connections = u.connections
          ∧ pc.point = none := by
    unfold endChild
    split
    · exact ⟨.reaped, rfl, rfl, rfl⟩
    · exact ⟨.zombie status, rfl, rfl, rfl⟩
  obtain ⟨pc, children, connections, gone⟩ := ended s
  obtain ⟨pc', children', connections', gone'⟩ := ended t
  refine agree.both left right ⟨children, children'⟩ ⟨rfl, fun _ => ?_⟩ ?_
  · exact ⟨gone.trans gone'.symm, rfl, rfl, rfl⟩
  · rw [connections, connections']
    exact agree.connections

/-- A child of another client makes the same call in both. -/
theorem Agree.follow_call {k : Nat} {s next t : State} (agree : Agree k s t) (owned : Owned s)
    {i : Nat} {one two : Child} (found : s.children[i]? = some one)
    (also : t.children[i]? = some two) (different : one.connection ≠ k) {call : Call}
    (taken : ChildMove s i one call next)
    : ∃ after, ChildMove t i two call after ∧ Agree k next after := by
  have own := owned.children one (List.mem_of_getElem? found)
  have alike := agree.children found also
  have socketfd := agree.socketfd
  have same {pc : ChildPc} (here : one.pc = pc) (running : pc.point = some pc) : two = one :=
    alike.eq_of_point different here running
  -- The connection of the child has had the same bytes in both.
  have mine {c : Nat} (open_ : one.connection? = some c)
      : s.connections c = t.connections c :=
    agree.connections c (own.connection?_eq open_ ▸ different)
  have plain {child new : Child} {call : Call}
      (left : ChildMove s i child call (s.setChild i new))
      (right : ChildMove t i child call (t.setChild i new))
      : Agree k (s.setChild i new) (t.setChild i new) :=
    agree.both left right ⟨rfl, rfl⟩ (.refl k new) agree.connections
  cases taken with
  | closeListening here =>
      obtain rfl := same here rfl
      have moves : ChildMove t i two .closeListening _ := .closeListening here
      rw [socketfd] at moves
      exact ⟨_, moves, plain (.closeListening here) moves⟩
  | allocate here =>
      obtain rfl := same here rfl
      exact ⟨_, .allocate here, plain (.allocate here) (.allocate here)⟩
  | allocateFails here =>
      obtain rfl := same here rfl
      exact ⟨_, .allocateFails here, plain (.allocateFails here) (.allocateFails here)⟩
  | recvData here open_ offers =>
      obtain rfl := same here rfl
      have before := mine open_
      have offers' := before ▸ offers
      refine ⟨_, .recvData here open_ offers', agree.both (.recvData here open_ offers)
        (.recvData here open_ offers') ⟨rfl, rfl⟩ ?_ fun c away => ?_⟩
      · rw [before]
        exact .refl k _
      · simp only [State.setConnection, State.setChild, before]
        exact update_eq_of_ne agree.connections (fun _ => rfl) away
  | recvEnd here open_ ended =>
      obtain rfl := same here rfl
      have ended' := mine open_ ▸ ended
      exact ⟨_, .recvEnd here open_ ended', plain (.recvEnd here open_ ended)
        (.recvEnd here open_ ended')⟩
  | recvError here =>
      obtain rfl := same here rfl
      exact ⟨_, .recvError here, plain (.recvError here) (.recvError here)⟩
  | sendReply here open_ positive part whole =>
      obtain rfl := same here rfl
      have before := mine open_
      have whole' := before ▸ whole
      refine ⟨_, .sendReply here open_ positive part whole',
        agree.both (.sendReply here open_ positive part whole)
          (.sendReply here open_ positive part whole') ⟨rfl, rfl⟩ (.refl k _) fun c away => ?_⟩
      simp only [State.setConnection, State.setChild, before]
      exact update_eq_of_ne agree.connections (fun _ => rfl) away
  | sendFails here =>
      obtain rfl := same here rfl
      exact ⟨_, .sendFails here, agree.bothEnd (.sendFails here) (.sendFails here)⟩
  | handlerClose here =>
      obtain rfl := same here rfl
      exact ⟨_, .handlerClose here, plain (.handlerClose here) (.handlerClose here)⟩
  | secondClose here =>
      obtain rfl := same here rfl
      exact ⟨_, .secondClose here, plain (.secondClose here) (.secondClose here)⟩
  | exit here =>
      obtain rfl := same here rfl
      exact ⟨_, .exit here, agree.bothEnd (.exit here) (.exit here)⟩
  | killed here =>
      obtain rfl := same rfl here.point
      exact ⟨_, .killed here, agree.bothEnd (.killed here) (.killed here)⟩

/-- Every other step is possible without client `k` and without the signals. -/
theorem Agree.follow {k : Nat} {s next t : State} {action : Action} (agree : Agree k s t)
    (owned : Owned s) (taken : step s action = some next) (elsewhere : ¬s.concerns k action)
    (calm : ¬s.disturbed action)
    : ∃ after, step t action = some after ∧ Agree k next after := by
  have main := agree.main
  have handler := agree.handler
  cases action with
  | connect =>
      obtain rfl := Option.some.inj taken
      refine ⟨_, rfl, { agree with
        main := main
        backlog := by simp [connect, agree.backlog, agree.connected]
        connected := by simp [connect, agree.connected]
        connections := fun c different => ?_ }⟩
      simp only [connect, agree.connected]
      exact update_eq_of_ne agree.connections (fun _ => rfl) different
  | arrive c bytes | endStream c | resetPeer c =>
      obtain ⟨possible, same⟩ := Option.ite_none_right_eq_some.mp taken
      obtain rfl := Option.some.inj same
      have before := agree.connections c elsewhere
      rw [before, ← agree.connected] at possible
      refine ⟨_, if_pos possible, agree.beside (.setConnection s c _) (.setConnection t c _)
        (fun other away => ?_) agree.count agree.children⟩
      simp only [State.setConnection, before]
      exact update_eq_of_ne agree.connections (fun _ => rfl) away
  | acceptClient =>
      simp only [step, acceptClient] at taken
      split at taken
      next c rest waiting =>
        obtain ⟨here, same⟩ := Option.ite_none_right_eq_some.mp taken
        obtain rfl := Option.some.inj same
        have there : t.at .accept := ⟨by simpa [State.undisturbed, here.1] using main, handler⟩
        have table := agree.table (by simp [here.1])
        have possible : step t .acceptClient
            = some { t with
                backlog := rest
                table := t.table.allocate (.client c)
                clientfd := some t.table.lowestFree
                accepted := t.accepted ++ [c]
                main := .testResult } := by
          simp [step, acceptClient, agree.backlog, waiting, there]
        exact ⟨_, possible, { agree with
          main := by simp [State.undisturbed]
          handler := handler
          clientfd := fun _ _ => by simp [table]
          table := fun _ => by simp [table]
          backlog := rfl
          accepted := by simp [agree.accepted] }⟩
      next => contradiction
  | testResult =>
      obtain ⟨here, same⟩ := Option.ite_none_right_eq_some.mp taken
      obtain rfl := Option.some.inj same
      have held : s.clientfd ≠ none := calm
      have clientfd := agree.clientfd (by simp [here.1, MainPc.holding]) held
      have there : t.at .testResult :=
        ⟨by simpa [State.undisturbed, here.1, held] using main, handler⟩
      refine ⟨_, if_pos there, { agree with
        main := by simp [State.undisturbed, clientfd, held]
        handler := handler
        clientfd := fun _ _ => clientfd
        table := fun _ => agree.table (by simp [here.1]) }⟩
  | forkChild =>
      obtain ⟨here, taken⟩ := Option.ite_none_right_eq_some.mp taken
      obtain ⟨connection, last, rfl⟩ := Option.map_eq_some_iff.mp taken
      have held := owned.numbered (Or.inl here.1)
      have clientfd := agree.clientfd (by simp [here.1, MainPc.holding]) held
      have table := agree.table (by simp [here.1])
      have there : t.at .fork := ⟨by simpa [State.undisturbed, here.1] using main, handler⟩
      have possible : step t .forkChild
          = some { t with
              children :=
                t.children ++ [{ connection, clientfd := t.clientfd, table := t.table }]
              main := .closeClient } := by
        simp [step, forkChild, there, agree.accepted, last]
      refine ⟨_, possible, { agree with
        main := by simp [State.undisturbed]
        handler := handler
        clientfd := fun _ _ => clientfd
        table := fun _ => table
        count := by simp [agree.count]
        children := fun {i one two} found also => ?_ }⟩
      rw [List.getElem?_append] at found also
      rw [← agree.count] at also
      split at found
      next bound =>
        rw [if_pos bound] at also
        exact agree.children found also
      next bound =>
        rw [if_neg bound, clientfd, table] at also
        obtain rfl := Option.some.inj (found.symm.trans also)
        exact .refl k _
  | forkFails =>
      obtain ⟨here, same⟩ := Option.ite_none_right_eq_some.mp taken
      obtain rfl := Option.some.inj same
      have held := owned.numbered (Or.inl here.1)
      have there : t.at .fork := ⟨by simpa [State.undisturbed, here.1] using main, handler⟩
      exact ⟨_, if_pos there, { agree with
        main := by simp [State.undisturbed]
        handler := handler
        clientfd := fun _ _ => agree.clientfd (by simp [here.1, MainPc.holding]) held
        table := fun _ => agree.table (by simp [here.1]) }⟩
  | closeClient =>
      obtain ⟨here, same⟩ := Option.ite_none_right_eq_some.mp taken
      obtain rfl := Option.some.inj same
      have held := owned.numbered (Or.inr here.1)
      have clientfd := agree.clientfd (by simp [here.1, MainPc.holding]) held
      have table := agree.table (by simp [here.1])
      have there : t.at .closeClient :=
        ⟨by simpa [State.undisturbed, here.1] using main, handler⟩
      exact ⟨_, if_pos there, { agree with
        main := by simp [State.undisturbed]
        handler := handler
        clientfd := by simp [MainPc.holding]
        table := fun _ => by simp [clientfd, table] }⟩
  | child i call =>
      obtain ⟨one, found, taken⟩ := Option.bind_eq_some_iff.mp taken
      obtain ⟨two, also, _⟩ := agree.counterpart found
      have different : one.connection ≠ k := by
        intro mine
        exact elsewhere (by simp [State.concerns, found, mine])
      obtain ⟨after, moves, agree⟩ :=
        agree.follow_call owned found also different (.of_call taken)
      exact ⟨after, by simpa [step, also] using moves.to_call, agree⟩
  | testErrno | deliverSignal | waitpidReaps | waitpidDone | reportChild | handlerReturns
  | acceptFails => exact absurd trivial calm

-----------------------------------------------------------------------------------------
-- Runs with and without the client
-----------------------------------------------------------------------------------------

/-- The server keeps its tables in order, and both agree on everything but connection `k`. -/
structure Isolated (k : Nat) (s t : State) : Prop where
  owned : Owned s
  agree : Agree k s t

/-- Each step has its counterpart in the run without client `k` and without the signals. -/
theorem Isolated.matched {k : Nat} {s t next : State} {action : Action}
    (isolated : Isolated k s t) (taken : system.step s action = some next)
    : system.Matches (Isolated k) next t (withoutClient k s action) := by
  obtain ⟨owned, agree⟩ := isolated
  have owned' := owned.move (.of_step taken)
  unfold withoutClient
  split
  next left_out =>
    rcases left_out with concerned | disturbed
    · exact ⟨owned', agree.concerned owned taken concerned⟩
    · exact ⟨owned', agree.disturbed taken disturbed⟩
  next elsewhere =>
    obtain ⟨unconcerned, calm⟩ := not_or.mp elsewhere
    obtain ⟨after, possible, agree'⟩ := agree.follow owned taken unconcerned calm
    exact ⟨after, possible, owned', agree'⟩

theorem Started.isolated {s : State} (started : Started s) (k : Nat) : Isolated k s s where
  owned := owned_of_reachable (.initial started)
  agree := by
    refine ⟨?_, started.handler, fun _ _ => rfl, fun _ => rfl, rfl, rfl, rfl, rfl,
      fun _ _ => rfl, rfl, fun {i one two} found => ?_⟩
    · simp [State.undisturbed, started.main]
    · simp [started.children] at found

/-- The two servers treat client `c` alike: its connection has had the same bytes in the same
order, and its child is at the same point with the same bytes in its buffer, or has ended.
-/
structure SameFor (c : Nat) (s t : State) : Prop where
  connection : s.connections c = t.connections c
  waiting : c ∈ s.backlog ↔ c ∈ t.backlog
  accepted : c ∈ s.accepted ↔ c ∈ t.accepted
  children
    : ∀ (i : Nat) (point : Option ChildPc) (readBuf : Bytes),
        (∃ child : Child, s.children[i]? = some child
          ∧ child.connection = c ∧ child.pc.point = point ∧ child.readBuf = readBuf)
        ↔ ∃ child : Child, t.children[i]? = some child
          ∧ child.connection = c ∧ child.pc.point = point ∧ child.readBuf = readBuf

theorem Agree.sameFor {k c : Nat} {s t : State} (agree : Agree k s t) (different : c ≠ k)
    : SameFor c s t := by
  refine ⟨agree.connections c different, by rw [agree.backlog], by rw [agree.accepted], ?_⟩
  intro i point readBuf
  constructor
  · intro found
    obtain ⟨one, found, rfl, rfl, rfl⟩ := found
    obtain ⟨two, also, connection, same⟩ := agree.counterpart found
    obtain ⟨point, _, _, readBuf⟩ := same different
    exact ⟨two, also, connection.symm, point.symm, readBuf.symm⟩
  · intro found
    obtain ⟨two, also, rfl, rfl, rfl⟩ := found
    have bound : i < s.children.length :=
      agree.count ▸ (List.getElem?_eq_some_iff.mp also).1
    have found : s.children[i]? = some s.children[i] := List.getElem?_eq_getElem bound
    obtain ⟨connection, same⟩ := agree.children found also
    obtain ⟨point, _, _, readBuf⟩ := same (connection ▸ different)
    exact ⟨_, found, connection, point, readBuf⟩

/-- Something client `k` does after it has connected. -/
def Action.ofClient (k : Nat) : Action → Prop
  | .arrive c _ | .endStream c | .resetPeer c => c = k
  | _ => False

/-- A signal, its handler, or what comes of an `accept` that fails. -/
def Action.ofSignal : Action → Prop
  | .deliverSignal _ | .waitpidReaps _ | .waitpidDone | .reportChild | .handlerReturns
  | .acceptFails _ | .testErrno => True
  | _ => False

theorem undisturbed_of_left {k : Nat} {s : State} {whole action : Action}
    (left : withoutClient k s whole = some action)
    : ¬action.ofClient k ∧ ¬action.ofSignal := by
  obtain ⟨elsewhere, same⟩ := Option.ite_none_left_eq_some.mp left
  obtain rfl := Option.some.inj same
  obtain ⟨unconcerned, calm⟩ := not_or.mp elsewhere
  constructor
  · cases whole with
    | arrive _ _ | endStream _ | resetPeer _ => exact unconcerned
    | _ => exact id
  · cases whole with
    | deliverSignal _ | waitpidReaps _ | waitpidDone | reportChild | handlerReturns
    | acceptFails _ | testErrno => exact calm
    | _ => exact id

/-- Whatever client `k` does and whatever becomes of its child, of the signals and of the
parent: to every other client the run is as one without a word of client `k` and without any
signal.
-/
theorem isolatesFaults {start s : State} {actions : List Action} (started : Started start)
    (run : system.exec start actions = some s) (k : Nat)
    : (∀ action ∈ system.project (withoutClient k) start actions,
        ¬action.ofClient k ∧ ¬action.ofSignal)
      ∧ ∃ t,
          system.exec start (system.project (withoutClient k) start actions) = some t
          ∧ t.main = s.undisturbed
          ∧ ∀ c, c ≠ k → SameFor c s t := by
  have free : system.restrict (fun _ _ => True) = system := by simp [System.restrict]
  obtain ⟨t, run', isolated⟩ := System.exec_project
    (fun _ _ _ _ isolated _ taken => isolated.matched taken) (started.isolated k)
    (free.symm ▸ run)
  refine ⟨?_, t, run', isolated.agree.main, fun c => isolated.agree.sameFor⟩
  intro action member
  obtain ⟨_, _, left⟩ := System.left_of_mem_project member
  exact undisturbed_of_left left

/-- Client 0 resets its connection between the `recv` and the `send` of its child, which exits;
the signal interrupts `accept`. Client 1 gets its answer.
-/
def resetBeforeSend : List Action :=
  [.connect, .acceptClient, .testResult, .forkChild, .closeClient, .connect, .acceptClient,
    .testResult, .forkChild, .closeClient, .child 0 .closeListening, .child 0 .allocate,
    .child 1 .closeListening, .child 1 .allocate, .arrive 0 [97], .arrive 1 [98],
    .child 0 (.recvData 1), .resetPeer 0, .child 0 .sendFails, .deliverSignal true,
    .waitpidReaps 0, .reportChild, .waitpidDone, .handlerReturns, .acceptFails .interrupted,
    .testResult, .child 1 (.recvData 1), .child 1 (.sendReply 7)]

theorem isolatesFaults_resetBeforeSend
    : ∃ s : State,
        s.reports = [(0, .exited 1)]
        ∧ (s.connections 1).replied = reply
        ∧ ∃ t,
            system.exec start (system.project (withoutClient 0) start resetBeforeSend) = some t
            ∧ SameFor 1 s t := by
  have run : (system.exec start resetBeforeSend).isSome := by decide
  obtain ⟨_, t, run', _, same⟩ := isolatesFaults start_started (Option.some_get run).symm 0
  exact ⟨_, rfl, rfl, t, run', same 1 (by decide)⟩

end LinuxStudy.MultiConnProcessServer
