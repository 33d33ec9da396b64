import LinuxStudy.MultiConnProcessServer.Steps
import Mathlib.Data.List.Nodup
import Mathlib.Tactic.ByContra

/-! Which process of `multi_conn_process_server.c` holds which descriptor, and when the last
descriptor of a connection is closed.
-/

namespace LinuxStudy.MultiConnProcessServer

open Transition Posix MultiConn

/-- The child has not closed its connection yet. -/
def ChildPc.holding : ChildPc → Bool
  | .closeListening | .allocate | .recv | .send | .handlerClose => true
  | .secondClose | .exit | .zombie _ | .reaped => false

/-- The child is inside `read_from_write_thread`. -/
def ChildPc.inHandler : ChildPc → Bool
  | .allocate | .recv | .send | .handlerClose => true
  | .closeListening | .secondClose | .exit | .zombie _ | .reaped => false

/-- A child's sockets: its own connection until it has closed it, and the listening socket
before its first call only.
-/
structure Child.OwnTable (socketfd : Nat) (child : Child) : Prop where
  clients
    : ∀ fd c,
        child.table.lookup fd = some (.client c)
        ↔ child.pc.holding = true ∧ child.clientfd = some fd ∧ c = child.connection
  listening
    : ∀ fd,
        child.table.lookup fd = some .listening ↔ child.pc = .closeListening ∧ fd = socketfd
  numbered : child.clientfd ≠ none
  closed
    : child.pc.holding = false
      → ∀ fd, child.clientfd = some fd → child.table.lookup fd = none

/-- Calls that close nothing. -/
theorem Child.OwnTable.of_eq {socketfd : Nat} {child new : Child} (own : child.OwnTable socketfd)
    (table : new.table = child.table) (clientfd : new.clientfd = child.clientfd)
    (connection : new.connection = child.connection)
    (holding : new.pc.holding = child.pc.holding)
    (before : child.pc ≠ .closeListening) (after : new.pc ≠ .closeListening)
    : new.OwnTable socketfd := by
  obtain ⟨clients, listening, numbered, closed⟩ := own
  refine ⟨?_, ?_, ?_, ?_⟩
  · simpa only [table, clientfd, connection, holding] using clients
  · simpa only [table, before, after, false_and] using listening
  · simpa only [clientfd] using numbered
  · simpa only [table, clientfd, holding] using closed

/-- The child closes the listening socket, which is not its connection. -/
theorem Child.OwnTable.closeListening {socketfd : Nat} {child : Child}
    (own : child.OwnTable socketfd) (here : child.pc = .closeListening)
    : Child.OwnTable socketfd
        { child with table := child.table.close socketfd, pc := .allocate } := by
  have server : child.table.lookup socketfd = some .listening :=
    (own.listening socketfd).mpr ⟨here, rfl⟩
  refine ⟨fun fd c => ?_, fun fd => ?_, own.numbered, by simp [ChildPc.holding]⟩
  · rw [Table.lookup_close]
    split
    next same =>
      subst same
      have free := own.clients fd c
      simp only [server, here, ChildPc.holding, true_and] at free ⊢
      simpa using free
    next =>
      have mine := own.clients fd c
      simpa only [here, ChildPc.holding] using mine
  · rw [Table.lookup_close]
    have only := own.listening fd
    split <;> simp_all

/-- The child closes its connection, or finds it closed. -/
theorem Child.OwnTable.closeClient {socketfd : Nat} {child new : Child}
    (own : child.OwnTable socketfd) (table : new.table = closeFd child.table child.clientfd)
    (clientfd : new.clientfd = child.clientfd)
    (closed : new.pc.holding = false) (before : child.pc ≠ .closeListening)
    : new.OwnTable socketfd := by
  obtain ⟨fd, number⟩ := Option.ne_none_iff_exists'.mp own.numbered
  have after : new.pc ≠ .closeListening := by
    intro same
    simp [same, ChildPc.holding] at closed
  refine ⟨fun other c => ?_, fun other => ?_, clientfd ▸ own.numbered, fun _ other same => ?_⟩
  · rw [table, number, closeFd, Table.lookup_close, closed]
    split
    next => simp
    next different =>
      have mine := own.clients other c
      simp only [number, Option.some.injEq, Ne.symm different, false_and, and_false] at mine
      simp [mine]
  · rw [table, number, closeFd, Table.lookup_close]
    have only := own.listening other
    split <;> simp_all
  · obtain rfl : fd = other := by simpa [clientfd, number] using same
    simp [table, number, closeFd]

/-- An ended child has no descriptor. -/
theorem Child.OwnTable.ended {socketfd : Nat} {child new : Child}
    (own : child.OwnTable socketfd) (table : new.table = .empty)
    (clientfd : new.clientfd = child.clientfd) (closed : new.pc.holding = false)
    : new.OwnTable socketfd := by
  refine ⟨?_, ?_, clientfd ▸ own.numbered, by simp [table]⟩
  · simp [table, closed]
  · intro fd
    have after : new.pc ≠ .closeListening := by
      intro same
      simp [same, ChildPc.holding] at closed
    simp [table, after]

/-- Every call of a child keeps its table in order and its connection the same. -/
theorem Child.OwnTable.move {s next : State} {i : Nat} {child : Child} {call : Call}
    (own : child.OwnTable s.socketfd) (taken : ChildMove s i child call next)
    : ∃ new : Child,
        next.children = s.children.set i new
        ∧ new.OwnTable s.socketfd
        ∧ new.connection = child.connection := by
  have ended (status : Status)
      : ∃ new : Child,
          (endChild s i child status).children = s.children.set i new
          ∧ new.OwnTable s.socketfd
          ∧ new.connection = child.connection := by
    unfold endChild
    split
    · exact ⟨_, rfl, own.ended rfl rfl rfl, rfl⟩
    · exact ⟨_, rfl, own.ended rfl rfl rfl, rfl⟩
  cases taken with
  | closeListening here => exact ⟨_, rfl, own.closeListening here, rfl⟩
  | handlerClose here | secondClose here =>
      exact ⟨_, rfl, own.closeClient rfl rfl rfl (by simp [here]), rfl⟩
  | sendFails _ | exit _ | killed _ => exact ended _
  | allocate here | allocateFails here | recvData here _ _ | recvEnd here _ _ | recvError here
  | sendReply here _ _ _ _ =>
      refine ⟨_, rfl, own.of_eq rfl rfl rfl ?_ (by simp [here]) (by simp), rfl⟩
      simp [here, ChildPc.holding]

-----------------------------------------------------------------------------------------
-- The table of the parent
-----------------------------------------------------------------------------------------

/-- Between a successful `accept` and its own `close` the parent holds a connection. -/
def MainPc.holding : MainPc → Bool
  | .testResult | .fork | .closeClient => true
  | .accept | .interrupted | .testErrno | .dead => false

/-- The descriptor of the connection the parent holds. -/
def State.inHand? (s : State) : Option Nat := if s.main.holding then s.clientfd else none

/-- The connections that children may belong to: those the parent has passed `fork` with. -/
def State.handedOver (s : State) : List Nat :=
  if s.main = .closeClient then s.accepted else s.released

/-- The tables of all processes, and the connections in the order of `accept`. -/
structure Owned (s : State) : Prop where
  server
    : s.main ≠ .dead → ∀ fd, s.table.lookup fd = some .listening ↔ fd = s.socketfd
  clients
    : ∀ fd c,
        s.table.lookup fd = some (.client c)
        ↔ s.inHand? = some fd ∧ s.accepted.getLast? = some c
  numbered : s.main = .fork ∨ s.main = .closeClient → s.clientfd ≠ none
  hand : s.inHand? ≠ none → s.accepted ≠ []
  order
    : s.accepted = s.released ++ (s.inHand?.bind fun _ => s.accepted.getLast?).toList
  once : (s.accepted ++ s.backlog).Nodup
  known : ∀ c ∈ s.accepted ++ s.backlog, c < s.connected
  children : ∀ child ∈ s.children, child.OwnTable s.socketfd
  oneEach : List.Sublist (s.children.map (·.connection)) s.handedOver

/-- Steps that leave the tables and the connection in hand as they are. -/
theorem Owned.of_eq {s next : State} (owned : Owned s) (socketfd : next.socketfd = s.socketfd)
    (table : next.table = s.table) (children : next.children = s.children)
    (accepted : next.accepted = s.accepted) (released : next.released = s.released)
    (inHand : next.inHand? = s.inHand?) (alive : next.main ≠ .dead → s.main ≠ .dead)
    (numbered : next.main = .fork ∨ next.main = .closeClient → next.clientfd ≠ none)
    (handedOver : List.Sublist s.handedOver next.handedOver)
    (once : (next.accepted ++ next.backlog).Nodup)
    (known : ∀ c ∈ next.accepted ++ next.backlog, c < next.connected)
    : Owned next := by
  refine ⟨?_, ?_, numbered, ?_, ?_, once, known, ?_, ?_⟩
  · rw [table, socketfd]
    exact fun here => owned.server (alive here)
  · rw [table, inHand, accepted]
    exact owned.clients
  · rw [inHand, accepted]
    exact owned.hand
  · rw [accepted, released, inHand]
    exact owned.order
  · rw [children, socketfd]
    exact owned.children
  · rw [children]
    exact owned.oneEach.trans handedOver

/-- Steps of the network and of the signal handler. -/
theorem Owned.aside {s next : State} (owned : Owned s) (socketfd : next.socketfd = s.socketfd)
    (main : next.main = s.main) (clientfd : next.clientfd = s.clientfd)
    (table : next.table = s.table) (children : next.children = s.children)
    (accepted : next.accepted = s.accepted) (released : next.released = s.released)
    (once : (next.accepted ++ next.backlog).Nodup)
    (known : ∀ c ∈ next.accepted ++ next.backlog, c < next.connected)
    : Owned next := by
  have inHand : next.inHand? = s.inHand? := by simp only [State.inHand?, main, clientfd]
  have handedOver : next.handedOver = s.handedOver := by
    simp only [State.handedOver, main, accepted, released]
  refine owned.of_eq socketfd table children accepted released inHand ?_ ?_ ?_ once known
  · rw [main]
    exact id
  · rw [main, clientfd]
    exact owned.numbered
  · rw [handedOver]

/-- The children's calls, and the reaping of a child, leave the parent's table alone. -/
theorem Owned.child {s next : State} (owned : Owned s) {i : Nat} {child new : Child}
    (found : s.children[i]? = some child) (children : next.children = s.children.set i new)
    (own : new.OwnTable s.socketfd) (connection : new.connection = child.connection)
    (socketfd : next.socketfd = s.socketfd) (main : next.main = s.main)
    (clientfd : next.clientfd = s.clientfd) (table : next.table = s.table)
    (accepted : next.accepted = s.accepted) (released : next.released = s.released)
    (backlog : next.backlog = s.backlog) (connected : next.connected = s.connected)
    : Owned next := by
  have inHand : next.inHand? = s.inHand? := by simp only [State.inHand?, main, clientfd]
  have handedOver : next.handedOver = s.handedOver := by
    simp only [State.handedOver, main, accepted, released]
  refine ⟨?_, ?_, ?_, ?_, ?_, ?_, ?_, ?_, ?_⟩
  · rw [main, table, socketfd]
    exact owned.server
  · rw [table, inHand, accepted]
    exact owned.clients
  · rw [main, clientfd]
    exact owned.numbered
  · rw [inHand, accepted]
    exact owned.hand
  · rw [inHand, accepted, released]
    exact owned.order
  · rw [accepted, backlog]
    exact owned.once
  · rw [accepted, backlog, connected]
    exact owned.known
  · rw [children, socketfd]
    intro other member
    rcases List.mem_or_eq_of_mem_set member with old | rfl
    · exact owned.children other old
    · exact own
  · rw [children, map_set_of_eq s.children _ found connection, handedOver]
    exact owned.oneEach

/-- A call of a child leaves everything but the children to the parent. -/
theorem ChildMove.parent {s next : State} {i : Nat} {child : Child} {call : Call}
    (taken : ChildMove s i child call next)
    : next.socketfd = s.socketfd ∧ next.main = s.main ∧ next.clientfd = s.clientfd
      ∧ next.table = s.table ∧ next.accepted = s.accepted ∧ next.released = s.released
      ∧ next.backlog = s.backlog ∧ next.connected = s.connected := by
  have ended (status : Status) (next : State) (same : next = endChild s i child status)
      : next.socketfd = s.socketfd ∧ next.main = s.main ∧ next.clientfd = s.clientfd
        ∧ next.table = s.table ∧ next.accepted = s.accepted ∧ next.released = s.released
        ∧ next.backlog = s.backlog ∧ next.connected = s.connected := by
    rw [same, endChild]
    split <;> exact ⟨rfl, rfl, rfl, rfl, rfl, rfl, rfl, rfl⟩
  cases taken
  case sendFails | exit | killed => exact ended _ _ rfl
  all_goals exact ⟨rfl, rfl, rfl, rfl, rfl, rfl, rfl, rfl⟩

-----------------------------------------------------------------------------------------
-- Every step keeps the tables in order
-----------------------------------------------------------------------------------------

/-- A new client joins the queue behind all earlier ones. -/
theorem Owned.connect {s : State} (owned : Owned s) : Owned (connect s) := by
  refine owned.aside rfl rfl rfl rfl rfl rfl rfl ?_ ?_
  · simpa only [MultiConnProcessServer.connect, ← List.append_assoc]
      using nodup_arrival owned.once owned.known
  · simpa only [MultiConnProcessServer.connect, ← List.append_assoc]
      using lt_of_mem_arrival owned.known

/-- `accept` gives the parent a second socket. -/
theorem Owned.accept {s : State} (owned : Owned s) {c : Nat} {rest : List Nat}
    (here : s.main = .accept) (waiting : s.backlog = c :: rest)
    : Owned
        { s with
          backlog := rest
          table := s.table.allocate (.client c)
          clientfd := some s.table.lowestFree
          accepted := s.accepted ++ [c]
          main := .testResult } := by
  have alive : s.main ≠ .dead := by simp [here]
  have free : s.inHand? = none := by simp [State.inHand?, here, MainPc.holding]
  have settled : s.accepted = s.released := by simpa [free] using owned.order
  have none_open (fd c : Nat) : s.table.lookup fd ≠ some (.client c) := by
    intro found
    simpa [free] using (owned.clients fd c).mp found
  refine ⟨fun _ fd => ?_, fun fd c' => ?_, by simp, by simp, ?_, ?_, ?_, owned.children, ?_⟩
  · have server := owned.server alive
    rw [Table.lookup_allocate]
    split
    next new =>
      have used := Table.ne_lowestFree ((server s.socketfd).mpr rfl)
      simp [new, Ne.symm used]
    next => exact server fd
  · rw [Table.lookup_allocate]
    have hand : State.inHand?
          { s with
            backlog := rest
            table := s.table.allocate (.client c)
            clientfd := some s.table.lowestFree
            accepted := s.accepted ++ [c]
            main := .testResult }
        = some s.table.lowestFree :=
      rfl
    rw [hand]
    split
    next new => simp [new]
    next old => simp [none_open, Ne.symm old]
  · simp [State.inHand?, MainPc.holding, settled]
  · simpa [waiting] using owned.once
  · simpa [waiting] using owned.known
  · have oneEach := owned.oneEach
    simpa [State.handedOver, here] using oneEach

/-- The child gets a copy of the parent's table and variables. -/
theorem Owned.fork {s : State} (owned : Owned s) {c : Nat} (here : s.main = .fork)
    (last : s.accepted.getLast? = some c)
    : Owned
        { s with
          children :=
            s.children ++ [{ connection := c, clientfd := s.clientfd, table := s.table }]
          main := .closeClient } := by
  have number := owned.numbered (Or.inl here)
  have hand : s.inHand? = s.clientfd := by simp [State.inHand?, here, MainPc.holding]
  have order : s.accepted = s.released ++ [c] := by
    obtain ⟨fd, some⟩ := Option.ne_none_iff_exists'.mp number
    simpa [hand, some, last] using owned.order
  refine ⟨?_, ?_, fun _ => number, ?_, ?_, owned.once, owned.known, ?_, ?_⟩
  · exact fun _ => owned.server (by simp [here])
  · intro fd c'
    simpa [State.inHand?, here, MainPc.holding] using owned.clients fd c'
  · simpa [State.inHand?, here, MainPc.holding] using owned.hand
  · simpa [State.inHand?, here, MainPc.holding] using owned.order
  · intro child member
    rcases List.mem_append.mp member with old | new
    · exact owned.children child old
    · obtain rfl := List.mem_singleton.mp new
      refine ⟨fun fd c' => ?_, fun fd => ?_, number, by simp [ChildPc.holding]⟩
      · rw [owned.clients fd c', hand, last]
        simp [ChildPc.holding, eq_comm]
      · simpa using owned.server (by simp [here]) fd
  · have oneEach := owned.oneEach
    simp only [State.handedOver, here] at oneEach
    simp only [State.handedOver, List.map_append, List.map_cons, List.map_nil, if_true, order]
    exact List.Sublist.append oneEach (List.Sublist.refl _)

/-- The parent's `close` leaves it with the listening socket. -/
theorem Owned.close {s : State} (owned : Owned s) (here : s.main = .closeClient)
    : Owned
        { s with
          table := closeFd s.table s.clientfd
          released := s.released ++ s.accepted.getLast?.toList
          main := .accept } := by
  obtain ⟨fd, number⟩ := Option.ne_none_iff_exists'.mp (owned.numbered (Or.inr here))
  have alive : s.main ≠ .dead := by simp [here]
  have hand : s.inHand? = some fd := by simp [State.inHand?, here, MainPc.holding, number]
  have order : s.accepted = s.released ++ s.accepted.getLast?.toList := by
    simpa [hand] using owned.order
  have server := owned.server alive
  obtain ⟨c, last⟩ : ∃ c, s.accepted.getLast? = some c := by
    have some := owned.hand (by simp [hand])
    exact ⟨_, List.getLast?_eq_getLast_of_ne_nil some⟩
  have client : s.table.lookup fd = some (.client c) := (owned.clients fd c).mpr ⟨hand, last⟩
  have notServer : fd ≠ s.socketfd := by
    intro listening
    simp [(server fd).mpr listening] at client
  refine ⟨fun _ other => ?_, fun other c' => ?_, by simp, ?_, ?_, owned.once, owned.known,
    owned.children, ?_⟩
  · rw [number, closeFd, Table.lookup_close]
    split
    next same => simp [same, notServer]
    next => exact server other
  · rw [number, closeFd, Table.lookup_close]
    have only := owned.clients other c'
    simp only [hand, Option.some.injEq] at only
    split
    next => simp [State.inHand?, MainPc.holding]
    next different =>
      simp [State.inHand?, MainPc.holding, only, Ne.symm different]
  · simp [State.inHand?, MainPc.holding]
  · simpa [State.inHand?, MainPc.holding] using order
  · have oneEach := owned.oneEach
    simpa [State.handedOver, here, ← order] using oneEach

/-- The end of the server closes its table; its children keep theirs. -/
theorem Owned.handleError {s : State} (owned : Owned s) (here : s.main = .testErrno)
    : Owned
        { s with
          main := .dead
          table := .empty
          children := s.children.map fun child =>
            match child.pc with
            | .zombie _ => { child with pc := .reaped }
            | _ => child } := by
  have free : s.inHand? = none := by simp [State.inHand?, here, MainPc.holding]
  refine ⟨by simp, ?_, by simp, ?_, ?_, owned.once, owned.known, ?_, ?_⟩
  · simp [State.inHand?, MainPc.holding]
  · simp [State.inHand?, MainPc.holding]
  · have order := owned.order
    rw [free] at order
    simpa [State.inHand?, MainPc.holding] using order
  · intro child member
    obtain ⟨old, listed, rfl⟩ := List.mem_map.mp member
    have own := owned.children old listed
    split
    next status ended =>
      refine ⟨fun fd c => ?_, fun fd => ?_, own.numbered, fun _ => own.closed ?_⟩
      · simpa [ended, ChildPc.holding] using own.clients fd c
      · simpa [ended] using own.listening fd
      · simp [ended, ChildPc.holding]
    next => exact own
  · have oneEach := owned.oneEach
    have same (child : Child)
        : (match child.pc with
          | .zombie _ => { child with pc := .reaped }
          | _ => child).connection
          = child.connection := by
      split <;> rfl
    simpa [State.handedOver, here, Function.comp_def, same] using oneEach

/-- Every step keeps the tables in order. -/
theorem Owned.move {s next : State} {action : Action} (owned : Owned s)
    (taken : Move s action next)
    : Owned next := by
  cases taken with
  | connect => exact owned.connect
  | network _ => exact owned.aside rfl rfl rfl rfl rfl rfl rfl owned.once owned.known
  | acceptClient here waiting => exact owned.accept here.1 waiting
  | acceptFails here =>
      have free : s.inHand? = none := by
        rcases here with ⟨⟨here, _⟩, _⟩ | ⟨⟨here, _⟩, _⟩ <;>
          simp [State.inHand?, here, MainPc.holding]
      refine owned.of_eq rfl rfl rfl rfl rfl ?_ ?_ (by simp) ?_ owned.once owned.known
      · rw [free]
        simp [State.inHand?]
      · rcases here with ⟨⟨here, _⟩, _⟩ | ⟨⟨here, _⟩, _⟩ <;> simp [here]
      · rcases here with ⟨⟨here, _⟩, _⟩ | ⟨⟨here, _⟩, _⟩ <;> simp [State.handedOver, here]
  | testFailed here failed =>
      refine owned.of_eq rfl rfl rfl rfl rfl ?_ (by simp [here.1]) (by simp) ?_ owned.once
        owned.known
      · simp [State.inHand?, here.1, failed, MainPc.holding]
      · simp [State.handedOver, here.1]
  | testAccepted here accepted =>
      refine owned.of_eq rfl rfl rfl rfl rfl ?_ (by simp [here.1]) (fun _ => accepted) ?_
        owned.once owned.known
      · simp [State.inHand?, here.1, MainPc.holding]
      · simp [State.handedOver, here.1]
  | retry here _ =>
      refine owned.of_eq rfl rfl rfl rfl rfl ?_ (by simp [here.1]) (by simp) ?_ owned.once
        owned.known
      · simp [State.inHand?, here.1, MainPc.holding]
      · simp [State.handedOver, here.1]
  | handleError here _ => exact owned.handleError here.1
  | forkChild here last => exact owned.fork here.1 last
  | forkFails here =>
      refine owned.of_eq rfl rfl rfl rfl rfl ?_ (by simp [here.1])
        (fun _ => owned.numbered (Or.inl here.1)) ?_ owned.once owned.known
      · simp [State.inHand?, here.1, MainPc.holding]
      · have part : List.Sublist s.released s.accepted := by
          rw [owned.order]
          exact List.sublist_append_left _ _
        simpa [State.handedOver, here.1] using part
  | closeClient here => exact owned.close here.1
  | @deliverSignal interrupts _ _ alive during =>
      cases interrupts with
      | false => exact owned.aside rfl rfl rfl rfl rfl rfl rfl owned.once owned.known
      | true =>
          have here := during rfl
          refine owned.of_eq rfl rfl rfl rfl rfl ?_ (fun _ => alive) (by simp) ?_ owned.once
            owned.known
          · simp [State.inHand?, here, MainPc.holding]
          · simp [State.handedOver, here]
  | waitpidReaps _ found ended =>
      have own := owned.children _ (List.mem_of_getElem? found)
      refine owned.child found rfl ?_ rfl rfl rfl rfl rfl rfl rfl rfl rfl
      exact own.of_eq rfl rfl rfl (by simp [ended, ChildPc.holding]) (by simp [ended]) (by simp)
  | waitpidDone _ _ | reportChild _ | handlerReturns _ =>
      exact owned.aside rfl rfl rfl rfl rfl rfl rfl owned.once owned.known
  | child found taken =>
      have own := owned.children _ (List.mem_of_getElem? found)
      obtain ⟨new, children, newOwn, connection⟩ := own.move taken
      obtain ⟨socketfd, main, clientfd, table, accepted, released, backlog, connected⟩ :=
        taken.parent
      exact owned.child found children newOwn connection socketfd main clientfd table accepted
        released backlog connected

theorem owned_of_reachable {s : State} (reached : system.Reachable s) : Owned s := by
  apply reached.invariant
  · intro s started
    refine ⟨fun _ => started.server, ?_, ?_, ?_, ?_, ?_, ?_, ?_, ?_⟩
    · simp [started.no_clients, started.accepted]
    all_goals
      simp [started.main, started.accepted, started.released, started.backlog,
        started.children, State.inHand?, MainPc.holding]
  · exact fun _ _ _ owned taken => owned.move (.of_step taken)

-----------------------------------------------------------------------------------------
-- Descriptor ownership
-----------------------------------------------------------------------------------------

/-- No process holds a connection exactly when every table is without it. -/
theorem State.references_eq_zero_iff {s : State} {c : Nat}
    : s.references c = 0
      ↔ (∀ fd, s.table.lookup fd ≠ some (.client c))
        ∧ ∀ child ∈ s.children, ∀ fd, child.table.lookup fd ≠ some (.client c) := by
  rw [State.references, Nat.add_eq_zero_iff, Table.references_eq_zero_iff,
    List.sum_eq_zero_iff_forall_eq_nat]
  simp [Table.references_eq_zero_iff]

/-- The parent holds exactly the accepted connection it has not released. -/
theorem Owned.parent_holds {s : State} (owned : Owned s) {c : Nat} (accepted : c ∈ s.accepted)
    : (∀ fd, s.table.lookup fd ≠ some (.client c)) ↔ c ∈ s.released := by
  have once := owned.once.sublist (List.sublist_append_left _ _)
  have order := owned.order
  cases hand : s.inHand? with
  | none =>
      rw [hand] at order
      have settled : s.accepted = s.released := by simpa using order
      rw [← settled]
      simp [owned.clients, hand, accepted]
  | some fd =>
      obtain ⟨last, held⟩ : ∃ last, s.accepted.getLast? = some last :=
        ⟨_, List.getLast?_eq_getLast_of_ne_nil (owned.hand (by simp [hand]))⟩
      rw [hand] at order
      have order : s.accepted = s.released ++ [last] := by simpa [held] using order
      have apart : last ∉ s.released := by
        rw [order, List.nodup_append] at once
        exact fun member => once.2.2 last member last (List.mem_singleton.mpr rfl) rfl
      constructor
      · intro nowhere
        rw [order] at accepted
        rcases List.mem_append.mp accepted with done | new
        · exact done
        · exfalso
          obtain rfl := List.mem_singleton.mp new
          exact nowhere fd ((owned.clients fd c).mpr ⟨hand, held⟩)
      · intro done other found
        obtain ⟨_, same⟩ := (owned.clients other c).mp found
        obtain rfl : last = c := Option.some.inj (held.symm.trans same)
        exact apart done

/-- A child holds its connection until it has closed it. -/
theorem Child.OwnTable.releases {socketfd : Nat} {child : Child}
    (own : child.OwnTable socketfd) (c : Nat)
    : (∀ fd, child.table.lookup fd ≠ some (.client c))
      ↔ (child.connection = c → child.pc.holding = false) := by
  obtain ⟨fd, number⟩ := Option.ne_none_iff_exists'.mp own.numbered
  constructor
  · intro nowhere same
    subst same
    by_contra holding
    exact nowhere fd ((own.clients fd child.connection).mpr ⟨by simpa using holding, number, rfl⟩)
  · intro released other found
    obtain ⟨holding, _, same⟩ := (own.clients other c).mp found
    simp [released same.symm] at holding

/-- At `accept` the parent has no socket but the listening one; a child inside its handler
holds its own connection and no other socket; the second `close` of a child hits a free
number; and a connection is released by all processes exactly when the parent has done its
`close` after `fork` and its child, if there is one, has closed it or ended.
-/
theorem descriptorOwnership {s : State} (reached : system.Reachable s)
    : (s.main = .accept
        → (∀ fd, s.table.lookup fd = some .listening ↔ fd = s.socketfd)
          ∧ ∀ fd c, s.table.lookup fd ≠ some (.client c))
      ∧ (∀ child ∈ s.children,
          child.pc.inHandler = true
          → child.connection? = some child.connection
            ∧ (∀ fd c,
                child.table.lookup fd = some (.client c)
                → child.clientfd = some fd ∧ c = child.connection)
            ∧ ∀ fd, child.table.lookup fd ≠ some .listening)
      ∧ (∀ child ∈ s.children,
          child.pc = .secondClose
          → ∀ fd,
              (closeFd child.table child.clientfd).lookup fd = child.table.lookup fd)
      ∧ (∀ c ∈ s.accepted,
          s.references c = 0
          ↔ c ∈ s.released
            ∧ ∀ child ∈ s.children, child.connection = c → child.pc.holding = false)
      ∧ (∀ child ∈ s.children,
          ∀ fd c, child.table.lookup fd = some (.client c) → c = child.connection)
      ∧ (s.children.map (·.connection)).Nodup := by
  have owned := owned_of_reachable reached
  refine ⟨fun here => ⟨?_, ?_⟩, ?_, ?_, ?_, ?_, ?_⟩
  · exact owned.server (by simp [here])
  · intro fd c found
    simpa [State.inHand?, here, MainPc.holding] using (owned.clients fd c).mp found
  · intro child member inside
    have own := owned.children child member
    obtain ⟨fd, number⟩ := Option.ne_none_iff_exists'.mp own.numbered
    have holding : child.pc.holding = true ∧ child.pc ≠ .closeListening := by
      cases here : child.pc <;> simp_all [ChildPc.inHandler, ChildPc.holding]
    have found := (own.clients fd child.connection).mpr ⟨holding.1, number, rfl⟩
    refine ⟨?_, fun other c open_ => ((own.clients other c).mp open_).2, fun other open_ => ?_⟩
    · simp [Child.connection?, number, found]
    · exact holding.2 ((own.listening other).mp open_).1
  · intro child member here fd
    have own := owned.children child member
    obtain ⟨number, same⟩ := Option.ne_none_iff_exists'.mp own.numbered
    rw [same, closeFd]
    exact Table.lookup_close_of_free (own.closed (by simp [here, ChildPc.holding]) number same) fd
  · intro c accepted
    rw [State.references_eq_zero_iff, owned.parent_holds accepted]
    refine and_congr_right fun _ => forall₂_congr fun child member => ?_
    exact (owned.children child member).releases c
  · intro child member fd c found
    exact ((owned.children child member).clients fd c).mp found |>.2.2
  · have all : List.Sublist s.handedOver s.accepted := by
      unfold State.handedOver
      split
      · exact List.Sublist.refl _
      · rw [owned.order]
        exact List.sublist_append_left _ _
    have once := owned.once.sublist (List.sublist_append_left _ _)
    exact (once.sublist all).sublist owned.oneEach

/-- One client is served by a child that has closed its connection; a second `fork` fails. -/
def oneChild : List Action :=
  [.connect, .connect, .acceptClient, .testResult, .forkChild, .child 0 .closeListening,
    .child 0 .allocate, .closeClient, .acceptClient, .testResult, .forkFails, .closeClient,
    .endStream 0, .child 0 .recvEnd, .child 0 .handlerClose]

/-- Both connections are released by all processes. -/
theorem descriptorOwnership_oneChild
    : ∃ s : State, s.main = .accept ∧ s.accepted = [0, 1]
        ∧ s.references 0 = 0 ∧ s.references 1 = 0 := by
  have run : (system.exec start oneChild).isSome := by decide
  have reached : system.Reachable _ := System.reachable_of_run start start_started oneChild run
  obtain ⟨s, reached, main, accepted, released, children⟩
      : ∃ s, system.Reachable s ∧ s.main = .accept ∧ s.accepted = [0, 1] ∧ s.released = [0, 1]
          ∧ s.children.map (·.pc) = [.secondClose] :=
    ⟨_, reached, rfl, rfl, rfl, rfl⟩
  obtain ⟨_, _, _, references, _⟩ := descriptorOwnership reached
  have closed (child : Child) (member : child ∈ s.children) : child.pc.holding = false := by
    have listed : child.pc ∈ s.children.map (·.pc) := List.mem_map.mpr ⟨child, member, rfl⟩
    rw [children] at listed
    rw [List.mem_singleton.mp listed]
    rfl
  refine ⟨s, main, accepted, (references 0 ?_).mpr ⟨?_, ?_⟩, (references 1 ?_).mpr ⟨?_, ?_⟩⟩
  · simp [accepted]
  · simp [released]
  · exact fun child member _ => closed child member
  · simp [accepted]
  · simp [released]
  · exact fun child member _ => closed child member

end LinuxStudy.MultiConnProcessServer
