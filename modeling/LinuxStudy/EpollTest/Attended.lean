import LinuxStudy.EpollTest.Draining
import LinuxStudy.EpollTest.EchoIntegrity

/-! One connection that the server does not give up. As long as every `send` on it accepts its
whole buffer, the server's own steps go on until all that has arrived on it is sent back.
-/

namespace LinuxStudy.EpollTest

open Transition Posix

theorem reachable_step {s next : State} {action : Action} (reached : system.Reachable s)
    (taken : step s action = some next)
    : system.Reachable next :=
  reached.next taken

/-- All bytes of a connection that have reached the server. -/
def Connection.arrived (connection : Connection) : Bytes :=
  connection.received ++ connection.unread

/-- Only its client's bytes add to a connection. -/
theorem Move.arrived {s next : State} {action : Action} (taken : Move s action next) {c : Nat}
    (known : c < s.connected) (other : ∀ bytes, action ≠ .arrive c bytes)
    : (next.connections c).arrived = (s.connections c).arrived := by
  cases taken
  case connect => simp [EpollTest.connect, Nat.ne_of_lt known]
  case arrive c' bytes _ _ =>
    have different : c ≠ c' := fun same => other bytes (by rw [same])
    simp [deliver, State.setConnection, different]
  case recvData fd c' n here found positive available fits =>
    by_cases mine : c = c' <;>
      simp [State.setConnection, Connection.takes, Connection.arrived, mine]
  case endStream c' _ | resetPeer c' _ _ | setNonblock _ c' _ _ =>
    by_cases mine : c = c' <;> simp [deliver, State.setConnection, Connection.arrived, mine]
  case sendChunk _ _ c' _ _ _ _ _ _ | sendRefused _ _ c' _ _ _ | sendKills _ _ c' _ _ _ =>
    by_cases mine : c = c' <;>
      simp [State.setConnection, Connection.accepts, Connection.arrived, mine]
  all_goals rfl

/-- The echo of a connection only grows. -/
theorem Move.echoed {s next : State} {action : Action} (taken : Move s action next)
    (chunked : Chunked s) {c : Nat} (known : c < s.connected)
    : (s.connections c).echoed <+: (next.connections c).echoed := by
  obtain ⟨whole, broken⟩ := taken.echoes chunked known
  by_cases all : WholeSend c s action
  · obtain ⟨chunks, -, echoed⟩ := whole all
    exact echoed ▸ List.prefix_append _ _
  · obtain ⟨chunk, k, -, -, echoed⟩ := broken all
    exact echoed ▸ List.prefix_append _ _

/-- What has been sent back is everything offered, or it is shorter. -/
theorem complete_or_short {s : State} (reached : system.Reachable s) {c : Nat}
    (known : c < s.connected)
    : (s.connections c).Complete ∨ (s.connections c).Short := by
  have either : c < s.connected → (s.connections c).Complete ∨ (s.connections c).Short := by
    apply System.ReachableBy.invariant ?_ ?_ reached
    · intro s started bound
      simp [started.connected] at bound
    · intro s action next before either _ taken bound
      have move := Move.of_step taken
      have echoing := echoing_of_reachable before.reachable
      rcases move.connected.2 c bound with old | new
      · obtain ⟨whole, broken⟩ := move.echoes echoing.chunked old
        by_cases all : WholeSend c s action
        · exact (either old).imp (whole all).complete (whole all).short
        · exact Or.inr ((broken all).short (echoing.most c old))
      · exact Or.inl (by simp [Connection.Complete, new])
  exact either known

/-- Not more is sent back than has arrived. -/
theorem echoed_length_le {s : State} (reached : system.Reachable s) {c : Nat}
    (known : c < s.connected)
    : (s.connections c).echoed.length ≤ (s.connections c).arrived.length := by
  have echoing := echoing_of_reachable reached
  have most := echoing.most c known
  have received := congrArg List.length (echoing.offered c)
  simp only [Connection.arrived, List.length_append] at received ⊢
  omega

/-- An echo as long as what has arrived is what has arrived. -/
theorem echoed_eq_arrived {s : State} (reached : system.Reachable s) {c : Nat}
    (known : c < s.connected)
    (enough : (s.connections c).arrived.length ≤ (s.connections c).echoed.length)
    : (s.connections c).echoed = (s.connections c).arrived := by
  have echoing := echoing_of_reachable reached
  have most := echoing.most c known
  have received := congrArg List.length (echoing.offered c)
  simp only [Connection.arrived, List.length_append] at enough received ⊢
  have complete : (s.connections c).Complete := by
    refine (complete_or_short reached known).resolve_right fun short => ?_
    rw [Connection.Short] at short
    omega
  have held : s.held c = [] := List.length_eq_zero_iff.mp (by omega)
  have unread : (s.connections c).unread = [] := List.length_eq_zero_iff.mp (by omega)
  rw [echoing.offered c, held, unread, List.append_nil, List.append_nil]
  exact complete

/-- Only its client ends or resets a connection. -/
theorem Move.flags {s next : State} {action : Action} (taken : Move s action next) {c : Nat}
    (known : c < s.connected) (goesOn : action ≠ .endStream c) (keeps : action ≠ .resetPeer c)
    : (next.connections c).eof = (s.connections c).eof
      ∧ (next.connections c).reset = (s.connections c).reset := by
  cases taken
  case connect => simp [EpollTest.connect, Nat.ne_of_lt known]
  case endStream c' _ =>
    have different : c ≠ c' := fun same => goesOn (by rw [same])
    simp [deliver, State.setConnection, different]
  case resetPeer c' _ _ =>
    have different : c ≠ c' := fun same => keeps (by rw [same])
    simp [deliver, State.setConnection, different]
  case arrive c' _ _ _ | setNonblock _ c' _ _ | recvData _ c' _ _ _ _ _ _
      | sendChunk _ _ c' _ _ _ _ _ _ | sendRefused _ _ c' _ _ _ | sendKills _ _ c' _ _ _ =>
    by_cases mine : c = c' <;>
      simp [deliver, State.setConnection, Connection.takes, Connection.accepts, mine]
  all_goals exact ⟨rfl, rfl⟩

/-- A connection has at most one entry, so its news queue at most one event. -/
theorem Books.length_notify {s : State} (books : Books s) (c : Nat)
    : (s.epoll.notify (.client c)).queued.length ≤ s.epoll.queued.length + 1 := by
  let mine := s.epoll.interest.filter fun entry => entry.edge && entry.file = .client c
  have distinct : (mine.map (·.fd)).Nodup :=
    books.registered.apart.sublist (List.filter_sublist.map _)
  have only {entry : Registration File} (member : entry ∈ mine)
      : s.table.lookup entry.fd = some (.client c) := by
    obtain ⟨listed, chosen⟩ := List.mem_filter.mp member
    have client : entry.file = .client c := by simpa using (Bool.and_eq_true_iff.mp chosen).2
    exact (books.entry_client listed client).1
  have few : mine.length ≤ 1 := by
    rcases listed : mine with _ | ⟨one, _ | ⟨two, rest⟩⟩
    · exact Nat.zero_le 1
    · exact Nat.le_refl 1
    · have same := books.wired.unique (@only one (by simp [listed])) (@only two (by simp [listed]))
      simp [listed, same] at distinct
  simp only [EpollInstance.notify, List.length_append, List.length_map]
  exact Nat.add_le_add_left few _

/-- What the network brings on one connection is new work. -/
theorem work_deliver {s : State} (books : Books s) {c : Nat} (known : c < s.connected)
    (connection : Connection)
    : (deliver s c connection).work + 3 * (s.connections c).unread.length
      ≤ s.work + 3 * connection.unread.length + 5 := by
  have total := unreadTotal_setConnection known connection
  have queued := books.length_notify c
  have summons : (deliver s c connection).summons ↔ s.summons := Iff.rfl
  simp only [State.work, summons]
  simp only [State.unreadTotal, deliver, State.setConnection] at total ⊢
  omega

-----------------------------------------------------------------------------------------
-- A connection that is not given up
-----------------------------------------------------------------------------------------

/-- The connection that `main` works on. -/
def State.current? (s : State) : Option Nat :=
  match s.pc with
  | .setNonblock fd | .register fd | .closeRejected fd | .serve fd _ => s.connection? fd
  | .loop | .accept | .dead => none

/-- The step neither ends the process nor gives this connection up, and if it is a `send` on it,
the whole buffer is accepted.
-/
def Attends (c : Nat) (s : State) : Action → Prop
  | .epollWaitFails | .sendBroken true => False
  | .registerFails | .recvError => s.current? ≠ some c
  | action => WholeSend c s action

instance (c : Nat) (s : State) (action : Action) : Decidable (Attends c s action) := by
  unfold Attends
  split <;> infer_instance

theorem Attends.wholeSend {c : Nat} {s : State} {action : Action} (attends : Attends c s action)
    : WholeSend c s action := by
  unfold Attends at attends
  split at attends
  case h_1 | h_2 => exact attends.elim
  case h_3 | h_4 => trivial
  case h_5 => exact attends

/-- The server runs, the connection waits to be accepted or has a descriptor that is not about
to be closed, and what was received on it has been sent back.
-/
structure Attended (c : Nat) (s : State) : Prop where
  alive : s.pc ≠ .dead
  known : c < s.connected
  placed : c ∈ s.backlog ∨ ∃ fd, s.table.lookup fd = some (.client c)
  stays
    : ∀ fd,
        s.table.lookup fd = some (.client c)
        → s.pc ≠ .serve fd .closing ∧ s.pc ≠ .closeRejected fd
  complete : (s.connections c).Complete

section Attended

variable {c : Nat} {s next : State} {action : Action}

/-- A connection leaves the queue for a descriptor, and loses that only to its `close`. -/
theorem Attended.keeps_place (attended : Attended c s) (taken : Move s action next)
    : c ∈ next.backlog ∨ ∃ fd, next.table.lookup fd = some (.client c) := by
  have placed := attended.placed
  cases taken
  case connect => exact placed.imp_left (List.mem_append_left _)
  case acceptClient c' rest here waiting =>
    rcases placed with waits | ⟨fd, found⟩
    · rw [waiting] at waits
      rcases List.mem_cons.mp waits with rfl | later
      · exact Or.inr ⟨_, by rw [Table.lookup_allocate, if_pos rfl]⟩
      · exact Or.inl later
    · exact Or.inr ⟨fd, by rw [Table.lookup_allocate, if_neg (Table.ne_lowestFree found), found]⟩
  case closeRejected fd' here | closeClient fd' here =>
    refine placed.imp_right fun ⟨fd, found⟩ => ⟨fd, ?_⟩
    have apart : fd ≠ fd' := by
      rintro rfl
      have stays := attended.stays fd found
      simp [here] at stays
    simp only [State.closeFd]
    rw [Table.lookup_close, if_neg apart, found]
  all_goals exact placed

/-- Only giving a connection up leads to its `close`. -/
theorem Attended.keeps_open (attended : Attended c s) (attends : Attends c s action)
    (unended : (s.connections c).eof = false) (taken : Move s action next)
    : ∀ fd,
        next.table.lookup fd = some (.client c)
        → next.pc ≠ .serve fd .closing ∧ next.pc ≠ .closeRejected fd := by
  cases taken
  case connect | arrive | endStream | resetPeer => exact attended.stays
  case registerFails fd here | recvError fd here =>
    intro fd' found
    have apart : fd ≠ fd' := by
      rintro rfl
      refine attends ?_
      simp only [State.current?, here]
      exact State.connection?_eq_some.mpr found
    simp [apart]
  case recvEnd fd c' here found drained eof =>
    intro fd' found'
    have apart : fd ≠ fd' := by
      rintro rfl
      have same := found.symm.trans found'
      obtain rfl : c' = c := by simpa using same
      simp [unended] at eof
    simp [apart]
  case epollWait here _ _ _ _ _ => simp [here]
  all_goals simp

theorem Attended.move (attended : Attended c s) (chunked : Chunked s)
    (attends : Attends c s action) (unended : (s.connections c).eof = false)
    (taken : Move s action next)
    : Attended c next where
  alive := by
    have alive := attended.alive
    cases taken
    case epollWaitFails | sendKills => exact attends.elim
    all_goals first | exact alive | simp
  known := Nat.lt_of_lt_of_le attended.known taken.connected.1
  placed := attended.keeps_place taken
  stays := attended.keeps_open attends unended taken
  complete :=
    ((taken.echoes chunked attended.known).1 attends.wholeSend).complete attended.complete

/-- A step in which nothing fails on its own account attends to every connection that is not
reset.
-/
theorem attends_of_gentle (faultless : Faultless s action) (gentle : Gentle s action)
    (whole : (s.connections c).reset = false) (taken : Move s action next)
    : Attends c s action := by
  cases taken
  case epollWaitFails | sendKills => exact faultless.elim
  case registerFails => exact gentle.elim
  case recvError fd here =>
    intro mine
    simp only [State.current?, here] at mine
    have broken := (faultless fd c here (State.connection?_eq_some.mp mine)).2
    simp [whole] at broken
  case sendChunk fd len c' k here found part blocks unbroken =>
    exact (wholeSend_sendChunk here found k c).mpr fun _ => gentle fd len here
  case sendRefused fd len c' here found broken =>
    have apart : c ≠ c' := by
      rintro rfl
      simp [whole] at broken
    simp [Attends, WholeSend, sending_eq here found, apart]
  all_goals trivial

/-- Until all that has arrived on an attended connection is sent back, the server can go on. -/
theorem Attended.progress (attended : Attended c s) (watchful : Watchful s)
    (offered : Offered s) (whole : (s.connections c).reset = false)
    : (s.connections c).echoed = (s.connections c).arrived
      ∨ ∃ action next, Faultless s action ∧ Attends c s action ∧ step s action = some next := by
  have attends (goesOn : CanGoOn s)
      : ∃ action next, Faultless s action ∧ Attends c s action ∧ step s action = some next := by
    obtain ⟨action, next, faultless, gentle, taken⟩ := goesOn
    exact ⟨action, next, faultless, attends_of_gentle faultless gentle whole (.of_step taken),
      taken⟩
  have books := watchful.books
  rcases watchful.can_go_on attended.alive with ⟨here, used⟩ | goesOn
  · rcases attended.placed with waits | ⟨fd, found⟩
    · have ready : s.epoll.reports s.levelReady s.listeningEntry = true := by
        simp [EpollInstance.reports, State.listeningEntry, State.levelReady,
          List.ne_nil_of_mem waits]
      obtain ⟨next, taken⟩ := books.can_wait here used books.registered.listens ready
      exact Or.inr ⟨.epollWait [s.listeningEntry.file], next, trivial, trivial, taken⟩
    · obtain ⟨entry, listed, rfl⟩ :=
        (books.registered.complete found).resolve_right (by simp [here, Pc.newFd?])
      have client : entry.file = .client c := by
        have same := (books.registered.wellFormed entry listed).1
        exact Option.some.inj (same.symm.trans found)
      by_cases data : (s.connections c).unread = []
      · left
        have held : s.held c = [] := State.held_eq_nil (by simp [here, Pc.chunk?]) c
        rw [Connection.arrived, data, offered c, held, List.append_nil, List.append_nil]
        exact attended.complete
      · exact Or.inr (attends (watchful.wakes_up here used listed client data))
  · exact Or.inr (attends goesOn)

end Attended

end LinuxStudy.EpollTest
