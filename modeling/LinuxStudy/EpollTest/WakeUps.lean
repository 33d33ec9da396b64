import LinuxStudy.EpollTest.Descriptors

/-! No wake-up is lost in `epoll_test.c`: an edge-triggered event is reported once, and the
inner loop leaves a descriptor only when nothing is left to read or the descriptor is gone.
-/

namespace LinuxStudy.EpollTest

open Transition Posix

@[simp] theorem Connection.accepts_readable (connection : Connection) (chunk : Bytes) (k : Nat)
    : (connection.accepts chunk k).readable = connection.readable :=
  rfl

/-- The client behind an entry is the one behind its descriptor. -/
theorem Books.entry_client {s : State} (books : Books s) {entry : Registration File}
    (listed : entry ∈ s.epoll.interest) {c : Nat} (client : entry.file = .client c)
    : s.table.lookup entry.fd = some (.client c) ∧ entry.edge = true
      ∧ entry.fd ≠ s.serverFd := by
  obtain ⟨found, _, shape⟩ := books.registered.wellFormed entry listed
  rcases shape with rfl | ⟨edge, _⟩
  · simp [State.listeningEntry] at client
  · refine ⟨client ▸ found, edge, fun same => ?_⟩
    have server := (books.wired.server entry.fd).mpr same
    simp [server, client] at found

/-- Only the listening socket's descriptor carries events for it. -/
theorem Books.listening_event {s : State} (books : Books s) {event : Event}
    (member : event ∈ s.batch)
    : event.source = .listening ↔ event.data = s.serverFd := by
  obtain ⟨entry, listed, data, file⟩ := books.batched.events event member
  obtain ⟨found, own, _⟩ := books.registered.wellFormed entry listed
  rw [← data, own, ← file, ← books.wired.server entry.fd, found, Option.some_inj]

-----------------------------------------------------------------------------------------
-- Client sockets do not block
-----------------------------------------------------------------------------------------

/-- Every open client socket is non-blocking, except while `fcntl` is still to be called. -/
def Nonblocking (s : State) : Prop :=
  ∀ fd c,
    s.table.lookup fd = some (.client c)
    → (s.connections c).nonblock = true ∨ s.pc = .setNonblock fd

/-- Steps that neither open a descriptor nor clear a flag keep the sockets non-blocking. -/
theorem Nonblocking.of_eq {s next : State} (nonblocking : Nonblocking s)
    (opened
      : ∀ fd c,
          next.table.lookup fd = some (.client c) → s.table.lookup fd = some (.client c))
    (flag
      : ∀ fd c,
          s.table.lookup fd = some (.client c)
          → (next.connections c).nonblock = (s.connections c).nonblock)
    (pc : next.pc = s.pc ∨ ∀ fd, s.pc ≠ .setNonblock fd)
    : Nonblocking next := by
  intro fd c found
  have before := opened fd c found
  rw [flag fd c before]
  rcases nonblocking fd c before with set | here
  · exact Or.inl set
  · rcases pc with same | elsewhere
    · exact Or.inr (same ▸ here)
    · exact absurd here (elsewhere fd)

/-- Replacing one connection by one with the same flag leaves all flags as they were. -/
theorem setConnection_nonblock {s : State} {c : Nat} {connection : Connection}
    (same : connection.nonblock = (s.connections c).nonblock) (other : Nat)
    : ((s.setConnection c connection).connections other).nonblock
      = (s.connections other).nonblock := by
  by_cases mine : other = c
  · subst mine
    simpa [State.setConnection] using same
  · simp [State.setConnection, mine]

theorem Nonblocking.move {s next : State} {action : Action} (nonblocking : Nonblocking s)
    (books : Books s) (taken : Move s action next)
    : Nonblocking next := by
  have kept {connection : Connection} {c : Nat}
      (same : connection.nonblock = (s.connections c).nonblock) (fd other : Nat)
      (_ : s.table.lookup fd = some (.client other))
      : ((s.setConnection c connection).connections other).nonblock
        = (s.connections other).nonblock :=
    setConnection_nonblock same other
  cases taken with
  | connect =>
      refine nonblocking.of_eq (fun _ _ => id) (fun fd c found => ?_) (Or.inl rfl)
      have old : c ≠ s.connected := Nat.ne_of_lt (books.wired.known found).1
      simp [connect, old]
  | arrive _ _ | endStream _ | resetPeer _ _ =>
      exact nonblocking.of_eq (fun _ _ => id) (kept rfl) (Or.inl rfl)
  | epollWait here _ _ _ _ _ | epollWaitFails here _ | nextListening here _ _
  | nextClient here _ _ | acceptFails here | registerClient here _ | registerFails here
  | recvEnd here _ _ _ | recvAgain here _ _ _ | recvError here | printChunk here
  | deleteClosed here _ | deleteOpen here _ =>
      exact nonblocking.of_eq (fun _ _ => id) (fun _ _ _ => rfl) (Or.inr (by simp [here]))
  | closeRejected here | closeClient here =>
      exact nonblocking.of_eq (fun _ _ found => (Table.lookup_of_close found).2)
        (fun _ _ _ => rfl) (Or.inr (by simp [here]))
  | recvData here _ _ _ _ | sendChunk here _ _ _ _ | sendRefused here _ _
  | sendKills here _ _ =>
      exact nonblocking.of_eq (fun _ _ => id) (kept rfl) (Or.inr (by simp [here]))
  | @acceptClient c rest here waiting =>
      intro fd c' found
      rw [Table.lookup_allocate] at found
      split at found
      next new => exact Or.inr (by rw [new])
      next => exact Or.inl ((nonblocking fd c' found).resolve_right (by simp [here]))
  | @setNonblock fd c here found =>
      intro fd' c' found'
      left
      by_cases mine : c' = c
      · simp [State.setConnection, mine]
      · rcases nonblocking fd' c' found' with set | there
        · simpa [State.setConnection, mine] using set
        · obtain rfl : fd = fd' := by simpa [here] using there
          have same : some (File.client c') = some (.client c) := found'.symm.trans found
          exact absurd (by simpa using same) mine

-----------------------------------------------------------------------------------------
-- `accept` is only called on a waiting connection
-----------------------------------------------------------------------------------------

/-- While an event of the listening socket is in work or still in the batch, a connection
waits; and one batch holds at most one such event.
-/
structure Summoned (s : State) : Prop where
  waiting
    : (∃ event ∈ s.batch, event.source = .listening) ∨ s.pc = .accept → s.backlog ≠ []
  alone : s.pc = .accept → ∀ event ∈ s.batch, event.source ≠ .listening

/-- Steps that take nothing from the queue and do not reach `accept`. -/
theorem Summoned.of_eq {s next : State} (summoned : Summoned s)
    (batch : ∀ event ∈ next.batch, event ∈ s.batch) (backlog : s.backlog ≠ [] → next.backlog ≠ [])
    (pc : next.pc = .accept → s.pc = .accept)
    : Summoned next where
  waiting := by
    intro either
    rcases either with ⟨event, member, listening⟩ | here
    · exact backlog (summoned.waiting (Or.inl ⟨event, batch event member, listening⟩))
    · exact backlog (summoned.waiting (Or.inr (pc here)))
  alone here event member := summoned.alone (pc here) event (batch event member)

theorem Summoned.move {s next : State} {action : Action} (summoned : Summoned s)
    (books : Books s) (taken : Move s action next)
    : Summoned next := by
  cases taken with
  | connect => exact summoned.of_eq (fun _ => id) (by simp [connect]) id
  | arrive _ _ | endStream _ | resetPeer _ _ => exact summoned.of_eq (fun _ => id) id id
  | @epollWait files here used _ _ _ ready =>
      refine ⟨?_, by simp [here]⟩
      intro either
      rcases either with ⟨event, member, listening⟩ | there
      · obtain ⟨entry, reported, rfl⟩ := List.mem_map.mp member
        have listed := (State.mem_entries reported).1
        have level := ready entry reported
        have shape := (books.registered.wellFormed entry listed).2.2
        have edge : entry.edge = false := by
          rcases shape with rfl | ⟨_, c, client⟩
          · rfl
          · simp [client] at listening
        have busy : entry.file = .listening ∧ s.backlog ≠ [] := by
          simpa [EpollInstance.reports, edge, State.levelReady] using level
        exact busy.2
      · simp [here] at there
  | epollWaitFails here _ | registerClient here _ | registerFails here | setNonblock here _
  | closeRejected here | recvData here _ _ _ _ | recvEnd here _ _ _ | recvAgain here _ _ _
  | recvError here | printChunk here | sendChunk here _ _ _ _ | sendRefused here _ _
  | sendKills here _ _ | closeClient here | deleteClosed here _ | deleteOpen here _
  | acceptFails here =>
      exact summoned.of_eq (fun _ => id) id (by simp)
  | @nextListening event rest here first mine =>
      have member : event ∈ s.batch := first ▸ List.mem_cons_self
      have listening := (books.listening_event member).mpr mine
      refine ⟨fun _ => summoned.waiting (Or.inl ⟨event, member, listening⟩), ?_⟩
      intro _ other later same
      obtain ⟨_, _, others⟩ := books.batched.tail first
      have also : other ∈ s.batch := first ▸ List.mem_cons_of_mem event later
      exact others other later (by rw [(books.listening_event also).mp same, mine])
  | @nextClient event rest here first other =>
      refine summoned.of_eq (fun later member => ?_) id (by simp)
      exact first ▸ List.mem_cons_of_mem event member
  | @acceptClient c rest here waiting =>
      refine ⟨?_, by simp⟩
      intro either
      rcases either with ⟨event, member, listening⟩ | there
      · exact absurd listening (summoned.alone here event member)
      · simp at there

-----------------------------------------------------------------------------------------
-- Every readable client has its event somewhere on the way
-----------------------------------------------------------------------------------------

/-- The event of this descriptor is queued, waits in the batch, or is being handled. -/
def State.Noticed (s : State) (fd : Nat) : Prop :=
  fd ∈ s.epoll.queued
  ∨ (∃ event ∈ s.batch, event.data = fd)
  ∨ ∃ stage, s.pc = .serve fd stage

/-- Every registered client with something to read is noticed. -/
def Alert (s : State) : Prop :=
  ∀ entry ∈ s.epoll.interest,
    ∀ c,
      entry.file = .client c
      → (s.connections c).readable = true
      → s.pc ≠ .dead
      → s.Noticed entry.fd

/-- A descriptor stays noticed while its event only moves forward. -/
theorem State.Noticed.mono {s next : State} {fd : Nat} (noticed : s.Noticed fd)
    (queued : fd ∈ s.epoll.queued → next.Noticed fd)
    (batch : ∀ event ∈ s.batch, event.data = fd → next.Noticed fd)
    (serve : ∀ stage, s.pc = .serve fd stage → next.Noticed fd)
    : next.Noticed fd := by
  rcases noticed with here | ⟨event, member, data⟩ | ⟨stage, here⟩
  · exact queued here
  · exact batch event member data
  · exact serve stage here

/-- Steps between events, and steps that keep serving the same descriptor, lose nothing. -/
theorem Alert.of_eq {s next : State} (alert : Alert s) (alive : s.pc ≠ .dead)
    (interest : ∀ entry ∈ next.epoll.interest, entry ∈ s.epoll.interest)
    (readable
      : ∀ entry ∈ next.epoll.interest,
          ∀ c,
            entry.file = .client c
            → (next.connections c).readable = true
            → (s.connections c).readable = true ∨ next.Noticed entry.fd)
    (queued
      : ∀ entry ∈ next.epoll.interest,
          entry.fd ∈ s.epoll.queued → entry.fd ∈ next.epoll.queued)
    (batch : ∀ event ∈ s.batch, event ∈ next.batch)
    (serve
      : ∀ entry ∈ next.epoll.interest,
          ∀ stage, s.pc = .serve entry.fd stage → ∃ new, next.pc = .serve entry.fd new)
    : Alert next := by
  intro entry listed c client reads _
  rcases readable entry listed c client reads with before | noticed
  · refine (alert entry (interest entry listed) c client before alive).mono ?_ ?_ ?_
    · exact fun here => Or.inl (queued entry listed here)
    · exact fun event member data => Or.inr (Or.inl ⟨event, batch event member, data⟩)
    · exact fun stage here => Or.inr (Or.inr (serve entry listed stage here))
  · exact noticed

/-- The network's news about a connection reach epoll with the news itself. -/
theorem Alert.deliver {s : State} (alert : Alert s) (alive : s.pc ≠ .dead) (books : Books s)
    (c : Nat) (connection : Connection)
    : Alert (deliver s c connection) := by
  refine alert.of_eq alive (fun _ => id) ?_ ?_ (fun _ => id) (fun _ _ stage here => ⟨stage, here⟩)
  · intro entry listed c' client reads
    by_cases mine : c' = c
    · right
      left
      have edge := (books.entry_client listed client).2.1
      exact (EpollInstance.mem_notify_queued _).mpr
        (Or.inr ⟨entry, listed, edge, mine ▸ client, rfl⟩)
    · left
      simpa [EpollTest.deliver, State.setConnection, mine] using reads
  · exact fun entry _ here => (EpollInstance.mem_notify_queued _).mpr (Or.inl here)

theorem Alert.move {s next : State} {action : Action} (alert : Alert s) (books : Books s)
    (alive : s.pc ≠ .dead) (taken : Move s action next)
    : Alert next := by
  cases taken with
  | connect =>
      refine alert.of_eq alive (fun _ => id) ?_ (fun _ _ => id) (fun _ => id)
        (fun _ _ stage here => ⟨stage, here⟩)
      intro entry listed c client reads
      have old : c ≠ s.connected :=
        Nat.ne_of_lt (books.wired.known (books.entry_client listed client).1).1
      left
      simpa [connect, old] using reads
  | arrive _ _ | endStream _ | resetPeer _ _ => exact alert.deliver alive books _ _
  | @epollWait files here used distinct _ few ready =>
      intro entry listed c client reads _
      by_cases reported : ∃ other ∈ s.entries files, other.fd = entry.fd
      · obtain ⟨other, member, same⟩ := reported
        have own := (books.registered.wellFormed other (State.mem_entries member).1).2.1
        exact Or.inr (Or.inl ⟨_, List.mem_map.mpr ⟨other, member, rfl⟩, own.trans same⟩)
      · left
        refine (EpollInstance.mem_deliver_queued _).mpr ⟨?_, fun other member same =>
          reported ⟨other, member, same⟩⟩
        rcases alert entry listed c client reads alive
          with queued | ⟨event, member, _⟩ | ⟨_, there⟩
        · exact queued
        · simp [used] at member
        · simp [here] at there
  | epollWaitFails here _ => exact fun _ _ _ _ _ alive => absurd rfl alive
  | sendKills here _ _ => exact fun _ _ _ _ _ alive => absurd rfl alive
  | @nextListening event rest here first mine =>
      intro entry listed c client reads _
      refine (alert entry listed c client reads alive).mono Or.inl ?_ (by simp [here])
      intro other member data
      rw [first] at member
      rcases List.mem_cons.mp member with rfl | later
      · exact absurd (data.symm.trans mine) (books.entry_client listed client).2.2
      · exact Or.inr (Or.inl ⟨other, later, data⟩)
  | @nextClient event rest here first _ =>
      intro entry listed c client reads _
      refine (alert entry listed c client reads alive).mono Or.inl ?_ (by simp [here])
      intro other member data
      rw [first] at member
      rcases List.mem_cons.mp member with rfl | later
      · exact Or.inr (Or.inr ⟨.recv, by rw [data]⟩)
      · exact Or.inr (Or.inl ⟨other, later, data⟩)
  | acceptClient here _ | acceptFails here | registerFails here =>
      exact alert.of_eq alive (fun _ => id) (fun _ _ _ _ => Or.inl) (fun _ _ => id)
        (fun _ => id) (by simp [here])
  | @setNonblock fd c here found =>
      refine alert.of_eq alive (fun _ => id) ?_ (fun _ _ => id) (fun _ => id) (by simp [here])
      intro entry listed c' client reads
      left
      by_cases mine : c' = c
      · subst mine
        simpa [State.setConnection, Connection.readable] using reads
      · simpa [State.setConnection, mine] using reads
  | @registerClient fd c here found =>
      intro entry listed c' client reads _
      rcases (EpollInstance.mem_add_interest _).mp listed with old | rfl
      · refine (alert entry old c' client reads alive).mono ?_ ?_ (by simp [here])
        · exact fun queued => Or.inl ((EpollInstance.mem_add_queued _).mpr (Or.inl queued))
        · exact fun event member data => Or.inr (Or.inl ⟨event, member, data⟩)
      · obtain rfl : c = c' := by simpa using client
        exact Or.inl ((EpollInstance.mem_add_queued _).mpr (Or.inr ⟨rfl, reads, rfl⟩))
  | closeRejected here | closeClient here =>
      refine alert.of_eq alive
        (fun _ listed => ((EpollInstance.mem_remove_interest _).mp listed).1)
        (fun _ _ _ _ => Or.inl) ?_ (fun _ => id) ?_
      · intro entry listed queued
        exact (EpollInstance.mem_remove_queued _).mpr
          ⟨queued, ((EpollInstance.mem_remove_interest _).mp listed).2⟩
      · intro entry listed stage there
        have other := ((EpollInstance.mem_remove_interest _).mp listed).2
        simp_all
  | @recvData fd c n here found _ _ _ =>
      refine alert.of_eq alive (fun _ => id) ?_ (fun _ _ => id) (fun _ => id) (by simp [here])
      intro entry listed c' client reads
      by_cases mine : c' = c
      · right
        right
        right
        rw [books.wired.unique (books.entry_client listed client).1 (mine ▸ found)]
        exact ⟨_, rfl⟩
      · left
        simpa [State.setConnection, mine] using reads
  | recvEnd here _ _ _ | recvError here | printChunk here =>
      exact alert.of_eq alive (fun _ => id) (fun _ _ _ _ => Or.inl) (fun _ _ => id)
        (fun _ => id) (by simp [here])
  | @sendChunk fd len c k here found _ _ _ | @sendRefused fd len c here found _ =>
      refine alert.of_eq alive (fun _ => id) ?_ (fun _ _ => id) (fun _ => id) (by simp [here])
      intro entry listed c' client reads
      left
      by_cases mine : c' = c
      · subst mine
        simpa [State.setConnection] using reads
      · simpa [State.setConnection, mine] using reads
  | @recvAgain fd c here found idle _ =>
      intro entry listed c' client reads _
      refine (alert entry listed c' client reads alive).mono Or.inl
        (fun event member data => Or.inr (Or.inl ⟨event, member, data⟩)) ?_
      intro stage there
      obtain ⟨rfl, _⟩ : fd = entry.fd ∧ Stage.recv = stage := by simpa [here] using there
      have same := found.symm.trans (books.entry_client listed client).1
      obtain rfl : c = c' := by simpa using same
      simp [idle] at reads
  | @deleteClosed fd here free =>
      intro entry listed c' client reads _
      refine (alert entry listed c' client reads alive).mono Or.inl
        (fun event member data => Or.inr (Or.inl ⟨event, member, data⟩)) ?_
      intro stage there
      obtain ⟨rfl, _⟩ : fd = entry.fd ∧ Stage.deleting = stage := by simpa [here] using there
      simp [(books.entry_client listed client).1] at free
  | deleteOpen here used => exact absurd (books.batched.closed here) used

/-- What the server relies on to find every readable client again. -/
structure Watchful (s : State) : Prop where
  books : Books s
  nonblocking : Nonblocking s
  summoned : Summoned s
  alert : Alert s

/-- A dead process takes no further step. -/
theorem Move.stays_dead {s next : State} {action : Action} (taken : Move s action next)
    (dead : s.pc = .dead)
    : next.pc = .dead := by
  cases taken
  case connect | arrive | endStream | resetPeer => exact dead
  all_goals simp_all

theorem Watchful.move {s next : State} {action : Action} (watchful : Watchful s)
    (taken : Move s action next)
    : Watchful next := by
  obtain ⟨books, nonblocking, summoned, alert⟩ := watchful
  refine ⟨books.move taken, nonblocking.move books taken, summoned.move books taken, ?_⟩
  by_cases dead : s.pc = .dead
  · exact fun _ _ _ _ _ alive => absurd (taken.stays_dead dead) alive
  · exact alert.move books dead taken

theorem Started.watchful {s : State} (started : Started s) : Watchful s := by
  refine ⟨started.books, ?_, ⟨?_, ?_⟩, ?_⟩
  · exact fun fd c found => absurd found (started.no_clients fd c)
  · simp [started.batch, started.pc]
  · simp [started.pc]
  · intro entry listed c client
    simp only [started.interest, List.mem_singleton] at listed
    simp [listed] at client

/-- No wake-up is lost in any reachable state. -/
theorem watchful_of_reachable {s : State} (reached : system.Reachable s) : Watchful s := by
  apply reached.invariant
  · exact fun _ started => started.watchful
  · intro s action next watchful taken
    exact watchful.move (.of_step taken)

/-- At `epoll_wait` every readable client has an event that is not delivered yet. -/
theorem Watchful.queued {s : State} (watchful : Watchful s) (here : s.pc = .loop)
    (waits : s.batch = []) {entry : Registration File} (listed : entry ∈ s.epoll.interest)
    {c : Nat} (client : entry.file = .client c) (reads : (s.connections c).readable = true)
    : entry.fd ∈ s.epoll.queued := by
  have alive : s.pc ≠ .dead := by simp [here]
  rcases watchful.alert entry listed c client reads alive with queued | ⟨_, member, _⟩ | ⟨_, there⟩
  · exact queued
  · simp [waits] at member
  · simp [here] at there

end LinuxStudy.EpollTest
