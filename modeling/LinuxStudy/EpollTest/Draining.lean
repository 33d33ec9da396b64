import LinuxStudy.EpollTest.WakeUps
import LinuxStudy.Transition.Progress
import Mathlib.Algebra.BigOperators.Group.Finset.Piecewise

/-! From every state at `epoll_wait` the server's own steps read all that has arrived for the
registered clients.
-/

namespace LinuxStudy.EpollTest

open Transition Posix

/-- The server's own steps, where no system call fails on its own account: `recv` reports an
error only when the connection is reset and nothing is left to read, and `send` does not
raise a signal. A client may still be turned away by `EPOLL_CTL_ADD`.
-/
def Faultless (s : State) : Action → Prop
  | .connect | .arrive _ _ | .endStream _ | .resetPeer _ => False
  | .epollWaitFails | .acceptFails | .sendBroken true => False
  | .recvError =>
      ∀ fd c,
        s.pc = .serve fd .recv
        → s.table.lookup fd = some (.client c)
        → (s.connections c).unread = [] ∧ (s.connections c).reset = true
  | _ => True

/-- Before a client is closed nothing is left to read on it. -/
def Drained (s : State) : Prop :=
  ∀ fd c,
    s.pc = .serve fd .closing
    → s.table.lookup fd = some (.client c)
    → (s.connections c).unread = []

theorem Drained.move {s next : State} {action : Action} (taken : Move s action next)
    (faultless : Faultless s action)
    : Drained next := by
  cases taken
  case connect | arrive | endStream | resetPeer => exact faultless.elim
  case recvEnd fd c here found drained eof =>
    intro fd' c' there found'
    obtain rfl : fd = fd' := by simpa using there
    have same : some (File.client c') = some (.client c) := found'.symm.trans found
    obtain rfl : c' = c := by simpa using same
    exact drained
  case recvError fd here =>
    intro fd' c' there found
    obtain rfl : fd = fd' := by simpa using there
    exact (faultless fd c' here found).1
  all_goals
    intro fd c there
    simp_all

-----------------------------------------------------------------------------------------
-- The work that is left
-----------------------------------------------------------------------------------------

/-- The bytes that wait on all connections. -/
def State.unreadTotal (s : State) : Nat :=
  ∑ c ∈ Finset.range s.connected, (s.connections c).unread.length

/-- The weight of the current program point. -/
def Pc.weight : Pc → Nat
  | .loop | .dead => 0
  | .accept => 1
  | .setNonblock _ => 7
  | .register _ => 6
  | .closeRejected _ => 1
  | .serve _ .recv => 3
  | .serve _ (.print _) => 5
  | .serve _ (.echo _) => 4
  | .serve _ .closing => 2
  | .serve _ .deleting => 1

/-- The listening socket's readiness is on its way to `accept`. -/
def State.summons (s : State) : Prop :=
  (∃ event ∈ s.batch, event.source = .listening) ∨ s.pc = .accept

instance (s : State) : Decidable s.summons := by
  unfold State.summons
  infer_instance

/-- The work left before the server sleeps in `epoll_wait`. -/
def State.work (s : State) : Nat :=
  3 * s.unreadTotal + 12 * s.backlog.length + 5 * s.epoll.queued.length + 4 * s.batch.length
    + (if s.summons then 0 else 5) + s.pc.weight

/-- Only the changed connection counts. -/
theorem unreadTotal_setConnection {s : State} {c : Nat} (known : c < s.connected)
    (connection : Connection)
    : (s.setConnection c connection).unreadTotal + (s.connections c).unread.length
      = s.unreadTotal + connection.unread.length := by
  have member : c ∈ Finset.range s.connected := Finset.mem_range.mpr known
  let lengths (other : Nat) : Nat := (s.connections other).unread.length
  have after
      : (s.setConnection c connection).unreadTotal
        = ∑ other ∈ Finset.range s.connected,
            Function.update lengths c connection.unread.length other := by
    refine Finset.sum_congr rfl fun other _ => ?_
    by_cases mine : other = c <;> simp [State.setConnection, lengths, mine]
  have before
      : s.unreadTotal = lengths c + ∑ other ∈ Finset.range s.connected \ {c}, lengths other :=
    Finset.sum_eq_add_sum_sdiff_singleton_of_mem member lengths
  rw [Finset.sum_update_of_mem member] at after
  simp only [lengths] at before after
  omega

/-- Changing anything but the unread bytes of a connection leaves the total as it was. -/
theorem unreadTotal_same (s : State) (c : Nat) (connection : Connection)
    (same : connection.unread = (s.connections c).unread)
    : (s.setConnection c connection).unreadTotal = s.unreadTotal := by
  refine Finset.sum_congr rfl fun other _ => ?_
  by_cases mine : other = c
  · simp [State.setConnection, mine, same]
  · simp [State.setConnection, mine]

/-- Away from `accept` and from the batch, only unread bytes, queued events and the program
point count.
-/
theorem work_lt_of_eq {s next : State} (batch : next.batch = s.batch)
    (backlog : next.backlog = s.backlog) (before : s.pc ≠ .accept) (after : next.pc ≠ .accept)
    (lighter
      : 3 * next.unreadTotal + 5 * next.epoll.queued.length + next.pc.weight
        < 3 * s.unreadTotal + 5 * s.epoll.queued.length + s.pc.weight)
    : next.work < s.work := by
  have summons : next.summons ↔ s.summons := by
    simp [State.summons, batch, before, after]
  simp only [State.work, batch, backlog, summons]
  omega

/-- Events that are handed out leave the queue. -/
theorem length_deliver_queued (epoll : EpollInstance File) {entries : List (Registration File)}
    (distinct : (entries.map (·.fd)).Nodup)
    (queued : ∀ entry ∈ entries, entry.edge = true → entry.fd ∈ epoll.queued)
    : (epoll.deliver entries).queued.length + (entries.filter (·.edge)).length
      ≤ epoll.queued.length := by
  let reported := (entries.filter (·.edge)).map (·.fd)
  let given := epoll.queued.filter fun fd => fd ∈ entries.map (·.fd)
  have once : reported.Nodup := distinct.sublist (List.filter_sublist.map _)
  have inside : reported ⊆ given := by
    intro fd member
    obtain ⟨entry, chosen, rfl⟩ := List.mem_map.mp member
    obtain ⟨listed, edge⟩ := List.mem_filter.mp chosen
    refine List.mem_filter.mpr ⟨queued entry listed edge, ?_⟩
    simpa using ⟨entry, listed, rfl⟩
  have fewer : reported.length ≤ given.length := (once.subperm inside).length_le
  have split := List.length_eq_length_filter_add (l := epoll.queued)
    (fun fd => decide (fd ∈ entries.map (·.fd)))
  have left : (epoll.deliver entries).queued.length
      = (epoll.queued.filter fun fd => !decide (fd ∈ entries.map (·.fd))).length := by
    simp only [EpollInstance.deliver, decide_not]
  have same : reported.length = (entries.filter (·.edge)).length := List.length_map _
  simp only [given] at fewer
  omega

/-- Of the reported entries at most one is the listening socket's. -/
theorem Registered.length_entries {s : State} (registered : Registered s)
    {files : List File} (distinct : files.Nodup)
    : (s.entries files).length
      ≤ ((s.entries files).filter (·.edge)).length
        + if ∃ entry ∈ s.entries files, entry.file = .listening then 1 else 0 := by
  have split := List.length_eq_length_filter_add (l := s.entries files) (·.edge)
  have level {entry} (member : entry ∈ (s.entries files).filter fun entry => !entry.edge)
      : entry = s.listeningEntry := by
    obtain ⟨reported, edge⟩ := List.mem_filter.mp member
    rcases (registered.wellFormed entry (State.mem_entries reported).1).2.2 with same | ⟨on, _⟩
    · exact same
    · simp [on] at edge
  split
  next listening =>
    have once : ((s.entries files).filter fun entry => !entry.edge).Nodup :=
      ((registered.entries_nodup distinct).of_map _).filter _
    have inside : ((s.entries files).filter fun entry => !entry.edge) ⊆ [s.listeningEntry] :=
      fun entry member => List.mem_singleton.mpr (level member)
    have one := (once.subperm inside).length_le
    simp only [List.length_singleton] at one
    omega
  next quiet =>
    have none : ((s.entries files).filter fun entry => !entry.edge) = [] := by
      refine List.eq_nil_iff_forall_not_mem.mpr fun entry member => quiet ?_
      exact ⟨entry, (List.mem_filter.mp member).1, by rw [level member]; rfl⟩
    rw [none] at split
    simp only [List.length_nil] at split
    omega

/-- A batch holds less work than the queue it was taken from. -/
theorem Watchful.work_epollWait {s : State} (watchful : Watchful s) {files : List File}
    (here : s.pc = .loop) (used : s.batch = []) (distinct : files.Nodup)
    (some : s.entries files ≠ [])
    (ready : ∀ entry ∈ s.entries files, s.epoll.reports s.levelReady entry = true)
    : State.work
          { s with
            batch := (s.entries files).map fun entry => ⟨entry.data, entry.file⟩
            epoll := s.epoll.deliver (s.entries files) }
      < s.work := by
  have registered := watchful.books.registered
  have fds : ((s.entries files).map (·.fd)).Nodup := by
    have same : (s.entries files).map (·.fd) = (s.entries files).map (·.data) :=
      List.map_congr_left fun entry member =>
        (registered.wellFormed entry (State.mem_entries member).1).2.1.symm
    exact same ▸ registered.entries_nodup distinct
  have handed := length_deliver_queued s.epoll fds fun entry member edge => by
    simpa [EpollInstance.reports, edge] using ready entry member
  have counted := registered.length_entries distinct
  have positive := List.length_pos_iff.mpr some
  have quiet : ¬ s.summons := by simp [State.summons, here, used]
  have summons
      : State.summons
            { s with
              batch := (s.entries files).map fun entry => ⟨entry.data, entry.file⟩
              epoll := s.epoll.deliver (s.entries files) }
        ↔ ∃ entry ∈ s.entries files, entry.file = .listening := by
    simp [State.summons, here]
  have total
      : State.unreadTotal
            { s with
              batch := (s.entries files).map fun entry => ⟨entry.data, entry.file⟩
              epoll := s.epoll.deliver (s.entries files) }
        = s.unreadTotal :=
    rfl
  simp only [State.work, total, summons, quiet, used, if_false, List.length_map, List.length_nil]
  split at counted
  next listening => simp only [listening, if_true]; omega
  next listening => simp only [listening, if_false]; omega

/-- Every step of the server does some of the work that is left. -/
theorem Watchful.work_lt {s next : State} {action : Action} (watchful : Watchful s)
    (faultless : Faultless s action) (taken : Move s action next)
    : next.work < s.work := by
  have books := watchful.books
  cases taken with
  | connect | arrive _ _ | endStream _ | resetPeer _ | epollWaitFails _ _ | acceptFails _
  | sendKills _ _ _ => exact faultless.elim
  | epollWait here used distinct some few ready =>
      exact watchful.work_epollWait here used distinct some ready
  | @nextListening event rest here first mine =>
      have member : event ∈ s.batch := first ▸ List.mem_cons_self
      have before : s.summons := Or.inl ⟨event, member, (books.listening_event member).mpr mine⟩
      have after : State.summons { s with batch := rest, source := event.source, pc := .accept } :=
        Or.inr rfl
      simp only [State.work, before, after, first, here, if_true, Pc.weight, List.length_cons]
      simp only [State.unreadTotal]
      omega
  | @nextClient event rest here first other =>
      have member : event ∈ s.batch := first ▸ List.mem_cons_self
      have summons
          : State.summons
                { s with
                  batch := rest
                  source := event.source
                  pc := .serve event.data .recv }
            ↔ s.summons := by
        have source : event.source ≠ .listening :=
          fun listening => other ((books.listening_event member).mp listening)
        simp [State.summons, first, here, source]
      simp only [State.work, summons, first, here, Pc.weight, List.length_cons]
      simp only [State.unreadTotal]
      omega
  | @acceptClient c rest here waiting =>
      have before : s.summons := Or.inr here
      simp only [State.work, before, waiting, here, if_true, Pc.weight, List.length_cons]
      simp only [State.unreadTotal]
      split <;> omega
  | @setNonblock fd c here found =>
      refine work_lt_of_eq rfl rfl (by simp [here]) (by simp) ?_
      have total := unreadTotal_same s c { s.connections c with nonblock := true } rfl
      simp only [State.unreadTotal, State.setConnection, here, Pc.weight] at total ⊢
      omega
  | @registerClient fd c here found =>
      refine work_lt_of_eq rfl rfl (by simp [here]) (by simp) ?_
      have queued
          : (s.epoll.add ⟨fd, .client c, fd, true⟩ (s.connections c).readable).queued.length
          ≤ s.epoll.queued.length + 1 := by
        simp only [EpollInstance.add]
        split <;> simp
      simp only [State.unreadTotal, here, Pc.weight]
      omega
  | registerFails here =>
      refine work_lt_of_eq rfl rfl (by simp [here]) (by simp) ?_
      simp [State.unreadTotal, State.finish, here, Pc.weight]
  | @closeRejected fd here | @closeClient fd here =>
      refine work_lt_of_eq rfl rfl (by simp [here]) (by simp) ?_
      have queued : (s.epoll.remove fd).queued.length ≤ s.epoll.queued.length :=
        List.length_filter_le _ _
      simp only [State.unreadTotal, State.closeFd, here, Pc.weight]
      omega
  | @recvData fd c n here found positive available _ =>
      refine work_lt_of_eq rfl rfl (by simp [here]) (by simp) ?_
      have total := unreadTotal_setConnection (books.wired.known found).1
        ((s.connections c).takes n)
      simp only [Connection.takes, List.length_drop] at total
      simp only [State.unreadTotal, State.setConnection, Connection.takes, here,
        Pc.weight] at total ⊢
      omega
  | recvEnd here _ _ _ | recvError here =>
      refine work_lt_of_eq rfl rfl (by simp [here]) (by simp) ?_
      simp [State.unreadTotal, State.finish, here, Pc.weight]
  | recvAgain here _ _ _ | printChunk here | deleteClosed here _ =>
      refine work_lt_of_eq rfl rfl (by simp [here]) (by simp) ?_
      simp [State.unreadTotal, here, Pc.weight]
  | @sendChunk fd len c k here _ _ _ _ =>
      refine work_lt_of_eq rfl rfl (by simp [here]) (by simp) ?_
      have total := unreadTotal_same s c ((s.connections c).accepts (s.buf.take len) k) rfl
      simp only [State.unreadTotal, State.setConnection, here, Pc.weight] at total ⊢
      omega
  | @sendRefused fd len c here _ _ =>
      refine work_lt_of_eq rfl rfl (by simp [here]) (by simp) ?_
      have total := unreadTotal_same s c ((s.connections c).accepts (s.buf.take len) 0) rfl
      simp only [State.unreadTotal, State.setConnection, here, Pc.weight] at total ⊢
      omega
  | deleteOpen here used => exact absurd (books.batched.closed here) used

-----------------------------------------------------------------------------------------
-- What the server has taken over from a connection
-----------------------------------------------------------------------------------------

/-- The server's steps only move bytes of a connection from unread to received. -/
theorem Move.reads {s next : State} {action : Action} (taken : Move s action next)
    (faultless : Faultless s action) (c : Nat)
    : ∃ n,
        (next.connections c).unread = (s.connections c).unread.drop n
        ∧ (next.connections c).received
          = (s.connections c).received ++ (s.connections c).unread.take n := by
  cases taken
  case connect | arrive | endStream | resetPeer | sendKills => exact faultless.elim
  case recvData fd c' n here found positive available fits =>
    by_cases mine : c = c'
    · refine ⟨n, ?_⟩
      simp [State.setConnection, Connection.takes, mine]
    · refine ⟨0, ?_⟩
      simp [State.setConnection, mine]
  case setNonblock fd c' here found | sendChunk fd len c' k here found part blocks whole
      | sendRefused fd len c' here found broken =>
    refine ⟨0, ?_⟩
    by_cases mine : c = c'
    · simp [State.setConnection, Connection.accepts, mine]
    · simp [State.setConnection, mine]
  all_goals exact ⟨0, by simp [State.closeFd, State.finish]⟩

/-- A client leaves the interest list only when nothing is left to read on it. -/
theorem Move.keeps_interest {s next : State} {action : Action} (taken : Move s action next)
    (faultless : Faultless s action) (books : Books s) (drained : Drained s)
    {entry : Registration File} (listed : entry ∈ s.epoll.interest) {c : Nat}
    (client : entry.file = .client c)
    : entry ∈ next.epoll.interest ∨ (s.connections c).unread = [] := by
  have found := (books.entry_client listed client).1
  cases taken
  case connect | arrive | endStream | resetPeer | sendKills => exact faultless.elim
  case registerClient => exact Or.inl ((EpollInstance.mem_add_interest _).mpr (Or.inl listed))
  case closeRejected fd here =>
    have new : s.pc.newFd? = some fd := by simp [here, Pc.newFd?]
    have unlisted := (books.registered.fresh new).2
    exact Or.inl ((EpollInstance.mem_remove_interest _).mpr ⟨listed, unlisted entry listed⟩)
  case closeClient fd here =>
    by_cases mine : entry.fd = fd
    · exact Or.inr (drained fd c here (mine ▸ found))
    · exact Or.inl ((EpollInstance.mem_remove_interest _).mpr ⟨listed, mine⟩)
  case deleteOpen fd here used => exact absurd (books.batched.closed here) used
  all_goals exact Or.inl listed

/-- The server on its way from `origin`: whatever a client registered there had sent is
received or still unread, and a client with unread bytes is still registered.
-/
structure Reading (origin s : State) : Prop where
  watchful : Watchful s
  alive : s.pc ≠ .dead
  drained : Drained s
  accounted
    : ∀ c,
        (s.connections c).received ++ (s.connections c).unread
        = (origin.connections c).received ++ (origin.connections c).unread
  owed
    : ∀ entry ∈ origin.epoll.interest,
        ∀ c,
          entry.file = .client c
          → entry ∈ s.epoll.interest ∨ (s.connections c).unread = []

theorem Reading.move {origin s next : State} {action : Action} (reading : Reading origin s)
    (faultless : Faultless s action) (taken : Move s action next)
    : Reading origin next where
  watchful := reading.watchful.move taken
  alive := by
    have alive := reading.alive
    cases taken
    case epollWaitFails | sendKills => exact faultless.elim
    all_goals first | exact alive | simp
  drained := Drained.move taken faultless
  accounted c := by
    obtain ⟨n, unread, received⟩ := taken.reads faultless c
    rw [unread, received, List.append_assoc, List.take_append_drop, reading.accounted c]
  owed entry listed c client := by
    obtain ⟨n, unread, _⟩ := taken.reads faultless c
    have settled (empty : (s.connections c).unread = []) : (next.connections c).unread = [] := by
      simp [unread, empty]
    rcases reading.owed entry listed c client with still | empty
    · exact (taken.keeps_interest faultless reading.watchful.books reading.drained still
        client).imp_right settled
    · exact Or.inr (settled empty)

-----------------------------------------------------------------------------------------
-- The server never gets stuck before everything is read
-----------------------------------------------------------------------------------------

/-- The entry of a registered client can be asked for by its file. -/
theorem Books.entries_client {s : State} (books : Books s) {entry : Registration File}
    (listed : entry ∈ s.epoll.interest)
    : s.entries [entry.file] = [entry] := by
  have found : s.epoll.interest.find? (fun other => other.file = entry.file) = some entry := by
    cases first : s.epoll.interest.find? fun other => other.file = entry.file with
    | none => simpa using List.find?_eq_none.mp first entry listed
    | some other =>
        have also : other ∈ s.epoll.interest := List.mem_of_find?_eq_some first
        have file : other.file = entry.file := by simpa using List.find?_some first
        have one := books.registered.wellFormed other also
        have two := books.registered.wellFormed entry listed
        have fds : other.fd = entry.fd := by
          rcases two.2.2 with same | ⟨_, c, client⟩
          · have server : entry.file = .listening := by rw [same]; rfl
            rw [(books.wired.server other.fd).mp (by rw [one.1, file, server]),
              (books.wired.server entry.fd).mp (by rw [two.1, server])]
          · exact books.wired.unique (by rw [one.1, file, client]) (by rw [two.1, client])
        rw [List.inj_on_of_nodup_map books.registered.apart also listed fds]
  simp [State.entries, found]

/-- At `epoll_wait` any ready entry can be reported alone. -/
theorem Books.can_wait {s : State} (books : Books s) (here : s.pc = .loop)
    (used : s.batch = []) {entry : Registration File} (listed : entry ∈ s.epoll.interest)
    (ready : s.epoll.reports s.levelReady entry = true)
    : ∃ next, step s (.epollWait [entry.file]) = some next := by
  simp [step, epollWait, books.entries_client listed, here, used, ready, maxEvents]

/-- Besides, no client is turned away, and `send` accepts all that it can be given. -/
def Gentle (s : State) : Action → Prop
  | .registerFails => False
  | .sendChunk k => ∀ fd len, s.pc = .serve fd (.echo len) → k = len
  | _ => True

/-- The server can take a step in which nothing fails on its own account. -/
def CanGoOn (s : State) : Prop :=
  ∃ action next, Faultless s action ∧ Gentle s action ∧ step s action = some next

/-- An action with a result is a possible step. -/
theorem CanGoOn.of_isSome {s : State} (action : Action) (faultless : Faultless s action)
    (gentle : Gentle s action) (enabled : (step s action).isSome)
    : CanGoOn s := by
  obtain ⟨next, taken⟩ := Option.isSome_iff_exists.mp enabled
  exact ⟨action, next, faultless, gentle, taken⟩

/-- On its client's descriptor the server can always take the next call. -/
theorem Watchful.can_serve {s : State} (watchful : Watchful s) {fd : Nat} {stage : Stage}
    (here : s.pc = .serve fd stage)
    : CanGoOn s := by
  obtain ⟨books, nonblocking, _, _⟩ := watchful
  by_cases gone : stage = .deleting
  · subst gone
    exact .of_isSome .deleteClient trivial trivial (by simp [step, deleteClient, here])
  obtain ⟨c, found, _⟩ := books.batched.target here gone
  have connection := State.connection?_eq_some.mpr found
  have nonblock : (s.connections c).nonblock = true :=
    (nonblocking fd c found).resolve_right (by simp [here])
  cases stage with
  | deleting => contradiction
  | closing =>
      apply CanGoOn.of_isSome .closeClient trivial trivial
      simp [step, closeClient, here]
  | print len =>
      apply CanGoOn.of_isSome .printChunk trivial trivial
      simp [step, printChunk, here]
  | echo len =>
      cases broken : (s.connections c).reset with
      | true =>
          apply CanGoOn.of_isSome (.sendBroken false) trivial trivial
          simp [step, sendBroken, here, connection, broken]
      | false =>
          apply CanGoOn.of_isSome (.sendChunk len) trivial
          · intro fd' len' there
            simp_all
          · simp [step, sendChunk, here, connection, broken, nonblock]
  | recv =>
      by_cases data : (s.connections c).unread = []
      · cases broken : (s.connections c).reset with
        | true =>
            apply CanGoOn.of_isSome .recvError
            · intro fd' c' there found'
              obtain rfl : fd = fd' := by simpa [here] using there
              have same : some (File.client c') = some (.client c) := found'.symm.trans found
              obtain rfl : c' = c := by simpa using same
              exact ⟨data, broken⟩
            · trivial
            · simp [step, recvError, here]
        | false =>
            cases eof : (s.connections c).eof with
            | true =>
                apply CanGoOn.of_isSome .recvEnd trivial trivial
                simp [step, recvEnd, here, connection, data, eof]
            | false =>
                apply CanGoOn.of_isSome .recvAgain trivial trivial
                simp [step, recvAgain, here, connection, data, eof, broken, nonblock,
                  Connection.readable]
      · apply CanGoOn.of_isSome (.recvData 1) trivial trivial
        have some : 1 ≤ (s.connections c).unread.length := List.length_pos_iff.mpr data
        simp [step, recvData, here, connection, some, bufSize]

/-- Unless it sleeps in `epoll_wait`, a server that runs can take the next call. -/
theorem Watchful.can_go_on {s : State} (watchful : Watchful s) (alive : s.pc ≠ .dead)
    : (s.pc = .loop ∧ s.batch = []) ∨ CanGoOn s := by
  have books := watchful.books
  have opened (fd : Nat) (new : s.pc.newFd? = some fd) : ∃ c, s.connection? fd = some c := by
    obtain ⟨⟨c, found⟩, _⟩ := books.registered.fresh new
    exact ⟨c, State.connection?_eq_some.mpr found⟩
  cases here : s.pc with
  | dead => exact absurd here alive
  | serve fd stage => exact Or.inr (watchful.can_serve here)
  | closeRejected fd =>
      right
      apply CanGoOn.of_isSome .closeRejected trivial trivial
      simp [step, closeRejected, here]
  | register fd =>
      right
      obtain ⟨c, connection⟩ := opened fd (by simp [here, Pc.newFd?])
      apply CanGoOn.of_isSome .registerClient trivial trivial
      simp [step, registerClient, here, connection]
  | setNonblock fd =>
      right
      obtain ⟨c, connection⟩ := opened fd (by simp [here, Pc.newFd?])
      apply CanGoOn.of_isSome .setNonblock trivial trivial
      simp [step, setNonblock, here, connection]
  | accept =>
      right
      obtain ⟨c, rest, waiting⟩ :=
        List.exists_cons_of_ne_nil (watchful.summoned.waiting (Or.inr here))
      apply CanGoOn.of_isSome .acceptClient trivial trivial
      simp [step, acceptClient, here, waiting]
  | loop =>
      cases events : s.batch with
      | nil => exact Or.inl ⟨rfl, rfl⟩
      | cons event rest =>
          right
          apply CanGoOn.of_isSome .nextEvent trivial trivial
          simp [step, nextEvent, here, events]

/-- A registered client with unread bytes wakes the server up. -/
theorem Watchful.wakes_up {s : State} (watchful : Watchful s) (here : s.pc = .loop)
    (used : s.batch = []) {entry : Registration File} (listed : entry ∈ s.epoll.interest)
    {c : Nat} (client : entry.file = .client c) (data : (s.connections c).unread ≠ [])
    : CanGoOn s := by
  have books := watchful.books
  have reads : (s.connections c).readable = true := by
    simp [Connection.readable, data]
  have queued := watchful.queued here used listed client reads
  have ready : s.epoll.reports s.levelReady entry = true := by
    simpa [EpollInstance.reports, (books.entry_client listed client).2.1] using queued
  obtain ⟨next, taken⟩ := books.can_wait here used listed ready
  exact ⟨.epollWait [entry.file], next, trivial, trivial, taken⟩

/-- As long as a client has unread bytes, the server can take a step. -/
theorem Reading.progress {origin s : State} (reading : Reading origin s)
    : (∀ entry ∈ origin.epoll.interest,
          ∀ c,
            entry.file = .client c
            → (s.connections c).received
              = (origin.connections c).received ++ (origin.connections c).unread)
      ∨ CanGoOn s := by
  rcases reading.watchful.can_go_on reading.alive with ⟨here, events⟩ | goesOn
  · by_cases unread
        : ∃ entry ∈ s.epoll.interest,
            ∃ c, entry.file = .client c ∧ (s.connections c).unread ≠ []
    · obtain ⟨entry, listed, c, client, data⟩ := unread
      exact Or.inr (reading.watchful.wakes_up here events listed client data)
    · left
      intro entry listed c client
      have empty : (s.connections c).unread = [] := by
        rcases reading.owed entry listed c client with still | empty
        · by_contra data
          exact unread ⟨entry, still, c, client, data⟩
        · exact empty
      simpa [empty] using reading.accounted c
  · exact Or.inr goesOn

/-- No wake-up is lost: whenever the server is at `epoll_wait`, every registered client with
unread bytes or an unread end of stream has an event that is not delivered yet, a waiting
connection makes the listening socket ready, and the server's own steps, however they are
chosen, read all bytes that have arrived for every registered client.
-/
theorem noLostWakeUp {s : State} (reached : system.Reachable s) (here : s.pc = .loop)
    (waits : s.batch = [])
    : (∀ entry ∈ s.epoll.interest,
          ∀ c,
            entry.file = .client c
            → (s.connections c).readable = true
            → s.epoll.reports s.levelReady entry = true)
      ∧ (s.backlog ≠ []
          → ∃ entry ∈ s.epoll.interest,
              entry.file = .listening ∧ s.epoll.reports s.levelReady entry = true)
      ∧ system.Inevitable Faultless
          (fun final =>
            ∀ entry ∈ s.epoll.interest,
              ∀ c,
                entry.file = .client c
                → (final.connections c).received
                  = (s.connections c).received ++ (s.connections c).unread)
          s := by
  have watchful := watchful_of_reachable reached
  refine ⟨?_, ?_, ?_⟩
  · intro entry listed c client reads
    have queued := watchful.queued here waits listed client reads
    simpa [EpollInstance.reports, (watchful.books.entry_client listed client).2.1] using queued
  · intro busy
    refine ⟨s.listeningEntry, watchful.books.registered.listens, rfl, ?_⟩
    simp [EpollInstance.reports, State.listeningEntry, State.levelReady, busy]
  · refine System.Inevitable.of_measure (Reading s) State.work ?_ ?_ ?_ ?_
    · exact fun _ _ _ reading faultless taken => reading.move faultless (.of_step taken)
    · intro _ reading
      rcases reading.progress with done | ⟨action, next, faultless, -, taken⟩
      · exact Or.inl done
      · exact Or.inr ⟨action, next, faultless, taken⟩
    · exact fun _ _ _ reading faultless taken =>
        reading.watchful.work_lt faultless (.of_step taken)
    · refine ⟨watchful, by simp [here], ?_, fun _ => rfl, fun _ listed _ _ => Or.inl listed⟩
      intro fd c there
      simp [here] at there

/-- A registered client has sent a byte, and another client waits to be accepted. -/
def unreadByte : List Action :=
  [.connect, .epollWait [.listening], .nextEvent, .acceptClient, .setNonblock,
    .registerClient, .arrive 0 [104], .connect]

/-- The byte is read by some run of the server from there. -/
theorem noLostWakeUp_unreadByte
    : ∃ s : State, (s.connections 0).unread = [104] ∧ s.backlog = [1]
        ∧ ∃ actions final, system.exec s actions = some final
            ∧ (final.connections 0).received = [104] := by
  have run : (system.exec start unreadByte).isSome := by decide
  have reached : system.Reachable _ :=
    System.reachable_of_run start start_started unreadByte run
  have listed
      : ⟨5, .client 0, 5, true⟩ ∈ ((system.exec start unreadByte).get run).epoll.interest :=
    List.mem_cons_of_mem _ List.mem_cons_self
  obtain ⟨actions, final, later, read⟩ := (noLostWakeUp reached rfl rfl).2.2.exists_exec
  exact ⟨_, rfl, rfl, actions, final, later, read _ listed 0 rfl⟩

end LinuxStudy.EpollTest
