import LinuxStudy.EpollTest.Steps
import Mathlib.Data.List.Nodup

/-! Descriptor bookkeeping of `epoll_test.c`: the interest list follows the open client
descriptors, every event still refers to the connection it was generated for, and no
connection the server is done with stays open.
-/

namespace LinuxStudy.EpollTest

open Transition Posix

/-- The listening socket has its one descriptor, a connection at most one, and a connection
that still waits in the accept queue has none.
-/
structure Wired (s : State) : Prop where
  server : ∀ fd, s.table.lookup fd = some .listening ↔ fd = s.serverFd
  unique
    : ∀ {fd other c},
        s.table.lookup fd = some (.client c)
        → s.table.lookup other = some (.client c)
        → fd = other
  known
    : ∀ {fd c},
        s.table.lookup fd = some (.client c) → c < s.connected ∧ c ∉ s.backlog
  waiting : s.backlog.Nodup ∧ ∀ c ∈ s.backlog, c < s.connected

/-- The wiring is a matter of four fields only. -/
theorem Wired.of_eq {s next : State} (wired : Wired s) (serverFd : next.serverFd = s.serverFd)
    (table : next.table = s.table) (backlog : next.backlog = s.backlog)
    (connected : next.connected = s.connected)
    : Wired next := by
  obtain ⟨server, unique, known, waiting⟩ := wired
  constructor <;> simp only [serverFd, table, backlog, connected] <;> assumption

theorem Wired.connect {s : State} (wired : Wired s) : Wired (connect s) where
  server := wired.server
  unique := wired.unique
  known {fd c} found := by
    obtain ⟨old, fresh⟩ := wired.known found
    have different : c ≠ s.connected := Nat.ne_of_lt old
    simp only [EpollTest.connect, List.mem_append, List.mem_singleton, not_or]
    exact ⟨Nat.lt_succ_of_lt old, fresh, different⟩
  waiting := by
    obtain ⟨distinct, old⟩ := wired.waiting
    exact ⟨nodup_arrival distinct old, lt_of_mem_arrival old⟩

/-- The accepted connection leaves the queue and gets a number of its own. -/
theorem Wired.allocate {s next : State} (wired : Wired s) {c : Nat} {rest : List Nat}
    (waiting : s.backlog = c :: rest) (serverFd : next.serverFd = s.serverFd)
    (table : next.table = s.table.allocate (.client c)) (backlog : next.backlog = rest)
    (connected : next.connected = s.connected)
    : Wired next := by
  obtain ⟨distinct, old⟩ := waiting ▸ wired.waiting
  have unopened (fd : Nat) : s.table.lookup fd ≠ some (.client c) := by
    intro found
    exact (wired.known found).2 (by simp [waiting])
  have serverUsed : s.serverFd ≠ s.table.lowestFree :=
    Table.ne_lowestFree ((wired.server s.serverFd).mpr rfl)
  constructor
  · intro fd
    rw [table, serverFd, Table.lookup_allocate]
    split
    next new => simp [new, Ne.symm serverUsed]
    next => exact wired.server fd
  · intro fd other c' found again
    rw [table] at found again
    exact Table.unique_allocate unopened wired.unique found again
  · intro fd c' found
    rw [connected, backlog]
    rw [table, Table.lookup_allocate] at found
    split at found
    next =>
      obtain rfl : c = c' := by simpa using found
      exact ⟨old c (by simp), (List.nodup_cons.mp distinct).1⟩
    next =>
      obtain ⟨bound, fresh⟩ := wired.known found
      rw [waiting] at fresh
      exact ⟨bound, fun member => fresh (List.mem_cons_of_mem c member)⟩
  · rw [backlog, connected]
    exact ⟨(List.nodup_cons.mp distinct).2, fun c' member =>
      old c' (List.mem_cons_of_mem c member)⟩

/-- Closing a client's descriptor leaves the rest of the table as it was. -/
theorem Wired.close {s next : State} (wired : Wired s) {fd c : Nat}
    (found : s.table.lookup fd = some (.client c)) (serverFd : next.serverFd = s.serverFd)
    (table : next.table = s.table.close fd) (backlog : next.backlog = s.backlog)
    (connected : next.connected = s.connected)
    : Wired next := by
  have notServer : s.serverFd ≠ fd := by
    intro same
    subst same
    simp [(wired.server s.serverFd).mpr rfl] at found
  have kept {other file} (open_ : next.table.lookup other = some file)
      : s.table.lookup other = some file := by
    rw [table] at open_
    exact (Table.lookup_of_close open_).2
  constructor
  · intro other
    rw [serverFd, table, Table.lookup_close]
    split
    next same => simp [same, Ne.symm notServer]
    next => exact wired.server other
  · intro other another c' one two
    exact wired.unique (kept one) (kept two)
  · intro other c' open_
    rw [connected, backlog]
    exact wired.known (kept open_)
  · rw [backlog, connected]
    exact wired.waiting

-----------------------------------------------------------------------------------------
-- The interest list
-----------------------------------------------------------------------------------------

/-- The accepted descriptor that has not reached the interest list, at these points. -/
def Pc.newFd? : Pc → Option Nat
  | .setNonblock fd | .register fd | .closeRejected fd => some fd
  | _ => none

/-- The entry of the listening socket, as `main` registers it before the loop. -/
def State.listeningEntry (s : State) : Registration File :=
  ⟨s.serverFd, .listening, s.serverFd, false⟩

/-- What every entry of the interest list looks like. -/
def State.WellFormed (s : State) (entry : Registration File) : Prop :=
  s.table.lookup entry.fd = some entry.file
  ∧ entry.data = entry.fd
  ∧ (entry = s.listeningEntry ∨ entry.edge = true ∧ ∃ c, entry.file = .client c)

/-- The interest list holds the listening socket and the open clients, except for the one
that is being set up.
-/
structure Registered (s : State) : Prop where
  listens : s.listeningEntry ∈ s.epoll.interest
  wellFormed : ∀ entry ∈ s.epoll.interest, s.WellFormed entry
  apart : (s.epoll.interest.map (·.fd)).Nodup
  complete
    : ∀ {fd c},
        s.table.lookup fd = some (.client c)
        → (∃ entry ∈ s.epoll.interest, entry.fd = fd) ∨ s.pc.newFd? = some fd
  fresh
    : ∀ {fd},
        s.pc.newFd? = some fd
        → (∃ c, s.table.lookup fd = some (.client c))
          ∧ ∀ entry ∈ s.epoll.interest, entry.fd ≠ fd

/-- The interest list changes only with these fields. -/
theorem Registered.of_eq {s next : State} (registered : Registered s)
    (serverFd : next.serverFd = s.serverFd) (table : next.table = s.table)
    (interest : next.epoll.interest = s.epoll.interest)
    (newFd : next.pc.newFd? = s.pc.newFd?)
    : Registered next := by
  obtain ⟨listens, wellFormed, apart, complete, fresh⟩ := registered
  simp only [State.WellFormed, State.listeningEntry] at listens wellFormed
  constructor
  all_goals
    simp only [State.WellFormed, State.listeningEntry, serverFd, table, interest, newFd]
    assumption

/-- Accepting a connection gives it a number outside the interest list. -/
theorem Registered.allocate {s next : State} (registered : Registered s) {c : Nat}
    (none_new : s.pc.newFd? = none) (serverFd : next.serverFd = s.serverFd)
    (table : next.table = s.table.allocate (.client c))
    (interest : next.epoll.interest = s.epoll.interest)
    (newFd : next.pc.newFd? = some s.table.lowestFree)
    : Registered next := by
  have used {entry : Registration File} (member : entry ∈ s.epoll.interest)
      : entry.fd ≠ s.table.lowestFree :=
    Table.ne_lowestFree (registered.wellFormed entry member).1
  constructor
  · rw [State.listeningEntry, serverFd, interest]
    exact registered.listens
  · intro entry member
    rw [interest] at member
    obtain ⟨found, rest⟩ := registered.wellFormed entry member
    refine ⟨?_, ?_⟩
    · rw [table, Table.lookup_allocate, if_neg (used member), found]
    · simpa only [State.listeningEntry, serverFd] using rest
  · rw [interest]
    exact registered.apart
  · intro fd c' found
    rw [table, Table.lookup_allocate] at found
    rw [interest, newFd]
    split at found
    next same => exact Or.inr (by rw [same])
    next =>
      rcases registered.complete found with entry | new
      · exact Or.inl entry
      · simp [none_new] at new
  · intro fd new
    obtain rfl : s.table.lowestFree = fd := by simpa [newFd] using new
    rw [interest]
    exact ⟨⟨c, by simp [table]⟩, fun entry member => used member⟩

/-- The new client joins the interest list under its own number. -/
theorem Registered.add {s next : State} (registered : Registered s) {fd c : Nat}
    {readable : Bool} (new : s.pc.newFd? = some fd)
    (found : s.table.lookup fd = some (.client c)) (serverFd : next.serverFd = s.serverFd)
    (table : next.table = s.table)
    (epoll : next.epoll = s.epoll.add ⟨fd, .client c, fd, true⟩ readable)
    (newFd : next.pc.newFd? = none)
    : Registered next := by
  obtain ⟨_, unlisted⟩ := registered.fresh new
  constructor
  · rw [State.listeningEntry, serverFd, epoll, EpollInstance.mem_add_interest]
    exact Or.inl registered.listens
  · intro entry member
    rw [epoll, EpollInstance.mem_add_interest] at member
    simp only [State.WellFormed, State.listeningEntry, serverFd, table]
    rcases member with old | rfl
    · exact registered.wellFormed entry old
    · exact ⟨found, rfl, Or.inr ⟨rfl, c, rfl⟩⟩
  · rw [epoll]
    simp only [EpollInstance.add, List.map_append, List.map_cons, List.map_nil]
    rw [List.nodup_append]
    refine ⟨registered.apart, by simp, ?_⟩
    intro old member last same
    obtain ⟨entry, listed, rfl⟩ := List.mem_map.mp member
    rw [List.mem_singleton.mp same]
    exact unlisted entry listed
  · intro other c' open_
    left
    rw [table] at open_
    simp only [epoll, EpollInstance.mem_add_interest]
    rcases registered.complete open_ with ⟨entry, listed, same⟩ | again
    · exact ⟨entry, Or.inl listed, same⟩
    · obtain rfl : fd = other := by simpa [new] using again
      exact ⟨_, Or.inr rfl, rfl⟩
  · simp [newFd]

/-- Closing a client's descriptor removes it from table and interest list alike. -/
theorem Registered.close {s next : State} (registered : Registered s) {fd c : Nat}
    (found : s.table.lookup fd = some (.client c)) (serverFd : next.serverFd = s.serverFd)
    (table : next.table = s.table.close fd) (epoll : next.epoll = s.epoll.remove fd)
    (newFd : next.pc.newFd? = none) (only : ∀ other, s.pc.newFd? = some other → other = fd)
    : Registered next := by
  have server : s.table.lookup s.serverFd = some .listening :=
    (registered.wellFormed _ registered.listens).1
  have notServer : s.serverFd ≠ fd := by
    intro same
    subst same
    simp [server] at found
  constructor
  · rw [State.listeningEntry, serverFd, epoll, EpollInstance.mem_remove_interest]
    exact ⟨registered.listens, notServer⟩
  · intro entry member
    rw [epoll, EpollInstance.mem_remove_interest] at member
    obtain ⟨here, rest⟩ := registered.wellFormed entry member.1
    refine ⟨?_, ?_⟩
    · rw [table, Table.lookup_close, if_neg member.2, here]
    · simpa only [State.listeningEntry, serverFd] using rest
  · rw [epoll]
    exact registered.apart.sublist (List.filter_sublist.map _)
  · intro other c' open_
    left
    rw [table, Table.lookup_close] at open_
    split at open_
    next => contradiction
    next different =>
      rcases registered.complete open_ with ⟨entry, listed, same⟩ | new
      · refine ⟨entry, ?_, same⟩
        rw [epoll, EpollInstance.mem_remove_interest, same]
        exact ⟨listed, different⟩
      · exact absurd (only other new) different
  · simp [newFd]

-----------------------------------------------------------------------------------------
-- The events of a batch
-----------------------------------------------------------------------------------------

/-- Every event still to be handled belongs to a registered descriptor of its own, and the
event in work is handled on the connection it was generated for.
-/
structure Batched (s : State) : Prop where
  events
    : ∀ event ∈ s.batch,
        ∃ entry ∈ s.epoll.interest, entry.data = event.data ∧ entry.file = event.source
  apart : (s.batch.map (·.data)).Nodup
  others : ∀ {fd stage}, s.pc = .serve fd stage → ∀ event ∈ s.batch, event.data ≠ fd
  target
    : ∀ {fd stage},
        s.pc = .serve fd stage
        → stage ≠ .deleting
        → ∃ c, s.table.lookup fd = some (.client c) ∧ s.source = .client c
  closed : ∀ {fd}, s.pc = .serve fd .deleting → s.table.lookup fd = none

/-- Nothing but the interest list and the table matters while the event stays the same. -/
theorem Batched.of_eq {s next : State} (batched : Batched s) (batch : next.batch = s.batch)
    (interest : next.epoll.interest = s.epoll.interest) (table : next.table = s.table)
    (source : next.source = s.source) (pc : next.pc = s.pc)
    : Batched next := by
  obtain ⟨events, apart, others, target, closed⟩ := batched
  constructor <;> simp only [batch, interest, table, source, pc] <;> assumption

/-- A step between two stages of the same event. -/
theorem Batched.stage {s next : State} (batched : Batched s) {fd : Nat} {stage new : Stage}
    (here : s.pc = .serve fd stage) (open_ : stage ≠ .deleting)
    (batch : next.batch = s.batch) (interest : next.epoll.interest = s.epoll.interest)
    (table : next.table = s.table) (source : next.source = s.source)
    (pc : next.pc = .serve fd new) (stays : new ≠ .deleting)
    : Batched next where
  events := by
    rw [batch, interest]
    exact batched.events
  apart := by
    rw [batch]
    exact batched.apart
  others {fd' stage'} there := by
    obtain ⟨rfl, rfl⟩ : fd = fd' ∧ new = stage' := by simpa [pc] using there
    rw [batch]
    exact batched.others here
  target {fd' stage'} there _ := by
    obtain ⟨rfl, rfl⟩ : fd = fd' ∧ new = stage' := by simpa [pc] using there
    rw [table, source]
    exact batched.target here open_
  closed {fd'} there := by
    obtain ⟨rfl, same⟩ : fd = fd' ∧ new = .deleting := by simpa [pc] using there
    exact absurd same stays

/-- Between two events only the remaining events count. -/
theorem Batched.idle {s next : State} (batched : Batched s) (batch : next.batch = s.batch)
    (interest
      : ∀ event ∈ s.batch,
          ∀ entry ∈ s.epoll.interest,
            entry.data = event.data → entry ∈ next.epoll.interest)
    (idle : ∀ fd stage, next.pc ≠ .serve fd stage)
    : Batched next where
  events := by
    intro event member
    rw [batch] at member
    obtain ⟨entry, listed, data, file⟩ := batched.events event member
    exact ⟨entry, interest event member entry listed data, data, file⟩
  apart := by
    rw [batch]
    exact batched.apart
  others {fd stage} there := absurd there (idle fd stage)
  target {fd stage} there := absurd there (idle fd stage)
  closed {fd} there := absurd there (idle fd _)

/-- The entries reported are registered, for one of the files asked for. -/
theorem State.mem_entries {s : State} {files : List File} {entry : Registration File}
    (member : entry ∈ s.entries files)
    : entry ∈ s.epoll.interest ∧ entry.file ∈ files := by
  obtain ⟨file, asked, found⟩ := List.mem_filterMap.mp member
  have same : entry.file = file := by simpa using List.find?_some found
  exact ⟨List.mem_of_find?_eq_some found, same ▸ asked⟩

/-- Distinct files have distinct descriptors, so a batch reports each at most once. -/
theorem Registered.entries_nodup {s : State} (registered : Registered s) {files : List File}
    (distinct : files.Nodup)
    : ((s.entries files).map (·.data)).Nodup := by
  have once : (s.entries files).Nodup := by
    refine List.Nodup.filterMap ?_ distinct
    intro file other entry found again
    have one : entry.file = file := by simpa using List.find?_some found
    have two : entry.file = other := by simpa using List.find?_some again
    rw [← one, two]
  refine List.Nodup.map_on ?_ once
  intro entry member other again same
  have listed := (State.mem_entries member).1
  have alsoListed := (State.mem_entries again).1
  have fds : entry.fd = other.fd := by
    rw [← (registered.wellFormed entry listed).2.1, same,
      (registered.wellFormed other alsoListed).2.1]
  exact List.inj_on_of_nodup_map registered.apart listed alsoListed fds

-----------------------------------------------------------------------------------------
-- Connections the server is done with
-----------------------------------------------------------------------------------------

/-- A connection the server is done with is closed, or its `close` is the next call. -/
def Finished (s : State) : Prop :=
  ∀ c ∈ s.finished,
    c < s.connected
    ∧ c ∉ s.backlog
    ∧ ∀ fd,
        s.table.lookup fd = some (.client c)
        → s.pc = .serve fd .closing ∨ s.pc = .closeRejected fd

/-- Elsewhere a finished connection has no descriptor at all. -/
theorem Finished.closed {s : State} (finished : Finished s)
    (elsewhere : ∀ fd, s.pc ≠ .serve fd .closing ∧ s.pc ≠ .closeRejected fd) {c : Nat}
    (member : c ∈ s.finished) (fd : Nat)
    : s.table.lookup fd ≠ some (.client c) := by
  intro open_
  rcases (finished c member).2.2 fd open_ with here | here
  · exact (elsewhere fd).1 here
  · exact (elsewhere fd).2 here

/-- A step that leaves table and queue alone keeps finished connections closed. -/
theorem Finished.of_eq {s next : State} (finished : Finished s)
    (elsewhere : ∀ fd, s.pc ≠ .serve fd .closing ∧ s.pc ≠ .closeRejected fd)
    (same : next.finished = s.finished) (connected : next.connected = s.connected)
    (backlog : next.backlog = s.backlog) (table : next.table = s.table)
    : Finished next := by
  intro c member
  rw [same] at member
  rw [connected, backlog, table]
  obtain ⟨bound, fresh, _⟩ := finished c member
  exact ⟨bound, fresh, fun fd open_ => absurd open_ (finished.closed elsewhere member fd)⟩

/-- A step of the clients keeps finished connections closed. -/
theorem Finished.of_pc {s next : State} (finished : Finished s) (pc : next.pc = s.pc)
    (same : next.finished = s.finished) (connected : s.connected ≤ next.connected)
    (backlog : ∀ c ∈ next.backlog, c ∈ s.backlog ∨ s.connected ≤ c)
    (table : next.table = s.table)
    : Finished next := by
  intro c member
  rw [same] at member
  rw [pc, table]
  obtain ⟨bound, fresh, closed⟩ := finished c member
  refine ⟨Nat.lt_of_lt_of_le bound connected, fun waits => ?_, closed⟩
  rcases backlog c waits with old | new
  · exact fresh old
  · exact Nat.lt_irrefl _ (Nat.lt_of_lt_of_le bound new)

/-- Giving up the connection behind `fd` leads straight to its `close`. -/
theorem Finished.finish {s next : State} (finished : Finished s) (wired : Wired s) {fd : Nat}
    (elsewhere : ∀ fd, s.pc ≠ .serve fd .closing ∧ s.pc ≠ .closeRejected fd)
    (same : next.finished = (s.finish fd).finished)
    (connected : next.connected = s.connected) (backlog : next.backlog = s.backlog)
    (table : next.table = s.table)
    (pc : next.pc = .serve fd .closing ∨ next.pc = .closeRejected fd)
    : Finished next := by
  intro c member
  rw [same, State.finish, List.mem_append, Option.mem_toList] at member
  rw [connected, backlog, table]
  rcases member with old | new
  · obtain ⟨bound, fresh, _⟩ := finished c old
    exact ⟨bound, fresh, fun other open_ => absurd open_ (finished.closed elsewhere old other)⟩
  · have found := State.connection?_eq_some.mp new
    obtain ⟨bound, fresh⟩ := wired.known found
    refine ⟨bound, fresh, fun other open_ => ?_⟩
    rw [wired.unique open_ found]
    exact pc

/-- The `close` itself. -/
theorem Finished.close {s next : State} (finished : Finished s) {fd : Nat}
    (here : s.pc = .serve fd .closing ∨ s.pc = .closeRejected fd)
    (same : next.finished = s.finished) (connected : next.connected = s.connected)
    (backlog : next.backlog = s.backlog) (table : next.table = s.table.close fd)
    : Finished next := by
  intro c member
  rw [same] at member
  rw [connected, backlog]
  obtain ⟨bound, fresh, closed⟩ := finished c member
  refine ⟨bound, fresh, fun other open_ => ?_⟩
  rw [table, Table.lookup_close] at open_
  split at open_
  next => contradiction
  next different =>
    rcases closed other open_ with there | there <;> rcases here with here | here
    all_goals simp_all

-----------------------------------------------------------------------------------------
-- Every step keeps the books
-----------------------------------------------------------------------------------------

/-- The whole bookkeeping invariant. -/
structure Books (s : State) : Prop where
  wired : Wired s
  registered : Registered s
  batched : Batched s
  finished : Finished s

/-- A step on the event in work that leaves table, interest list and queue alone. -/
theorem Books.stage {s next : State} (books : Books s) {fd : Nat} {stage new : Stage}
    (here : s.pc = .serve fd stage) (pc : next.pc = .serve fd new)
    (open_ : stage ≠ .deleting ∧ stage ≠ .closing) (stays : new ≠ .deleting)
    (serverFd : next.serverFd = s.serverFd) (table : next.table = s.table)
    (backlog : next.backlog = s.backlog) (connected : next.connected = s.connected)
    (interest : next.epoll.interest = s.epoll.interest) (batch : next.batch = s.batch)
    (source : next.source = s.source) (finished : next.finished = s.finished)
    : Books next where
  wired := books.wired.of_eq serverFd table backlog connected
  registered := books.registered.of_eq serverFd table interest (by simp [here, pc, Pc.newFd?])
  batched := books.batched.stage here open_.1 batch interest table source pc stays
  finished := books.finished.of_eq (by simp [here, open_.2]) finished connected backlog table

/-- A step of the clients, which the descriptors do not see. -/
theorem Books.clients {s next : State} (books : Books s) (pc : next.pc = s.pc)
    (serverFd : next.serverFd = s.serverFd) (table : next.table = s.table)
    (interest : next.epoll.interest = s.epoll.interest) (batch : next.batch = s.batch)
    (source : next.source = s.source) (finished : next.finished = s.finished)
    (wired : Wired next) (connected : s.connected ≤ next.connected)
    (backlog : ∀ c ∈ next.backlog, c ∈ s.backlog ∨ s.connected ≤ c)
    : Books next where
  wired := wired
  registered := books.registered.of_eq serverFd table interest (by rw [pc])
  batched := books.batched.of_eq batch interest table source pc
  finished := books.finished.of_pc pc finished connected backlog table

/-- A step that moves `main` between events, all else unchanged. -/
theorem Books.idle {s next : State} (books : Books s)
    (elsewhere : ∀ fd, s.pc ≠ .serve fd .closing ∧ s.pc ≠ .closeRejected fd)
    (idle : ∀ fd stage, next.pc ≠ .serve fd stage)
    (serverFd : next.serverFd = s.serverFd) (table : next.table = s.table)
    (backlog : next.backlog = s.backlog) (connected : next.connected = s.connected)
    (interest : next.epoll.interest = s.epoll.interest) (batch : next.batch = s.batch)
    (finished : next.finished = s.finished) (newFd : next.pc.newFd? = s.pc.newFd?)
    : Books next where
  wired := books.wired.of_eq serverFd table backlog connected
  registered := books.registered.of_eq serverFd table interest newFd
  batched := books.batched.idle batch (fun _ _ _ listed _ => interest ▸ listed) idle
  finished := books.finished.of_eq elsewhere finished connected backlog table

/-- The events of a batch that leaves its first event are still in order. -/
theorem Batched.tail {s : State} (batched : Batched s) {event : Event} {rest : List Event}
    (first : s.batch = event :: rest)
    : (∀ other ∈ rest,
          ∃ entry ∈ s.epoll.interest, entry.data = other.data ∧ entry.file = other.source)
      ∧ (rest.map (·.data)).Nodup
      ∧ ∀ other ∈ rest, other.data ≠ event.data := by
  have apart := batched.apart
  rw [first, List.map_cons, List.nodup_cons] at apart
  refine ⟨fun other member => batched.events other ?_, apart.2, fun other member same => ?_⟩
  · rw [first]
    exact List.mem_cons_of_mem event member
  · exact apart.1 (List.mem_map.mpr ⟨other, member, same⟩)

/-- An event that is not the listening socket's names an open client connection. -/
theorem Books.event_client {s : State} (books : Books s) {event : Event}
    (member : event ∈ s.batch) (other : event.data ≠ s.serverFd)
    : ∃ c, s.table.lookup event.data = some (.client c) ∧ event.source = .client c := by
  obtain ⟨entry, listed, data, file⟩ := books.batched.events event member
  obtain ⟨found, own, shape⟩ := books.registered.wellFormed entry listed
  rcases shape with rfl | ⟨_, c, client⟩
  · exact absurd data.symm other
  · exact ⟨c, by rw [← data, own, found, client], by rw [← file, client]⟩

theorem Books.connect {s : State} (books : Books s) : Books (connect s) := by
  refine books.clients rfl rfl rfl rfl rfl rfl rfl books.wired.connect (Nat.le_succ _) ?_
  intro c member
  rcases List.mem_append.mp member with old | new
  · exact Or.inl old
  · exact Or.inr (Nat.le_of_eq (List.mem_singleton.mp new).symm)

theorem Books.deliver {s : State} (books : Books s) (c : Nat) (connection : Connection)
    : Books (deliver s c connection) :=
  books.clients rfl rfl rfl rfl rfl rfl rfl (books.wired.of_eq rfl rfl rfl rfl)
    (Nat.le_refl _) fun _ => Or.inl

/-- Every step keeps the books. -/
theorem Books.move {s next : State} {action : Action} (books : Books s)
    (taken : Move s action next)
    : Books next := by
  cases taken with
  | connect => exact books.connect
  | arrive _ _ | endStream _ | resetPeer _ _ => exact books.deliver _ _
  | @epollWait files here used distinct some few ready =>
      refine ⟨books.wired.of_eq rfl rfl rfl rfl, books.registered.of_eq rfl rfl rfl rfl, ?_,
        books.finished.of_eq (by simp [here]) rfl rfl rfl rfl⟩
      constructor
      · intro event member
        obtain ⟨entry, reported, rfl⟩ := List.mem_map.mp member
        exact ⟨entry, (State.mem_entries reported).1, rfl, rfl⟩
      · rw [List.map_map]
        exact books.registered.entries_nodup distinct
      · simp [here]
      · simp [here]
      · simp [here]
  | epollWaitFails here used =>
      exact books.idle (by simp [here]) (by simp) rfl rfl rfl rfl rfl rfl rfl
        (by simp [here, Pc.newFd?])
  | @nextListening event rest here first mine =>
      obtain ⟨events, apart, _⟩ := books.batched.tail first
      refine ⟨books.wired.of_eq rfl rfl rfl rfl,
        books.registered.of_eq rfl rfl rfl (by simp [here, Pc.newFd?]), ?_,
        books.finished.of_eq (by simp [here]) rfl rfl rfl rfl⟩
      exact ⟨events, apart, by simp, by simp, by simp⟩
  | @nextClient event rest here first other =>
      obtain ⟨events, apart, others⟩ := books.batched.tail first
      have target := books.event_client (first ▸ List.mem_cons_self) other
      refine ⟨books.wired.of_eq rfl rfl rfl rfl,
        books.registered.of_eq rfl rfl rfl (by simp [here, Pc.newFd?]), ?_,
        books.finished.of_eq (by simp [here]) rfl rfl rfl rfl⟩
      refine ⟨events, apart, ?_, ?_, by simp⟩
      · intro fd stage there
        obtain ⟨rfl, _⟩ : event.data = fd ∧ Stage.recv = stage := by simpa using there
        exact others
      · intro fd stage there _
        obtain ⟨rfl, _⟩ : event.data = fd ∧ Stage.recv = stage := by simpa using there
        exact target
  | @acceptClient c rest here waiting =>
      refine ⟨books.wired.allocate waiting rfl rfl rfl rfl,
        books.registered.allocate (by simp [here, Pc.newFd?]) rfl rfl rfl rfl,
        books.batched.idle rfl (fun _ _ _ listed _ => listed) (by simp), ?_⟩
      intro c' member
      obtain ⟨bound, fresh, _⟩ := books.finished c' member
      refine ⟨bound, fun later => fresh (waiting ▸ List.mem_cons_of_mem c later), ?_⟩
      intro fd open_
      exfalso
      rw [Table.lookup_allocate] at open_
      split at open_
      next =>
        obtain rfl : c = c' := by simpa using open_
        exact fresh (by simp [waiting])
      next => exact books.finished.closed (by simp [here]) member fd open_
  | acceptFails here =>
      exact books.idle (by simp [here]) (by simp) rfl rfl rfl rfl rfl rfl rfl
        (by simp [here, Pc.newFd?])
  | setNonblock here found =>
      exact books.idle (by simp [here]) (by simp) rfl rfl rfl rfl rfl rfl rfl
        (by simp [here, Pc.newFd?])
  | registerClient here found =>
      refine ⟨books.wired.of_eq rfl rfl rfl rfl,
        books.registered.add (by simp [here, Pc.newFd?]) found rfl rfl rfl rfl,
        books.batched.idle rfl (fun _ _ _ listed _ => ?_) (by simp),
        books.finished.of_eq (by simp [here]) rfl rfl rfl rfl⟩
      exact (EpollInstance.mem_add_interest _).mpr (Or.inl listed)
  | registerFails here =>
      refine ⟨books.wired.of_eq rfl rfl rfl rfl,
        books.registered.of_eq rfl rfl rfl (by simp [here, Pc.newFd?]),
        books.batched.idle rfl (fun _ _ _ listed _ => listed) (by simp), ?_⟩
      exact books.finished.finish books.wired (by simp [here]) rfl rfl rfl rfl (Or.inr rfl)
  | @closeRejected fd here =>
      have new : s.pc.newFd? = some fd := by simp [here, Pc.newFd?]
      obtain ⟨⟨c, found⟩, unlisted⟩ := books.registered.fresh new
      refine ⟨books.wired.close found rfl rfl rfl rfl,
        books.registered.close found rfl rfl rfl rfl (by simp [here, Pc.newFd?]),
        books.batched.idle rfl (fun _ _ entry listed _ => ?_) (by simp),
        books.finished.close (Or.inr here) rfl rfl rfl rfl⟩
      exact (EpollInstance.mem_remove_interest _).mpr ⟨listed, unlisted entry listed⟩
  | recvData here _ _ _ _ | printChunk here | sendChunk here _ _ _ _ | sendRefused here _ _ =>
      exact books.stage here rfl (by simp) (by simp) rfl rfl rfl rfl rfl rfl rfl rfl
  | recvEnd here _ _ _ | recvError here =>
      refine ⟨books.wired.of_eq rfl rfl rfl rfl,
        books.registered.of_eq rfl rfl rfl (by simp [here, Pc.newFd?]),
        books.batched.stage here (by simp) rfl rfl rfl rfl rfl (by simp), ?_⟩
      exact books.finished.finish books.wired (by simp [here]) rfl rfl rfl rfl (Or.inl rfl)
  | recvAgain here _ _ _ | sendKills here _ _ | deleteClosed here _ =>
      exact books.idle (by simp [here]) (by simp) rfl rfl rfl rfl rfl rfl rfl
        (by simp [here, Pc.newFd?])
  | @closeClient fd here =>
      obtain ⟨c, found, _⟩ := books.batched.target here (by simp)
      refine ⟨books.wired.close found rfl rfl rfl rfl,
        books.registered.close found rfl rfl rfl rfl (by simp [here, Pc.newFd?]), ?_,
        books.finished.close (Or.inl here) rfl rfl rfl rfl⟩
      constructor
      · intro event member
        obtain ⟨entry, listed, data, file⟩ := books.batched.events event member
        refine ⟨entry, (EpollInstance.mem_remove_interest _).mpr ⟨listed, ?_⟩, data, file⟩
        rw [← (books.registered.wellFormed entry listed).2.1, data]
        exact books.batched.others here event member
      · exact books.batched.apart
      · intro fd' stage there
        obtain ⟨rfl, _⟩ : fd = fd' ∧ Stage.deleting = stage := by simpa using there
        exact books.batched.others here
      · intro fd' stage there open_
        obtain ⟨_, same⟩ : fd = fd' ∧ Stage.deleting = stage := by simpa using there
        exact absurd same.symm open_
      · intro fd' there
        obtain rfl : fd = fd' := by simpa using there
        simp [State.closeFd]
  | deleteOpen here used => exact absurd (books.batched.closed here) used

/-- A server that has just started has no client to account for. -/
theorem Started.books {s : State} (started : Started s) : Books s := by
  have entry : s.epoll.interest = [s.listeningEntry] := by
    rw [started.interest, State.listeningEntry]
  refine ⟨⟨started.server, ?_, ?_, ?_⟩, ⟨?_, ?_, ?_, ?_, ?_⟩, ⟨?_, ?_, ?_, ?_, ?_⟩, ?_⟩
  · exact fun found => absurd found (started.no_clients _ _)
  · exact fun found => absurd found (started.no_clients _ _)
  · simp [started.backlog]
  · simp [entry]
  · simp only [entry, List.mem_singleton]
    intro _ same
    subst same
    exact ⟨(started.server s.serverFd).mpr rfl, rfl, Or.inl rfl⟩
  · simp [entry]
  · exact fun found => absurd found (started.no_clients _ _)
  · simp [started.pc, Pc.newFd?]
  · simp [started.batch]
  · simp [started.batch]
  · simp [started.pc]
  · simp [started.pc]
  · simp [started.pc]
  · simp [Finished, started.finished]

/-- The books are kept in every reachable state. -/
theorem books_of_reachable {s : State} (reached : system.Reachable s) : Books s := by
  apply reached.invariant
  · exact fun _ started => started.books
  · intro s action next books taken
    exact books.move (.of_step taken)

-----------------------------------------------------------------------------------------
-- The descriptor bookkeeping of the server
-----------------------------------------------------------------------------------------

/-- Whenever the server is at `epoll_wait`, the interest list is exactly the listening socket
plus the open client descriptors and no connection it is done with is open. At all times an
event waiting in the batch, or being handled, names the file it was generated for, and
`EPOLL_CTL_DEL` is only ever called on a closed number.
-/
theorem descriptorBookkeeping {s : State} (reached : system.Reachable s)
    : (s.pc = .loop
        → s.batch = []
        → (∀ fd,
            (∃ entry ∈ s.epoll.interest, entry.fd = fd)
            ↔ fd = s.serverFd ∨ ∃ c, s.table.lookup fd = some (.client c))
          ∧ (s.epoll.interest.map (·.fd)).Nodup
          ∧ (∀ entry ∈ s.epoll.interest, s.table.lookup entry.fd = some entry.file)
          ∧ ∀ c ∈ s.finished, ∀ fd, s.table.lookup fd ≠ some (.client c))
      ∧ (∀ event ∈ s.batch, s.table.lookup event.data = some event.source)
      ∧ (∀ fd stage,
          s.pc = .serve fd stage
          → stage ≠ .deleting
          → s.table.lookup fd = some s.source)
      ∧ ∀ fd, s.pc = .serve fd .deleting → s.table.lookup fd = none := by
  have books := books_of_reachable reached
  have registered := books.registered
  refine ⟨fun here _ => ⟨fun fd => ⟨?_, ?_⟩, registered.apart, ?_, ?_⟩, ?_, ?_, ?_⟩
  · intro registered
    obtain ⟨entry, listed, rfl⟩ := registered
    obtain ⟨found, _, rfl | ⟨_, c, client⟩⟩ := registered.wellFormed entry listed
    · exact Or.inl rfl
    · exact Or.inr ⟨c, client ▸ found⟩
  · intro either
    rcases either with rfl | ⟨c, found⟩
    · exact ⟨_, registered.listens, rfl⟩
    · refine (registered.complete found).resolve_right ?_
      simp [here, Pc.newFd?]
  · exact fun entry listed => (registered.wellFormed entry listed).1
  · exact fun c member fd => books.finished.closed (by simp [here]) member fd
  · intro event member
    obtain ⟨entry, listed, data, file⟩ := books.batched.events event member
    obtain ⟨found, own, _⟩ := registered.wellFormed entry listed
    rw [← data, own, found, file]
  · intro fd stage here open_
    obtain ⟨c, found, source⟩ := books.batched.target here open_
    rw [found, source]
  · exact fun fd here => books.batched.closed here

/-- One client connects, is accepted and registered, sends a byte and leaves. -/
def oneClient : List Action :=
  [.connect, .epollWait [.listening], .nextEvent, .acceptClient, .setNonblock,
    .registerClient, .arrive 0 [104], .endStream 0, .epollWait [.client 0], .nextEvent,
    .recvData 1, .printChunk, .sendChunk 1, .recvEnd, .closeClient, .deleteClient]

theorem start_started : Started start where
  server fd := by
    rcases fd with _ | _ | _ | _ | _ | fd <;> simp [start, Table.lookup]
  instance_open := rfl
  no_clients fd c := by
    rcases fd with _ | _ | _ | _ | _ | fd <;> simp [start, Table.lookup]
  interest := rfl
  pc := rfl
  batch := rfl
  backlog := rfl
  connected := rfl
  connections _ := rfl
  buf := List.length_replicate
  finished := rfl
  printed := rfl

/-- After one whole conversation only the listening socket is registered again. -/
theorem descriptorBookkeeping_oneClient
    : ∃ s : State, s.pc = .loop ∧ s.finished = [0]
        ∧ ∀ fd, (∃ entry ∈ s.epoll.interest, entry.fd = fd)
            ↔ fd = s.serverFd ∨ ∃ c, s.table.lookup fd = some (.client c) := by
  have run : (system.exec start oneClient).isSome := by decide
  have reached : system.Reachable _ := System.reachable_of_run start start_started oneClient run
  exact ⟨_, rfl, rfl, ((descriptorBookkeeping reached).1 rfl rfl).1⟩

end LinuxStudy.EpollTest
