import LinuxStudy.EpollTest.View
import LinuxStudy.EpollTest.WakeUps
import LinuxStudy.Transition.Views

/-! The event loop refines its view: every step of the program is a step of the view, and
every step of the view is one the program can take.
-/

namespace LinuxStudy.EpollTest

open Transition Posix

/-- The books are kept, an event in work belongs to a client, and no event is queued for a
number that is not registered.
-/
structure Tracked (s : State) : Prop where
  books : Books s
  client : ∀ {fd stage}, s.pc = .serve fd stage → ∃ c, s.source = .client c
  queued : ∀ fd ∈ s.epoll.queued, ∃ entry ∈ s.epoll.interest, entry.fd = fd

/-- Steps that stay at their event, or leave it, and queue nothing. -/
theorem Tracked.of_eq {s next : State} (tracked : Tracked s) (books : Books next)
    (source : next.source = s.source)
    (serving : ∀ fd stage, next.pc = .serve fd stage → ∃ before, s.pc = .serve fd before)
    (interest : next.epoll.interest = s.epoll.interest)
    (queued : ∀ fd ∈ next.epoll.queued, fd ∈ s.epoll.queued)
    : Tracked next where
  books := books
  client {fd stage} here := by
    obtain ⟨before, here⟩ := serving fd stage here
    rw [source]
    exact tracked.client here
  queued := by
    rw [interest]
    exact fun fd member => tracked.queued fd (queued fd member)

/-- Closing a descriptor forgets its entry and its event together. -/
theorem Tracked.close {s next : State} (tracked : Tracked s) {fd : Nat} (books : Books next)
    (source : next.source = s.source)
    (serving : ∀ fd stage, next.pc = .serve fd stage → ∃ before, s.pc = .serve fd before)
    (epoll : next.epoll = s.epoll.remove fd)
    : Tracked next where
  books := books
  client {fd stage} here := by
    obtain ⟨before, here⟩ := serving fd stage here
    rw [source]
    exact tracked.client here
  queued other member := by
    rw [epoll, EpollInstance.mem_remove_queued] at member
    obtain ⟨entry, listed, same⟩ := tracked.queued other member.1
    refine ⟨entry, ?_, same⟩
    rw [epoll, EpollInstance.mem_remove_interest, same]
    exact ⟨listed, member.2⟩

/-- The network queues events for registered numbers only. -/
theorem Tracked.deliver {s : State} (tracked : Tracked s) (c : Nat) (connection : Connection)
    : Tracked (deliver s c connection) where
  books := tracked.books.deliver c connection
  client := tracked.client
  queued fd member := by
    rcases (EpollInstance.mem_notify_queued _).mp member with old | ⟨entry, listed, _, _, same⟩
    · exact tracked.queued fd old
    · exact ⟨entry, listed, same⟩

theorem Tracked.move {s next : State} {action : Action} (tracked : Tracked s)
    (taken : Move s action next)
    : Tracked next := by
  have books := tracked.books.move taken
  cases taken with
  | connect => exact tracked.of_eq books rfl (fun _ stage here => ⟨stage, here⟩) rfl fun _ => id
  | arrive _ _ | endStream _ | resetPeer _ _ => exact tracked.deliver _ _
  | epollWait _ _ _ _ _ _ =>
      refine tracked.of_eq books rfl (fun _ stage here => ⟨stage, here⟩) rfl fun fd member => ?_
      exact ((EpollInstance.mem_deliver_queued _).mp member).1
  | nextClient here first other =>
      refine ⟨books, fun _ => ?_, tracked.queued⟩
      obtain ⟨c, _, source⟩ := tracked.books.event_client (first ▸ List.mem_cons_self) other
      exact ⟨c, source⟩
  | nextListening _ _ _ => exact ⟨books, by simp, tracked.queued⟩
  | @registerClient fd c _ _ =>
      refine ⟨books, by simp, fun other member => ?_⟩
      simp only [EpollInstance.mem_add_interest]
      rcases (EpollInstance.mem_add_queued _).mp member with old | ⟨_, _, new⟩
      · obtain ⟨entry, listed, same⟩ := tracked.queued other old
        exact ⟨entry, Or.inl listed, same⟩
      · exact ⟨_, Or.inr rfl, new.symm⟩
  | closeRejected _ => exact tracked.close books rfl (by simp) rfl
  | closeClient here =>
      refine tracked.close books rfl (fun other stage there => ?_) rfl
      obtain ⟨rfl, _⟩ := Pc.serve.inj there
      exact ⟨_, here⟩
  | deleteOpen _ _ => exact tracked.close books rfl (by simp) rfl
  | recvData here _ _ _ _ | recvEnd here _ _ _ | recvError here | printChunk here
  | sendChunk here _ _ _ _ | sendRefused here _ _ =>
      refine tracked.of_eq books rfl (fun other stage there => ?_) rfl fun _ => id
      obtain ⟨rfl, _⟩ := Pc.serve.inj there
      exact ⟨_, here⟩
  | epollWaitFails _ _ | acceptClient _ _ | acceptFails _ | setNonblock _ _ | registerFails _
  | recvAgain _ _ _ | sendKills _ _ _ | deleteClosed _ _ =>
      exact tracked.of_eq books rfl (by simp) rfl fun _ => id

theorem Started.tracked {s : State} (started : Started s) : Tracked s where
  books := started.books
  client := by simp [started.pc]
  queued := by simp [started.interest]

theorem tracked_of_reachable {s : State} (reached : system.Reachable s) : Tracked s := by
  apply reached.invariant
  · exact fun _ started => started.tracked
  · exact fun _ _ _ tracked taken => tracked.move (.of_step taken)

section Places
variable {s : State} {fd c : Nat}

theorem State.place_loop (here : s.pc = .loop) : s.view.place = .loop := by
  simp [State.view, State.place, here]

theorem State.place_accept (here : s.pc = .accept) : s.view.place = .accept := by
  simp [State.view, State.place, here]

theorem State.place_serve {stage : Stage} (here : s.pc = .serve fd stage)
    (source : s.source = .client c)
    : s.view.place = .serve c stage := by
  simp [State.view, State.place, here, source]

variable (found : s.table.lookup fd = some (.client c))
include found

theorem State.placeAt_eq (place : Nat → Place) : s.placeAt fd place = place c := by
  simp [State.placeAt, State.connection?_eq_some.mpr found]

theorem State.place_setNonblock (here : s.pc = .setNonblock fd)
    : s.view.place = .setNonblock c := by
  simp [State.view, State.place, here, State.placeAt_eq found]

theorem State.place_register (here : s.pc = .register fd) : s.view.place = .register c := by
  simp [State.view, State.place, here, State.placeAt_eq found]

theorem State.place_closeRejected (here : s.pc = .closeRejected fd)
    : s.view.place = .closeRejected c := by
  simp [State.view, State.place, here, State.placeAt_eq found]

end Places

/-- The event in work was generated for the connection behind the descriptor. -/
theorem Books.source {s : State} (books : Books s) {fd c : Nat} {stage : Stage}
    (here : s.pc = .serve fd stage) (open_ : stage ≠ .deleting)
    (found : s.table.lookup fd = some (.client c))
    : s.source = .client c := by
  obtain ⟨c', found', source⟩ := books.batched.target here open_
  rw [found] at found'
  simpa [source] using found'.symm

-----------------------------------------------------------------------------------------
-- Registered connections and their events
-----------------------------------------------------------------------------------------

/-- A connection has one entry at most. -/
theorem Books.entry_eq {s : State} (books : Books s) {entry other : Registration File}
    (listed : entry ∈ s.epoll.interest) (also : other ∈ s.epoll.interest)
    (same : entry.file = other.file)
    : entry = other := by
  refine List.inj_on_of_nodup_map books.registered.apart listed also ?_
  obtain ⟨found, _, shape⟩ := books.registered.wellFormed entry listed
  obtain ⟨found', _, _⟩ := books.registered.wellFormed other also
  rcases shape with rfl | ⟨_, c, client⟩
  · rw [← same] at found'
    exact ((books.wired.server _).mp found').symm
  · rw [← same, client] at found'
    exact books.wired.unique (client ▸ found) found'

/-- An entry is known by its descriptor as well. -/
theorem Books.entry_eq_of_fd {s : State} (books : Books s) {entry other : Registration File}
    (listed : entry ∈ s.epoll.interest) (also : other ∈ s.epoll.interest)
    (same : entry.fd = other.fd)
    : entry = other :=
  List.inj_on_of_nodup_map books.registered.apart listed also same

/-- Under the entry of a connection, its event is found by number. -/
theorem Books.mem_queued {s : State} (books : Books s) {entry : Registration File}
    (listed : entry ∈ s.epoll.interest) {c : Nat} (client : entry.file = .client c)
    : c ∈ s.queued ↔ entry.fd ∈ s.epoll.queued := by
  constructor
  · intro found
    obtain ⟨other, also, same, queued⟩ := found
    rwa [books.entry_eq listed also (client.trans same.symm)]
  · exact fun queued => ⟨entry, listed, client, queued⟩

/-- What the network changes shows in the view. -/
theorem Books.view_deliver {s : State} (books : Books s) (c : Nat) (connection : Connection)
    : (EpollTest.deliver s c connection).view = s.view.deliver c connection := by
  have queued : (EpollTest.deliver s c connection).queued
      = {other | other ∈ s.queued ∨ other = c ∧ c ∈ s.listed} := by
    ext other
    constructor
    · intro registered
      obtain ⟨entry, listed, client, member⟩ := registered
      rcases (EpollInstance.mem_notify_queued _).mp member with old | ⟨hit, also, _, mine, same⟩
      · exact Or.inl ⟨entry, listed, client, old⟩
      · obtain rfl := books.entry_eq_of_fd listed also same.symm
        obtain rfl : other = c := File.client.inj (client.symm.trans mine)
        exact Or.inr ⟨rfl, entry, listed, client⟩
    · intro either
      rcases either with ⟨entry, listed, client, old⟩ | ⟨rfl, entry, listed, client⟩
      · exact ⟨entry, listed, client, (EpollInstance.mem_notify_queued _).mpr (Or.inl old)⟩
      · exact ⟨entry, listed, client, (EpollInstance.mem_notify_queued _).mpr
          (Or.inr ⟨entry, listed, (books.entry_client listed client).2.1, client, rfl⟩)⟩
  simp only [State.view, View.deliver, queued]
  rfl

/-- The files of the interest list, as the view has them. -/
theorem Books.watches {s : State} (books : Books s) (file : File)
    : s.view.watches file ↔ ∃ entry ∈ s.epoll.interest, entry.file = file := by
  have client {entry : Registration File} (listed : entry ∈ s.epoll.interest)
      : entry.file = .listening ∨ ∃ c, entry.file = .client c := by
    obtain ⟨_, _, rfl | ⟨_, client⟩⟩ := books.registered.wellFormed entry listed
    · exact Or.inl rfl
    · exact Or.inr client
  cases file with
  | listening => simpa [View.watches] using ⟨_, books.registered.listens, rfl⟩
  | client c => exact Iff.rfl
  | standard | epoll =>
      refine ⟨False.elim, fun ⟨entry, listed, same⟩ => ?_⟩
      rcases client listed with other | ⟨c, other⟩ <;> simp [same] at other

/-- The entries of a list of files are those of its registered files. -/
theorem Books.map_entries {s : State} (books : Books s) (files : List File)
    : (s.entries files).map (·.file) = s.view.reported files := by
  induction files with
  | nil => rfl
  | cons file rest ih =>
      have found := books.watches file
      rw [View.reported] at ih ⊢
      cases entry : s.epoll.interest.find? fun entry => entry.file = file with
      | none =>
          have absent : ¬ s.view.watches file := by
            intro watches
            obtain ⟨entry', listed, same⟩ := found.mp watches
            exact absurd same (by simpa using List.find?_eq_none.mp entry entry' listed)
          rw [List.filter_cons_of_neg (by simpa using absent)]
          simpa only [State.entries, List.filterMap_cons, entry] using ih
      | some entry' =>
          have same : entry'.file = file := by simpa using List.find?_some entry
          have watches := found.mpr ⟨entry', List.mem_of_find?_eq_some entry, same⟩
          rw [List.filter_cons_of_pos (by simpa using watches)]
          simpa only [State.entries, List.filterMap_cons, entry, List.map_cons, same]
            using congrArg (file :: ·) ih

/-- An entry has something to report exactly when its file is ready. -/
theorem Books.reports {s : State} (books : Books s) {entry : Registration File}
    (listed : entry ∈ s.epoll.interest)
    : s.epoll.reports s.levelReady entry = true ↔ s.view.ready entry.file := by
  obtain ⟨_, _, rfl | ⟨edge, c, client⟩⟩ := books.registered.wellFormed entry listed
  · simp [EpollInstance.reports, State.listeningEntry, State.levelReady, View.ready, State.view]
  · simpa [EpollInstance.reports, edge, client, View.ready, State.view] using
      (books.mem_queued listed client).symm

-----------------------------------------------------------------------------------------
-- Every step is a step of the view
-----------------------------------------------------------------------------------------

/-- Without a chunk on its way nothing is held. -/
theorem State.held_none {s : State} (none : s.pc.chunk? = none) : s.view.held = fun _ => [] :=
  funext fun c => State.held_eq_nil none c

/-- Steps between points without a chunk hold nothing before and after. -/
theorem State.held_same {s next : State} (before : s.pc.chunk? = none)
    (after : next.pc.chunk? = none)
    : next.view.held = s.view.held :=
  (State.held_none after).trans (State.held_none before).symm

/-- What is held is held for the connection behind the served descriptor. -/
theorem State.held_eq_holding {s : State} {fd len c : Nat} {chunk : Bytes}
    (here : s.pc.chunk? = some (fd, len)) (found : s.table.lookup fd = some (.client c))
    (filled : s.buf.take len = chunk)
    : s.view.held = View.holding c chunk := by
  funext other
  refine (State.held_eq here other).trans ?_
  rw [found, filled, View.holding]
  by_cases mine : other = c
  · simp [mine]
  · simp [mine, Ne.symm mine]

/-- What is offered to `send` is what the server holds. -/
theorem State.offers_held {s : State} {fd len c : Nat} (here : s.pc = .serve fd (.echo len))
    (found : s.table.lookup fd = some (.client c)) (k : Nat)
    : (s.setConnection c ((s.connections c).accepts (s.buf.take len) k)).connections
      = Function.update s.view.connections c
          ((s.view.connections c).accepts (s.view.held c) k) := by
  have chunk : s.pc.chunk? = some (fd, len) := by simp [here, Pc.chunk?]
  have held : s.view.held c = s.buf.take len := by
    simp [State.held_eq_holding chunk found rfl, View.holding]
  rw [held]
  rfl

/-- After `accept` the new connection is open as well. -/
theorem State.opened_allocate {s next : State} {c : Nat}
    (table : next.table = s.table.allocate (.client c))
    : next.view.opened = insert c s.view.opened := by
  ext other
  simp only [State.view, State.opened, table, Set.mem_ofPred_eq, Set.mem_insert_iff]
  rw [Table.exists_lookup_allocate, File.client.injEq]

/-- After `close` its connection is open no more. -/
theorem Books.opened_close {s next : State} (books : Books s) {fd c : Nat}
    (found : s.table.lookup fd = some (.client c)) (table : next.table = s.table.close fd)
    : next.view.opened = s.view.opened \ {c} := by
  ext other
  simp only [State.view, State.opened, table, Set.mem_ofPred_eq, Set.mem_sdiff,
    Set.mem_singleton_iff]
  rw [Table.exists_lookup_close found fun _ again => books.wired.unique again found, ne_eq,
    File.client.injEq]

/-- The entries that are left after a descriptor's removal are those of the others. -/
theorem Books.entry_remove {s : State} (books : Books s) {fd c : Nat}
    (found : s.table.lookup fd = some (.client c)) {entry : Registration File} {other : Nat}
    (client : entry.file = .client other)
    : entry ∈ (s.epoll.remove fd).interest ↔ entry ∈ s.epoll.interest ∧ other ≠ c := by
  rw [EpollInstance.mem_remove_interest]
  refine and_congr_right fun listed => not_congr ?_
  have own := (books.entry_client listed client).1
  constructor
  · intro same
    subst same
    rw [found] at own
    simpa using own.symm
  · intro same
    subst same
    exact books.wired.unique own found

/-- Removing the descriptor of a connection takes it from the registered ones. -/
theorem Books.listed_remove {s next : State} (books : Books s) {fd c : Nat}
    (found : s.table.lookup fd = some (.client c)) (epoll : next.epoll = s.epoll.remove fd)
    : next.view.listed = s.view.listed \ {c} := by
  ext other
  constructor
  · intro registered
    obtain ⟨entry, listed, client⟩ := registered
    rw [epoll] at listed
    obtain ⟨listed, different⟩ := (books.entry_remove found client).mp listed
    exact ⟨⟨entry, listed, client⟩, different⟩
  · intro registered
    obtain ⟨⟨entry, listed, client⟩, different⟩ := registered
    refine ⟨entry, ?_, client⟩
    rw [epoll]
    exact (books.entry_remove found client).mpr ⟨listed, different⟩

/-- Its event is forgotten with it. -/
theorem Books.queued_remove {s next : State} (books : Books s) {fd c : Nat}
    (found : s.table.lookup fd = some (.client c)) (epoll : next.epoll = s.epoll.remove fd)
    : next.view.queued = s.view.queued \ {c} := by
  ext other
  constructor
  · intro registered
    obtain ⟨entry, listed, client, member⟩ := registered
    rw [epoll] at listed member
    obtain ⟨listed, different⟩ := (books.entry_remove found client).mp listed
    exact ⟨⟨entry, listed, client, ((EpollInstance.mem_remove_queued _).mp member).1⟩, different⟩
  · intro registered
    obtain ⟨⟨entry, listed, client, member⟩, different⟩ := registered
    have kept := (books.entry_remove found client).mpr ⟨listed, different⟩
    refine ⟨entry, ?_, client, ?_⟩ <;> rw [epoll]
    · exact kept
    · exact (EpollInstance.mem_remove_queued _).mpr
        ⟨member, ((EpollInstance.mem_remove_interest _).mp kept).2⟩

/-- Reported events are queued no longer. -/
theorem Books.queued_deliver {s next : State} (books : Books s) {files : List File}
    (epoll : next.epoll = s.epoll.deliver (s.entries files))
    : next.view.queued = {c | c ∈ s.view.queued ∧ .client c ∉ s.view.reported files} := by
  rw [← books.map_entries]
  ext c
  simp only [State.view, State.queued, epoll, EpollInstance.mem_deliver_queued, Set.mem_ofPred_eq,
    List.mem_map, not_exists, not_and, EpollInstance.deliver_interest]
  constructor
  · intro registered
    obtain ⟨entry, listed, client, member, unreported⟩ := registered
    refine ⟨⟨entry, listed, client, member⟩, fun other reported same => ?_⟩
    have equal := books.entry_eq (State.mem_entries reported).1 listed (same.trans client.symm)
    exact unreported other reported (congrArg _ equal)
  · intro registered
    obtain ⟨⟨entry, listed, client, member⟩, unreported⟩ := registered
    refine ⟨entry, listed, client, member, fun other reported same => ?_⟩
    have equal := books.entry_eq_of_fd (State.mem_entries reported).1 listed same
    exact unreported other reported (equal ▸ client)

/-- The new entry is the one of its connection, with an event if something can be read. -/
theorem Tracked.queued_add {s next : State} (tracked : Tracked s) {fd c : Nat} {readable : Bool}
    (new : s.pc.newFd? = some fd)
    (epoll : next.epoll = s.epoll.add ⟨fd, .client c, fd, true⟩ readable)
    : next.view.queued = {other | other ∈ s.view.queued ∨ other = c ∧ readable = true} := by
  have unlisted := (tracked.books.registered.fresh new).2
  ext other
  constructor
  · intro registered
    obtain ⟨entry, listed, client, member⟩ := registered
    rw [epoll, EpollInstance.mem_add_queued] at member
    rw [epoll, EpollInstance.mem_add_interest] at listed
    rcases listed with old | rfl
    · refine Or.inl ⟨entry, old, client, member.resolve_right fun again => ?_⟩
      exact unlisted entry old again.2.2
    · refine Or.inr ⟨(File.client.inj client).symm, ?_⟩
      rcases member with stale | now
      · obtain ⟨entry, listed, same⟩ := tracked.queued fd stale
        exact absurd same (unlisted entry listed)
      · exact now.2.1
  · intro either
    rcases either with ⟨entry, listed, client, member⟩ | ⟨rfl, reads⟩
    · refine ⟨entry, ?_, client, ?_⟩ <;> rw [epoll]
      · exact (EpollInstance.mem_add_interest _).mpr (Or.inl listed)
      · exact (EpollInstance.mem_add_queued _).mpr (Or.inl member)
    · refine ⟨⟨fd, .client other, fd, true⟩, ?_, rfl, ?_⟩ <;> rw [epoll]
      · exact (EpollInstance.mem_add_interest _).mpr (Or.inr rfl)
      · exact (EpollInstance.mem_add_queued _).mpr (Or.inr ⟨rfl, reads, rfl⟩)

theorem State.listed_add {s next : State} {fd c : Nat} {readable : Bool}
    (epoll : next.epoll = s.epoll.add ⟨fd, .client c, fd, true⟩ readable)
    : next.view.listed = insert c s.view.listed := by
  ext other
  simp only [State.view, State.listed, epoll, EpollInstance.mem_add_interest, Set.mem_ofPred_eq,
    Set.mem_insert_iff]
  constructor
  · intro registered
    rcases registered with ⟨entry, old | rfl, client⟩
    · exact Or.inr ⟨entry, old, client⟩
    · exact Or.inl (File.client.inj client).symm
  · intro either
    rcases either with rfl | ⟨entry, old, client⟩
    · exact ⟨_, Or.inr rfl, rfl⟩
    · exact ⟨entry, Or.inl old, client⟩

section Fresh
variable {s next : State} {fd : Nat} (tracked : Tracked s) (new : s.pc.newFd? = some fd)
  (epoll : next.epoll = s.epoll.remove fd)
include tracked new epoll

/-- A descriptor that was never registered leaves no entry behind. -/
theorem Tracked.interest_fresh (entry : Registration File)
    : entry ∈ next.epoll.interest ↔ entry ∈ s.epoll.interest := by
  rw [epoll, EpollInstance.mem_remove_interest]
  exact ⟨And.left, fun listed => ⟨listed, (tracked.books.registered.fresh new).2 entry listed⟩⟩

theorem Tracked.listed_fresh : next.view.listed = s.view.listed := by
  ext c
  simp only [State.view, State.listed, tracked.interest_fresh new epoll]

theorem Tracked.queued_fresh : next.view.queued = s.view.queued := by
  ext c
  simp only [State.view, State.queued, tracked.interest_fresh new epoll, Set.mem_ofPred_eq]
  constructor
  · intro registered
    obtain ⟨entry, listed, client, member⟩ := registered
    rw [epoll] at member
    exact ⟨entry, listed, client, ((EpollInstance.mem_remove_queued _).mp member).1⟩
  · intro registered
    obtain ⟨entry, listed, client, member⟩ := registered
    refine ⟨entry, listed, client, ?_⟩
    rw [epoll]
    exact (EpollInstance.mem_remove_queued _).mpr
      ⟨member, (tracked.books.registered.fresh new).2 entry listed⟩

end Fresh

/-- A step to an equal view. -/
theorem View.Move.of_eq {v w w' : View} {action : Action} (taken : View.Move v action w)
    (same : w' = w)
    : View.Move v action w' :=
  same ▸ taken

/-- Every step of the program is a step of its view. -/
theorem Tracked.view_move {s next : State} {action : Action} (tracked : Tracked s)
    (taken : Move s action next)
    : View.Move s.view action next.view := by
  have books := tracked.books
  cases taken with
  | connect => exact .connect
  | arrive streaming nonempty =>
      exact .of_eq (.arrive streaming nonempty) (books.view_deliver _ _)
  | endStream streaming => exact .of_eq (.endStream streaming) (books.view_deliver _ _)
  | resetPeer known whole => exact .of_eq (.resetPeer known whole) (books.view_deliver _ _)
  | @epollWait files here used distinct some few ready =>
      have files := books.map_entries files
      refine .of_eq (.epollWait (State.place_loop here)
        (by simp [State.view, used]) distinct ?_ ?_ ?_)
        (View.ext rfl ?_ rfl rfl rfl rfl rfl (books.queued_deliver rfl) rfl)
      · rw [← files]
        simpa using some
      · rw [← files, List.length_map]
        exact few
      · rw [← files]
        intro file member
        obtain ⟨entry, reported, rfl⟩ := List.mem_map.mp member
        exact (books.reports (State.mem_entries reported).1).mp (ready entry reported)
      · rw [← files]
        simp [State.view]
  | epollWaitFails here used =>
      exact .of_eq (.epollWaitFails (State.place_loop here)
        (by simp [State.view, used]))
        (View.ext rfl rfl rfl rfl rfl rfl rfl rfl
          (State.held_same (by simp [here, Pc.chunk?]) rfl))
  | nextListening here first mine =>
      have source := (books.listening_event (first ▸ List.mem_cons_self)).mpr mine
      exact .of_eq (.nextListening (State.place_loop here)
        (by simp [State.view, first, source]))
        (View.ext rfl rfl rfl rfl rfl rfl rfl rfl
          (State.held_same (by simp [here, Pc.chunk?]) rfl))
  | nextClient here first other =>
      obtain ⟨c, _, source⟩ := books.event_client (first ▸ List.mem_cons_self) other
      exact .of_eq (.nextClient (State.place_loop here)
        (by simp [State.view, first, source]))
        (View.ext (State.place_serve rfl source) rfl rfl rfl rfl rfl rfl rfl
          (State.held_same (by simp [here, Pc.chunk?]) rfl))
  | acceptClient here waiting =>
      exact .of_eq (.acceptClient (State.place_accept here) waiting)
        (View.ext (State.place_setNonblock (by simp) rfl) rfl rfl rfl rfl
          (State.opened_allocate rfl) rfl rfl (State.held_same (by simp [here, Pc.chunk?]) rfl))
  | acceptFails here =>
      exact .of_eq (.acceptFails (State.place_accept here))
        (View.ext rfl rfl rfl rfl rfl rfl rfl rfl
          (State.held_same (by simp [here, Pc.chunk?]) rfl))
  | setNonblock here found =>
      exact .of_eq (.setNonblock (State.place_setNonblock found here))
        (View.ext (State.place_register found rfl) rfl rfl rfl rfl rfl rfl rfl
          (State.held_same (by simp [here, Pc.chunk?]) rfl))
  | registerClient here found =>
      exact .of_eq
        (.registerClient (State.place_register found here))
        (View.ext rfl rfl rfl rfl rfl rfl (State.listed_add rfl)
          (tracked.queued_add (by simp [here, Pc.newFd?]) rfl)
          (State.held_same (by simp [here, Pc.chunk?]) rfl))
  | @registerFails fd here =>
      have new : s.pc.newFd? = some fd := by simp [here, Pc.newFd?]
      obtain ⟨⟨c, found⟩, _⟩ := books.registered.fresh new
      exact .of_eq
        (.registerFails (State.place_register found here))
        (View.ext (State.place_closeRejected found rfl) rfl rfl rfl rfl rfl rfl rfl
          (State.held_same (by simp [here, Pc.chunk?]) rfl))
  | @closeRejected fd here =>
      have new : s.pc.newFd? = some fd := by simp [here, Pc.newFd?]
      obtain ⟨⟨c, found⟩, _⟩ := books.registered.fresh new
      exact .of_eq
        (.closeRejected (State.place_closeRejected found here))
        (View.ext rfl rfl rfl rfl rfl (books.opened_close found rfl)
          (tracked.listed_fresh new rfl) (tracked.queued_fresh new rfl)
          (State.held_same (by simp [here, Pc.chunk?]) rfl))
  | @recvData fd c n here found positive available fits =>
      have source := books.source here (by simp) found
      have chunk : (overwrite s.buf ((s.connections c).unread.take n)).take n
          = (s.connections c).unread.take n := by
        have length : ((s.connections c).unread.take n).length = n := by simp [available]
        simpa only [length] using take_overwrite s.buf ((s.connections c).unread.take n)
      exact .of_eq (.recvData (State.place_serve here source) positive available fits)
        (View.ext (State.place_serve rfl source) rfl rfl rfl rfl rfl rfl rfl
          (State.held_eq_holding rfl found chunk))
  | recvEnd here found drained eof =>
      have source := books.source here (by simp) found
      exact .of_eq (.recvEnd (State.place_serve here source) drained eof)
        (View.ext (State.place_serve rfl source) rfl rfl rfl rfl rfl rfl rfl
          (State.held_same (by simp [here, Pc.chunk?]) rfl))
  | recvAgain here found idle nonblock =>
      have source := books.source here (by simp) found
      exact .of_eq (.recvAgain (State.place_serve here source) idle nonblock)
        (View.ext rfl rfl rfl rfl rfl rfl rfl rfl
          (State.held_same (by simp [here, Pc.chunk?]) rfl))
  | recvError here =>
      obtain ⟨c, source⟩ := tracked.client here
      exact .of_eq (.recvError (State.place_serve here source))
        (View.ext (State.place_serve rfl source) rfl rfl rfl rfl rfl rfl rfl
          (State.held_same (by simp [here, Pc.chunk?]) rfl))
  | @printChunk fd len here =>
      obtain ⟨c, found, source⟩ := books.batched.target here (by simp)
      have chunk : s.pc.chunk? = some (fd, len) := by simp [here, Pc.chunk?]
      refine .of_eq (.printChunk (State.place_serve here source))
        (View.ext (State.place_serve rfl source) rfl rfl rfl rfl rfl rfl rfl ?_)
      exact Eq.trans (State.held_eq_holding rfl found (by simp))
        (State.held_eq_holding chunk found rfl).symm
  | @sendChunk fd len c k here found part blocks whole =>
      have source := books.source here (by simp) found
      exact .of_eq (.sendChunk (State.place_serve here source) part blocks whole)
        (View.ext (State.place_serve rfl source) rfl rfl rfl (State.offers_held here found k) rfl
          rfl rfl (State.held_none rfl))
  | @sendRefused fd len c here found broken =>
      have source := books.source here (by simp) found
      exact .of_eq (.sendRefused (State.place_serve here source) broken)
        (View.ext (State.place_serve rfl source) rfl rfl rfl (State.offers_held here found 0) rfl
          rfl rfl (State.held_none rfl))
  | @sendKills fd len c here found broken =>
      have source := books.source here (by simp) found
      exact .of_eq (.sendKills (State.place_serve here source) broken)
        (View.ext rfl rfl rfl rfl (State.offers_held here found 0) rfl rfl rfl
          (State.held_none rfl))
  | closeClient here =>
      obtain ⟨c, found, source⟩ := books.batched.target here (by simp)
      exact .of_eq (.closeClient (State.place_serve here source))
        (View.ext (State.place_serve rfl source) rfl rfl rfl rfl (books.opened_close found rfl)
          (books.listed_remove found rfl) (books.queued_remove found rfl)
          (State.held_same (by simp [here, Pc.chunk?]) rfl))
  | deleteClosed here _ =>
      obtain ⟨c, source⟩ := tracked.client here
      exact .of_eq (.deleteClient (State.place_serve here source))
        (View.ext rfl rfl rfl rfl rfl rfl rfl rfl
          (State.held_same (by simp [here, Pc.chunk?]) rfl))
  | deleteOpen here used => exact absurd (books.batched.closed here) used

-----------------------------------------------------------------------------------------
-- Every step of the view is possible
-----------------------------------------------------------------------------------------

/-- The view of a state after a step is determined by the view before it. -/
theorem View.Move.unique {v w w' : View} {action : Action} (one : View.Move v action w)
    (two : View.Move v action w')
    : w = w' := by
  cases one <;> cases two <;> simp_all

/-- The program points behind a place. -/
inductive State.At (s : State) : Place → Prop
  | loop (here : s.pc = .loop) : State.At s .loop
  | accept (here : s.pc = .accept) : State.At s .accept
  | setNonblock {fd c} (here : s.pc = .setNonblock fd) (found : s.connection? fd = some c)
    : State.At s (.setNonblock c)
  | register {fd c} (here : s.pc = .register fd) (found : s.connection? fd = some c)
    : State.At s (.register c)
  | closeRejected {fd c} (here : s.pc = .closeRejected fd) : State.At s (.closeRejected c)
  | serve {fd c stage} (here : s.pc = .serve fd stage) (source : s.source = .client c)
    : State.At s (.serve c stage)
  | dead : State.At s .dead

theorem State.at_placeAt {s : State} {fd : Nat} {place : Nat → Place}
    (found : ∀ c, s.connection? fd = some c → s.At (place c))
    : s.At (s.placeAt fd place) := by
  unfold State.placeAt
  cases connection : s.connection? fd with
  | none => exact .dead
  | some c => exact found c connection

theorem State.at_place (s : State) : s.At s.view.place := by
  simp only [State.view, State.place]
  split
  next here => exact .loop here
  next here => exact .accept here
  next here => exact State.at_placeAt fun _ found => .setNonblock here found
  next here => exact State.at_placeAt fun _ found => .register here found
  next here => exact State.at_placeAt fun _ _ => .closeRejected here
  next here =>
    split
    next source => exact .serve here source
    next => exact .dead
  next => exact .dead

/-- While a connection is served, the descriptor of the event in work leads to it. -/
theorem Books.serving {s : State} (books : Books s) {c : Nat} {stage : Stage}
    (there : s.view.place = .serve c stage)
    : ∃ fd, s.pc = .serve fd stage ∧ (stage ≠ .deleting → s.connection? fd = some c) := by
  have at_ := s.at_place
  rw [there] at at_
  cases at_ with
  | @serve fd _ _ here source =>
      refine ⟨fd, here, fun open_ => ?_⟩
      obtain ⟨c', found, own⟩ := books.batched.target here open_
      obtain rfl : c' = c := File.client.inj (own.symm.trans source)
      exact State.connection?_eq_some.mpr found

/-- Whatever the view can do, the program can do. -/
theorem Tracked.enabled {s : State} {action : Action} {w : View} (tracked : Tracked s)
    (taken : View.Move s.view action w)
    : system.Enabled s action := by
  have books := tracked.books
  unfold System.Enabled
  have at_ := s.at_place
  cases taken with
  | connect => exact ⟨_, rfl⟩
  | arrive streaming nonempty => exact ⟨_, if_pos ⟨streaming, nonempty⟩⟩
  | endStream streaming => exact ⟨_, if_pos streaming⟩
  | resetPeer known whole => exact ⟨_, if_pos ⟨known, whole⟩⟩
  | @epollWait files here used distinct some few ready =>
      rw [here] at at_
      cases at_ with
      | loop here =>
      refine ⟨_, if_pos ⟨here, ?_, distinct, ?_, ?_, ?_⟩⟩
      · simpa [State.view] using used
      · rw [← books.map_entries] at some
        simpa using some
      · rwa [← books.map_entries, List.length_map] at few
      · intro entry reported
        refine (books.reports (State.mem_entries reported).1).mpr (ready _ ?_)
        rw [← books.map_entries]
        exact List.mem_map.mpr ⟨entry, reported, rfl⟩
  | epollWaitFails here used =>
      rw [here] at at_
      cases at_ with
      | loop here => exact ⟨_, if_pos ⟨here, by simpa [State.view] using used⟩⟩
  | nextListening here first | nextClient here first =>
      rw [here] at at_
      obtain ⟨event, rest, batch, _, _⟩ := List.map_eq_cons_iff.mp first
      cases at_ with
      | loop here => simp [system, step, EpollTest.nextEvent, here, batch]
  | acceptClient here waiting =>
      rw [here] at at_
      cases at_ with
      | accept here =>
        have waiting : s.backlog = _ := waiting
        simp [system, step, EpollTest.acceptClient, here, waiting]
  | acceptFails here =>
      rw [here] at at_
      cases at_ with
      | accept here => exact ⟨_, if_pos here⟩
  | setNonblock here =>
      rw [here] at at_
      cases at_ with
      | setNonblock here found => simp [system, step, EpollTest.setNonblock, here, found]
  | registerClient here =>
      rw [here] at at_
      cases at_ with
      | register here found => simp [system, step, EpollTest.registerClient, here, found]
  | registerFails here =>
      rw [here] at at_
      cases at_ with
      | register here found => simp [system, step, EpollTest.registerFails, here]
  | closeRejected here =>
      rw [here] at at_
      cases at_ with
      | closeRejected here => simp [system, step, EpollTest.closeRejected, here]
  | recvData here positive available fits =>
      obtain ⟨fd, here, found⟩ := books.serving here
      have available : _ ≤ (s.connections _).unread.length := available
      simp [system, step, EpollTest.recvData, here, found, positive, available, fits]
  | recvEnd here drained eof =>
      obtain ⟨fd, here, found⟩ := books.serving here
      have drained : (s.connections _).unread = [] := drained
      have eof : (s.connections _).eof = true := eof
      simp [system, step, EpollTest.recvEnd, here, found, drained, eof]
  | recvAgain here idle nonblock =>
      obtain ⟨fd, here, found⟩ := books.serving here
      have idle : (s.connections _).readable = false := idle
      have nonblock : (s.connections _).nonblock = true := nonblock
      simp [system, step, EpollTest.recvAgain, here, found, idle, nonblock]
  | recvError here =>
      obtain ⟨fd, here, _⟩ := books.serving here
      simp [system, step, EpollTest.recvError, here]
  | printChunk here =>
      obtain ⟨fd, here, _⟩ := books.serving here
      simp [system, step, EpollTest.printChunk, here]
  | @sendChunk c len k here part blocks whole =>
      obtain ⟨fd, here, found⟩ := books.serving here
      have whole : (s.connections c).reset = false := whole
      simp [system, step, EpollTest.sendChunk, here, found, part, whole]
      exact blocks
  | sendRefused here broken | sendKills here broken =>
      obtain ⟨fd, here, found⟩ := books.serving here
      have broken : (s.connections _).reset = true := broken
      simp [system, step, EpollTest.sendBroken, here, found, broken]
  | closeClient here =>
      obtain ⟨fd, here, _⟩ := books.serving here
      simp [system, step, EpollTest.closeClient, here]
  | deleteClient here =>
      obtain ⟨fd, here, _⟩ := books.serving here
      simp [system, step, EpollTest.deleteClient, here]

/-- The program and its view take the same steps: a step of the view from the view of a state
is the view of a step from that state.
-/
theorem Tracked.step_of_view {s : State} {action : Action} {w : View} (tracked : Tracked s)
    (taken : View.Move s.view action w)
    : ∃ next, system.step s action = some next ∧ next.view = w := by
  obtain ⟨next, possible⟩ := tracked.enabled taken
  exact ⟨next, possible, (tracked.view_move (.of_step possible)).unique taken⟩

/-- In every reachable state the view can do exactly what the program can do. -/
theorem view_move_iff {s : State} {action : Action} {w : View} (reached : system.Reachable s)
    : View.Move s.view action w
      ↔ ∃ next, system.step s action = some next ∧ next.view = w := by
  have tracked := tracked_of_reachable reached
  constructor
  · exact tracked.step_of_view
  · intro possible
    obtain ⟨next, taken, rfl⟩ := possible
    exact tracked.view_move (.of_step taken)

/-- The runs of the program, seen without its descriptor numbers, are the runs of its view:
whichever numbers the kernel has handed out, closed and handed out again.
-/
theorem view_runs_iff {s : State} {actions : List Action} {w : View} (started : Started s)
    : Moves View.Move s.view actions w
      ↔ ∃ final, system.exec s actions = some final ∧ final.view = w :=
  System.moves_iff (fun _ _ _ reached taken => System.Reachable.next reached taken)
    (fun _ _ _ reached => view_move_iff reached) (.initial started)

/-- A client that is served and leaves, as a run of the view. -/
theorem view_runs_iff_oneClient
    : ∃ w : View, Moves View.Move start.view oneClient w ∧ w.place = .loop ∧ w.connected = 1 := by
  have run : (system.exec start oneClient).isSome := by decide
  exact ⟨_, (view_runs_iff start_started).mpr ⟨_, (Option.some_get run).symm, rfl⟩, rfl, rfl⟩

end LinuxStudy.EpollTest
