import LinuxStudy.MultiConnThreadsServer.Steps
import Mathlib.Data.List.Nodup

/-! Which thread of `multi_conn_threads_server.c` serves which connection. Each thread gets its
own client as long as it reads the shared variable before the next `accept` stores into it.
-/

namespace LinuxStudy.MultiConnThreadsServer

open Transition Posix MultiConn

/-- The thread has read its argument and has not closed its descriptor yet. -/
def Thread.serving (thread : Thread) : Prop := thread.pc ≠ .start ∧ thread.pc ≠ .finished

/-- Threads and connections belong together as the accept loop intends: the thread created
after an `accept` serves that connection, no two threads serve the same one, every accepted
connection has its thread as soon as `main` is back at `accept`, and no thread closes the
descriptor another one is using.
-/
structure OneHandlerEach (s : State) : Prop where
  inOrder : s.threads.map (·.connection) <+: s.accepted
  right
    : ∀ thread ∈ s.threads,
        thread.serving → s.connection? thread.clientfd = some thread.connection
  apart
    : ∀ {i j c : Nat} {one two : Thread},
        s.threads[i]? = some one
        → s.threads[j]? = some two
        → one.serving
        → two.serving
        → s.connection? one.clientfd = some c
        → s.connection? two.clientfd = some c
        → i = j
  handled
    : s.main ≠ .dead
      → ∀ c ∈ s.accepted,
          (∃ thread ∈ s.threads, thread.connection = c)
          ∨ (s.main = .check ∨ s.main = .create) ∧ s.accepted.getLast? = some c
  ownClose
    : ∀ {i j : Nat} {one two : Thread},
        s.threads[i]? = some one
        → s.threads[j]? = some two
        → one.pc = .closing
        → two.serving
        → i ≠ j
        → one.clientfd ≠ two.clientfd

/-- Nobody calls `accept` while a created thread still has to read its argument, and
`pthread_create` succeeds.
-/
def ArgumentRead (s : State) : Action → Prop
  | .acceptClient | .acceptFails => ∀ thread ∈ s.threads, thread.pc ≠ .start
  | .createFails => False
  | _ => True

instance (s : State) (action : Action) : Decidable (ArgumentRead s action) := by
  unfold ArgumentRead
  split <;> infer_instance

-----------------------------------------------------------------------------------------
-- The invariant
-----------------------------------------------------------------------------------------

/-- The descriptor a thread uses, or will find when it reads its argument. -/
def State.descriptor (s : State) (thread : Thread) : Option Nat :=
  if thread.pc = .start then s.clientfd else thread.clientfd

/-- Nobody calls `accept` while a created thread still has to read its argument. -/
def ReadFirst (s : State) : Action → Prop
  | .acceptClient | .acceptFails => ∀ thread ∈ s.threads, thread.pc ≠ .start
  | _ => True

theorem ArgumentRead.readFirst {s : State} {action : Action} (inTime : ArgumentRead s action)
    : ReadFirst s action := by
  cases action with
  | acceptClient | acceptFails => exact inTime
  | _ => trivial

/-- What holds as long as every thread reads its argument in time: each thread owns the
descriptor of its connection, and no thread belongs to a connection still in the hands of
`main`.
-/
structure Handled (s : State) : Prop where
  once : (s.accepted ++ s.backlog).Nodup
  known : ∀ c ∈ s.accepted ++ s.backlog, c < s.connected
  inOrder : (s.threads.map (·.connection)).Sublist s.accepted
  owns
    : ∀ {i : Nat} {thread : Thread},
        s.threads[i]? = some thread
        → thread.pc ≠ .finished
        → s.connection? (s.descriptor thread) = some thread.connection
  pending
    : s.main = .check ∨ s.main = .create
      → (∀ thread ∈ s.threads, thread.pc ≠ .start)
        ∧ (s.main = .check ∧ s.clientfd = none
          ∨ ∃ earlier c,
              s.accepted = earlier ++ [c]
              ∧ (s.threads.map (·.connection)).Sublist earlier
              ∧ s.connection? s.clientfd = some c)

/-- No two threads belong to the same connection. -/
theorem Handled.same_thread {s : State} (handled : Handled s) {i j : Nat} {one two : Thread}
    (first : s.threads[i]? = some one) (second : s.threads[j]? = some two)
    (same : one.connection = two.connection)
    : i = j := by
  have distinct : (s.threads.map (·.connection)).Nodup :=
    (handled.once.sublist (List.sublist_append_left _ _)).sublist handled.inOrder
  have bound : i < (s.threads.map (·.connection)).length := by
    have inside := (List.getElem?_eq_some_iff.mp first).1
    simpa using inside
  refine (List.getElem?_inj bound distinct).mp ?_
  simp [first, second, same]

/-- The network and the queue leave threads and descriptors alone. -/
theorem Handled.of_eq {s next : State} (handled : Handled s) (main : next.main = s.main)
    (clientfd : next.clientfd = s.clientfd) (table : next.table = s.table)
    (threads : next.threads = s.threads) (accepted : next.accepted = s.accepted)
    (once : (next.accepted ++ next.backlog).Nodup)
    (known : ∀ c ∈ next.accepted ++ next.backlog, c < next.connected)
    : Handled next := by
  obtain ⟨_, _, inOrder, owns, pending⟩ := handled
  simp only [State.connection?, State.descriptor] at owns pending
  refine ⟨once, known, ?_, ?_, ?_⟩
  all_goals
    simp only [State.connection?, State.descriptor, main, clientfd, table, threads, accepted]
    assumption

/-- A call of one thread concerns its own record and its own descriptor only. -/
theorem Handled.thread {s next : State} (handled : Handled s) {i : Nat} {thread new : Thread}
    (found : s.threads[i]? = some thread) (threads : next.threads = s.threads.set i new)
    (same : new.connection = thread.connection) (begun : new.pc ≠ .start)
    (main : next.main = s.main) (clientfd : next.clientfd = s.clientfd)
    (accepted : next.accepted = s.accepted) (backlog : next.backlog = s.backlog)
    (connected : next.connected = s.connected)
    (own
      : new.pc ≠ .finished → next.connection? new.clientfd = some thread.connection)
    (others
      : ∀ clientfd c,
          s.connection? clientfd = some c
          → c ≠ thread.connection
          → next.connection? clientfd = some c)
    : Handled next := by
  have bound : i < s.threads.length := (List.getElem?_eq_some_iff.mp found).1
  have connections : next.threads.map (·.connection) = s.threads.map (·.connection) := by
    rw [threads]
    exact map_set_of_eq s.threads _ found same
  refine ⟨?_, ?_, ?_, ?_, ?_⟩
  · rw [accepted, backlog]
    exact handled.once
  · rw [accepted, backlog, connected]
    exact handled.known
  · rw [connections, accepted]
    exact handled.inOrder
  · intro j other there unfinished
    rw [threads, List.getElem?_set] at there
    split at there
    next mine =>
      obtain rfl : new = other := by simpa [← mine, bound] using there
      rw [State.descriptor, if_neg begun, same]
      exact own unfinished
    next different =>
      have before := handled.owns there unfinished
      have descriptor : next.descriptor other = s.descriptor other := by
        simp only [State.descriptor, clientfd]
      rw [descriptor]
      refine others _ _ before fun equal => different ?_
      exact (handled.same_thread there found equal).symm
  · rw [main, accepted, connections, clientfd]
    intro busy
    obtain ⟨allRead, inHand⟩ := handled.pending busy
    refine ⟨fun other member => ?_, inHand.imp_right ?_⟩
    · rw [threads] at member
      rcases List.mem_or_eq_of_mem_set member with old | rfl
      · exact allRead other old
      · exact begun
    · intro inHand
      obtain ⟨earlier, c, order, created, open_⟩ := inHand
      refine ⟨earlier, c, order, created, others _ _ open_ ?_⟩
      intro same
      subst same
      have once := handled.once.sublist (List.sublist_append_left _ _)
      rw [order, List.nodup_append] at once
      have member : thread.connection ∈ s.threads.map (·.connection) :=
        List.mem_map.mpr ⟨thread, List.mem_of_getElem? found, rfl⟩
      exact once.2.2 _ (created.subset member) _ (List.mem_singleton.mpr rfl) rfl

/-- Closing a descriptor leaves every other descriptor as it was. -/
theorem connection?_close {s next : State} {fd : Nat} (table : next.table = s.table.close fd)
    {own c : Nat} (mine : s.table.lookup fd = some (.client own)) {clientfd : Option Nat}
    (open_ : s.connection? clientfd = some c) (different : c ≠ own)
    : next.connection? clientfd = some c := by
  obtain ⟨other, rfl, found⟩ := State.connection?_eq_some.mp open_
  refine State.connection?_eq_some.mpr ⟨other, rfl, ?_⟩
  rw [table, Table.lookup_close, if_neg, found]
  intro same
  subst same
  rw [mine] at found
  exact different (by simpa using found.symm)

/-- Accepting a connection leaves every open descriptor as it was. -/
theorem connection?_allocate {s next : State} {file : File}
    (table : next.table = s.table.allocate file) {clientfd : Option Nat} {c : Nat}
    (open_ : s.connection? clientfd = some c)
    : next.connection? clientfd = some c := by
  obtain ⟨fd, rfl, found⟩ := State.connection?_eq_some.mp open_
  refine State.connection?_eq_some.mpr ⟨fd, rfl, ?_⟩
  rw [table, Table.lookup_allocate, if_neg (Table.ne_lowestFree found), found]

/-- A thread's own calls keep the invariant. -/
theorem Handled.call {s next : State} (handled : Handled s) {i : Nat} {thread : Thread}
    (found : s.threads[i]? = some thread) {call : Call}
    (taken : ThreadMove s i thread call next)
    : Handled next := by
  have mine (unfinished : thread.pc ≠ .finished) (begun : thread.pc ≠ .start)
      : s.connection? thread.clientfd = some thread.connection := by
    have owns := handled.owns found unfinished
    rwa [State.descriptor, if_neg begun] at owns
  cases taken with
  | readArgument here =>
      refine handled.thread found rfl rfl (by simp) rfl rfl rfl rfl rfl (fun _ => ?_)
        fun _ _ open_ _ => open_
      have owns := handled.owns found (by simp [here])
      rwa [State.descriptor, if_pos here] at owns
  | allocate here | allocateFails here | recvEnd here _ _ | recvError here =>
      exact handled.thread found rfl rfl (by simp) rfl rfl rfl rfl rfl
        (fun _ => mine (by simp [here]) (by simp [here])) fun _ _ open_ _ => open_
  | recvData here _ _ =>
      exact handled.thread found rfl rfl (by simp [Thread.stores]) rfl rfl rfl rfl rfl
        (fun _ => mine (by simp [here]) (by simp [here])) fun _ _ open_ _ => open_
  | sendReply here _ _ _ _ =>
      exact handled.thread found rfl rfl (by simp) rfl rfl rfl rfl rfl
        (fun _ => mine (by simp [here]) (by simp [here])) fun _ _ open_ _ => open_
  | sendFails _ _ =>
      exact ⟨handled.once, handled.known, handled.inOrder, handled.owns, by simp⟩
  | close here freed _ =>
      obtain ⟨fd, own, open_⟩ :=
        State.connection?_eq_some.mp (mine (by simp [here]) (by simp [here]))
      refine handled.thread found rfl rfl (by simp) rfl rfl rfl rfl rfl (by simp) ?_
      exact fun _ _ other different => connection?_close (freed fd own) open_ other different

-----------------------------------------------------------------------------------------
-- The steps of `main`
-----------------------------------------------------------------------------------------

/-- A new client joins the queue behind all earlier ones. -/
theorem Handled.connect {s : State} (handled : Handled s) : Handled (connect s) := by
  refine handled.of_eq rfl rfl rfl rfl rfl ?_ ?_
  · simpa only [MultiConnThreadsServer.connect, ← List.append_assoc]
      using nodup_arrival handled.once handled.known
  · simpa only [MultiConnThreadsServer.connect, ← List.append_assoc]
      using lt_of_mem_arrival handled.known

/-- `accept` stores a new descriptor that no thread is about to read. -/
theorem Handled.accept {s : State} (handled : Handled s) {c : Nat} {rest : List Nat}
    (waiting : s.backlog = c :: rest)
    (allRead : ∀ thread ∈ s.threads, thread.pc ≠ .start)
    : Handled
        { s with
          backlog := rest
          table := s.table.allocate (.client c)
          clientfd := some s.table.lowestFree
          accepted := s.accepted ++ [c]
          main := .check } := by
  refine ⟨?_, ?_, ?_, ?_, fun _ => ⟨allRead, Or.inr ⟨_, c, rfl, handled.inOrder, ?_⟩⟩⟩
  · simpa [waiting] using handled.once
  · simpa [waiting] using handled.known
  · exact handled.inOrder.trans (List.sublist_append_left _ _)
  · intro i thread found unfinished
    have owns := handled.owns found unfinished
    have begun := allRead thread (List.mem_of_getElem? found)
    rw [State.descriptor, if_neg begun] at owns ⊢
    exact connection?_allocate rfl owns
  · exact State.connection?_eq_some.mpr ⟨_, rfl, by simp⟩

/-- The created thread finds the descriptor of the connection accepted last. -/
theorem Handled.create {s : State} (handled : Handled s) {c : Nat} (here : s.main = .create)
    (last : s.accepted.getLast? = some c)
    : Handled { s with threads := s.threads ++ [{ connection := c }], main := .accept } := by
  obtain ⟨allRead, inHand⟩ := handled.pending (Or.inr here)
  obtain ⟨earlier, c', order, created, open_⟩ := inHand.resolve_left (by simp [here])
  obtain rfl : c' = c := by simpa [order] using last
  refine ⟨handled.once, handled.known, ?_, ?_, by simp⟩
  · simpa [order] using created.append_right [c']
  · intro i thread found unfinished
    rw [List.getElem?_append] at found
    split at found
    next => exact handled.owns found unfinished
    next =>
      obtain ⟨_, rfl⟩ := List.getElem?_eq_some_iff.mp found
      simp only [List.getElem_singleton]
      exact open_

/-- Every step that meets the condition keeps the invariant. -/
theorem Handled.move {s next : State} {action : Action} (handled : Handled s)
    (inTime : ReadFirst s action) (taken : Move s action next)
    : Handled next := by
  cases taken with
  | connect => exact handled.connect
  | arrive _ _ _ | endStream _ _ | resetPeer _ _ =>
      exact handled.of_eq rfl rfl rfl rfl rfl handled.once handled.known
  | acceptClient here waiting => exact handled.accept waiting inTime
  | acceptFails here =>
      refine ⟨handled.once, handled.known, handled.inOrder, ?_,
        fun _ => ⟨inTime, Or.inl ⟨rfl, rfl⟩⟩⟩
      intro i thread found unfinished
      have owns := handled.owns found unfinished
      have begun := inTime thread (List.mem_of_getElem? found)
      rwa [State.descriptor, if_neg begun] at owns ⊢
  | checkFailed _ _ | createFails _ =>
      exact ⟨handled.once, handled.known, handled.inOrder, handled.owns, by simp⟩
  | checkAccept here accepted =>
      obtain ⟨allRead, inHand⟩ := handled.pending (Or.inl here)
      exact ⟨handled.once, handled.known, handled.inOrder, handled.owns,
        fun _ => ⟨allRead, Or.inr (inHand.resolve_left fun failed => accepted failed.2)⟩⟩
  | createThread here last => exact handled.create here last
  | thread _ found call => exact handled.call found call

theorem Started.handled {s : State} (started : Started s) : Handled s := by
  refine ⟨?_, ?_, ?_, ?_, ?_⟩
  all_goals simp [started.accepted, started.backlog, started.threads, started.main]

-----------------------------------------------------------------------------------------
-- Every connection gets its thread
-----------------------------------------------------------------------------------------

/-- Threads are created in the order of `accept`, one for each connection; at most the last
connection still waits for its thread.
-/
structure Created (s : State) : Prop where
  inOrder : s.threads.map (·.connection) <+: s.accepted
  settled : s.main = .accept → s.accepted = s.threads.map (·.connection)
  pending
    : s.main = .check ∨ s.main = .create
      → s.main = .check ∧ s.clientfd = none ∧ s.accepted = s.threads.map (·.connection)
        ∨ ∃ c, s.accepted = s.threads.map (·.connection) ++ [c]

/-- Calls of a thread leave it its connection, and `main` where it is unless they end the
process.
-/
theorem ThreadMove.keeps {s next : State} {i : Nat} {thread : Thread} {call : Call}
    (found : s.threads[i]? = some thread) (taken : ThreadMove s i thread call next)
    : next.threads.map (·.connection) = s.threads.map (·.connection)
      ∧ next.accepted = s.accepted
      ∧ next.clientfd = s.clientfd
      ∧ (next.main = s.main ∨ next.main = .dead) := by
  cases taken with
  | sendFails _ _ => exact ⟨rfl, rfl, rfl, Or.inr rfl⟩
  | _ => exact ⟨map_set_of_eq s.threads _ found rfl, rfl, rfl, Or.inl rfl⟩

theorem Created.move {s next : State} {action : Action} (created : Created s)
    (inTime : ArgumentRead s action) (taken : Move s action next)
    : Created next := by
  obtain ⟨inOrder, settled, pending⟩ := created
  cases taken with
  | connect | arrive _ _ _ | endStream _ _ | resetPeer _ _ => exact ⟨inOrder, settled, pending⟩
  | @acceptClient c rest here waiting =>
      refine ⟨inOrder.trans (List.prefix_append _ _), by simp, fun _ => Or.inr ⟨c, ?_⟩⟩
      rw [settled here]
  | acceptFails here => exact ⟨inOrder, by simp, fun _ => Or.inl ⟨rfl, rfl, settled here⟩⟩
  | checkFailed _ _ => exact ⟨inOrder, by simp, by simp⟩
  | checkAccept here accepted =>
      refine ⟨inOrder, by simp, fun _ => Or.inr ?_⟩
      exact (pending (Or.inl here)).resolve_left fun failed => accepted failed.2.1
  | @createThread c here last =>
      obtain ⟨c', order⟩ := (pending (Or.inr here)).resolve_left (by simp [here])
      obtain rfl : c' = c := by simpa [order] using last
      exact ⟨by simp [order], by simp [order], by simp⟩
  | createFails _ => exact inTime.elim
  | thread _ found call =>
      obtain ⟨threads, accepted, clientfd, same | dead⟩ := call.keeps found
      · exact ⟨by rwa [threads, accepted], by rwa [same, threads, accepted],
          by rwa [same, threads, accepted, clientfd]⟩
      · exact ⟨by rwa [threads, accepted], by simp [dead], by simp [dead]⟩

theorem Started.created {s : State} (started : Started s) : Created s := by
  refine ⟨?_, ?_, ?_⟩
  all_goals simp [started.accepted, started.threads, started.main]

/-- Both hold in every run in which the threads read their argument in time. -/
theorem handled_of_reachableBy {s : State} (reached : system.ReachableBy ArgumentRead s)
    : Handled s ∧ Created s := by
  apply reached.invariant
  · exact fun _ started => ⟨started.handled, started.created⟩
  · intro s action next _ holds inTime taken
    exact ⟨holds.1.move inTime.readFirst (.of_step taken), holds.2.move inTime (.of_step taken)⟩

-----------------------------------------------------------------------------------------
-- Threads and connections
-----------------------------------------------------------------------------------------

/-- A serving thread uses the descriptor of its own connection. -/
theorem Handled.right {s : State} (handled : Handled s) {i : Nat} {thread : Thread}
    (found : s.threads[i]? = some thread) (serving : thread.serving)
    : s.connection? thread.clientfd = some thread.connection := by
  have owns := handled.owns found serving.2
  rwa [State.descriptor, if_neg serving.1] at owns

/-- In every run in which each thread reads its argument before the next `accept`, and is
created at all, every connection has its own handler.
-/
theorem oneHandlerEach {s : State} (reached : system.ReachableBy ArgumentRead s)
    : OneHandlerEach s := by
  obtain ⟨handled, created⟩ := handled_of_reachableBy reached
  refine ⟨created.inOrder, ?_, ?_, ?_, ?_⟩
  · intro thread member serving
    obtain ⟨i, found⟩ := List.mem_iff_getElem?.mp member
    exact handled.right found serving
  · intro i j c one two first second serving alsoServing mine others
    refine handled.same_thread first second ?_
    have same := (handled.right first serving).symm.trans mine
    have also := (handled.right second alsoServing).symm.trans others
    exact Option.some.inj (same.trans also.symm)
  · intro alive c member
    have thread (order : s.accepted = s.threads.map (·.connection))
        : ∃ thread ∈ s.threads, thread.connection = c :=
      List.mem_map.mp (order ▸ member)
    cases here : s.main with
    | dead => exact absurd here alive
    | accept => exact Or.inl (thread (created.settled here))
    | check | create =>
        obtain ⟨_, _, order⟩ | ⟨c', order⟩ := created.pending (by simp [here])
        · exact Or.inl (thread order)
        · rw [order] at member
          rcases List.mem_append.mp member with old | new
          · exact Or.inl (List.mem_map.mp old)
          · rw [List.mem_singleton.mp new, order]
            exact Or.inr ⟨by simp, by simp⟩
  · intro i j one two first second closing serving different same
    have mine := handled.right first ⟨by simp [closing], by simp [closing]⟩
    have others := handled.right second serving
    rw [same, others] at mine
    exact different (handled.same_thread first second (Option.some.inj mine).symm)

/-- Two clients are served side by side; each thread reads its argument at once. -/
def readInTime : List Action :=
  [.connect, .connect, .acceptClient, .checkAccept, .createThread, .thread 0 .readArgument,
    .acceptClient, .checkAccept, .createThread, .thread 1 .readArgument]

/-- The two threads serve the two connections. -/
theorem oneHandlerEach_readInTime
    : ∃ s, s.threads.map (·.clientfd) = [some 4, some 5] ∧ OneHandlerEach s := by
  have run : ((system.restrict ArgumentRead).exec start readInTime).isSome := by decide
  have reached : (system.restrict ArgumentRead).Reachable _ :=
    System.reachable_of_run start start_started readInTime run
  exact ⟨_, rfl, oneHandlerEach (System.reachable_restrict_iff.mp reached)⟩

/-- The second `accept` overwrites `clientfd` before the first thread has read it. -/
def readTooLate : List Action :=
  [.connect, .connect, .acceptClient, .checkAccept, .createThread, .acceptClient,
    .checkAccept, .createThread, .thread 0 .readArgument, .thread 1 .readArgument]

/-- Then both threads serve the second connection and nobody serves the first. -/
theorem oneHandlerEach_readTooLate : ¬ ∀ s, system.Reachable s → OneHandlerEach s := by
  intro always
  have run : (system.exec start readTooLate).isSome := by decide
  have reached : system.Reachable _ :=
    System.reachable_of_run start start_started readTooLate run
  obtain ⟨s, reached, one, two, both⟩
      : ∃ s, system.Reachable s
          ∧ s.threads[0]? = some { connection := 0, clientfd := some 5, pc := .allocate }
          ∧ s.threads[1]? = some { connection := 1, clientfd := some 5, pc := .allocate }
          ∧ s.connection? (some 5) = some 1 :=
    ⟨_, reached, rfl, rfl, rfl⟩
  have same := (always s reached).apart one two (by simp [Thread.serving])
    (by simp [Thread.serving]) both both
  exact absurd same (by decide)

end LinuxStudy.MultiConnThreadsServer
