import LinuxStudy.MultiConnThreadsServer.Handlers
import LinuxStudy.Transition.Projection

/-! Fault isolation of `multi_conn_threads_server.c`: a run is compared with the run in which
one client says nothing after it has connected, so that its thread never goes on behind its
argument. As long as no `send` fails all other clients are served in the same way in both.
-/

namespace LinuxStudy.MultiConnThreadsServer

open Transition Posix MultiConn

/-- The step is one of client `k`, or a call its thread makes after it has read its argument.
-/
def State.concerns (s : State) (k : Nat) : Action → Prop
  | .arrive c _ | .endStream c | .resetPeer c => c = k
  | .thread _ .readArgument => False
  | .thread i _ => (s.threads[i]?).map (·.connection) = some k
  | _ => False

instance (s : State) (k : Nat) (action : Action) : Decidable (s.concerns k action) := by
  unfold State.concerns
  split <;> infer_instance

/-- Something client `k` does after it has connected. -/
def Action.ofClient (k : Nat) : Action → Prop
  | .arrive c _ | .endStream c | .resetPeer c => c = k
  | _ => False

/-- What is left of a step when client `k` says nothing. -/
def withoutClient (k : Nat) (s : State) (action : Action) : Option Action :=
  if s.concerns k action then none else some action

/-- No `send` is made on a connection that its peer has reset, `accept` does not fail, and
every thread has read its argument when it is called.
-/
def NoFailure (s : State) : Action → Prop
  | .acceptClient => ∀ thread ∈ s.threads, thread.pc ≠ .start
  | .acceptFails | .thread _ .sendFails => False
  | _ => True

instance (s : State) (action : Action) : Decidable (NoFailure s action) := by
  unfold NoFailure
  split <;> infer_instance

theorem NoFailure.readFirst {s : State} {action : Action} (spared : NoFailure s action)
    : ReadFirst s action := by
  cases action with
  | acceptClient => exact spared
  | acceptFails => exact spared.elim
  | _ => trivial

-----------------------------------------------------------------------------------------
-- Agreement on all other clients
-----------------------------------------------------------------------------------------

/-- Two threads of the same connection, which do the same unless it is connection `k`. -/
structure Alike (k : Nat) (one two : Thread) : Prop where
  connection : one.connection = two.connection
  begun : one.pc = .start ↔ two.pc = .start
  same : one.connection ≠ k → one.pc = two.pc ∧ one.readBuf = two.readBuf

/-- The connection has a descriptor. -/
def State.opened (s : State) (c : Nat) : Prop := ∃ fd, s.table.lookup fd = some (.client c)

/-- Two states agree on everything but connection `k`. -/
structure Agree (k : Nat) (s t : State) : Prop where
  main : s.main = t.main
  alive : s.main ≠ .dead
  fetched : s.main = .check → s.clientfd ≠ none ∧ t.clientfd ≠ none
  backlog : s.backlog = t.backlog
  connected : s.connected = t.connected
  accepted : s.accepted = t.accepted
  connections : ∀ c, c ≠ k → s.connections c = t.connections c
  opened : ∀ c, c ≠ k → (s.opened c ↔ t.opened c)
  count : s.threads.length = t.threads.length
  threads
    : ∀ {i : Nat} {one two : Thread},
        s.threads[i]? = some one → t.threads[i]? = some two → Alike k one two

/-- Every thread has its counterpart. -/
theorem Agree.counterpart {k : Nat} {s t : State} (agree : Agree k s t) {i : Nat}
    {one : Thread} (found : s.threads[i]? = some one)
    : ∃ two, t.threads[i]? = some two ∧ Alike k one two := by
  have bound : i < t.threads.length :=
    agree.count ▸ (List.getElem?_eq_some_iff.mp found).1
  have there : t.threads[i]? = some t.threads[i] := List.getElem?_eq_getElem bound
  exact ⟨_, there, agree.threads found there⟩

/-- Replacing two counterparts by counterparts keeps all of them. -/
theorem Agree.set {k : Nat} {s t : State} (agree : Agree k s t) {i : Nat} {one two : Thread}
    (alike : Alike k one two) {j : Nat} {first second : Thread}
    (found : (s.threads.set i one)[j]? = some first)
    (also : (t.threads.set i two)[j]? = some second)
    : Alike k first second := by
  rw [List.getElem?_set] at found also
  split at found
  next here =>
    rw [if_pos here] at also
    obtain ⟨_, same⟩ := Option.ite_none_right_eq_some.mp found
    obtain ⟨_, same'⟩ := Option.ite_none_right_eq_some.mp also
    exact Option.some.inj same ▸ Option.some.inj same' ▸ alike
  next elsewhere =>
    rw [if_neg elsewhere] at also
    exact agree.threads found also

-----------------------------------------------------------------------------------------
-- Descriptors of connections
-----------------------------------------------------------------------------------------

/-- A connection has one descriptor at most, and none before it is accepted. -/
structure Wired (s : State) : Prop where
  unique
    : ∀ {fd other c : Nat},
        s.table.lookup fd = some (.client c)
        → s.table.lookup other = some (.client c)
        → fd = other
  accepted : ∀ {fd c : Nat}, s.table.lookup fd = some (.client c) → c ∈ s.accepted

/-- Closing descriptors keeps the rest as it was. -/
theorem Wired.of_imp {s next : State} (wired : Wired s) (accepted : next.accepted = s.accepted)
    (kept : ∀ fd file, next.table.lookup fd = some file → s.table.lookup fd = some file)
    : Wired next where
  unique found again := wired.unique (kept _ _ found) (kept _ _ again)
  accepted found := accepted ▸ wired.accepted (kept _ _ found)

theorem Wired.move {s next : State} {action : Action} (wired : Wired s) (handled : Handled s)
    (taken : Move s action next)
    : Wired next := by
  cases taken with
  | @acceptClient c rest here waiting =>
      have fresh (fd : Nat) : s.table.lookup fd ≠ some (.client c) := by
        intro found
        have once := handled.once
        rw [waiting, List.nodup_append] at once
        exact once.2.2 _ (wired.accepted found) _ List.mem_cons_self rfl
      constructor
      · intro fd other c' found again
        exact Table.unique_allocate fresh wired.unique found again
      · intro fd c' found
        rw [Table.lookup_allocate] at found
        split at found
        next =>
          obtain rfl : c = c' := by simpa using found
          simp
        next => exact List.mem_append_left _ (wired.accepted found)
  | @thread i thread _ _ _ _ call =>
      cases call with
      | @close here table freed kept =>
          refine wired.of_imp rfl fun fd file found => ?_
          have found : table.lookup fd = some file := found
          cases own : thread.clientfd with
          | none => exact kept own ▸ found
          | some mine => exact (Table.lookup_of_close (freed mine own ▸ found)).2
      | _ => exact wired.of_imp rfl fun _ _ => id
  | _ => exact wired.of_imp rfl fun _ _ => id

/-- After `accept` the new connection is open as well. -/
theorem opened_allocate {s next : State} {c : Nat}
    (table : next.table = s.table.allocate (.client c)) (other : Nat)
    : next.opened other ↔ other = c ∨ s.opened other := by
  rw [State.opened, table, Table.exists_lookup_allocate, File.client.injEq]
  rfl

/-- After a thread's `close` its connection is open no more. -/
theorem Wired.opened_close {s next : State} (wired : Wired s) {clientfd : Option Nat} {c : Nat}
    (mine : s.connection? clientfd = some c)
    (freed : ∀ fd, clientfd = some fd → next.table = s.table.close fd) (other : Nat)
    : next.opened other ↔ s.opened other ∧ other ≠ c := by
  obtain ⟨fd, own, found⟩ := State.connection?_eq_some.mp mine
  rw [State.opened, freed fd own,
    Table.exists_lookup_close found fun _ again => wired.unique again found, ne_eq,
    File.client.injEq]
  rfl

-----------------------------------------------------------------------------------------
-- Steps for client `k` and for all others
-----------------------------------------------------------------------------------------

/-- A call of the thread of connection `k` leaves the others alone. -/
theorem Agree.own_call {k : Nat} {s next t : State} (agree : Agree k s t) {i : Nat}
    {thread new : Thread} (found : s.threads[i]? = some thread) (mine : thread.connection = k)
    (threads : next.threads = s.threads.set i new) (begun : thread.pc ≠ .start)
    (still : new.pc ≠ .start) (same : new.connection = thread.connection)
    (main : next.main = s.main) (clientfd : next.clientfd = s.clientfd)
    (backlog : next.backlog = s.backlog) (connected : next.connected = s.connected)
    (accepted : next.accepted = s.accepted)
    (connections : ∀ c, c ≠ k → next.connections c = s.connections c)
    (opened : ∀ c, c ≠ k → (next.opened c ↔ s.opened c))
    : Agree k next t where
  main := main.trans agree.main
  alive := main ▸ agree.alive
  fetched := by
    rw [main, clientfd]
    exact agree.fetched
  backlog := backlog.trans agree.backlog
  connected := connected.trans agree.connected
  accepted := accepted.trans agree.accepted
  connections c different := (connections c different).trans (agree.connections c different)
  opened c different := (opened c different).trans (agree.opened c different)
  count := by rw [threads, List.length_set, agree.count]
  threads {j first second} there also := by
    rw [threads, List.getElem?_set] at there
    split at there
    next here =>
      obtain ⟨_, same'⟩ := Option.ite_none_right_eq_some.mp there
      obtain rfl := Option.some.inj same'
      obtain ⟨connection, start, _⟩ := agree.threads found (here ▸ also)
      refine ⟨same.trans connection, ?_, fun other => absurd (same.trans mine) other⟩
      exact ⟨fun atStart => absurd atStart still, fun atStart => absurd (start.mpr atStart) begun⟩
    next => exact agree.threads there also

/-- Calls of two counterparts on the same connection do the same. -/
theorem Agree.both_call {k : Nat} {s t next after : State} (agree : Agree k s t) {i : Nat}
    {new new' : Thread}
    (threads : next.threads = s.threads.set i new ∧ after.threads = t.threads.set i new')
    (alike : Alike k new new')
    (main : next.main = s.main ∧ after.main = t.main)
    (clientfd : next.clientfd = s.clientfd ∧ after.clientfd = t.clientfd)
    (backlog : next.backlog = s.backlog ∧ after.backlog = t.backlog)
    (connected : next.connected = s.connected ∧ after.connected = t.connected)
    (accepted : next.accepted = s.accepted ∧ after.accepted = t.accepted)
    (connections : ∀ c, c ≠ k → next.connections c = after.connections c)
    (opened : ∀ c, c ≠ k → (next.opened c ↔ after.opened c))
    : Agree k next after where
  main := by rw [main.1, main.2, agree.main]
  alive := main.1 ▸ agree.alive
  fetched := by
    rw [main.1, clientfd.1, clientfd.2]
    exact agree.fetched
  backlog := by rw [backlog.1, backlog.2, agree.backlog]
  connected := by rw [connected.1, connected.2, agree.connected]
  accepted := by rw [accepted.1, accepted.2, agree.accepted]
  connections := connections
  opened := opened
  count := by rw [threads.1, threads.2, List.length_set, List.length_set, agree.count]
  threads found also := agree.set alike (threads.1 ▸ found) (threads.2 ▸ also)

/-- Work for connection `k` leaves the others alone. -/
theorem Agree.skip {k : Nat} {s next t : State} {action : Action} (agree : Agree k s t)
    (handled : Handled s) (wired : Wired s) (spared : NoFailure s action)
    (taken : Move s action next) (concerned : s.concerns k action)
    : Agree k next t := by
  cases taken with
  | connect | acceptClient _ _ | acceptFails _ | checkFailed _ _ | checkAccept _ _
  | createThread _ _ | createFails _ => exact concerned.elim
  | arrive _ _ _ | endStream _ _ | resetPeer _ _ =>
      obtain rfl := concerned
      exact { agree with
        connections := fun c different => by
          simpa [State.setConnection, different] using agree.connections c different }
  | @thread i thread call next alive found call =>
      cases call with
      | readArgument _ => exact concerned.elim
      | allocate here | allocateFails here | recvEnd here _ _ | recvError here =>
          have mine : thread.connection = k := by simpa [State.concerns, found] using concerned
          exact agree.own_call found mine rfl (by simp [here]) (by simp) rfl rfl rfl rfl rfl rfl
            (fun _ _ => rfl) fun _ _ => Iff.rfl
      | recvData here open_ _ | sendReply here open_ _ _ _ =>
          have mine : thread.connection = k := by simpa [State.concerns, found] using concerned
          have own := handled.right found ⟨by simp [here], by simp [here]⟩
          obtain rfl := Option.some.inj ((mine ▸ own).symm.trans open_)
          refine agree.own_call found mine rfl (by simp [here]) ?_ rfl rfl rfl rfl rfl rfl
            (fun c different => ?_) fun _ _ => Iff.rfl
          · simp [Thread.stores]
          · simp [State.setConnection, State.setThread, different]
      | sendFails _ _ => exact spared.elim
      | close here freed kept =>
          have mine : thread.connection = k := by simpa [State.concerns, found] using concerned
          have own := handled.right found ⟨by simp [here], by simp [here]⟩
          refine agree.own_call found mine rfl (by simp [here]) (by simp) rfl rfl rfl rfl rfl rfl
            (fun _ _ => rfl) fun c different => ?_
          rw [wired.opened_close own freed]
          exact and_iff_left (mine ▸ different)

/-- Every thread reads its argument in both. -/
theorem Agree.follow_read {k : Nat} {s t : State} (agree : Agree k s t) {i : Nat}
    {one two : Thread} (alike : Alike k one two)
    : Agree k (s.setThread i { one with clientfd := s.clientfd, pc := .allocate })
        (t.setThread i { two with clientfd := t.clientfd, pc := .allocate }) :=
  agree.both_call ⟨rfl, rfl⟩
    ⟨alike.connection, by simp, fun different => ⟨rfl, (alike.same different).2⟩⟩ ⟨rfl, rfl⟩
    ⟨rfl, rfl⟩ ⟨rfl, rfl⟩ ⟨rfl, rfl⟩ ⟨rfl, rfl⟩ agree.connections agree.opened

/-- A thread that serves another connection makes the same call in both. -/
theorem Agree.follow_call {k : Nat} {s next t : State} (agree : Agree k s t)
    (handled : Handled s) (wired : Wired s) (other : Handled t) (otherWired : Wired t) {i : Nat}
    {one two : Thread} (found : s.threads[i]? = some one) (also : t.threads[i]? = some two)
    (different : one.connection ≠ k) {call : Call} (spared : call ≠ .sendFails)
    (taken : ThreadMove s i one call next)
    : ∃ after, ThreadMove t i two call after ∧ Agree k next after := by
  obtain ⟨connection, begun, same⟩ := agree.threads found also
  obtain ⟨pc, readBuf⟩ := same different
  have own (serving : one.serving)
      : s.connection? one.clientfd = some one.connection
        ∧ t.connection? two.clientfd = some one.connection := by
    refine ⟨handled.right found serving, ?_⟩
    rw [connection]
    refine other.right also ⟨?_, ?_⟩
    · rw [← pc]
      exact serving.1
    · rw [← pc]
      exact serving.2
  have connections := agree.connections one.connection different
  cases taken with
  | readArgument here =>
      exact ⟨_, .readArgument (pc.symm.trans here), agree.follow_read (agree.threads found also)⟩
  | allocate here =>
      refine ⟨_, .allocate (pc.symm.trans here), ?_⟩
      exact agree.both_call ⟨rfl, rfl⟩ ⟨connection, by simp, fun _ => ⟨rfl, readBuf⟩⟩ ⟨rfl, rfl⟩
        ⟨rfl, rfl⟩ ⟨rfl, rfl⟩ ⟨rfl, rfl⟩ ⟨rfl, rfl⟩ agree.connections agree.opened
  | allocateFails here =>
      refine ⟨_, .allocateFails (pc.symm.trans here), ?_⟩
      exact agree.both_call ⟨rfl, rfl⟩ ⟨connection, by simp, fun _ => ⟨rfl, readBuf⟩⟩ ⟨rfl, rfl⟩
        ⟨rfl, rfl⟩ ⟨rfl, rfl⟩ ⟨rfl, rfl⟩ ⟨rfl, rfl⟩ agree.connections agree.opened
  | recvData here open_ offers =>
      obtain ⟨mine, also'⟩ := own ⟨by simp [here], by simp [here]⟩
      obtain rfl := Option.some.inj (mine.symm.trans open_)
      rw [connections] at offers ⊢
      refine ⟨_, .recvData (pc.symm.trans here) also' offers, ?_⟩
      exact agree.both_call ⟨rfl, rfl⟩
        ⟨connection, by simp [Thread.stores], fun _ => ⟨rfl, by simp [Thread.stores, readBuf]⟩⟩
        ⟨rfl, rfl⟩ ⟨rfl, rfl⟩ ⟨rfl, rfl⟩ ⟨rfl, rfl⟩ ⟨rfl, rfl⟩
        (fun _ => update_eq_of_ne agree.connections fun _ => rfl) agree.opened
  | recvEnd here open_ ended =>
      obtain ⟨mine, also'⟩ := own ⟨by simp [here], by simp [here]⟩
      obtain rfl := Option.some.inj (mine.symm.trans open_)
      rw [connections] at ended
      refine ⟨_, .recvEnd (pc.symm.trans here) also' ended, ?_⟩
      exact agree.both_call ⟨rfl, rfl⟩ ⟨connection, by simp, fun _ => ⟨rfl, readBuf⟩⟩ ⟨rfl, rfl⟩
        ⟨rfl, rfl⟩ ⟨rfl, rfl⟩ ⟨rfl, rfl⟩ ⟨rfl, rfl⟩ agree.connections agree.opened
  | recvError here =>
      refine ⟨_, .recvError (pc.symm.trans here), ?_⟩
      exact agree.both_call ⟨rfl, rfl⟩ ⟨connection, by simp, fun _ => ⟨rfl, readBuf⟩⟩ ⟨rfl, rfl⟩
        ⟨rfl, rfl⟩ ⟨rfl, rfl⟩ ⟨rfl, rfl⟩ ⟨rfl, rfl⟩ agree.connections agree.opened
  | sendReply here open_ positive part whole =>
      obtain ⟨mine, also'⟩ := own ⟨by simp [here], by simp [here]⟩
      obtain rfl := Option.some.inj (mine.symm.trans open_)
      rw [connections] at whole ⊢
      refine ⟨_, .sendReply (pc.symm.trans here) also' positive part whole, ?_⟩
      exact agree.both_call ⟨rfl, rfl⟩ ⟨connection, by simp, fun _ => ⟨rfl, readBuf⟩⟩
        ⟨rfl, rfl⟩ ⟨rfl, rfl⟩ ⟨rfl, rfl⟩ ⟨rfl, rfl⟩ ⟨rfl, rfl⟩
        (fun _ => update_eq_of_ne agree.connections fun _ => rfl) agree.opened
  | sendFails _ _ => exact absurd rfl spared
  | @close here table freed kept =>
      obtain ⟨mine, also'⟩ := own ⟨by simp [here], by simp [here]⟩
      obtain ⟨fd, their, _⟩ := State.connection?_eq_some.mp also'
      have freed'
          : ∀ other, two.clientfd = some other → t.table.close fd = t.table.close other := by
        intro other same
        rw [Option.some.inj (their.symm.trans same)]
      refine ⟨_, .close (pc.symm.trans here) freed' (by simp [their]), ?_⟩
      exact agree.both_call ⟨rfl, rfl⟩ ⟨connection, by simp, fun _ => ⟨rfl, readBuf⟩⟩
        ⟨rfl, rfl⟩ ⟨rfl, rfl⟩ ⟨rfl, rfl⟩ ⟨rfl, rfl⟩ ⟨rfl, rfl⟩ agree.connections
        fun c away => ((wired.opened_close mine freed c).trans
          (and_congr_left' (agree.opened c away))).trans
            (otherWired.opened_close also' freed' c).symm

/-- Every step that is not work for connection `k` is possible without it, and all other
connections fare the same.
-/
theorem Agree.follow {k : Nat} {s next t : State} {action : Action} (agree : Agree k s t)
    (handled : Handled s) (wired : Wired s) (other : Handled t) (otherWired : Wired t)
    (spared : NoFailure s action) (taken : Move s action next)
    (elsewhere : ¬ s.concerns k action)
    : ∃ after, Move t action after ∧ Agree k next after := by
  cases taken with
  | connect =>
      refine ⟨_, .connect, { agree with
        backlog := by simp [MultiConnThreadsServer.connect, agree.backlog, agree.connected]
        connected := by simp [MultiConnThreadsServer.connect, agree.connected]
        connections := fun c different => ?_ }⟩
      simp only [MultiConnThreadsServer.connect, agree.connected]
      exact update_eq_of_ne agree.connections (fun _ => rfl) different
  | @arrive c bytes known streaming nonempty =>
      have same := agree.connections c elsewhere
      rw [same] at streaming ⊢
      exact ⟨_, .arrive (agree.connected ▸ known) streaming nonempty, { agree with
        connections := fun _ => update_eq_of_ne agree.connections fun _ => rfl }⟩
  | @endStream c known streaming =>
      have same := agree.connections c elsewhere
      rw [same] at streaming ⊢
      exact ⟨_, .endStream (agree.connected ▸ known) streaming, { agree with
        connections := fun _ => update_eq_of_ne agree.connections fun _ => rfl }⟩
  | @resetPeer c known whole =>
      have same := agree.connections c elsewhere
      rw [same] at whole ⊢
      exact ⟨_, .resetPeer (agree.connected ▸ known) whole, { agree with
        connections := fun _ => update_eq_of_ne agree.connections fun _ => rfl }⟩
  | @acceptClient c rest here waiting =>
      refine ⟨_, .acceptClient (agree.main ▸ here) (agree.backlog ▸ waiting), { agree with
        main := rfl
        alive := by simp
        fetched := by simp
        backlog := rfl
        accepted := by simp [agree.accepted]
        opened := fun c' different => ((opened_allocate rfl c').trans
          (or_congr_right (agree.opened c' different))).trans (opened_allocate rfl c').symm }⟩
  | acceptFails _ => exact spared.elim
  | checkFailed here failed => exact absurd failed (agree.fetched here).1
  | checkAccept here accepted =>
      exact ⟨_, .checkAccept (agree.main ▸ here) (agree.fetched here).2,
        { agree with main := rfl, alive := by simp, fetched := by simp }⟩
  | @createThread c here last =>
      refine ⟨_, .createThread (agree.main ▸ here) (agree.accepted ▸ last), { agree with
        main := rfl
        alive := by simp
        fetched := by simp
        count := by simp [agree.count]
        threads := fun {i one two} found also => ?_ }⟩
      rw [List.getElem?_append] at found also
      rw [← agree.count] at also
      split at found
      next bound =>
        rw [if_pos bound] at also
        exact agree.threads found also
      next bound =>
        rw [if_neg bound] at also
        obtain rfl := Option.some.inj (found.symm.trans also)
        exact ⟨rfl, Iff.rfl, fun _ => ⟨rfl, rfl⟩⟩
  | createFails here =>
      exact ⟨_, .createFails (agree.main ▸ here),
        { agree with main := rfl, alive := by simp, fetched := by simp }⟩
  | @thread i thread call next alive found taken =>
      obtain ⟨two, also, alike⟩ := agree.counterpart found
      have alive' := agree.main ▸ alive
      by_cases reads : call = .readArgument
      · subst reads
        cases taken with
        | readArgument here =>
            exact ⟨_, .thread alive' also (.readArgument (alike.begun.mp here)),
              agree.follow_read alike⟩
      · have different : thread.connection ≠ k := by
          intro mine
          apply elsewhere
          cases call with
          | readArgument => contradiction
          | _ => simp [State.concerns, found, mine]
        have answered : call ≠ .sendFails := by
          intro same
          subst same
          exact spared
        obtain ⟨after, taken', agree'⟩ :=
          agree.follow_call handled wired other otherWired found also different answered taken
        exact ⟨after, .thread alive' also taken', agree'⟩

-----------------------------------------------------------------------------------------
-- Runs with and without the client
-----------------------------------------------------------------------------------------

/-- Both servers keep their books and agree on everything but connection `k`. -/
structure Isolated (k : Nat) (s t : State) : Prop where
  handled : Handled s
  wired : Wired s
  other : Handled t
  otherWired : Wired t
  agree : Agree k s t

/-- The step left in the run without client `k` meets the condition there as well. -/
theorem Agree.noFailure {k : Nat} {s t : State} {action : Action} (agree : Agree k s t)
    (spared : NoFailure s action)
    : NoFailure t action := by
  cases action with
  | acceptClient =>
      intro two member
      obtain ⟨i, also⟩ := List.mem_iff_getElem?.mp member
      have bound : i < s.threads.length :=
        agree.count ▸ (List.getElem?_eq_some_iff.mp also).1
      have found : s.threads[i]? = some s.threads[i] := List.getElem?_eq_getElem bound
      have begun := spared _ (List.mem_of_getElem? found)
      exact (not_congr (agree.threads found also).begun).mp begun
  | thread i call =>
      cases call with
      | sendFails => exact spared.elim
      | _ => trivial
  | _ => exact spared

/-- Each step without a failure has its counterpart in the run without client `k`. -/
theorem Isolated.matched {k : Nat} {s t next : State} {action : Action}
    (isolated : Isolated k s t) (spared : NoFailure s action)
    (taken : system.step s action = some next)
    : system.Matches (Isolated k) next t (withoutClient k s action) := by
  obtain ⟨handled, wired, other, otherWired, agree⟩ := isolated
  have move := Move.of_step taken
  have handled' := handled.move spared.readFirst move
  have wired' := wired.move handled move
  unfold withoutClient
  split
  next concerned =>
    exact ⟨handled', wired', other, otherWired, agree.skip handled wired spared move concerned⟩
  next elsewhere =>
    obtain ⟨after, move', agree'⟩ :=
      agree.follow handled wired other otherWired spared move elsewhere
    exact ⟨after, move'.to_step, handled', wired',
      other.move (agree.noFailure spared).readFirst move', otherWired.move other move', agree'⟩

/-- A server that has just started agrees with itself. -/
theorem Started.isolated {s : State} (started : Started s) (k : Nat) : Isolated k s s := by
  have wired : Wired s :=
    ⟨fun found => absurd found (started.no_clients _ _),
      fun found => absurd found (started.no_clients _ _)⟩
  refine ⟨started.handled, wired, started.handled, wired, rfl, ?_, ?_, rfl, rfl, rfl,
    fun _ _ => rfl, fun _ _ => Iff.rfl, rfl, ?_⟩
  all_goals simp [started.main, started.threads]

/-- The two servers treat client `c` alike: its connection has had the same bytes in the same
order and is open in both or in none, and its threads are at the same points with the same
bytes in their buffers.
-/
structure SameFor (c : Nat) (s t : State) : Prop where
  connection : s.connections c = t.connections c
  opened : s.opened c ↔ t.opened c
  waiting : c ∈ s.backlog ↔ c ∈ t.backlog
  accepted : c ∈ s.accepted ↔ c ∈ t.accepted
  threads
    : ∀ (i : Nat) (pc : Pc) (readBuf : Bytes),
        (∃ thread : Thread, s.threads[i]? = some thread
          ∧ thread.connection = c ∧ thread.pc = pc ∧ thread.readBuf = readBuf)
        ↔ ∃ thread : Thread, t.threads[i]? = some thread
          ∧ thread.connection = c ∧ thread.pc = pc ∧ thread.readBuf = readBuf

theorem Agree.sameFor {k c : Nat} {s t : State} (agree : Agree k s t) (different : c ≠ k)
    : SameFor c s t := by
  refine ⟨agree.connections c different, agree.opened c different,
    iff_of_eq (congrArg _ agree.backlog), iff_of_eq (congrArg _ agree.accepted), ?_⟩
  intro i pc readBuf
  constructor
  · intro found
    obtain ⟨one, found, rfl, rfl, rfl⟩ := found
    obtain ⟨two, also, connection, _, same⟩ := agree.counterpart found
    obtain ⟨pc, readBuf⟩ := same different
    exact ⟨two, also, connection.symm, pc.symm, readBuf.symm⟩
  · intro found
    obtain ⟨two, also, rfl, rfl, rfl⟩ := found
    have bound : i < s.threads.length :=
      agree.count ▸ (List.getElem?_eq_some_iff.mp also).1
    have found : s.threads[i]? = some s.threads[i] := List.getElem?_eq_getElem bound
    obtain ⟨connection, _, same⟩ := agree.threads found also
    obtain ⟨pc, readBuf⟩ := same (connection ▸ different)
    exact ⟨_, found, connection, pc, readBuf⟩

/-- What the projection leaves is nothing client `k` does. -/
theorem not_ofClient_of_left {k : Nat} {s : State} {whole action : Action}
    (left : withoutClient k s whole = some action)
    : ¬ action.ofClient k := by
  obtain ⟨elsewhere, same⟩ := Option.ite_none_left_eq_some.mp left
  obtain rfl := Option.some.inj same
  cases whole with
  | arrive _ _ | endStream _ | resetPeer _ => exact elsewhere
  | _ => exact id

/-- After the run the server is alive, and to every other client it is as if client `k` had
never said a word: the same run without client `k` and the work for it is possible and ends
in a state that is the same for them.
-/
def FaultIsolated (start : State) (actions : List Action) (s : State) (k : Nat) : Prop :=
  s.main ≠ .dead
  ∧ (∀ action ∈ system.project (withoutClient k) start actions, ¬ action.ofClient k)
  ∧ ∃ t,
      system.exec start (system.project (withoutClient k) start actions) = some t
      ∧ ∀ c, c ≠ k → SameFor c s t

/-- Every client is isolated from the others in runs without a failure. -/
theorem faultIsolated_of_exec {start s : State} {actions : List Action}
    (started : Started start) (run : (system.restrict NoFailure).exec start actions = some s)
    (k : Nat)
    : FaultIsolated start actions s k := by
  obtain ⟨t, run', isolated⟩ := System.exec_project
    (fun _ _ _ _ isolated spared taken => isolated.matched spared taken) (started.isolated k) run
  refine ⟨isolated.agree.alive, ?_, t, run', fun c => isolated.agree.sameFor⟩
  intro action member
  obtain ⟨_, _, left⟩ := System.left_of_mem_project member
  exact not_ofClient_of_left left

end LinuxStudy.MultiConnThreadsServer
