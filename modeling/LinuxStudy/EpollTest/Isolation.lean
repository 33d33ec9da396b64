import LinuxStudy.EpollTest.Refinement
import LinuxStudy.Transition.Projection

/-! Fault isolation of `epoll_test.c`: a run is compared with the run in which one client says
nothing after it has connected. As long as no `send` raises `SIGPIPE` all other clients are
served in the same way in both.
-/

namespace LinuxStudy.EpollTest

open Transition Posix

/-- The event loop is in the middle of an event of the connection. -/
def State.serves (s : State) (k : Nat) : Prop :=
  match s.pc with
  | .serve _ _ => s.source = .client k
  | _ => False

/-- Without the events of the connection. -/
def Action.without (k : Nat) : Action → Action
  | .epollWait files => .epollWait (files.filter (· ≠ .client k))
  | action => action

/-- The step is one of client `k`, or it is work of the server for client `k` alone. Accepting
and registering the connection does not count.
-/
def State.concerns (s : State) (k : Nat) : Action → Prop
  | .connect => False
  | .arrive c _ | .endStream c | .resetPeer c => c = k
  | .epollWait files => s.entries (files.filter (· ≠ .client k)) = []
  | .nextEvent => s.batch.head?.map (·.source) = some (.client k)
  | _ => s.serves k

instance (s : State) (k : Nat) : Decidable (s.serves k) := by
  unfold State.serves
  split <;> infer_instance

instance (s : State) (k : Nat) (action : Action) : Decidable (s.concerns k action) := by
  unfold State.concerns
  split <;> infer_instance

/-- Something client `k` does after it has connected. -/
def Action.ofClient (k : Nat) : Action → Prop
  | .arrive c _ | .endStream c | .resetPeer c => c = k
  | _ => False

/-- What is left of a step when client `k` says nothing. -/
def withoutClient (k : Nat) (s : State) (action : Action) : Option Action :=
  if s.concerns k action then none else some (action.without k)

/-- Neither a `send` to a connection reset by its peer ends the process, nor does
`epoll_wait` fail.
-/
def NoSignal (_ : State) (action : Action) : Prop :=
  action ≠ .sendBroken true ∧ action ≠ .epollWaitFails

instance (s : State) (action : Action) : Decidable (NoSignal s action) := by
  unfold NoSignal
  infer_instance

/-- The same for a view. -/
def View.concerns (v : View) (k : Nat) : Action → Prop
  | .connect => False
  | .arrive c _ | .endStream c | .resetPeer c => c = k
  | .epollWait files => v.reported (files.filter (· ≠ .client k)) = []
  | .nextEvent => v.batch.head? = some (.client k)
  | _ => ∃ stage, v.place = .serve k stage

-----------------------------------------------------------------------------------------
-- Agreement on all other clients
-----------------------------------------------------------------------------------------

/-- Two views agree on everything but connection `k`, which the second one never serves. -/
structure Agree (k : Nat) (v w : View) : Prop where
  place : v.place = w.place ∨ w.place = .loop ∧ ∃ stage, v.place = .serve k stage
  silent : ∀ stage, w.place ≠ .serve k stage
  alive : v.place ≠ .dead
  batch : w.batch = v.batch.filter (· ≠ .client k)
  backlog : v.backlog = w.backlog
  connected : v.connected = w.connected
  connections : ∀ c, c ≠ k → v.connections c = w.connections c
  opened : ∀ c, c ≠ k → (c ∈ v.opened ↔ c ∈ w.opened)
  listed : ∀ c, c ≠ k → (c ∈ v.listed ↔ c ∈ w.listed)
  queued : ∀ c, c ≠ k → (c ∈ v.queued ↔ c ∈ w.queued)
  held : ∀ c, c ≠ k → v.held c = w.held c

/-- Away from connection `k` both are at the same place. -/
theorem Agree.place_eq {k : Nat} {v w : View} (agree : Agree k v w) {place : Place}
    (here : v.place = place) (away : ∀ stage, place ≠ .serve k stage)
    : w.place = place := by
  rcases agree.place with same | ⟨_, stage, inside⟩
  · exact same.symm.trans here
  · exact absurd (here.symm.trans inside) (away stage)

/-- While one serves connection `k` the other one is between two events. -/
theorem Agree.idle {k : Nat} {v w : View} (agree : Agree k v w) {stage : Stage}
    (here : v.place = .serve k stage)
    : w.place = .loop := by
  rcases agree.place with same | ⟨idle, _⟩
  · exact absurd (same.symm.trans here) (agree.silent stage)
  · exact idle

/-- What the network does to connection `k` is not seen by the others. -/
theorem Agree.deliver {k : Nat} {v w : View} (agree : Agree k v w) (connection : Connection)
    : Agree k (v.deliver k connection) w :=
  { agree with
    connections := fun c different => by
      simpa [View.deliver, different] using agree.connections c different
    queued := fun c different => by
      simpa [View.deliver, different] using agree.queued c different }

/-- A chunk of another connection is not held for `c`. -/
theorem View.holding_of_ne {k c : Nat} (chunk : Bytes) (different : c ≠ k)
    : View.holding k chunk c = [] := by
  simp [View.holding, different]

/-- The files reported without connection `k` are the reported ones without it. -/
theorem View.reported_filter (v : View) (k : Nat) (files : List File)
    : v.reported (files.filter (· ≠ .client k))
      = (v.reported files).filter (· ≠ .client k) := by
  simp only [View.reported, List.filter_filter, Bool.and_comm]

/-- Work for connection `k` leaves the others alone. -/
theorem Agree.skip {k : Nat} {v v' w : View} {action : Action} (agree : Agree k v w)
    (quiet : w.place = .loop → w.held = fun _ => []) (spared : action ≠ .sendBroken true)
    (taken : View.Move v action v') (concerned : v.concerns k action)
    : Agree k v' w := by
  cases taken with
  | connect => exact concerned.elim
  | arrive _ _ | endStream _ | resetPeer _ _ =>
      obtain rfl := concerned
      exact agree.deliver _
  | @epollWait files here used distinct some few ready =>
      have only := (v.reported_filter k files).symm.trans concerned
      refine { agree with batch := ?_, queued := fun c different => ?_ }
      · rw [only, agree.batch, used]
        rfl
      · have unreported : .client c ∉ v.reported files := by
          intro reported
          refine List.filter_eq_nil_iff.mp only _ reported ?_
          simpa using different
        simpa [unreported] using agree.queued c different
  | epollWaitFails here _ | acceptClient here _ | acceptFails here | setNonblock here
  | registerClient here | registerFails here | closeRejected here =>
      obtain ⟨stage, inside⟩ := concerned
      simp [here] at inside
  | nextListening _ first => simp [View.concerns, first] at concerned
  | nextClient here first =>
      obtain rfl := by simpa [View.concerns, first] using concerned
      refine { agree with
        place := Or.inr ⟨agree.place_eq here (by simp), _, rfl⟩, alive := by simp, batch := ?_ }
      rw [agree.batch, first]
      simp
  | recvData here _ _ _ =>
      obtain ⟨stage, inside⟩ := concerned
      obtain ⟨rfl, rfl⟩ := Place.serve.inj (here.symm.trans inside)
      refine { agree with
        place := Or.inr ⟨agree.idle here, _, rfl⟩
        alive := by simp
        connections := fun c different => ?_
        held := fun c different => ?_ }
      · simpa [different] using agree.connections c different
      · rw [quiet (agree.idle here)]
        exact View.holding_of_ne _ different
  | sendChunk here _ _ _ | sendRefused here _ =>
      obtain ⟨stage, inside⟩ := concerned
      obtain ⟨rfl, rfl⟩ := Place.serve.inj (here.symm.trans inside)
      refine { agree with
        place := Or.inr ⟨agree.idle here, _, rfl⟩
        alive := by simp
        connections := fun c different => ?_
        held := fun c different => ?_ }
      · simpa [different] using agree.connections c different
      · rw [quiet (agree.idle here)]
  | sendKills _ _ => exact absurd rfl spared
  | recvEnd here _ _ | recvError here | printChunk here =>
      obtain ⟨stage, inside⟩ := concerned
      obtain ⟨rfl, rfl⟩ := Place.serve.inj (here.symm.trans inside)
      exact { agree with
        place := Or.inr ⟨agree.idle here, _, rfl⟩
        alive := by simp }
  | recvAgain here _ _ | deleteClient here =>
      obtain ⟨stage, inside⟩ := concerned
      obtain ⟨rfl, rfl⟩ := Place.serve.inj (here.symm.trans inside)
      exact { agree with
        place := Or.inl (agree.idle here).symm
        alive := by simp }
  | closeClient here =>
      obtain ⟨stage, inside⟩ := concerned
      obtain ⟨rfl, rfl⟩ := Place.serve.inj (here.symm.trans inside)
      exact { agree with
        place := Or.inr ⟨agree.idle here, _, rfl⟩
        alive := by simp
        opened := fun c different => by simpa [different] using agree.opened c different
        listed := fun c different => by simpa [different] using agree.listed c different
        queued := fun c different => by simpa [different] using agree.queued c different }

/-- The network does the same to another connection in both. -/
theorem Agree.deliver_both {k c : Nat} {v w : View} {connection : Connection}
    (agree : Agree k v w) (different : c ≠ k)
    : Agree k (v.deliver c connection) (w.deliver c connection) :=
  { agree with
    connections := fun _ => update_eq_of_ne agree.connections fun _ => rfl
    queued := fun other away => by
      simp only [View.deliver, Set.mem_ofPred_eq, agree.queued other away,
        agree.listed c different] }

/-- Both would report the same files, connection `k` apart. -/
theorem Agree.reported_eq {k : Nat} {v w : View} {files : List File} (agree : Agree k v w)
    (away : ∀ file ∈ files, file ≠ .client k)
    : w.reported files = v.reported files := by
  refine List.filter_congr fun file member => decide_eq_decide.mpr ?_
  cases file with
  | client c => exact (agree.listed c fun same => away _ member (same ▸ rfl)).symm
  | _ => exact Iff.rfl

/-- A file other than connection `k` is ready in both or in none. -/
theorem Agree.ready_iff {k : Nat} {v w : View} {file : File} (agree : Agree k v w)
    (away : file ≠ .client k)
    : v.ready file ↔ w.ready file := by
  cases file with
  | listening => simp [View.ready, agree.backlog]
  | client c => exact agree.queued c fun same => away (same ▸ rfl)
  | _ => exact Iff.rfl

/-- Both go on from the same place. -/
theorem Agree.goto {k : Nat} {v w : View} {place : Place} (agree : Agree k v w)
    (away : ∀ stage, place ≠ .serve k stage) (alive : place ≠ .dead)
    : Agree k { v with place } { w with place } :=
  { agree with place := Or.inl rfl, silent := away, alive := alive }

/-- Every step that is not work for connection `k` is possible without it, and all other
connections fare the same.
-/
theorem Agree.follow {k : Nat} {v v' w : View} {action : Action} (agree : Agree k v w)
    (spared : action ≠ .sendBroken true ∧ action ≠ .epollWaitFails)
    (taken : View.Move v action v') (elsewhere : ¬ v.concerns k action)
    : ∃ w', View.Move w (action.without k) w' ∧ Agree k v' w' := by
  cases taken with
  | connect =>
      refine ⟨_, .connect, ?_⟩
      rw [← agree.connected, ← agree.backlog]
      exact { agree with
        backlog := rfl
        connected := rfl
        connections := fun _ => update_eq_of_ne agree.connections fun _ => rfl }
  | @arrive c bytes streaming nonempty =>
      have same := agree.connections c elsewhere
      rw [View.streaming, agree.connected, same] at streaming
      rw [same]
      exact ⟨_, .arrive streaming nonempty, agree.deliver_both elsewhere⟩
  | @endStream c streaming =>
      have same := agree.connections c elsewhere
      rw [View.streaming, agree.connected, same] at streaming
      rw [same]
      exact ⟨_, .endStream streaming, agree.deliver_both elsewhere⟩
  | @resetPeer c known whole =>
      have same := agree.connections c elsewhere
      rw [agree.connected] at known
      rw [same] at whole ⊢
      exact ⟨_, .resetPeer known whole, agree.deliver_both elsewhere⟩
  | @epollWait files here used distinct some few ready =>
      have files' := v.reported_filter k files
      have same : w.reported (files.filter (· ≠ .client k))
          = (v.reported files).filter (· ≠ .client k) := by
        rw [← files']
        exact agree.reported_eq fun file member => by simpa using (List.mem_filter.mp member).2
      have batch : w.batch = [] := by rw [agree.batch, used, List.filter_nil]
      refine ⟨_, .epollWait (agree.place_eq here (by simp)) batch (distinct.filter _) ?_ ?_ ?_, ?_⟩
      · rw [same, ← files']
        exact elsewhere
      · rw [same]
        exact Nat.le_trans (List.length_filter_le _ _) few
      · rw [same]
        intro file member
        obtain ⟨reported, different⟩ := List.mem_filter.mp member
        exact (agree.ready_iff (by simpa using different)).mp (ready file reported)
      · refine { agree with batch := same, queued := fun c different => ?_ }
        have kept : .client c ∈ (v.reported files).filter (· ≠ .client k)
            ↔ .client c ∈ v.reported files := by
          simp [List.mem_filter, different]
        simp only [Set.mem_ofPred_eq, same, kept, agree.queued c different]
  | epollWaitFails _ _ => exact absurd rfl spared.2
  | sendKills _ _ => exact absurd rfl spared.1
  | @nextListening rest here first =>
      have batch : w.batch = .listening :: rest.filter (· ≠ .client k) := by
        rw [agree.batch, first, List.filter_cons_of_pos (by simp)]
      exact ⟨_, .nextListening (agree.place_eq here (by simp)) batch,
        { agree.goto (by simp) (by simp) with batch := rfl }⟩
  | @nextClient c rest here first =>
      have different : c ≠ k := by simpa [View.concerns, first] using elsewhere
      have batch : w.batch = .client c :: rest.filter (· ≠ .client k) := by
        rw [agree.batch, first, List.filter_cons_of_pos (by simpa using different)]
      exact ⟨_, .nextClient (agree.place_eq here (by simp)) batch,
        { agree.goto (by simp [different]) (by simp) with batch := rfl }⟩
  | @acceptClient c rest here waiting =>
      refine ⟨_, .acceptClient (agree.place_eq here (by simp)) (agree.backlog ▸ waiting), ?_⟩
      exact { agree.goto (by simp) (by simp) with
        backlog := rfl
        opened := fun other different => by
          simp only [Set.mem_insert_iff, agree.opened other different] }
  | acceptFails here =>
      exact ⟨_, .acceptFails (agree.place_eq here (by simp)), agree.goto (by simp) (by simp)⟩
  | @setNonblock c here =>
      refine ⟨_, .setNonblock (agree.place_eq here (by simp)), ?_⟩
      exact { agree.goto (by simp) (by simp) with
        connections := fun _ => update_eq_of_ne agree.connections fun different => by
          rw [agree.connections c different] }
  | @registerClient c here =>
      refine ⟨_, .registerClient (agree.place_eq here (by simp)), ?_⟩
      exact { agree.goto (by simp) (by simp) with
        listed := fun other different => by
          simp only [Set.mem_insert_iff, agree.listed other different]
        queued := fun other different => by
          simp only [Set.mem_ofPred_eq, agree.queued other different]
          refine or_congr_right (and_congr_right ?_)
          intro same
          subst same
          rw [agree.connections other different] }
  | registerFails here =>
      exact ⟨_, .registerFails (agree.place_eq here (by simp)), agree.goto (by simp) (by simp)⟩
  | @closeRejected c here =>
      refine ⟨_, .closeRejected (agree.place_eq here (by simp)), ?_⟩
      exact { agree.goto (by simp) (by simp) with
        opened := fun other different => by
          simp only [Set.mem_sdiff, agree.opened other different] }
  | @recvData c n here positive available fits =>
      have different : c ≠ k := fun same => elsewhere ⟨_, same ▸ here⟩
      have there := agree.place_eq here (by simp [different])
      have same := agree.connections c different
      rw [same] at available ⊢
      exact ⟨_, .recvData there positive available fits,
        { agree.goto (by simp [different]) (by simp) with
          connections := fun _ => update_eq_of_ne agree.connections fun _ => rfl
          held := fun _ _ => rfl }⟩
  | @recvEnd c here drained eof =>
      have different : c ≠ k := fun same => elsewhere ⟨_, same ▸ here⟩
      have there := agree.place_eq here (by simp [different])
      have same := agree.connections c different
      rw [same] at drained eof
      exact ⟨_, .recvEnd there drained eof, agree.goto (by simp [different]) (by simp)⟩
  | @recvAgain c here idle nonblock =>
      have different : c ≠ k := fun same => elsewhere ⟨_, same ▸ here⟩
      have there := agree.place_eq here (by simp [different])
      have same := agree.connections c different
      rw [same] at idle nonblock
      exact ⟨_, .recvAgain there idle nonblock, agree.goto (by simp) (by simp)⟩
  | @recvError c here =>
      have different : c ≠ k := fun same => elsewhere ⟨_, same ▸ here⟩
      have there := agree.place_eq here (by simp [different])
      exact ⟨_, .recvError there, agree.goto (by simp [different]) (by simp)⟩
  | @printChunk c len here =>
      have different : c ≠ k := fun same => elsewhere ⟨_, same ▸ here⟩
      have there := agree.place_eq here (by simp [different])
      exact ⟨_, .printChunk there, agree.goto (by simp [different]) (by simp)⟩
  | @sendChunk c len n here part blocks whole =>
      have different : c ≠ k := fun same => elsewhere ⟨_, same ▸ here⟩
      have there := agree.place_eq here (by simp [different])
      have same := agree.connections c different
      rw [same] at blocks whole ⊢
      rw [agree.held c different]
      exact ⟨_, .sendChunk there part blocks whole,
        { agree.goto (by simp [different]) (by simp) with
          connections := fun _ => update_eq_of_ne agree.connections fun _ => rfl
          held := fun _ _ => rfl }⟩
  | @sendRefused c len here broken =>
      have different : c ≠ k := fun same => elsewhere ⟨_, same ▸ here⟩
      have there := agree.place_eq here (by simp [different])
      have same := agree.connections c different
      rw [same] at broken ⊢
      rw [agree.held c different]
      exact ⟨_, .sendRefused there broken,
        { agree.goto (by simp [different]) (by simp) with
          connections := fun _ => update_eq_of_ne agree.connections fun _ => rfl
          held := fun _ _ => rfl }⟩
  | @closeClient c here =>
      have different : c ≠ k := fun same => elsewhere ⟨_, same ▸ here⟩
      have there := agree.place_eq here (by simp [different])
      refine ⟨_, .closeClient there, ?_⟩
      exact { agree.goto (by simp [different]) (by simp) with
        opened := fun other away => by simp only [Set.mem_sdiff, agree.opened other away]
        listed := fun other away => by simp only [Set.mem_sdiff, agree.listed other away]
        queued := fun other away => by simp only [Set.mem_sdiff, agree.queued other away] }
  | @deleteClient c here =>
      have different : c ≠ k := fun same => elsewhere ⟨_, same ▸ here⟩
      have there := agree.place_eq here (by simp [different])
      exact ⟨_, .deleteClient there, agree.goto (by simp) (by simp)⟩

-----------------------------------------------------------------------------------------
-- Runs with and without the client
-----------------------------------------------------------------------------------------

/-- The view knows which steps concern connection `k`. -/
theorem Tracked.concerns_iff {s : State} (tracked : Tracked s) (k : Nat) (action : Action)
    : s.view.concerns k action ↔ s.concerns k action := by
  have serves : (∃ stage, s.view.place = .serve k stage) ↔ s.serves k := by
    constructor
    · intro serving
      obtain ⟨stage, there⟩ := serving
      have at_ := s.at_place
      rw [there] at at_
      cases at_ with
      | serve here source => simp [State.serves, here, source]
    · intro serves
      unfold State.serves at serves
      split at serves
      next fd stage here => exact ⟨stage, State.place_serve here serves⟩
      next => exact serves.elim
  cases action with
  | connect | arrive _ _ | endStream _ | resetPeer _ => exact Iff.rfl
  | epollWait files =>
      rw [View.concerns, State.concerns, ← tracked.books.map_entries, List.map_eq_nil_iff]
  | nextEvent =>
      rw [View.concerns, State.concerns]
      exact iff_of_eq (congrArg (· = _) List.head?_map)
  | _ => exact serves

/-- Both servers keep their books and agree on everything but connection `k`. -/
structure Isolated (k : Nat) (s t : State) : Prop where
  tracked : Tracked s
  other : Tracked t
  agree : Agree k s.view t.view

/-- Each step without a signal has its counterpart in the run without client `k`. -/
theorem Isolated.matched {k : Nat} {s t next : State} {action : Action}
    (isolated : Isolated k s t) (quiet : NoSignal s action)
    (taken : system.step s action = some next)
    : system.Matches (Isolated k) next t (withoutClient k s action) := by
  obtain ⟨tracked, other, agree⟩ := isolated
  have move := Move.of_step taken
  have step := tracked.view_move move
  unfold withoutClient
  split
  next concerned =>
    refine ⟨tracked.move move, other, agree.skip (fun there => ?_) quiet.1 step
      ((tracked.concerns_iff k action).mpr concerned)⟩
    have at_ := t.at_place
    rw [there] at at_
    cases at_ with
    | loop here => exact State.held_none (by simp [here, Pc.chunk?])
  next elsewhere =>
    obtain ⟨w, step', agree'⟩ := agree.follow quiet step fun concerned =>
      elsewhere ((tracked.concerns_iff k action).mp concerned)
    obtain ⟨after, taken', rfl⟩ := other.step_of_view step'
    exact ⟨after, taken', tracked.move move, other.move (.of_step taken'), agree'⟩

/-- A server that has just started agrees with itself. -/
theorem Started.isolated {s : State} (started : Started s) (k : Nat) : Isolated k s s where
  tracked := started.tracked
  other := started.tracked
  agree := by
    have here : s.view.place = .loop := State.place_loop started.pc
    have batch : s.view.batch = [] := by simp [State.view, started.batch]
    exact ⟨Or.inl rfl, by simp [here], by simp [here], by simp [batch], rfl, rfl,
      fun _ _ => rfl, fun _ _ => Iff.rfl, fun _ _ => Iff.rfl, fun _ _ => Iff.rfl, fun _ _ => rfl⟩

/-- The two servers treat client `c` alike: its connection has had the same bytes in the same
order, it is open, registered and has an event waiting in both or in none, and both hold the
same bytes to be sent to it.
-/
structure SameFor (c : Nat) (s t : State) : Prop where
  connection : s.connections c = t.connections c
  opened
    : (∃ fd, s.table.lookup fd = some (.client c))
      ↔ ∃ fd, t.table.lookup fd = some (.client c)
  listed
    : (∃ entry ∈ s.epoll.interest, entry.file = .client c)
      ↔ ∃ entry ∈ t.epoll.interest, entry.file = .client c
  queued
    : (∃ entry ∈ s.epoll.interest, entry.file = .client c ∧ entry.fd ∈ s.epoll.queued)
      ↔ ∃ entry ∈ t.epoll.interest, entry.file = .client c ∧ entry.fd ∈ t.epoll.queued
  waiting : c ∈ s.backlog ↔ c ∈ t.backlog
  pending : s.held c = t.held c

/-- What the projection leaves is nothing client `k` does. -/
theorem not_ofClient_of_left {k : Nat} {s : State} {whole action : Action}
    (left : withoutClient k s whole = some action)
    : ¬ action.ofClient k := by
  obtain ⟨elsewhere, same⟩ := Option.ite_none_left_eq_some.mp left
  obtain rfl := Option.some.inj same
  cases whole with
  | arrive _ _ | endStream _ | resetPeer _ => exact elsewhere
  | _ => exact id

/-- After the run the server is alive, and to every other client it is as if client `k` had
never said a word: the same run without client `k` and the work for it is possible and ends
in a state that is the same for them.
-/
def FaultIsolated (start : State) (actions : List Action) (s : State) (k : Nat) : Prop :=
  s.pc ≠ .dead
  ∧ (∀ action ∈ system.project (withoutClient k) start actions, ¬ action.ofClient k)
  ∧ ∃ t,
      system.exec start (system.project (withoutClient k) start actions) = some t
      ∧ ∀ c, c ≠ k → SameFor c s t

/-- Every client is isolated from the others in runs without a signal. -/
theorem faultIsolated_of_exec {start s : State} {actions : List Action}
    (started : Started start) (run : (system.restrict NoSignal).exec start actions = some s)
    (k : Nat)
    : FaultIsolated start actions s k := by
  obtain ⟨t, run', isolated⟩ := System.exec_project
    (fun _ _ _ _ isolated quiet taken => isolated.matched quiet taken) (started.isolated k) run
  obtain ⟨_, _, agree⟩ := isolated
  refine ⟨fun dead => agree.alive (by simp [State.view, State.place, dead]), ?_, t, run', ?_⟩
  · intro action member
    obtain ⟨_, _, left⟩ := System.left_of_mem_project member
    exact not_ofClient_of_left left
  · intro c different
    exact ⟨agree.connections c different, agree.opened c different, agree.listed c different,
      agree.queued c different, iff_of_eq (congrArg _ agree.backlog), agree.held c different⟩

end LinuxStudy.EpollTest
