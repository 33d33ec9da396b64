import Mathlib.Algebra.GroupWithZero.Nat
import LinuxStudy.TcpEcho.ManyClients
import LinuxStudy.Transition.Progress
import LinuxStudy.Transition.Relaunch

/-! The workers of one `tcp_echo_client` share the input, and get their echoes one after the
other. All of them end, and the input has been echoed once.
-/

namespace LinuxStudy.TcpEcho

open Transition Posix

-----------------------------------------------------------------------------------------
-- A connection between two steps of its process
-----------------------------------------------------------------------------------------

/-- A connection that is given the input of the process. -/
theorem Piped.plug {typed : Bytes} {c : State} (piped : Piped typed c)
    (whole : c.clientFailed = false) (own : c.stdin = []) (stdin : Bytes)
    : Piped (typed ++ stdin) { c with stdin } := by
  refine ⟨.inl ?_, piped.up, piped.held, piped.down, piped.shown⟩
  have all : c.sent ++ c.toSend = typed := by
    simpa [own] using piped.typed.resolve_right fun lost => by simp [whole] at lost
  exact congrArg (· ++ stdin) all

theorem Piped.unplug {typed : Bytes} {c : State} (piped : Piped (typed ++ c.stdin) c)
    (whole : c.clientFailed = false)
    : Piped typed { c with stdin := [] } := by
  refine ⟨.inl ?_, piped.up, piped.held, piped.down, piped.shown⟩
  have all := piped.typed.resolve_right fun lost => by simp [whole] at lost
  change c.sent ++ c.toSend ++ [] = typed
  simpa using List.append_cancel_right all

/-- Every step takes what `fgets` returns from the front of the input. -/
theorem Move.stdin_eq {c next : State} {action : Action} (move : Move c action next)
    : c.stdin
      = (if action = .fgets then fgetsLine bufSize c.stdin else []) ++ next.stdin := by
  cases move with
  | inputEnds here done => simp [done, fgetsLine]
  | fgets here =>
      obtain ⟨rest, split⟩ := fgetsLine_prefix bufSize c.stdin
      have behind : c.stdin.drop (fgetsLine bufSize c.stdin).length = rest := by
        conv_lhs => rw [← split]
        exact List.drop_left' (by rw [split])
      simp [behind, split]
  | _ => rfl

/-- A call that does not fail marks no failure. -/
theorem Move.whole {c next : State} {action : Action} (move : Move c action next)
    (client : action ≠ .clientSendFails ∧ action ≠ .clientRecvFails)
    (server : action ≠ .serverSendFails ∧ action ≠ .serverRecvFails)
    : next.clientFailed = c.clientFailed ∧ next.serverFailed = c.serverFailed := by
  cases move <;> simp_all

/-- The two threads of the client leave the server's loop alone. -/
theorem Move.ofClient {c next : State} {action : Action} (move : Move c action next)
    (client : ManyClients.isServer action = false)
    : next.serverPc = c.serverPc ∧ next.serverRead = c.serverRead := by
  cases move <;> simp_all [ManyClients.isServer]

/-- Both sides shut their streams down when they leave their loops. -/
def State.Shut (c : State) : Prop :=
  (c.sendPc = .finished → c.uplinkEnded = true)
  ∧ (c.serverPc = .closed → c.downlinkEnded = true)

theorem Move.shut {c next : State} {action : Action} (move : Move c action next)
    (shut : c.Shut)
    : next.Shut := by
  obtain ⟨sender, server⟩ := shut
  cases move
  case measure => exact ⟨by simp only; split <;> simp, server⟩
  all_goals
    constructor <;> simp_all

/-- Only `close` ends the server's loop for a connection. -/
theorem Move.serverPc_closed {c next : State} {action : Action} (move : Move c action next)
    (open_ : c.serverPc ≠ .closed)
    : next.serverPc = .closed ↔ action = .serverClose := by
  cases move <;> simp_all

namespace ManyClients

variable {capacity : Nat} {arguments : List Bytes} {input : Bytes} {s next : State}
  {action : Action} {i : Nat} {w : Worker}

-----------------------------------------------------------------------------------------
-- The steps
-----------------------------------------------------------------------------------------

inductive Move (capacity : Nat) (s : State) : Action → State → Prop
  | create {worker} (found : s.workers[s.created]? = some worker)
    : Move capacity s .main
        { s with
          workers := s.workers.set s.created { worker with pc := .connect }
          created := s.created + 1 }
  | join {worker} (all : s.workers.length ≤ s.created)
    (found : s.workers[s.joined]? = some worker) (closed : worker.pc = .closed)
    : Move capacity s .main { s with joined := s.joined + 1 }
  | connect {i worker} (found : s.workers[i]? = some worker) (here : worker.pc = .connect)
    : Move capacity s (.connect i)
        { s with
          workers := s.workers.set i { worker with pc := .running }
          waiting := s.waiting ++ [i] }
  | accept {i waiting} (idle : s.serving = none) (first : s.waiting = i :: waiting)
    : Move capacity s .accept { s with serving := some i, waiting }
  | onConnection {i action worker next} (found : s.workers[i]? = some worker)
    (here : worker.pc = .running) (own : isServer action = true → s.serving = some i)
    (taken : TcpEcho.step { worker.connection with stdin := s.stdin } action = some next)
    : Move capacity s (.onConnection i action)
        { s with
          stdin := next.stdin
          workers := s.workers.set i { worker with connection := { next with stdin := [] } }
          serving := if action = .serverClose then none else s.serving
          reads :=
            if action = .fgets then s.reads ++ [(i, fgetsLine bufSize s.stdin)] else s.reads }
  | close {i worker} (found : s.workers[i]? = some worker) (here : worker.pc = .running)
    (sent : worker.connection.sendPc = .finished)
    (received : worker.connection.recvPc = .finished)
    : Move capacity s (.close i)
        { s with workers := s.workers.set i { worker with pc := .closed } }

theorem Move.of_step (taken : step capacity s action = some next)
    : Move capacity s action next := by
  cases action with
  | main =>
      simp only [step, ManyClients.main] at taken
      split at taken
      next worker found => exact Option.some.inj taken ▸ .create found
      next none =>
        split at taken
        next worker found =>
          obtain ⟨closed, same⟩ := Option.ite_none_right_eq_some.mp taken
          exact Option.some.inj same ▸ .join (List.getElem?_eq_none_iff.mp none) found closed
        next => contradiction
  | connect i =>
      obtain ⟨worker, found, taken⟩ := Option.bind_eq_some_iff.mp taken
      obtain ⟨⟨here, _⟩, same⟩ := Option.ite_none_right_eq_some.mp taken
      exact Option.some.inj same ▸ .connect found here
  | accept =>
      simp only [step, ManyClients.accept] at taken
      split at taken
      next i waiting idle first => exact Option.some.inj taken ▸ .accept idle first
      next => contradiction
  | onConnection i action =>
      obtain ⟨worker, found, taken⟩ := Option.bind_eq_some_iff.mp taken
      obtain ⟨⟨here, _, own⟩, taken⟩ := Option.ite_none_right_eq_some.mp taken
      obtain ⟨after, ran, rfl⟩ := Option.map_eq_some_iff.mp taken
      exact .onConnection found here own ran
  | close i =>
      obtain ⟨worker, found, taken⟩ := Option.bind_eq_some_iff.mp taken
      obtain ⟨⟨here, sent, received⟩, same⟩ := Option.ite_none_right_eq_some.mp taken
      exact Option.some.inj same ▸ .close found here sent received

-----------------------------------------------------------------------------------------
-- The workers
-----------------------------------------------------------------------------------------

/-- Where a worker is for the server, which may have its connection waiting or accepted. -/
inductive Stage (waits serves : Prop) (w : Worker) : Prop
  | early (pc : w.pc = .unborn ∨ w.pc = .connect) (new : w.connection = TcpEcho.start [])
    (away : ¬ waits ∧ ¬ serves)
  | waiting (pc : w.pc = .running) (here : waits) (away : ¬ serves)
    (untouched : w.connection.serverPc = .recv ∧ w.connection.serverRead = [])
  | serving (pc : w.pc = .running) (here : serves) (away : ¬ waits)
    (unclosed : w.connection.serverPc ≠ .closed)
  | served (pc : w.pc = .running ∨ w.pc = .closed) (away : ¬ waits ∧ ¬ serves)
    (closed : w.connection.serverPc = .closed)

/-- The pipe and the ends of its loops, as for a single client, with what the worker has read
as its input.
-/
structure Working (s : State) (i : Nat) (w : Worker) : Prop where
  piped : Piped (s.typed i) w.connection
  ending : Ending { w.connection with stdin := s.stdin }
  whole : w.connection.clientFailed = false ∧ w.connection.serverFailed = false
  own : w.connection.stdin = []
  shut : w.connection.Shut
  born : w.pc = .unborn ↔ s.created ≤ i
  joined : i < s.joined → w.pc = .closed
  finished
    : w.pc = .closed → w.connection.sendPc = .finished ∧ w.connection.recvPc = .finished
  stage : Stage (i ∈ s.waiting) (s.serving = some i) w

structure Kept (input : Bytes) (s : State) : Prop where
  input : (s.reads.map Prod.snd).flatten ++ s.stdin = input
  nodup : s.waiting.Nodup
  known : ∀ i, i ∈ s.waiting ∨ s.serving = some i → i < s.workers.length
  room : s.joined ≤ s.workers.length
  working : ∀ i w, s.workers[i]? = some w → Working s i w

/-- A worker that a step leaves alone. -/
theorem Working.of_same (working : Working s i w) (ended : s.stdin = [] → next.stdin = [])
    (typed : next.typed i = s.typed i) (born : next.created ≤ i ↔ s.created ≤ i)
    (joined : i < next.joined → w.pc = .closed) (waiting : i ∈ next.waiting ↔ i ∈ s.waiting)
    (serving : next.serving = some i ↔ s.serving = some i)
    : Working next i w := by
  obtain ⟨piped, ending, whole, own, shut, wasBorn, _, finished, stage⟩ := working
  refine ⟨typed ▸ piped, ?_, whole, own, shut, wasBorn.trans born.symm, joined, finished, ?_⟩
  · obtain ⟨stdin, uplink, server, downlink, client⟩ := ending
    exact ⟨fun here => (stdin here).imp_right ended, uplink, server, downlink, client⟩
  · rw [waiting, serving]
    exact stage

/-- Replacing a worker leaves the others. -/
theorem found_set {workers : List Worker} {j : Nat} {new other : Worker}
    (found : (workers.set i new)[j]? = some other)
    : j = i ∧ other = new ∨ j ≠ i ∧ workers[j]? = some other := by
  by_cases same : j = i
  · subst same
    have inside : j < workers.length := by
      simpa using (List.getElem?_eq_some_iff.mp found).1
    rw [List.getElem?_set_self inside] at found
    exact .inl ⟨rfl, (Option.some.inj found).symm⟩
  · rw [List.getElem?_set_ne (Ne.symm same)] at found
    exact .inr ⟨same, found⟩

/-- What a worker has typed is part of the input. -/
theorem Kept.typed_nulFree (kept : Kept input s) (nulFree : 0 ∉ input) (i : Nat)
    : 0 ∉ s.typed i ++ s.stdin := by
  intro member
  refine nulFree ?_
  rw [← kept.input]
  refine (List.mem_append.mp member).elim (fun typed => ?_) (List.mem_append_right _)
  obtain ⟨piece, listed, inside⟩ := List.mem_flatten.mp typed
  obtain ⟨read, filtered, rfl⟩ := List.mem_map.mp listed
  exact List.mem_append_left _ (List.mem_flatten_of_mem
    (List.mem_map_of_mem (List.mem_of_mem_filter filtered)) inside)

/-- A worker after a statement on its connection. -/
theorem Working.onConnection {after : TcpEcho.State} {call : TcpEcho.Action} {reads : Bytes}
    (working : Working s i w) (nulFree : 0 ∉ s.typed i ++ s.stdin) (here : w.pc = .running)
    (own : isServer call = true → s.serving = some i)
    (move : TcpEcho.Move { w.connection with stdin := s.stdin } call after)
    (client : call ≠ .clientSendFails ∧ call ≠ .clientRecvFails)
    (server : call ≠ .serverSendFails ∧ call ≠ .serverRecvFails)
    (stdin : next.stdin = after.stdin)
    (typed : next.typed i = s.typed i ++ reads) (read : s.stdin = reads ++ after.stdin)
    (counters : next.created = s.created ∧ next.joined = s.joined)
    (waiting : next.waiting = s.waiting)
    (serving : next.serving = if call = .serverClose then none else s.serving)
    : Working next i { w with connection := { after with stdin := [] } } := by
  obtain ⟨piped, ending, whole, ownStdin, shut, born, joined, finished, stage⟩ := working
  have marks := move.whole client server
  have failed : after.clientFailed = false := marks.1.trans whole.1
  have passed : Piped (s.typed i ++ s.stdin) after :=
    (piped.plug whole.1 ownStdin s.stdin).move nulFree move
  refine ⟨?_, ?_, ⟨failed, marks.2.trans whole.2⟩, rfl, move.shut shut, ?_, ?_, fun closed => ?_,
    ?_⟩
  · rw [typed]
    refine Piped.unplug ?_ failed
    rw [List.append_assoc, ← read]
    exact passed
  · rw [stdin]
    exact ending.move move
  · rw [counters.1]
    exact born
  · rw [counters.2]
    exact joined
  · simp [here] at closed
  · rw [waiting, serving]
    cases stage with
    | early pc => simp [here] at pc
    | waiting pc waits away untouched =>
        have local_ : isServer call = false := by
          by_contra remote
          exact away (own (by simpa using remote))
        have same := move.ofClient local_
        have kept : ¬ (if call = .serverClose then none else s.serving) = some i := by
          split
          · simp
          · exact away
        exact .waiting pc waits kept ⟨same.1.trans untouched.1, same.2.trans untouched.2⟩
    | serving pc serves away unclosed =>
        by_cases close : call = .serverClose
        · exact .served (.inl pc) ⟨away, by simp [close]⟩
            ((move.serverPc_closed unclosed).mpr close)
        · exact .serving pc (by simpa [close] using serves) away
            ((move.serverPc_closed unclosed).not.mpr close)
    | served pc away closed =>
        have local_ : isServer call = false := by
          by_contra remote
          exact away.2 (own (by simpa using remote))
        have same := move.ofClient local_
        have kept : ¬ (if call = .serverClose then none else s.serving) = some i := by
          split
          · simp
          · exact away.2
        exact .served pc ⟨away.1, kept⟩ (same.1.trans closed)

/-- A worker whose place changes, with its connection and the input as they are. -/
theorem Working.place {pc : WorkerPc} (working : Working s i w)
    (stdin : next.stdin = s.stdin) (typed : next.typed i = s.typed i)
    (born : pc = .unborn ↔ next.created ≤ i) (joined : i < next.joined → pc = .closed)
    (finished
      : pc = .closed → w.connection.sendPc = .finished ∧ w.connection.recvPc = .finished)
    (stage : Stage (i ∈ next.waiting) (next.serving = some i) { w with pc })
    : Working next i { w with pc } :=
  ⟨typed ▸ working.piped, stdin ▸ working.ending, working.whole, working.own, working.shut,
    born, joined, finished, stage⟩

theorem Kept.main (kept : Kept input s) (move : Move capacity s .main next)
    : Kept input next := by
  cases move with
  | create found =>
      have inside := (List.getElem?_eq_some_iff.mp found).1
      have working := kept.working _ _ found
      have unborn := working.born.mpr (Nat.le_refl _)
      refine ⟨kept.input, kept.nodup, by simpa using kept.known, by simpa using kept.room,
        fun j other at_ => ?_⟩
      rcases found_set at_ with ⟨rfl, rfl⟩ | ⟨apart, at_⟩
      · refine working.place rfl rfl ?_ (fun early => ?_) nofun ?_
        · simp
        · simp [working.joined early] at unborn
        · cases working.stage with
          | early _ new away => exact .early (.inr rfl) new away
          | waiting pc | serving pc | served pc => simp [unborn] at pc
      · refine (kept.working j other at_).of_same id rfl ?_ (kept.working j other at_).joined .rfl
          .rfl
        change s.created + 1 ≤ j ↔ s.created ≤ j
        omega
  | join all found closed =>
      refine ⟨kept.input, kept.nodup, kept.known, (List.getElem?_eq_some_iff.mp found).1,
        fun j other at_ => ?_⟩
      refine (kept.working j other at_).of_same id rfl .rfl (fun early => ?_) .rfl .rfl
      rcases Nat.lt_succ_iff_lt_or_eq.mp early with before | rfl
      · exact (kept.working j other at_).joined before
      · obtain rfl := Option.some.inj (found.symm.trans at_)
        exact closed

theorem Kept.connect (kept : Kept input s) (move : Move capacity s (.connect i) next)
    : Kept input next := by
  cases move with
  | @connect _ worker found here =>
      have inside := (List.getElem?_eq_some_iff.mp found).1
      have working := kept.working _ _ found
      obtain ⟨new, absent, unserved⟩ : worker.connection = TcpEcho.start []
          ∧ i ∉ s.waiting ∧ s.serving ≠ some i := by
        cases working.stage with
        | early _ new away => exact ⟨new, away⟩
        | waiting pc | serving pc | served pc => simp [here] at pc
      refine ⟨kept.input, ?_, ?_, by simpa using kept.room, fun j other at_ => ?_⟩
      · exact List.nodup_append.mpr ⟨kept.nodup, by simp, fun a waits b one =>
          fun same => absent (List.mem_singleton.mp one ▸ same ▸ waits)⟩
      · rintro j (waits | serves)
        · rcases List.mem_append.mp waits with old | one
          · simpa using kept.known j (.inl old)
          · obtain rfl := List.mem_singleton.mp one
            simpa using inside
        · simpa using kept.known j (.inr serves)
      · rcases found_set at_ with ⟨rfl, rfl⟩ | ⟨apart, at_⟩
        · refine working.place rfl rfl ?_ (fun early => ?_) nofun ?_
          · simpa [here] using working.born
          · simp [working.joined early] at here
          · exact .waiting rfl (by simp) unserved ⟨by simp [new, TcpEcho.start],
              by simp [new, TcpEcho.start]⟩
        · refine (kept.working j other at_).of_same id rfl .rfl (kept.working j other at_).joined
            ?_ .rfl
          simp [apart]

theorem Kept.accept (kept : Kept input s) (move : Move capacity s .accept next)
    : Kept input next := by
  cases move with
  | @accept i waiting idle first =>
      have nodup := kept.nodup
      rw [first] at nodup
      obtain ⟨absent, nodup⟩ := List.nodup_cons.mp nodup
      refine ⟨kept.input, nodup, ?_, kept.room, fun j other at_ => ?_⟩
      · rintro j (waits | serves)
        · exact kept.known j (.inl (first ▸ List.mem_cons_of_mem i waits))
        · obtain rfl := Option.some.inj serves
          exact kept.known i (.inl (first ▸ List.mem_cons_self))
      · have working := kept.working j other at_
        by_cases same : j = i
        · subst same
          refine working.place rfl rfl working.born working.joined working.finished ?_
          cases working.stage with
          | early _ _ away => exact absurd (first ▸ List.mem_cons_self) away.1
          | waiting pc _ _ untouched =>
              exact .serving pc rfl absent (by simp [untouched.1])
          | serving pc here => simp [idle] at here
          | served _ away => exact absurd (first ▸ List.mem_cons_self) away.1
        · refine working.of_same id rfl .rfl working.joined ?_ ?_
          · simp [first, same]
          · simp [idle, Ne.symm same]

theorem Kept.close (kept : Kept input s) (move : Move capacity s (.close i) next)
    : Kept input next := by
  cases move with
  | @close _ worker found here sent received =>
      have working := kept.working _ _ found
      have ended := (working.ending.client (.inr received)).resolve_left (by simp [working.whole])
      have closed : worker.connection.serverPc = .closed := working.ending.downlink ended.2
      refine ⟨kept.input, kept.nodup, by simpa using kept.known, by simpa using kept.room,
        fun j other at_ => ?_⟩
      rcases found_set at_ with ⟨rfl, rfl⟩ | ⟨apart, at_⟩
      · refine working.place rfl rfl ?_ (fun _ => rfl) (fun _ => ⟨sent, received⟩) ?_
        · simpa [here] using working.born
        · cases working.stage with
          | early pc => simp [here] at pc
          | waiting _ _ _ untouched => simp [closed] at untouched
          | serving _ _ _ unclosed => exact absurd closed unclosed
          | served _ away closed => exact .served (.inr rfl) away closed
      · exact (kept.working j other at_).of_same id rfl .rfl (kept.working j other at_).joined .rfl
          .rfl

theorem Kept.onConnection {call : TcpEcho.Action} (kept : Kept input s) (nulFree : 0 ∉ input)
    (succeeds : Succeeds s (.onConnection i call))
    (move : Move capacity s (.onConnection i call) next)
    : Kept input next := by
  obtain ⟨sends, receives, serverSends, serverReceives⟩ := succeeds
  cases move with
  | @onConnection _ _ worker after found here own taken =>
      have working := kept.working _ _ found
      have move := TcpEcho.Move.of_step taken
      have split := move.stdin_eq
      have typed (j : Nat)
          : State.typed { s with
              reads :=
                if call = .fgets then s.reads ++ [(i, fgetsLine bufSize s.stdin)]
                else s.reads } j
            = s.typed j
              ++ if j = i ∧ call = .fgets then fgetsLine bufSize s.stdin else [] := by
        by_cases reads : call = .fgets
        · by_cases same : j = i
          · simp [State.typed, reads, same]
          · simp [State.typed, reads, same, Ne.symm same]
        · simp [State.typed, reads]
      refine ⟨?_, kept.nodup, ?_, by simpa using kept.room, fun j other at_ => ?_⟩
      · rw [← kept.input]
        by_cases reads : call = .fgets
        · simp only [reads, if_true] at split ⊢
          simp [← split]
        · simp only [reads, if_false, List.nil_append] at split ⊢
          rw [split]
      · rintro j (waits | serves)
        · simpa using kept.known j (.inl waits)
        · simpa using kept.known j (.inr (Option.ite_none_left_eq_some.mp serves).2)
      · rcases found_set at_ with ⟨rfl, rfl⟩ | ⟨apart, at_⟩
        · refine working.onConnection (kept.typed_nulFree nulFree j) here own move
            ⟨sends, receives⟩ ⟨serverSends, serverReceives⟩ rfl ((typed j).trans ?_) split
            ⟨rfl, rfl⟩ rfl rfl
          simp
        · have working := kept.working j other at_
          refine working.of_same (fun ended => ?_) ((typed j).trans ?_) .rfl working.joined .rfl ?_
          · have nothing : s.stdin = [] := ended
            rw [nothing] at split
            exact (List.append_eq_nil_iff.mp split.symm).2
          · simp [apart]
          · by_cases close : call = .serverClose
            · have serves := own (by simp [close, isServer])
              simp [close, serves, Ne.symm apart]
            · simp [close]

theorem Kept.move (kept : Kept input s) (nulFree : 0 ∉ input) (succeeds : Succeeds s action)
    (move : Move capacity s action next)
    : Kept input next := by
  cases action with
  | main => exact kept.main move
  | connect i => exact kept.connect move
  | accept => exact kept.accept move
  | onConnection i call => exact kept.onConnection nulFree succeeds move
  | close i => exact kept.close move

theorem kept_start : Kept input (start arguments input) := by
  refine ⟨rfl, List.nodup_nil, by simp [start], Nat.zero_le _, fun i w found => ?_⟩
  rw [start, List.getElem?_replicate] at found
  obtain ⟨inside, same⟩ := Option.ite_none_right_eq_some.mp found
  obtain rfl := Option.some.inj same
  refine ⟨⟨.inl rfl, rfl, .inl rfl, rfl, rfl⟩, ?_, ⟨rfl, rfl⟩, rfl, ⟨nofun, nofun⟩, ?_, ?_, nofun,
    ?_⟩
  · constructor <;> simp [TcpEcho.start]
  · simp [start]
  · simp [start]
  · exact .early (.inl rfl) rfl (by simp [start])

theorem kept_of_reachable (nulFree : 0 ∉ input)
    (reached : (system capacity arguments input).ReachableBy Succeeds s)
    : Kept input s := by
  apply reached.invariant
  · rintro _ rfl
    exact kept_start
  · intro s action next _ kept succeeds taken
    exact kept.move nulFree succeeds (.of_step taken)

-----------------------------------------------------------------------------------------
-- One after the other
-----------------------------------------------------------------------------------------

/-- A worker that the server has left has found the end of the input. -/
theorem Working.input_ended (working : Working s i w)
    (closed : w.connection.serverPc = .closed)
    : s.stdin = [] := by
  have ended := (working.ending.server (.inr closed)).resolve_left (by simp [working.whole])
  have finished : w.connection.sendPc = .finished := working.ending.uplink ended.2
  exact (working.ending.input (.inr finished)).resolve_left (by simp [working.whole])

/-- As long as there is input, only the worker whose connection is accepted has an echo. -/
theorem Working.serving_of_printed (working : Working s i w) (more : s.stdin ≠ [])
    (shown : w.connection.printed ≠ [])
    : s.serving = some i := by
  obtain ⟨printed, clientRead, echoed, _⟩ := working.piped.chain
  have read : w.connection.serverRead ≠ [] := fun none => by
    have nothing := (printed.trans clientRead).trans echoed
    rw [none] at nothing
    exact shown (List.prefix_nil.mp nothing)
  cases working.stage with
  | early _ new => simp [new, TcpEcho.start] at shown
  | waiting _ _ _ untouched => exact absurd untouched.2 read
  | serving _ here => exact here
  | served _ _ closed => exact absurd (working.input_ended closed) more

/-- The workers cut the input into pieces, each of them read by one worker. What a worker
prints is a beginning of what it has read. Before the end of the input no second worker prints
anything.
-/
theorem echoes_inTurn (nulFree : 0 ∉ input)
    (reached : (system capacity arguments input).ReachableBy Succeeds s)
    : (s.reads.map Prod.snd).flatten ++ s.stdin = input
      ∧ (∀ (i : Nat) (w : Worker),
          s.workers[i]? = some w → w.connection.printed <+: s.typed i)
      ∧ (s.stdin ≠ []
        → ∀ (i j : Nat) (v w : Worker),
          s.workers[i]? = some v
          → s.workers[j]? = some w
          → v.connection.printed ≠ []
          → w.connection.printed ≠ []
          → i = j) := by
  have kept := kept_of_reachable nulFree reached
  refine ⟨kept.input, fun i w found => ?_, fun more i j v w found found' shown shown' => ?_⟩
  · obtain ⟨printed, clientRead, echoed, serverRead, sent⟩ := (kept.working i w found).piped.chain
    exact (((printed.trans clientRead).trans echoed).trans serverRead).trans sent
  · have here := (kept.working i v found).serving_of_printed more shown
    have there := (kept.working j w found').serving_of_printed more shown'
    exact Option.some.inj (here.symm.trans there)

/-- Two workers; the second one reads the second line and waits. -/
def twoWorkers : List Action :=
  [.main, .main, .connect 0, .connect 1, .accept, .onConnection 0 .fgets,
    .onConnection 1 .fgets, .onConnection 0 .measure, .onConnection 0 .clientSend,
    .onConnection 0 (.serverRecv 2), .onConnection 0 .serverPrint, .onConnection 0 .serverSend,
    .onConnection 0 (.clientRecv 2), .onConnection 0 .clientPrint]

/-- `tcp_echo_client 2` with the lines "a", "b" and "c": the first worker prints "a\n", and the
second one nothing yet.
-/
theorem echoes_inTurn_twoWorkers
    : ∃ s : State,
        s.stdin = [99, 10]
        ∧ (s.workers.map fun w => w.connection.printed) = [[97, 10], []]
        ∧ (s.reads.map Prod.snd).flatten ++ s.stdin = [97, 10, 98, 10, 99, 10] := by
  have run
      : (((system 1 [[50]] [97, 10, 98, 10, 99, 10]).restrict Succeeds).exec
          (start [[50]] [97, 10, 98, 10, 99, 10]) twoWorkers).isSome := by
    rfl
  have reached
      : (system 1 [[50]] [97, 10, 98, 10, 99, 10]).ReachableBy Succeeds
          ((((system 1 [[50]] [97, 10, 98, 10, 99, 10]).restrict Succeeds).exec
            (start [[50]] [97, 10, 98, 10, 99, 10]) twoWorkers).get run) :=
    System.reachable_restrict_iff.mp (System.reachable_of_run _ rfl _ run)
  exact ⟨_, rfl, rfl, (echoes_inTurn (by decide) reached).1⟩

end ManyClients

end LinuxStudy.TcpEcho
