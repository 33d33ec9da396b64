import LinuxStudy.TcpEcho.ClientsInTurn

/-! However the workers and the server take turns, all workers end, and what they have printed
is what they have read.
-/

namespace LinuxStudy.TcpEcho

open Transition Posix

-----------------------------------------------------------------------------------------
-- What is left to do on a connection
-----------------------------------------------------------------------------------------

def SendPc.rank : SendPc → Nat
  | .finished => 0
  | .shutdown => 1
  | .fgets => 2
  | .send => 3
  | .measure => 4

def ServerPc.rank : ServerPc → Nat
  | .closed => 0
  | .close => 1
  | .recv => 2
  | .send _ => 3
  | .print _ => 4

def RecvPc.rank : RecvPc → Nat
  | .finished => 0
  | .shutdown => 1
  | .recv => 2
  | .print => 3

/-- Each byte counts for the calls that it has still to pass. -/
def State.load (c : State) : Nat :=
  15 * c.toSend.length + 12 * c.uplink.length + 9 * c.held.length + 6 * c.downlink.length
    + 3 * c.toPrint.length + c.sendPc.rank + c.serverPc.rank + c.recvPc.rank

/-- What `fgets` takes from the input has some bytes, and is what is sent next. -/
theorem length_fgets {c next : State} (nulFree : 0 ∉ c.stdin) (taken : fgets c = some next)
    (read : next.sendPc = .measure)
    : 0 < (cString next.sendBuf).length
      ∧ (cString next.sendBuf).length + next.stdin.length = c.stdin.length := by
  obtain ⟨here, taken⟩ := Option.ite_none_right_eq_some.mp taken
  simp only at taken
  split at taken
  next none =>
    obtain rfl := Option.some.inj taken
    simp at read
  next more =>
    obtain rfl := Option.some.inj taken
    have front := List.IsPrefix.length_le <| fgetsLine_prefix bufSize c.stdin
    have whole := congrArg List.length (@fgets_line c.stdin c.sendBuf nulFree)
    have positive := List.length_pos_of_ne_nil more
    simp only [List.length_append, List.length_drop] at whole
    simp only [List.length_drop]
    omega

/-- Every call brings a byte further or a loop closer to its end. -/
theorem load_lt {input : Bytes} {c next : State} {action : Action} (piped : Piped input c)
    (nulFree : 0 ∉ input) (taken : step c action = some next)
    : next.load + 18 * next.stdin.length < c.load + 18 * c.stdin.length := by
  cases Move.of_step taken with
  | inputEnds here _ | clientSend here | clientSendFails here | shutdownWrite here
  | serverPrint here | serverSend here | serverSendFails here | serverRecvEnd here _ _
  | serverRecvFails here | serverClose here | clientPrint here | clientRecvEnd here _ _
  | clientRecvFails here | shutdownRead here =>
      simp only [State.load, State.toSend, State.held, State.toPrint, here, SendPc.rank,
        ServerPc.rank, RecvPc.rank, List.length_append, List.length_nil]
      omega
  | measure here =>
      simp only [State.load, State.toSend, State.held, State.toPrint, here, SendPc.rank]
      by_cases empty : (cString c.sendBuf).length = 0
      · simp [empty]
      · simp [empty]
  | fgets here =>
      have typed := piped.running (by simp [here])
      have free : 0 ∉ c.stdin := fun member => by
        rw [← typed] at nulFree
        exact nulFree (List.mem_append_right _ member)
      obtain ⟨positive, split⟩ := length_fgets free taken rfl
      simp only at positive split
      simp only [State.load, State.toSend, State.held, State.toPrint, here, SendPc.rank,
        List.length_nil]
      omega
  | @serverRecv n here available =>
      have positive := (Option.ite_none_right_eq_some.mp taken).1.2.1
      have length : (c.uplink.take n).length = n := by simp [available]
      have stored : (overwrite (List.replicate bufSize 0) (c.uplink.take n)).take n
          = c.uplink.take n := by
        simpa only [length] using
          take_overwrite (List.replicate bufSize 0) (c.uplink.take n)
      simp only [State.load, State.toSend, State.held, State.toPrint, here, ServerPc.rank,
        stored, length, List.length_drop, List.length_nil]
      omega
  | @clientRecv n here available fits =>
      have positive := (Option.ite_none_right_eq_some.mp taken).1.2.1
      have length : (c.downlink.take n).length = n := by simp [available]
      have short : (c.downlink.take n).length < bufSize := by
        have small : n < bufSize := Nat.lt_of_le_of_lt fits (by decide)
        simpa only [length] using small
      have string := cString_overwrite_zeros (piped.downlink_nulFree nulFree n) short
      simp only [State.load, State.toSend, State.held, State.toPrint, here, RecvPc.rank,
        string, length, List.length_drop, List.length_nil]
      omega

-----------------------------------------------------------------------------------------
-- Which call can be made
-----------------------------------------------------------------------------------------

/-- The receiving thread goes on as long as its stream has bytes or has ended. -/
theorem exists_recv {c : State} (stream : c.downlink ≠ [] ∨ c.downlinkEnded = true)
    (running : c.recvPc ≠ .finished)
    : ∃ call ∈ [Action.clientRecv 1, .clientRecvEnd, .clientPrint, .shutdownRead],
        (step c call).isSome := by
  cases here : c.recvPc with
  | recv =>
      by_cases empty : c.downlink = []
      · have ended := stream.resolve_left (by simp [empty])
        exact ⟨.clientRecvEnd, by simp, by simp [step, clientRecvEnd, here, empty, ended]⟩
      · have positive := List.length_pos_of_ne_nil empty
        exact ⟨.clientRecv 1, by simp, Option.isSome_iff_exists.mpr
          ⟨_, if_pos ⟨here, Nat.one_pos, positive, by decide⟩⟩⟩
  | print => exact ⟨.clientPrint, by simp, by simp [step, clientPrint, here]⟩
  | shutdown => exact ⟨.shutdownRead, by simp, by simp [step, shutdownRead, here]⟩
  | finished => exact absurd here running

/-- The sending thread goes on until it has finished. -/
theorem exists_send {c : State} (running : c.sendPc ≠ .finished)
    : ∃ call ∈ [Action.fgets, .measure, .clientSend, .shutdownWrite], (step c call).isSome := by
  cases here : c.sendPc with
  | fgets =>
      refine ⟨.fgets, by simp, ?_⟩
      simp only [step, fgets, here, if_true]
      split <;> rfl
  | measure => exact ⟨.measure, by simp, by simp [step, measure, here]⟩
  | send => exact ⟨.clientSend, by simp, by simp [step, clientSend, here]⟩
  | shutdown => exact ⟨.shutdownWrite, by simp, by simp [step, shutdownWrite, here]⟩
  | finished => exact absurd here running

/-- The server's loop goes on as long as its stream has bytes or has ended. -/
theorem exists_serve {c : State} (stream : c.uplink ≠ [] ∨ c.uplinkEnded = true)
    (open_ : c.serverPc ≠ .closed)
    : ∃ call
        ∈ [Action.serverRecv 1, .serverRecvEnd, .serverPrint, .serverSend, .serverClose],
        (step c call).isSome := by
  cases here : c.serverPc with
  | recv =>
      by_cases empty : c.uplink = []
      · have ended := stream.resolve_left (by simp [empty])
        exact ⟨.serverRecvEnd, by simp, by simp [step, serverRecvEnd, here, empty, ended]⟩
      · have positive := List.length_pos_of_ne_nil empty
        exact ⟨.serverRecv 1, by simp, Option.isSome_iff_exists.mpr
          ⟨_, if_pos ⟨here, Nat.one_pos, positive, by decide⟩⟩⟩
  | print n => exact ⟨.serverPrint, by simp, by simp [step, serverPrint, here]⟩
  | send n => exact ⟨.serverSend, by simp, by simp [step, serverSend, here]⟩
  | close => exact ⟨.serverClose, by simp, by simp [step, serverClose, here]⟩
  | closed => exact absurd here open_

namespace ManyClients

variable {capacity : Nat} {arguments : List Bytes} {input : Bytes} {s next : State}
  {action : Action} {i : Nat} {w : Worker}

/-- Some call that does not fail can be made for the worker. -/
def CanCall (capacity : Nat) (s : State) (i : Nat) : Prop :=
  ∃ call, Succeeds s (.onConnection i call) ∧ (onConnection capacity s i call).isSome

theorem onConnection_isSome {call : TcpEcho.Action} (found : s.workers[i]? = some w)
    (here : w.pc = .running) (free : returned capacity w.connection call = true)
    (own : isServer call = true → s.serving = some i)
    (possible : (TcpEcho.step { w.connection with stdin := s.stdin } call).isSome)
    : (onConnection capacity s i call).isSome := by
  simp only [onConnection, found, Option.bind_some, here, free, true_and]
  rw [if_pos own]
  simpa using possible

/-- A worker with a receiving thread that has something to do. -/
theorem canCall_recv (found : s.workers[i]? = some w) (here : w.pc = .running)
    (stream : w.connection.downlink ≠ [] ∨ w.connection.downlinkEnded = true)
    (running : w.connection.recvPc ≠ .finished)
    : CanCall capacity s i := by
  obtain ⟨call, member, possible⟩ :=
    @exists_recv { w.connection with stdin := s.stdin } stream running
  have local_ : Succeeds s (.onConnection i call)
      ∧ returned capacity w.connection call = true ∧ isServer call = false := by
    rcases List.mem_cons.mp member with rfl | member
    · simp [Succeeds, returned, isServer]
    · simp only [List.mem_cons, List.not_mem_nil, or_false] at member
      rcases member with rfl | rfl | rfl <;> simp [Succeeds, returned, isServer]
  exact ⟨call, local_.1,
    onConnection_isSome found here local_.2.1 (by simp [local_.2.2]) possible⟩

/-- As long as the server has a connection, it or one of the two threads behind it goes on. -/
theorem Working.canCall_serving (working : Working s i w) (found : s.workers[i]? = some w)
    (here : s.serving = some i)
    : CanCall capacity s i := by
  obtain ⟨pc, unclosed⟩ : w.pc = .running ∧ w.connection.serverPc ≠ .closed := by
    cases working.stage with
    | early _ _ away => exact absurd here away.2
    | waiting _ _ away => exact absurd here away
    | serving pc _ _ unclosed => exact ⟨pc, unclosed⟩
    | served _ away => exact absurd here away.2
  have client := working.ending.client
  by_cases full : w.connection.downlink.length ≤ capacity
  · by_cases stream : w.connection.uplink ≠ [] ∨ w.connection.uplinkEnded = true
    · obtain ⟨call, member, possible⟩ :=
        @exists_serve { w.connection with stdin := s.stdin } stream unclosed
      have local_ : Succeeds s (.onConnection i call)
          ∧ returned capacity w.connection call = true := by
        simp only [List.mem_cons, List.not_mem_nil, or_false] at member
        rcases member with rfl | rfl | rfl | rfl | rfl <;> simp [Succeeds, returned, full]
      exact ⟨call, local_.1,
        onConnection_isSome found pc local_.2 (fun _ => here) possible⟩
    · obtain ⟨empty, running⟩ := not_or.mp stream
      have empty : w.connection.uplink = [] := not_not.mp empty
      obtain ⟨call, member, possible⟩ :=
        @exists_send { w.connection with stdin := s.stdin }
          fun finished => running (working.shut.1 finished)
      have local_ : Succeeds s (.onConnection i call)
          ∧ returned capacity w.connection call = true ∧ isServer call = false := by
        simp only [List.mem_cons, List.not_mem_nil, or_false] at member
        rcases member with rfl | rfl | rfl | rfl <;>
          simp [Succeeds, returned, isServer, empty]
      exact ⟨call, local_.1,
        onConnection_isSome found pc local_.2.1 (by simp [local_.2.2]) possible⟩
  · -- the server's last `send` waits for the receiving thread
    have waiting : w.connection.downlink ≠ [] := fun empty => full (by simp [empty])
    refine canCall_recv found pc (.inl waiting) fun finished => ?_
    have ended := (client (.inr finished)).resolve_left (by simp [working.whole])
    exact waiting ended.1

/-- A worker that the server has left goes on until it has closed its connection. -/
theorem Working.canCall_served (working : Working s i w) (found : s.workers[i]? = some w)
    (here : w.pc = .running) (closed : w.connection.serverPc = .closed)
    : CanCall capacity s i ∨ (close s i).isSome := by
  by_cases received : w.connection.recvPc = .finished
  · right
    have ended := (working.ending.server (.inr closed)).resolve_left (by simp [working.whole])
    have sent : w.connection.sendPc = .finished := working.ending.uplink ended.2
    simp [close, found, here, sent, received]
  · exact .inl (canCall_recv found here (.inr (working.shut.2 closed)) received)

/-- Until `main` has joined all workers, some step is possible. -/
theorem Kept.proceeds (kept : Kept input s) (unfinished : s.joined ≠ s.workers.length)
    : ∃ action, Succeeds s action ∧ (step capacity s action).isSome := by
  have call {i : Nat} (can : CanCall capacity s i)
      : ∃ action, Succeeds s action ∧ (step capacity s action).isSome := by
    obtain ⟨call, succeeds, possible⟩ := can
    exact ⟨.onConnection i call, succeeds, possible⟩
  by_cases creating : s.created < s.workers.length
  · refine ⟨.main, trivial, ?_⟩
    simp [step, ManyClients.main, List.getElem?_eq_getElem creating]
  cases serving : s.serving with
  | some i =>
      have inside := kept.known i (.inr serving)
      have found := List.getElem?_eq_getElem inside
      exact call ((kept.working i _ found).canCall_serving found serving)
  | none =>
      cases waiting : s.waiting with
      | cons i rest =>
          exact ⟨.accept, trivial, by simp [step, ManyClients.accept, serving, waiting]⟩
      | nil =>
          by_cases joinable : ∀ w, s.workers[s.joined]? = some w → w.pc = .closed
          · refine ⟨.main, trivial, ?_⟩
            have inside := Nat.lt_of_le_of_ne kept.room unfinished
            have found := List.getElem?_eq_getElem inside
            have none := List.getElem?_eq_none (Nat.not_lt.mp creating)
            simp [step, ManyClients.main, none, found, joinable _ found]
          · obtain ⟨w, found, running⟩ := not_forall₂.mp joinable
            have working := kept.working _ w found
            cases working.stage with
            | early pc =>
                have born : w.pc ≠ .unborn := fun unborn => by
                  have late := working.born.mp unborn
                  have inside := (List.getElem?_eq_some_iff.mp found).1
                  omega
                refine ⟨.connect s.joined, trivial, ?_⟩
                simp [step, ManyClients.connect, found, pc.resolve_left born, waiting, backlog]
            | waiting _ member => simp [waiting] at member
            | serving _ here => simp [serving] at here
            | served pc _ closed =>
                rcases working.canCall_served found (pc.resolve_right running) closed with
                  can | closes
                · exact call can
                · exact ⟨.close s.joined, trivial, closes⟩

-----------------------------------------------------------------------------------------
-- The end
-----------------------------------------------------------------------------------------

def WorkerPc.rank : WorkerPc → Nat
  | .closed => 0
  | .running => 1
  | .connect => 3
  | .unborn => 4

/-- What is left to do for a worker. -/
def Worker.work (w : Worker) : Nat := w.pc.rank + w.connection.load

/-- What is left to do for the process and the server. -/
def State.work (s : State) : Nat :=
  18 * s.stdin.length + (s.workers.map Worker.work).sum + s.waiting.length
    + (s.workers.length - s.joined)

theorem Kept.work_lt (kept : Kept input s) (nulFree : 0 ∉ input)
    (move : Move capacity s action next)
    : next.work < s.work := by
  cases move with
  | @create worker found =>
      have moved := sum_map_set found { worker with pc := .connect } Worker.work
      have unborn := (kept.working _ _ found).born.mpr (Nat.le_refl _)
      simp only [Worker.work, unborn, WorkerPc.rank] at moved
      simp only [State.work, List.length_set]
      omega
  | join all found closed =>
      have inside := (List.getElem?_eq_some_iff.mp found).1
      simp only [State.work]
      omega
  | @connect i worker found here =>
      have moved := sum_map_set found { worker with pc := .running } Worker.work
      simp only [Worker.work, here, WorkerPc.rank] at moved
      simp only [State.work, List.length_set, List.length_append, List.length_singleton]
      omega
  | accept idle first =>
      simp only [State.work, first, List.length_cons]
      omega
  | @onConnection i call worker after found here own taken =>
      have working := kept.working _ _ found
      have passed := load_lt (working.piped.plug working.whole.1 working.own s.stdin)
        (kept.typed_nulFree nulFree i) taken
      have moved := sum_map_set found
        { worker with connection := { after with stdin := [] } } Worker.work
      have load : { after with stdin := [] }.load = after.load := rfl
      change after.load + 18 * after.stdin.length
        < worker.connection.load + 18 * s.stdin.length at passed
      simp only [Worker.work, load] at moved
      simp only [State.work, List.length_set]
      omega
  | @close i worker found here sent received =>
      have moved := sum_map_set found { worker with pc := .closed } Worker.work
      simp only [Worker.work, here, WorkerPc.rank] at moved
      simp only [State.work, List.length_set]
      omega

theorem clientCount_pos (arguments : List Bytes) : 0 < clientCount arguments := by
  cases arguments with
  | nil => exact Nat.one_pos
  | cons argument _ =>
      simp only [clientCount]
      split
      · exact Nat.one_pos
      · omega

/-- No worker is added or lost. -/
theorem Move.length_workers (move : Move capacity s action next)
    : next.workers.length = s.workers.length := by
  cases move <;> simp

/-- `main` has joined all workers. They have read the whole input between them, and each has
printed what it has read.
-/
structure AllEchoed (arguments : List Bytes) (input : Bytes) (s : State) : Prop where
  joined : s.joined = clientCount arguments
  read : (s.reads.map Prod.snd).flatten = input
  printed : ∀ i w, s.workers[i]? = some w → w.connection.printed = s.typed i

/-- A worker that has closed its connection has printed all that it has read. -/
theorem Working.printed_eq (working : Working s i w) (closed : w.pc = .closed)
    : s.stdin = [] ∧ w.connection.printed = s.typed i := by
  obtain ⟨piped, ending, whole, own, _, _, _, finished, _⟩ := working
  obtain ⟨sent, received⟩ := finished closed
  have client : w.connection.clientFailed ≠ true := by simp [whole]
  have server : w.connection.serverFailed ≠ true := by simp [whole]
  have down := (ending.client (.inr received)).resolve_left client
  have loop : w.connection.serverPc = .closed := ending.downlink down.2
  have up := (ending.server (.inr loop)).resolve_left server
  refine ⟨(ending.input (.inr sent)).resolve_left client, ?_⟩
  -- no byte is left in any of the places between the input and the output
  have typed : w.connection.sent = s.typed i := by
    simpa [State.toSend, sent, own] using piped.typed.resolve_right fun lost => client lost.1
  have serverRead : w.connection.serverRead = w.connection.sent := by
    have upward := piped.up
    rw [show w.connection.uplink = [] from up.1] at upward
    simpa using upward
  have echoed : w.connection.echoed = w.connection.serverRead := by
    simpa [State.held, loop] using piped.held.resolve_right fun lost => server lost.1
  have clientRead : w.connection.clientRead = w.connection.echoed := by
    have downward := piped.down
    rw [show w.connection.downlink = [] from down.1] at downward
    simpa using downward
  have printed : w.connection.printed = w.connection.clientRead := by
    simpa [State.toPrint, received] using piped.shown
  rw [printed, clientRead, echoed, serverRead, typed]

theorem Kept.allEchoed (kept : Kept input s)
    (count : s.workers.length = clientCount arguments)
    (joined : s.joined = s.workers.length)
    : AllEchoed arguments input s := by
  have closed (i : Nat) (w : Worker) (found : s.workers[i]? = some w) : w.pc = .closed := by
    refine (kept.working i w found).joined ?_
    rw [joined]
    exact (List.getElem?_eq_some_iff.mp found).1
  have first : 0 < s.workers.length := count ▸ clientCount_pos arguments
  have found := List.getElem?_eq_getElem first
  have ended := ((kept.working 0 _ found).printed_eq (closed 0 _ found)).1
  refine ⟨joined.trans count, ?_, fun i w found => ?_⟩
  · simpa [ended] using kept.input
  · exact ((kept.working i w found).printed_eq (closed i w found)).2

/-- For any number of clients and any room on the connections: as long as no call fails, every
order of the steps ends with all workers joined, the input read once, and each worker having
printed what it has read.
-/
theorem inevitable_allEchoed (nulFree : 0 ∉ input)
    (reached : (system capacity arguments input).ReachableBy Succeeds s)
    : (system capacity arguments input).Inevitable Succeeds (AllEchoed arguments input) s := by
  have count : s.workers.length = clientCount arguments := by
    apply reached.invariant
    · rintro _ rfl
      simp [start]
    · intro s action next _ count _ taken
      exact (Move.of_step taken).length_workers.trans count
  refine .of_measure
    (fun s => Kept input s ∧ s.workers.length = clientCount arguments) State.work ?_ ?_ ?_
    ⟨kept_of_reachable nulFree reached, count⟩
  · rintro s action next ⟨kept, count⟩ succeeds taken
    have move := Move.of_step taken
    exact ⟨kept.move nulFree succeeds move, move.length_workers.trans count⟩
  · rintro s ⟨kept, count⟩
    by_cases joined : s.joined = s.workers.length
    · exact .inl (kept.allEchoed count joined)
    · obtain ⟨action, succeeds, possible⟩ := @Kept.proceeds capacity input s kept joined
      obtain ⟨next, taken⟩ := Option.isSome_iff_exists.mp possible
      exact .inr ⟨action, next, succeeds, taken⟩
  · rintro s action next ⟨kept, _⟩ _ taken
    exact kept.work_lt nulFree (.of_step taken)

/-- Two clients and three lines, on connections that hold one byte. -/
theorem inevitable_allEchoed_twoWorkers
    : (system 1 [[50]] [97, 10, 98, 10, 99, 10]).Inevitable Succeeds
        (AllEchoed [[50]] [97, 10, 98, 10, 99, 10])
        (start [[50]] [97, 10, 98, 10, 99, 10]) :=
  inevitable_allEchoed (by decide) (.initial rfl)

end ManyClients

end LinuxStudy.TcpEcho
