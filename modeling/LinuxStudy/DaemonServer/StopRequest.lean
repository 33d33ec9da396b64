import LinuxStudy.DaemonServer.Steps
import LinuxStudy.Transition.Progress

/-! How `daemon_server.c` stops. The flag `keep_running` is only tested between two calls of
`accept`, so a signal is heard in time when what the server waits for has arrived before it. A
signal inside the `ctime` of a `write_log` never gets out of the handler again.
-/

namespace LinuxStudy.DaemonServer

open Transition Posix

/-- `recv` on this connection would not block. -/
def Server.readable (s : Server) (c : Nat) : Prop := (s.connections c).readable = true

instance (s : Server) (c : Nat) : Decidable (s.readable c) := by
  unfold Server.readable
  infer_instance

/-- A connection waits, and `recv` on the first one would not block. -/
def Server.nextReadable (s : Server) : Prop :=
  match s.backlog with
  | c :: _ => s.readable c
  | [] => False

instance (s : Server) : Decidable s.nextReadable := by
  unfold Server.nextReadable
  split <;> infer_instance

/-- The blocking calls before the next test of `keep_running` return without anything new from
the clients.
-/
def Server.hears (s : Server) (interrupts : Bool) : Prop :=
  match s.pc with
  | .giveUp => False
  | .enterAccept => s.nextReadable
  | .accept => interrupts = true ∨ s.nextReadable
  | .announce c => s.readable c
  | .recv c => interrupts = true ∨ s.readable c
  | _ => True

instance (s : Server) (interrupts : Bool) : Decidable (s.hears interrupts) := by
  unfold Server.hears
  split <;> infer_instance

/-- The condition on the steps: the first request to stop comes at a point where it is heard, no
signal comes inside a `ctime`, no request goes to an ancestor that has forked the daemon, and
after the first request neither a call of the start-up fails nor does `SIGPIPE` end the process.
-/
def HeardInTime (s : Server) : Event → Prop
  | .signal signum interrupts => signum ≠ .hup → s.keepRunning = true → s.hears interrupts
  | .signalInCtime _ _ => False
  | .signalAncestor signum => signum.stops = false
  | .createDaemonFails | .writePidFileFails | .socketFails | .bindFails | .listenFails
  | .sendBroken true => s.keepRunning = true
  | _ => True

instance (s : Server) (event : Event) : Decidable (HeardInTime s event) := by
  unfold HeardInTime
  split <;> infer_instance

-----------------------------------------------------------------------------------------
-- After the request
-----------------------------------------------------------------------------------------

/-- The connection that is going to be served. -/
def Pc.client? : Pc → Option Nat
  | .announce c | .recv c => some c
  | _ => none

/-- Nothing between here and the next test of `keep_running` waits for a client, and only
connections below `n` are served.
-/
def Server.Leaving (s : Server) (n : Nat) : Prop :=
  match s.pc with
  | .giveUp | .failed | .killed => False
  | .enterAccept | .accept => ∃ c rest, s.backlog = c :: rest ∧ c < n ∧ s.readable c
  | .announce c | .recv c => c < n ∧ s.readable c
  | _ => True

/-- The server is on its way out, since `n` connections had arrived. -/
structure Winding (s : Server) (n : Nat) : Prop where
  stopped : s.stoppedAt = some n
  arrived : n ≤ s.connected
  early : ∀ c ∈ s.accepted, c < n
  leaving : s.Leaving n

/-- What holds in every run whose requests are heard in time. -/
structure Heard (s : Server) : Prop where
  awake : s.hung = false
  kept : s.lost = false
  backlog : ∀ c ∈ s.backlog, c < s.connected
  accepted : ∀ c ∈ s.accepted, c < s.connected
  serving : ∀ c ∈ s.pc.client?, c < s.connected
  running : s.keepRunning = true → s.stoppedAt = none
  winding : s.keepRunning = false → ∃ n, Winding s n

section Step

variable {s next : Server} {event : Event}

/-- A step to another point of `main` that changes nothing else. -/
theorem Heard.goto (heard : Heard s) {there : Pc}
    (serving : ∀ c ∈ there.client?, c < s.connected)
    (leaving
      : s.keepRunning = false
        → ∀ n, Winding s n → ({ s with pc := there } : Server).Leaving n)
    : Heard { s with pc := there } where
  awake := heard.awake
  kept := heard.kept
  backlog := heard.backlog
  accepted := heard.accepted
  serving := serving
  running := heard.running
  winding stop := by
    obtain ⟨n, winding⟩ := heard.winding stop
    exact ⟨n, { winding with leaving := leaving stop n winding }⟩

/-- What has arrived stays where it is. -/
theorem Server.Leaving.of_pc {n : Nat} (leaving : s.Leaving n) (pc : next.pc = s.pc)
    (backlog : ∃ more, next.backlog = s.backlog ++ more)
    (readable : ∀ c < n, s.readable c → next.readable c)
    : next.Leaving n := by
  obtain ⟨more, backlog⟩ := backlog
  unfold Server.Leaving at leaving ⊢
  rw [pc]
  cases here : s.pc with
  | enterAccept | accept =>
      rw [here] at leaving
      obtain ⟨c, rest, first, early, ready⟩ := leaving
      exact ⟨c, rest ++ more, by simp [backlog, first], early, readable c early ready⟩
  | announce c | recv c =>
      rw [here] at leaving
      exact ⟨leaving.1, readable c leaving.1 leaving.2⟩
  | giveUp | failed | killed =>
      rw [here] at leaving
      exact leaving
  | _ => trivial

/-- The network changes one connection, and never takes back what can be read. -/
theorem Heard.network (heard : Heard s) {c : Nat} {connection : Connection}
    (grows : (s.connections c).readable = true → connection.readable = true)
    : Heard (s.setConnection c connection) := by
  refine ⟨heard.awake, heard.kept, heard.backlog, heard.accepted, heard.serving, heard.running,
    fun stop => ?_⟩
  obtain ⟨n, winding⟩ := heard.winding stop
  refine ⟨n, { winding with leaving := ?_ }⟩
  refine winding.leaving.of_pc rfl ⟨[], by simp [Server.setConnection]⟩ fun other _ before => ?_
  by_cases mine : other = c
  · subst mine
    simpa [Server.readable, Server.setConnection] using grows before
  · simpa [Server.readable, Server.setConnection, mine] using before

/-- A new connection waits behind those that are there. -/
theorem Heard.connect (heard : Heard s)
    : Heard { s with
        connected := s.connected + 1
        backlog := s.backlog ++ [s.connected]
        connections := Function.update s.connections s.connected {} } where
  awake := heard.awake
  kept := heard.kept
  backlog c member := by
    rcases List.mem_append.mp member with old | new
    · exact Nat.lt_succ_of_lt (heard.backlog c old)
    · exact Nat.lt_succ_of_le (Nat.le_of_eq (List.mem_singleton.mp new))
  accepted c member := Nat.lt_succ_of_lt (heard.accepted c member)
  serving c member := Nat.lt_succ_of_lt (heard.serving c member)
  running := heard.running
  winding stop := by
    obtain ⟨n, winding⟩ := heard.winding stop
    refine ⟨n, { winding with arrived := Nat.le_succ_of_le winding.arrived, leaving := ?_ }⟩
    refine winding.leaving.of_pc rfl ⟨_, rfl⟩ fun c early before => ?_
    have known : c ≠ s.connected := Nat.ne_of_lt (Nat.lt_of_lt_of_le early winding.arrived)
    simpa [Server.readable, known] using before

/-- The point at which a request is heard is one that leads out. -/
theorem Heard.leaving_of_hears (heard : Heard s) (alive : s.pc.alive = true)
    (hears : s.hears false)
    : s.Leaving s.connected := by
  have next (ready : s.nextReadable)
      : ∃ c rest, s.backlog = c :: rest ∧ c < s.connected ∧ s.readable c := by
    unfold Server.nextReadable at ready
    split at ready
    next c rest waiting =>
      exact ⟨c, rest, waiting, heard.backlog c (by simp [waiting]), ready⟩
    next => exact ready.elim
  have serving := heard.serving
  unfold Server.hears at hears
  unfold Server.Leaving
  cases here : s.pc with
  | giveUp => simp [here] at hears
  | failed | killed => simp [here, Pc.alive] at alive
  | enterAccept => exact next (by simpa [here] using hears)
  | accept => exact next (by simpa [here] using hears)
  | announce c | recv c =>
      exact ⟨serving c (by simp [here, Pc.client?]), by simpa [here] using hears⟩
  | _ => trivial

/-- The handler clears the flag, and notes the first request. -/
theorem Heard.handle (heard : Heard s) (signum : Signal) {there : Pc}
    (serving : ∀ c ∈ there.client?, c < s.connected)
    (before
      : s.keepRunning = false
        → ∀ n, Winding s n → ({ s with pc := there } : Server).Leaving n)
    (first
      : signum ≠ .hup
        → s.keepRunning = true
        → ({ s with pc := there } : Server).Leaving s.connected)
    : Heard { signalHandler s signum with pc := there } := by
  cases signum with
  | hup => exact heard.goto serving before
  | term | int =>
      refine ⟨heard.awake, heard.kept, heard.backlog, heard.accepted, serving, ?_, fun _ => ?_⟩
      · simp [signalHandler]
      · cases run : s.keepRunning with
        | true =>
            refine ⟨s.connected, ?_, Nat.le_refl _, heard.accepted, ?_⟩
            · simp [signalHandler, heard.running run]
            · exact first (by simp) run
        | false =>
            obtain ⟨n, winding⟩ := heard.winding run
            refine ⟨n, ?_, winding.arrived, winding.early, before run n winding⟩
            simp [signalHandler, winding.stopped]

/-- A step to a point from which nothing waits, whatever becomes of the connections. -/
theorem Heard.served (heard : Heard s) {connections : Nat → Connection} {there : Pc}
    (free : there.client? = none)
    (leaving
      : ∀ n, ({ s with connections := connections, pc := there } : Server).Leaving n)
    : Heard { s with connections := connections, pc := there } where
  awake := heard.awake
  kept := heard.kept
  backlog := heard.backlog
  accepted := heard.accepted
  serving := by simp [free]
  running := heard.running
  winding stop := by
    obtain ⟨n, winding⟩ := heard.winding stop
    exact ⟨n, { winding with leaving := leaving n }⟩

/-- The first waiting connection is taken. -/
theorem Heard.accept (heard : Heard s) {c : Nat} {rest : List Nat} (here : s.pc = .accept)
    (waiting : s.backlog = c :: rest)
    : Heard { s with backlog := rest, accepted := s.accepted ++ [c], pc := .announce c } := by
  have known : c < s.connected := heard.backlog c (by simp [waiting])
  refine ⟨heard.awake, heard.kept, fun other member => ?_, fun other member => ?_, ?_,
    heard.running, fun stop => ?_⟩
  · exact heard.backlog other (by simp [waiting, member])
  · rcases List.mem_append.mp member with old | new
    · exact heard.accepted other old
    · exact List.mem_singleton.mp new ▸ known
  · simpa [Pc.client?] using known
  · obtain ⟨n, winding⟩ := heard.winding stop
    have leaving := winding.leaving
    simp only [Server.Leaving, here] at leaving
    obtain ⟨first, others, waiting', early, ready⟩ := leaving
    obtain ⟨rfl, rfl⟩ := List.cons.inj (waiting.symm.trans waiting')
    refine ⟨n, { winding with early := fun other member => ?_, leaving := ⟨early, ready⟩ }⟩
    rcases List.mem_append.mp member with old | new
    · exact winding.early other old
    · exact List.mem_singleton.mp new ▸ early

/-- A step of a run whose requests are heard in time. -/
theorem Heard.move (heard : Heard s) (inTime : HeardInTime s event) (taken : Move s event next)
    : Heard next := by
  have none {there : Pc} (free : there.client? = none) : ∀ c ∈ there.client?, c < s.connected := by
    simp [free]
  cases taken with
  | createDaemon here | writePidFile here | socket here | bind here | listen here
  | acceptFails here | closeClient here | removePidFile here | closeSocket here =>
      exact heard.goto (none rfl) fun _ _ _ => trivial
  | createDaemonFails here | writePidFileFails here =>
      exact heard.goto (none rfl) fun stop => absurd inTime (by simp [HeardInTime, stop])
  | socketFails here | bindFails here | listenFails here =>
      refine heard.goto (none ?_) fun stop => absurd inTime (by simp [HeardInTime, stop])
      unfold Server.afterFailure
      split <;> rfl
  | giveUp here =>
      refine heard.goto (none rfl) fun _ n winding => ?_
      have leaving := winding.leaving
      simp [Server.Leaving, here] at leaving
  | test here =>
      refine heard.goto (none ?_) fun stop n _ => ?_
      · unfold Server.cleanUp
        split
        · rfl
        · split <;> rfl
      · simp only [stop, Server.cleanUp]
        cases s.daemonMode <;> trivial
  | enterAccept here =>
      refine heard.goto (none rfl) fun _ n winding => ?_
      simpa [Server.Leaving, here, Server.readable] using winding.leaving
  | accept here waiting => exact heard.accept here waiting
  | announce here =>
      refine heard.goto ?_ fun _ n winding => ?_
      · have serving := heard.serving
        simpa [Pc.client?, here] using serving
      · simpa [Server.Leaving, here, Server.readable] using winding.leaving
  | recvData _ _ _ _ | sendReply _ _ _ _ => exact heard.served rfl fun _ => trivial
  | recvNothing _ _ => exact heard.goto (none rfl) fun _ _ _ => trivial
  | @sendBroken c signalled here broken =>
      cases signalled with
      | false => exact heard.goto (none rfl) fun _ _ _ => trivial
      | true =>
          exact heard.goto (none rfl) fun stop => absurd inTime (by simp [HeardInTime, stop])
  | @signal signum alive =>
      have same : { signalHandler s signum with pc := s.pc } = signalHandler s signum := by
        cases signum <;> rfl
      rw [← same]
      refine heard.handle signum heard.serving (fun _ n winding => winding.leaving) ?_
      exact fun request run => heard.leaving_of_hears alive (inTime request run)
  | @interrupt signum pc alive blocked =>
      have free : pc.client? = .none ∧ ∀ n, ({ s with pc := pc } : Server).Leaving n := by
        cases here : s.pc with
        | accept | recv c =>
            obtain rfl := Option.some.inj ((congrArg Pc.interrupted here).symm.trans blocked)
            exact ⟨rfl, fun _ => trivial⟩
        | _ => simp [here, Pc.interrupted] at blocked
      exact heard.handle signum (none free.1) (fun _ n _ => free.2 n) fun _ _ => free.2 _
  | signalInCtime _ _ | signalInHandler _ _ _ => exact inTime.elim
  | @signalAncestor signum here =>
      have same : (s.lost || signum.stops) = s.lost := by
        rw [show signum.stops = false from inTime, Bool.or_false]
      rw [same]
      exact heard
  | connect _ => exact heard.connect
  | arrive _ nonempty => exact heard.network (by simp [Connection.readable, nonempty])
  | endStream _ | resetPeer _ _ => exact heard.network (by simp [Connection.readable])

end Step

theorem heard_launch (pid port : Nat) (daemonMode : Bool)
    : Heard (launch pid port daemonMode) where
  awake := rfl
  kept := rfl
  backlog c member := absurd member List.not_mem_nil
  accepted c member := absurd member List.not_mem_nil
  serving := by cases daemonMode <;> simp [launch, Pc.client?]
  running _ := rfl
  winding stop := by simp [launch] at stop

theorem heard_of_reachable {pid port : Nat} {daemonMode : Bool} {s : Server}
    (reached : (system pid port daemonMode).ReachableBy HeardInTime s)
    : Heard s := by
  apply reached.invariant
  · intro _ same
    subst same
    exact heard_launch pid port daemonMode
  · intro s event next _ heard inTime taken
    exact heard.move inTime (.of_step taken)

-----------------------------------------------------------------------------------------
-- The way to the clean-up
-----------------------------------------------------------------------------------------

/-- The calls of the server that succeed, or return what has already arrived. -/
def Event.own : Event → Bool
  | .createDaemon | .writePidFile | .socket | .bind | .listen | .giveUp | .test | .enterAccept
  | .accept | .announce | .recvData _ | .recvNothing | .sendReply _ | .sendBroken false
  | .closeClient | .removePidFile | .closeSocket => true
  | _ => false

/-- A step of the server itself. -/
def OwnStep (_ : Server) (event : Event) : Prop := event.own = true

instance (s : Server) (event : Event) : Decidable (OwnStep s event) := by
  unfold OwnStep
  infer_instance

/-- The steps to the end of the process once `keep_running` is cleared. -/
def Pc.distance : Pc → Nat
  | .createDaemon => 14
  | .writePidFile => 13
  | .socket => 12
  | .bind => 11
  | .listen => 10
  | .enterAccept => 9
  | .accept => 8
  | .announce _ => 7
  | .recv _ => 6
  | .reply _ => 5
  | .closeClient _ => 4
  | .test => 3
  | .removePidFile => 2
  | .closeSocket | .giveUp => 1
  | .ended | .failed | .killed => 0

section Progress

variable {s next : Server} {event : Event}

/-- The server's own steps leave the flag alone, are heard in time and lead on. -/
theorem Move.own (taken : Move s event next) (own : OwnStep s event)
    (stop : s.keepRunning = false)
    : next.keepRunning = false ∧ HeardInTime s event ∧ next.pc.distance < s.pc.distance := by
  cases taken with
  | createDaemon here | writePidFile here | socket here | bind here | listen here
  | giveUp here | enterAccept here | accept here _ | announce here | recvData here _ _ _
  | recvNothing here _ | sendReply here _ _ _ | closeClient here | removePidFile here
  | closeSocket here =>
      exact ⟨stop, trivial, by simp [here, Pc.distance]⟩
  | test here =>
      refine ⟨stop, trivial, ?_⟩
      simp only [stop, Server.cleanUp, here]
      cases s.daemonMode <;> simp [Pc.distance]
  | @sendBroken c signalled here broken =>
      cases signalled with
      | false => exact ⟨stop, trivial, by simp [here, Pc.distance]⟩
      | true => simp [OwnStep, Event.own] at own
  | _ => simp [OwnStep, Event.own] at own

/-- What is readable is data, or the news that there will be none. -/
theorem Connection.readable_cases {connection : Connection}
    (readable : connection.readable = true)
    : connection.unread ≠ []
      ∨ (connection.unread = [] ∧ connection.eof = true ∨ connection.reset = true) := by
  by_cases data : connection.unread = []
  · refine Or.inr ?_
    simpa [Connection.readable, data] using readable
  · exact Or.inl data

/-- On its way out the server can always take a step of its own. -/
theorem Heard.own_enabled (heard : Heard s) (stop : s.keepRunning = false)
    : s.pc = .ended ∨ ∃ event next, OwnStep s event ∧ step s event = some next := by
  have can {event : Event} (own : event.own = true) (possible : (happens s event).isSome)
      : ∃ event next, OwnStep s event ∧ step s event = some next := by
    obtain ⟨next, taken⟩ := Option.isSome_iff_exists.mp possible
    exact ⟨event, next, own, by simp [step, heard.awake, taken]⟩
  obtain ⟨n, winding⟩ := heard.winding stop
  have leaving := winding.leaving
  unfold Server.Leaving at leaving
  cases here : s.pc with
  | createDaemon => exact Or.inr (@can .createDaemon rfl (by simp [happens, Server.goes, here]))
  | writePidFile => exact Or.inr (@can .writePidFile rfl (by simp [happens, Server.goes, here]))
  | socket => exact Or.inr (@can .socket rfl (by simp [happens, Server.goes, here]))
  | bind => exact Or.inr (@can .bind rfl (by simp [happens, Server.goes, here]))
  | listen => exact Or.inr (@can .listen rfl (by simp [happens, Server.goes, here]))
  | test => exact Or.inr (@can .test rfl (by simp [happens, Server.goes, here]))
  | enterAccept => exact Or.inr (@can .enterAccept rfl (by simp [happens, Server.goes, here]))
  | accept =>
      rw [here] at leaving
      obtain ⟨c, rest, waiting, -⟩ := leaving
      exact Or.inr (@can .accept rfl
        (by simp [happens, DaemonServer.accept, here, waiting]))
  | announce c => exact Or.inr (@can .announce rfl (by simp [happens, DaemonServer.announce, here]))
  | recv c =>
      rw [here] at leaving
      rcases Connection.readable_cases leaving.2 with data | nothing
      · have some : 1 ≤ (s.connections c).unread.length := List.length_pos_iff.mpr data
        refine Or.inr (@can (.recvData 1) rfl ?_)
        simp [happens, recvData, here, some, bufSize]
      · exact Or.inr (@can .recvNothing rfl (by simp [happens, recvNothing, here, nothing]))
  | reply c =>
      cases broken : (s.connections c).reset with
      | false =>
          refine Or.inr (@can (.sendReply 1) rfl ?_)
          simp [happens, sendReply, here, broken, reply]
      | true =>
          exact Or.inr (@can (.sendBroken false) rfl (by simp [happens, sendBroken, here, broken]))
  | closeClient c =>
      exact Or.inr (@can .closeClient rfl (by simp [happens, DaemonServer.closeClient, here]))
  | removePidFile => exact Or.inr (@can .removePidFile rfl (by simp [happens, Server.goes, here]))
  | closeSocket => exact Or.inr (@can .closeSocket rfl (by simp [happens, Server.goes, here]))
  | ended => exact Or.inl rfl
  | giveUp | failed | killed => simp [here] at leaving

end Progress

/-- Steps of the server alone lead through the clean-up, whatever they return. -/
theorem Heard.inevitable {pid port : Nat} {daemonMode : Bool} {s : Server} (heard : Heard s)
    (stop : s.keepRunning = false)
    : (system pid port daemonMode).Inevitable OwnStep (fun final => final.pc = .ended) s := by
  refine .of_measure (fun s => Heard s ∧ s.keepRunning = false) (fun s => s.pc.distance)
    ?_ ?_ ?_ ⟨heard, stop⟩
  · intro s event next ⟨heard, stop⟩ own taken
    have move := Move.of_step taken
    obtain ⟨still, inTime, -⟩ := move.own own stop
    exact ⟨heard.move inTime move, still⟩
  · exact fun s ⟨heard, stop⟩ => heard.own_enabled stop
  · exact fun s event next ⟨_, stop⟩ own taken => ((Move.of_step taken).own own stop).2.2

-----------------------------------------------------------------------------------------
-- Stopping on request
-----------------------------------------------------------------------------------------

/-- Once the handler has cleared the flag, the server gets through its clean-up by steps of its
own, and it accepts no connection that has arrived after that; and no request to stop has been
handled by a process that exits without any clean-up.
-/
structure StopsOnRequest (pid port : Nat) (daemonMode : Bool) (s : Server) : Prop where
  cleanUp
    : s.keepRunning = false
      → ∃ events final,
          ((system pid port daemonMode).restrict OwnStep).exec s events = some final
          ∧ final.pc = .ended
  onlyEarlier : ∀ n ∈ s.stoppedAt, ∀ c ∈ s.accepted, c < n
  answered : s.lost = false

/-- A request that is heard in time stops the server. -/
theorem stopsOnRequest {pid port : Nat} {daemonMode : Bool} {s : Server}
    (reached : (system pid port daemonMode).ReachableBy HeardInTime s)
    : StopsOnRequest pid port daemonMode s := by
  have heard := heard_of_reachable reached
  refine ⟨fun stop => (heard.inevitable stop).exists_restrict_exec, ?_, heard.kept⟩
  intro n stopped
  cases run : s.keepRunning with
  | true => simp [heard.running run] at stopped
  | false =>
      obtain ⟨n', winding⟩ := heard.winding run
      obtain rfl := Option.some.inj (winding.stopped.symm.trans stopped)
      exact winding.early

/-- The request comes while `accept` waits, and `accept` returns `EINTR`. -/
def interrupted : List Event :=
  [.createDaemon, .writePidFile, .socket, .bind, .listen, .test, .enterAccept,
    .signal .term true, .test]

/-- The daemon is about to remove its PID file. -/
theorem stopsOnRequest_interrupted
    : ∃ s : Server, s.pc = .removePidFile ∧ StopsOnRequest 1 8888 true s :=
  ⟨_, rfl, stopsOnRequest (System.reachable_restrict_iff.mp
    (System.reachable_of_run (launch 1 8888 true) rfl interrupted rfl))⟩

/-- A server that is hung takes no step, so it does not stop. -/
theorem not_stopsOnRequest_of_hung {pid port : Nat} {daemonMode : Bool} {s : Server}
    (hung : s.hung = true) (stop : s.keepRunning = false) (here : s.pc ≠ .ended)
    : ¬StopsOnRequest pid port daemonMode s := by
  intro stops
  obtain ⟨events, final, run, ended⟩ := stops.cleanUp stop
  cases events with
  | nil => exact here (Option.some.inj run ▸ ended)
  | cons event rest =>
      obtain ⟨next, first, -⟩ := System.exec_cons_eq_some.mp run
      obtain ⟨own, taken⟩ := Option.ite_none_right_eq_some.mp first
      obtain ⟨idle, -⟩ := Option.ite_none_left_eq_some.mp taken
      refine idle ⟨hung, ?_⟩
      cases event <;> simp [OwnStep, Event.own] at own <;> rfl

/-- The server is stuck before or in `accept`. -/
def Server.Waiting (s : Server) : Prop :=
  (s.pc = .enterAccept ∨ s.pc = .accept) ∧ s.backlog = []

/-- Without a client no step of the server's own leads out of `accept`. -/
theorem Move.waiting {s next : Server} {event : Event} (taken : Move s event next)
    (own : OwnStep s event) (waiting : s.Waiting)
    : next.Waiting := by
  obtain ⟨place, backlog⟩ := waiting
  cases taken with
  | enterAccept _ => exact ⟨Or.inr rfl, backlog⟩
  | accept _ first => simp [backlog] at first
  | createDaemon here | writePidFile here | socket here | bind here | listen here
  | giveUp here | test here | announce here | recvData here _ _ _ | recvNothing here _
  | sendReply here _ _ _ | sendBroken here _ | closeClient here | removePidFile here
  | closeSocket here =>
      simp [here] at place
  | _ => simp [OwnStep, Event.own] at own

/-- The request comes between the test of `keep_running` and the entry into `accept`. -/
def beforeAccept : List Event :=
  [.socket, .bind, .listen, .test, .signal .term false]

/-- The server waits in `accept` for one more client. -/
theorem stopsOnRequest_beforeAccept
    : ¬∀ (pid port : Nat) (daemonMode : Bool) (s : Server),
        (system pid port daemonMode).Reachable s → StopsOnRequest pid port daemonMode s := by
  intro always
  have reached : (system 1 8888 false).Reachable _ :=
    System.reachable_of_run (launch 1 8888 false) rfl beforeAccept rfl
  obtain ⟨events, final, run, arrived⟩ := (always 1 8888 false _ reached).cleanUp rfl
  have waiting : final.Waiting := by
    refine System.exec_invariant (fun s event next waiting taken => ?_) ⟨Or.inl rfl, rfl⟩ run
    obtain ⟨own, taken⟩ := Option.ite_none_right_eq_some.mp taken
    exact (Move.of_step taken).waiting own waiting
  rcases waiting.1 with here | here
  all_goals simp [here] at arrived

end LinuxStudy.DaemonServer
