import LinuxStudy.DaemonServer.Model

/-! The steps of `daemon_server.c` read as a relation, one shape for each call and result, with
the facts that make the step possible.
-/

namespace LinuxStudy.DaemonServer

open Transition Posix

theorem Server.goes_eq_some {s next : Server} {here there : Pc}
    : s.goes here there = some next ↔ s.pc = here ∧ next = { s with pc := there } := by
  simp [Server.goes, eq_comm]

section Handler

variable (s : Server) (signum : Signal)

@[simp] theorem signalHandler_pid : (signalHandler s signum).pid = s.pid := by
  cases signum <;> rfl

@[simp] theorem signalHandler_daemonMode
    : (signalHandler s signum).daemonMode = s.daemonMode := by
  cases signum <;> rfl

@[simp] theorem signalHandler_pc : (signalHandler s signum).pc = s.pc := by
  cases signum <;> rfl

@[simp] theorem signalHandler_hung : (signalHandler s signum).hung = s.hung := by
  cases signum <;> rfl

@[simp] theorem signalHandler_connected : (signalHandler s signum).connected = s.connected := by
  cases signum <;> rfl

end Handler

/-- One step, with the call that makes it and the result it gets. -/
inductive Move (s : Server) : Event → Server → Prop
  | createDaemon (here : s.pc = .createDaemon)
    : Move s .createDaemon { s with pc := .writePidFile }
  | createDaemonFails (here : s.pc = .createDaemon)
    : Move s .createDaemonFails { s with pc := .failed }
  | writePidFile (here : s.pc = .writePidFile) : Move s .writePidFile { s with pc := .socket }
  | writePidFileFails (here : s.pc = .writePidFile)
    : Move s .writePidFileFails { s with pc := .failed }
  | socket (here : s.pc = .socket) : Move s .socket { s with pc := .bind }
  | socketFails (here : s.pc = .socket) : Move s .socketFails { s with pc := s.afterFailure }
  | bind (here : s.pc = .bind) : Move s .bind { s with pc := .listen }
  | bindFails (here : s.pc = .bind) : Move s .bindFails { s with pc := s.afterFailure }
  | listen (here : s.pc = .listen) : Move s .listen { s with pc := .test }
  | listenFails (here : s.pc = .listen) : Move s .listenFails { s with pc := s.afterFailure }
  | giveUp (here : s.pc = .giveUp) : Move s .giveUp { s with pc := .failed }
  | test (here : s.pc = .test)
    : Move s .test { s with pc := if s.keepRunning then .enterAccept else s.cleanUp }
  | enterAccept (here : s.pc = .enterAccept) : Move s .enterAccept { s with pc := .accept }
  | acceptFails (here : s.pc = .accept) : Move s .acceptFails { s with pc := .test }
  | removePidFile (here : s.pc = .removePidFile)
    : Move s .removePidFile { s with pc := .closeSocket }
  | closeSocket (here : s.pc = .closeSocket) : Move s .closeSocket { s with pc := .ended }
  | accept {c rest} (here : s.pc = .accept) (waiting : s.backlog = c :: rest)
    : Move s .accept
        { s with backlog := rest, accepted := s.accepted ++ [c], pc := .announce c }
  | announce {c} (here : s.pc = .announce c) : Move s .announce { s with pc := .recv c }
  | recvData {c n} (here : s.pc = .recv c) (positive : 0 < n)
    (available : n ≤ (s.connections c).unread.length) (fits : n ≤ bufSize - 1)
    : Move s (.recvData n)
        { s.setConnection c { s.connections c with
            unread := (s.connections c).unread.drop n
            received := (s.connections c).received ++ (s.connections c).unread.take n } with
          pc := .reply c }
  | recvNothing {c} (here : s.pc = .recv c)
    (nothing
      : (s.connections c).unread = [] ∧ (s.connections c).eof = true
        ∨ (s.connections c).reset = true)
    : Move s .recvNothing { s with pc := .closeClient c }
  | sendReply {c k} (here : s.pc = .reply c) (positive : 0 < k) (part : k ≤ reply.length)
    (whole : (s.connections c).reset = false)
    : Move s (.sendReply k)
        { s.setConnection c { s.connections c with
            replied := (s.connections c).replied ++ reply.take k } with
          pc := .closeClient c }
  | sendBroken {c signalled} (here : s.pc = .reply c) (broken : (s.connections c).reset = true)
    : Move s (.sendBroken signalled)
        { s with pc := if signalled then .killed else .closeClient c }
  | closeClient {c} (here : s.pc = .closeClient c) : Move s .closeClient { s with pc := .test }
  | signal {signum} (alive : s.pc.alive = true)
    : Move s (.signal signum false) (signalHandler s signum)
  | interrupt {signum pc} (alive : s.pc.alive = true) (blocked : s.pc.interrupted = some pc)
    : Move s (.signal signum true) { signalHandler s signum with pc }
  | signalInCtime {signum} (logs : s.logs = true) (awake : s.hung = false)
    : Move s (.signalInCtime signum none) { signalHandler s signum with hung := true }
  | signalInHandler {signum first} (alive : s.pc.alive = true) (awake : s.hung = false)
    (other : first ≠ signum)
    : Move s (.signalInCtime signum (some first))
        { signalHandler (signalHandler s first) signum with hung := true }
  | signalAncestor {signum} (here : s.pc = .createDaemon)
    : Move s (.signalAncestor signum) { s with lost := s.lost || signum.stops }
  | connect (listening : s.pc.listening = true)
    : Move s .connect
        { s with
          connected := s.connected + 1
          backlog := s.backlog ++ [s.connected]
          connections := Function.update s.connections s.connected {} }
  | arrive {c bytes} (streaming : s.streaming c) (nonempty : bytes ≠ [])
    : Move s (.arrive c bytes)
        (s.setConnection c
          { s.connections c with unread := (s.connections c).unread ++ bytes })
  | endStream {c} (streaming : s.streaming c)
    : Move s (.endStream c) (s.setConnection c { s.connections c with eof := true })
  | resetPeer {c} (known : c < s.connected) (whole : (s.connections c).reset = false)
    : Move s (.resetPeer c) (s.setConnection c { s.connections c with reset := true })

/-- Every successor of the executable step is one of the shapes. -/
theorem Move.of_step {s next : Server} {event : Event} (taken : step s event = some next)
    : Move s event next := by
  obtain ⟨-, taken⟩ := Option.ite_none_left_eq_some.mp taken
  cases event with
  | createDaemon =>
      obtain ⟨here, rfl⟩ := Server.goes_eq_some.mp taken
      exact .createDaemon here
  | createDaemonFails =>
      obtain ⟨here, rfl⟩ := Server.goes_eq_some.mp taken
      exact .createDaemonFails here
  | writePidFile =>
      obtain ⟨here, rfl⟩ := Server.goes_eq_some.mp taken
      exact .writePidFile here
  | writePidFileFails =>
      obtain ⟨here, rfl⟩ := Server.goes_eq_some.mp taken
      exact .writePidFileFails here
  | socket =>
      obtain ⟨here, rfl⟩ := Server.goes_eq_some.mp taken
      exact .socket here
  | socketFails =>
      obtain ⟨here, rfl⟩ := Server.goes_eq_some.mp taken
      exact .socketFails here
  | bind =>
      obtain ⟨here, rfl⟩ := Server.goes_eq_some.mp taken
      exact .bind here
  | bindFails =>
      obtain ⟨here, rfl⟩ := Server.goes_eq_some.mp taken
      exact .bindFails here
  | listen =>
      obtain ⟨here, rfl⟩ := Server.goes_eq_some.mp taken
      exact .listen here
  | listenFails =>
      obtain ⟨here, rfl⟩ := Server.goes_eq_some.mp taken
      exact .listenFails here
  | giveUp =>
      obtain ⟨here, rfl⟩ := Server.goes_eq_some.mp taken
      exact .giveUp here
  | test =>
      obtain ⟨here, rfl⟩ := Server.goes_eq_some.mp taken
      exact .test here
  | enterAccept =>
      obtain ⟨here, rfl⟩ := Server.goes_eq_some.mp taken
      exact .enterAccept here
  | acceptFails =>
      obtain ⟨here, rfl⟩ := Server.goes_eq_some.mp taken
      exact .acceptFails here
  | removePidFile =>
      obtain ⟨here, rfl⟩ := Server.goes_eq_some.mp taken
      exact .removePidFile here
  | closeSocket =>
      obtain ⟨here, rfl⟩ := Server.goes_eq_some.mp taken
      exact .closeSocket here
  | accept =>
      simp only [happens, DaemonServer.accept] at taken
      split at taken
      next c rest here waiting => exact Option.some.inj taken ▸ .accept here waiting
      next => contradiction
  | announce =>
      simp only [happens, DaemonServer.announce] at taken
      split at taken
      next c here => exact Option.some.inj taken ▸ .announce here
      next => contradiction
  | recvData n =>
      simp only [happens, DaemonServer.recvData] at taken
      split at taken
      next c here =>
        obtain ⟨⟨positive, available, fits⟩, same⟩ := Option.ite_none_right_eq_some.mp taken
        exact Option.some.inj same ▸ .recvData here positive available fits
      next => contradiction
  | recvNothing =>
      simp only [happens, DaemonServer.recvNothing] at taken
      split at taken
      next c here =>
        obtain ⟨nothing, same⟩ := Option.ite_none_right_eq_some.mp taken
        exact Option.some.inj same ▸ .recvNothing here nothing
      next => contradiction
  | sendReply k =>
      simp only [happens, DaemonServer.sendReply] at taken
      split at taken
      next c here =>
        obtain ⟨⟨positive, part, whole⟩, same⟩ := Option.ite_none_right_eq_some.mp taken
        exact Option.some.inj same ▸ .sendReply here positive part whole
      next => contradiction
  | sendBroken signalled =>
      simp only [happens, DaemonServer.sendBroken] at taken
      split at taken
      next c here =>
        obtain ⟨broken, same⟩ := Option.ite_none_right_eq_some.mp taken
        exact Option.some.inj same ▸ .sendBroken here broken
      next => contradiction
  | closeClient =>
      simp only [happens, DaemonServer.closeClient] at taken
      split at taken
      next c here => exact Option.some.inj taken ▸ .closeClient here
      next => contradiction
  | signal signum interrupts =>
      obtain ⟨alive, taken⟩ := Option.ite_none_right_eq_some.mp taken
      cases interrupts with
      | false => exact Option.some.inj taken ▸ .signal alive
      | true =>
          obtain ⟨pc, blocked, same⟩ := Option.map_eq_some_iff.mp taken
          exact same ▸ .interrupt alive blocked
  | signalInCtime signum outer =>
      cases outer with
      | none =>
          obtain ⟨⟨logs, awake⟩, same⟩ := Option.ite_none_right_eq_some.mp taken
          exact Option.some.inj same ▸ .signalInCtime logs awake
      | some first =>
          obtain ⟨⟨alive, awake, other⟩, same⟩ := Option.ite_none_right_eq_some.mp taken
          exact Option.some.inj same ▸ .signalInHandler alive awake other
  | signalAncestor signum =>
      obtain ⟨here, same⟩ := Option.ite_none_right_eq_some.mp taken
      exact Option.some.inj same ▸ .signalAncestor here
  | connect =>
      obtain ⟨listening, same⟩ := Option.ite_none_right_eq_some.mp taken
      exact Option.some.inj same ▸ .connect listening
  | arrive c bytes =>
      obtain ⟨⟨streaming, nonempty⟩, same⟩ := Option.ite_none_right_eq_some.mp taken
      exact Option.some.inj same ▸ .arrive streaming nonempty
  | endStream c =>
      obtain ⟨streaming, same⟩ := Option.ite_none_right_eq_some.mp taken
      exact Option.some.inj same ▸ .endStream streaming
  | resetPeer c =>
      obtain ⟨⟨known, whole⟩, same⟩ := Option.ite_none_right_eq_some.mp taken
      exact Option.some.inj same ▸ .resetPeer known whole

/-- A process that calls `write_log` is alive. -/
theorem Server.alive_of_logs {s : Server} (logs : s.logs = true) : s.pc.alive = true := by
  unfold Server.logs at logs
  cases here : s.pc <;> simp [here, Pc.alive] at logs ⊢

/-- Only a signal inside a `ctime` hangs the process up. -/
theorem Move.hung_eq {s next : Server} {event : Event} (taken : Move s event next)
    (other : ∀ signum outer, event ≠ .signalInCtime signum outer)
    : next.hung = s.hung := by
  cases taken
  case signalInCtime | signalInHandler => exact absurd rfl (other _ _)
  all_goals simp [Server.setConnection]

/-- No event takes a client away. -/
theorem Move.connected_le {s next : Server} {event : Event} (taken : Move s event next)
    : s.connected ≤ next.connected := by
  cases taken
  case connect => exact Nat.le_succ _
  all_goals simp [Server.setConnection]

-----------------------------------------------------------------------------------------
-- Several instances
-----------------------------------------------------------------------------------------

/-- The machine after an event of the `i`th instance. -/
def Machine.after (m : Machine) (i : Nat) (server next : Server) (event : Event) : Machine where
  servers := m.servers.set i next
  pidFile := m.pidFileAfter server event
  found := if event = .writePidFile then Function.update m.found i m.pidFile else m.found
  failures :=
    if event = .giveUp then m.failures ++ [(m.found i, m.pidFileAfter server event)]
    else m.failures

/-- One event on the machine. -/
inductive MachineMove (m : Machine) : MachineEvent → Machine → Prop
  | launch {pid port daemonMode}
    (fresh : ∀ other ∈ m.servers, other.pc.alive = true → other.pid ≠ pid)
    : MachineMove m (.launch pid port daemonMode)
        { m with servers := m.servers ++ [DaemonServer.launch pid port daemonMode] }
  | server {i event server next} (found : m.servers[i]? = some server)
    (free
      : event = .bind
        → ∀ other ∈ m.servers, other.bound = true → other.port ≠ server.port)
    (taken : Move server event next)
    : MachineMove m (.server i event) (m.after i server next event)

/-- Every successor of the executable step is one of the shapes. -/
theorem MachineMove.of_step {m next : Machine} {event : MachineEvent}
    (taken : machineStep m event = some next)
    : MachineMove m event next := by
  cases event with
  | launch pid port daemonMode =>
      obtain ⟨fresh, same⟩ := Option.ite_none_right_eq_some.mp taken
      exact Option.some.inj same ▸ .launch fresh
  | server i event =>
      obtain ⟨server, found, taken⟩ := Option.bind_eq_some_iff.mp taken
      obtain ⟨free, taken⟩ := Option.ite_none_left_eq_some.mp taken
      obtain ⟨after, moved, same⟩ := Option.map_eq_some_iff.mp taken
      subst same
      refine .server found (fun binds other member bound same => ?_) (.of_step moved)
      exact free ⟨binds, other, member, bound, same⟩

/-- Looking up an instance after an event of the `i`th one. -/
theorem Machine.after_servers {m : Machine} {i j : Nat} {server next other : Server}
    {event : Event} (found : m.servers[i]? = some server)
    (there : (m.after i server next event).servers[j]? = some other)
    : j = i ∧ other = next ∨ j ≠ i ∧ m.servers[j]? = some other := by
  have bound := (List.getElem?_eq_some_iff.mp found).1
  rw [Machine.after, List.getElem?_set] at there
  by_cases same : i = j
  · rw [if_pos same, if_pos bound] at there
    exact Or.inl ⟨same.symm, (Option.some.inj there).symm⟩
  · rw [if_neg same] at there
    exact Or.inr ⟨Ne.symm same, there⟩

end LinuxStudy.DaemonServer
