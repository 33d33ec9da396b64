import LinuxStudy.DaemonServer.Steps

/-! The PID file of `daemon_server.c`. All instances share its path, so it is right as long as
a daemon is only started when there is none; the code overwrites and removes it in any case.
-/

namespace LinuxStudy.DaemonServer

open Transition

/-- The condition on the steps: `write_pid_file` finds no PID file. -/
def FileFree (m : Machine) : MachineEvent → Prop
  | .server _ .writePidFile => m.pidFile = none
  | _ => True

instance (m : Machine) (event : MachineEvent) : Decidable (FileFree m event) := by
  unfold FileFree
  split <;> infer_instance

/-- In the main loop. -/
def Pc.running : Pc → Bool
  | .test | .enterAccept | .accept | .announce _ | .recv _ | .reply _ | .closeClient _ => true
  | _ => false

/-- Between `write_pid_file` and `remove_pid_file`, in a daemon. -/
def Pc.hasFile : Pc → Bool
  | .socket | .bind | .listen | .giveUp | .removePidFile => true
  | pc => pc.running

/-- At a call that only a daemon makes. -/
def Pc.daemonOnly : Pc → Bool
  | .createDaemon | .writePidFile | .giveUp | .removePidFile => true
  | _ => false

/-- The daemon has written the PID file and not removed it. -/
def Server.Owns (s : Server) : Prop := s.daemonMode = true ∧ s.pc.hasFile = true

-----------------------------------------------------------------------------------------
-- The steps of one instance
-----------------------------------------------------------------------------------------

section Step

variable {s next : Server} {event : Event}

/-- An instance stays the process it is. -/
theorem Move.same (taken : Move s event next)
    : next.pid = s.pid ∧ next.daemonMode = s.daemonMode := by
  cases taken
  case signal | interrupt | signalInCtime | signalInHandler => simp
  all_goals exact ⟨rfl, rfl⟩

/-- Only `write_pid_file` gives an instance the file. -/
theorem Move.hasFile (taken : Move s event next) (other : event ≠ .writePidFile)
    (has : next.pc.hasFile = true)
    : s.pc.hasFile = true := by
  cases taken with
  | writePidFile _ => exact absurd rfl other
  | signal _ | signalInCtime _ _ | signalInHandler _ _ _ => simpa using has
  | signalAncestor _ => exact has
  | @interrupt signum pc _ blocked =>
      cases here : s.pc with
      | accept | recv _ => rfl
      | _ => simp [here, Pc.interrupted] at blocked
  | connect _ | arrive _ _ | endStream _ | resetPeer _ _ => exact has
  | createDaemon _ | createDaemonFails _ | writePidFileFails _ =>
      simp [Pc.hasFile, Pc.running] at has
  | socket here | socketFails here | bind here | bindFails here | listen here
  | listenFails here | giveUp here | test here | enterAccept here | acceptFails here
  | accept here _ | announce here | recvData here _ _ _ | recvNothing here _
  | sendReply here _ _ _ | sendBroken here _ | closeClient here | removePidFile here =>
      simp [here, Pc.hasFile, Pc.running]
  | closeSocket here => simp [Pc.hasFile, Pc.running] at has

/-- A call that only a daemon makes is made by a daemon. -/
theorem Move.daemonOnly (taken : Move s event next)
    (before : s.pc.daemonOnly = true → s.daemonMode = true) (only : next.pc.daemonOnly = true)
    : next.daemonMode = true := by
  cases taken with
  | createDaemon here => exact before (by simp [here, Pc.daemonOnly])
  | socketFails _ | bindFails _ | listenFails _ =>
      cases mode : s.daemonMode with
      | true => rfl
      | false => simp [Server.afterFailure, mode, Pc.daemonOnly] at only
  | test _ =>
      cases mode : s.daemonMode with
      | true => rfl
      | false =>
          cases run : s.keepRunning
          all_goals simp [Server.cleanUp, mode, run, Pc.daemonOnly] at only
  | @sendBroken _ signalled _ _ => cases signalled <;> simp [Pc.daemonOnly] at only
  | signal _ | signalInCtime _ _ | signalInHandler _ _ _ =>
      simp only [signalHandler_daemonMode]
      exact before (by simpa using only)
  | signalAncestor _ => exact before only
  | @interrupt _ _ _ blocked =>
      cases here : s.pc with
      | accept | recv _ =>
          obtain rfl := Option.some.inj ((congrArg Pc.interrupted here).symm.trans blocked)
          simp [Pc.daemonOnly] at only
      | _ => simp [here, Pc.interrupted] at blocked
  | connect _ | arrive _ _ | endStream _ | resetPeer _ _ => exact before only
  | _ => simp [Pc.daemonOnly] at only

/-- The calls that remove the PID file. -/
def Event.removes (event : Event) : Prop := event = .giveUp ∨ event = .removePidFile

/-- Whoever removes the PID file had it, and has it no more. -/
theorem Move.removes (taken : Move s event next) (removes : event.removes)
    : s.pc.hasFile = true ∧ s.pc.daemonOnly = true ∧ next.pc.hasFile = false := by
  rcases removes with rfl | rfl
  · cases taken with
    | giveUp here => simp [here, Pc.hasFile, Pc.daemonOnly, Pc.running]
  · cases taken with
    | removePidFile here => simp [here, Pc.hasFile, Pc.daemonOnly, Pc.running]

end Step

-----------------------------------------------------------------------------------------
-- One owner at a time
-----------------------------------------------------------------------------------------

/-- The PID file is that of the one daemon that has written it. -/
structure Sole (m : Machine) : Prop where
  daemons
    : ∀ {i : Nat} {server : Server},
        m.servers[i]? = some server → server.pc.daemonOnly = true → server.daemonMode = true
  file
    : ∀ {i : Nat} {server : Server},
        m.servers[i]? = some server
        → server.Owns
        → m.pidFile = some server.pid ∧ m.found i = none
  sole
    : ∀ {i j : Nat} {server other : Server},
        m.servers[i]? = some server
        → m.servers[j]? = some other
        → server.Owns
        → other.Owns
        → i = j
  failures : ∀ failure ∈ m.failures, failure.1 = failure.2

/-- An instance that has just been started does not own the PID file. -/
theorem not_owns_launch (pid port : Nat) (daemonMode : Bool)
    : ¬ (launch pid port daemonMode).Owns := by
  intro owns
  have mode : daemonMode = true := owns.1
  subst mode
  have has := owns.2
  simp [launch, Pc.hasFile, Pc.running] at has

/-- A new instance comes behind the others. -/
theorem lookup_launch {servers : List Server} {new server : Server} {i : Nat}
    (found : (servers ++ [new])[i]? = some server)
    : servers[i]? = some server ∨ server = new := by
  rw [List.getElem?_append] at found
  split at found
  next => exact Or.inl found
  next => exact Or.inr (List.mem_singleton.mp (List.mem_of_getElem? found))

theorem Sole.launch {m : Machine} (sole : Sole m) (pid port : Nat) (daemonMode : Bool)
    : Sole { m with servers := m.servers ++ [DaemonServer.launch pid port daemonMode] } where
  daemons found only := by
    rcases lookup_launch found with old | rfl
    · exact sole.daemons old only
    · cases daemonMode with
      | true => rfl
      | false => simp [DaemonServer.launch, Pc.daemonOnly] at only
  file found owns := by
    rcases lookup_launch found with old | rfl
    · exact sole.file old owns
    · exact absurd owns (not_owns_launch pid port daemonMode)
  sole found found' owns owns' := by
    rcases lookup_launch found with old | rfl
    · rcases lookup_launch found' with old' | rfl
      · exact sole.sole old old' owns owns'
      · exact absurd owns' (not_owns_launch pid port daemonMode)
    · exact absurd owns (not_owns_launch pid port daemonMode)
  failures := sole.failures

section Event

variable {m : Machine} {i : Nat} {instance_ next : Server} {event : Event}

/-- Unless the file is being written, its owner owned it before. -/
theorem Machine.owns_before (found : m.servers[i]? = some instance_)
    (taken : Move instance_ event next) (other : event ≠ .writePidFile) {j : Nat}
    {owner : Server} (there : (m.after i instance_ next event).servers[j]? = some owner)
    (owns : owner.Owns)
    : ∃ before, m.servers[j]? = some before ∧ before.Owns ∧ before.pid = owner.pid := by
  rcases Machine.after_servers found there with ⟨rfl, rfl⟩ | ⟨-, old⟩
  · obtain ⟨pid, mode⟩ := taken.same
    exact ⟨instance_, found, ⟨mode ▸ owns.1, taken.hasFile other owns.2⟩, pid.symm⟩
  · exact ⟨owner, old, owns, rfl⟩

/-- While there is no PID file, nobody owns it. -/
theorem Sole.nobody (sole : Sole m) (free : m.pidFile = none) {j : Nat} {owner : Server}
    (found : m.servers[j]? = some owner)
    : ¬ owner.Owns := by
  intro owns
  have file := (sole.file found owns).1
  rw [free] at file
  contradiction

/-- No other event touches the PID file. -/
theorem Machine.pidFileAfter_eq {server : Server} (kept : event ≠ .writePidFile)
    (other : ¬ event.removes)
    : m.pidFileAfter server event = m.pidFile := by
  obtain ⟨noGiveUp, noRemove⟩ := not_or.mp other
  cases event with
  | writePidFile => exact absurd rfl kept
  | giveUp => exact absurd rfl noGiveUp
  | removePidFile => exact absurd rfl noRemove
  | _ => rfl

/-- An event leaves the PID file alone while somebody else owns it. -/
theorem Sole.pidFile_of_owner (sole : Sole m) (found : m.servers[i]? = some instance_)
    (free : event = .writePidFile → m.pidFile = none) (taken : Move instance_ event next)
    {j : Nat} {owner : Server} (there : m.servers[j]? = some owner) (owns : owner.Owns)
    (away : j ≠ i)
    : event ≠ .writePidFile ∧ m.pidFileAfter instance_ event = m.pidFile := by
  have kept : event ≠ .writePidFile := fun writes => sole.nobody (free writes) there owns
  refine ⟨kept, ?_⟩
  have other : ¬ event.removes := by
    intro removes
    obtain ⟨has, only, -⟩ := taken.removes removes
    exact away (sole.sole there found owns ⟨sole.daemons found only, has⟩)
  exact Machine.pidFileAfter_eq kept other

/-- An event of one instance keeps the file that of its one owner. -/
theorem Sole.serverMove (sole : Sole m) (found : m.servers[i]? = some instance_)
    (free : event = .writePidFile → m.pidFile = none) (taken : Move instance_ event next)
    : Sole (m.after i instance_ next event) where
  daemons there only := by
    rcases Machine.after_servers found there with ⟨-, rfl⟩ | ⟨-, old⟩
    · exact taken.daemonOnly (sole.daemons found) only
    · exact sole.daemons old only
  file {j owner} there owns := by
    rcases Machine.after_servers found there with ⟨rfl, rfl⟩ | ⟨away, old⟩
    · by_cases writes : event = .writePidFile
      · subst writes
        simp [Machine.after, Machine.pidFileAfter, taken.same.1, free rfl]
      · have before : instance_.Owns := ⟨taken.same.2 ▸ owns.1, taken.hasFile writes owns.2⟩
        have other : ¬ event.removes := by
          intro removes
          exact absurd owns.2 (by simp [(taken.removes removes).2.2])
        have file := sole.file found before
        simpa [Machine.after, Machine.pidFileAfter_eq writes other, writes, taken.same.1]
          using file
    · obtain ⟨kept, same⟩ := sole.pidFile_of_owner found free taken old owns away
      have file := sole.file old owns
      simpa [Machine.after, same, kept] using file
  sole {j j' owner owner'} there there' owns owns' := by
    by_cases writes : event = .writePidFile
    · rcases Machine.after_servers found there with ⟨rfl, -⟩ | ⟨-, old⟩
      · rcases Machine.after_servers found there' with ⟨rfl, -⟩ | ⟨-, old'⟩
        · rfl
        · exact absurd owns' (sole.nobody (free writes) old')
      · exact absurd owns (sole.nobody (free writes) old)
    · obtain ⟨before, old, owned, -⟩ := Machine.owns_before found taken writes there owns
      obtain ⟨before', old', owned', -⟩ := Machine.owns_before found taken writes there' owns'
      exact sole.sole old old' owned owned'
  failures failure member := by
    by_cases fails : event = .giveUp
    · subst fails
      obtain ⟨has, only, -⟩ := taken.removes (Or.inl rfl)
      have file := sole.file found ⟨sole.daemons found only, has⟩
      simp only [Machine.after, if_true] at member
      rcases List.mem_append.mp member with old | new
      · exact sole.failures failure old
      · obtain rfl := List.mem_singleton.mp new
        exact file.2
    · simp only [Machine.after, if_neg fails] at member
      exact sole.failures failure member

end Event

theorem sole_of_reachable {m : Machine} (reached : machine.ReachableBy FileFree m) : Sole m := by
  apply reached.invariant
  · intro _ same
    subst same
    refine ⟨?_, ?_, ?_, ?_⟩
    all_goals simp [machineStart]
  · intro m event next _ sole free taken
    cases MachineMove.of_step taken with
    | launch _ => exact sole.launch _ _ _
    | server found _ moved =>
        refine sole.serverMove found (fun writes => ?_) moved
        subst writes
        exact free

-----------------------------------------------------------------------------------------
-- The PID file
-----------------------------------------------------------------------------------------

/-- While a daemon runs, the PID file holds the number of one that runs; and a start that fails
after it has written the file leaves it as it was.
-/
structure PidFileRight (m : Machine) : Prop where
  held
    : (∃ server ∈ m.servers, server.daemonMode = true ∧ server.pc.running = true)
      → ∃ server ∈ m.servers,
          server.daemonMode = true
          ∧ server.pc.running = true
          ∧ m.pidFile = some server.pid
  restored : ∀ failure ∈ m.failures, failure.1 = failure.2

/-- As long as a daemon writes its PID file only where there is none, the file is right. -/
theorem pidFileRight {m : Machine} (reached : machine.ReachableBy FileFree m)
    : PidFileRight m := by
  have sole := sole_of_reachable reached
  refine ⟨fun some => ?_, sole.failures⟩
  obtain ⟨server, member, mode, running⟩ := some
  obtain ⟨i, found⟩ := List.mem_iff_getElem?.mp member
  have has : server.pc.hasFile = true := by
    cases here : server.pc with
    | test | enterAccept | accept | announce _ | recv _ | reply _ | closeClient _ => rfl
    | _ => simp [here, Pc.running] at running
  exact ⟨server, member, mode, running, (sole.file found ⟨mode, has⟩).1⟩

/-- The start of a daemon up to its main loop. -/
def starts (i pid port : Nat) : List MachineEvent :=
  .launch pid port true
  :: [.createDaemon, .writePidFile, .socket, .bind, .listen].map (.server i)

/-- One daemon is stopped in `accept`, and the next one is started after it. -/
def oneAfterTheOther : List MachineEvent :=
  starts 0 100 8888
  ++ [.test, .enterAccept, .signal .term true, .test, .removePidFile, .closeSocket].map (.server 0)
  ++ starts 1 101 8888

theorem pidFileRight_oneAfterTheOther
    : ∃ m : Machine, m.pidFile = some 101 ∧ PidFileRight m :=
  ⟨_, rfl, pidFileRight (System.reachable_restrict_iff.mp
    (System.reachable_of_run machineStart rfl oneAfterTheOther rfl))⟩

/-- A second daemon is started on the port of the first one. -/
def portTaken : List MachineEvent :=
  starts 0 100 8888
  ++ .launch 101 8888 true
  :: [.createDaemon, .writePidFile, .socket, .bindFails, .giveUp].map (.server 1)

/-- The start that fails removes the PID file of the daemon that runs. -/
theorem pidFileRight_portTaken
    : ¬∀ m : Machine, machine.Reachable m → PidFileRight m := by
  intro always
  have reached : machine.Reachable _ :=
    System.reachable_of_run machineStart rfl portTaken rfl
  have restored := (always _ reached).restored (some 100, none) List.mem_cons_self
  contradiction

end LinuxStudy.DaemonServer
