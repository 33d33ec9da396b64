import LinuxStudy.DaemonServer.PidFile
import LinuxStudy.TestDaemon.StartModel

/-! What `test_daemon.sh start` reports. It says that the server was started only when it finds
a daemon that somebody else has launched: a server in the foreground writes no PID file, and
the script goes on only when its own server has died.
-/

namespace LinuxStudy.TestDaemon.Starting

open Transition
open DaemonServer (Machine MachineEvent machineStep Server Event)

-----------------------------------------------------------------------------------------
-- The machine
-----------------------------------------------------------------------------------------

/-- An instance that was launched with `-d` has, or had, this number. -/
def Daemon (m : Machine) (pid : Nat) : Prop :=
  ∃ (i : Nat) (server : Server),
    m.servers[i]? = some server ∧ server.daemonMode = true ∧ server.pid = pid

/-- Every instance is still listed under its number, as the daemon or the foreground server
that it was, and a dead one stays dead.
-/
def Kept (before after : Machine) : Prop :=
  ∀ (i : Nat) (server : Server),
    before.servers[i]? = some server
    → ∃ later,
        after.servers[i]? = some later
        ∧ later.pid = server.pid
        ∧ later.daemonMode = server.daemonMode
        ∧ (server.pc.alive = false → later.pc.alive = false)

theorem Kept.refl (m : Machine) : Kept m m := fun _ server found =>
  ⟨server, found, rfl, rfl, id⟩

theorem Daemon.kept {before after : Machine} {pid : Nat} (daemon : Daemon before pid)
    (kept : Kept before after)
    : Daemon after pid := by
  obtain ⟨i, server, found, mode, same⟩ := daemon
  obtain ⟨later, found', pid', mode', _⟩ := kept i server found
  exact ⟨i, later, found', mode'.trans mode, pid'.trans same⟩

/-- A dead instance makes no call. -/
theorem alive_of_move {server next : Server} {event : Event}
    (moves : DaemonServer.Move server event next) (dead : server.pc.alive = false)
    : next.pc.alive = false := by
  cases moves with
  | arrive _ _ | endStream _ | resetPeer _ _ => exact dead
  | signal alive | interrupt alive _ | signalInHandler alive _ _ => simp [alive] at dead
  | signalInCtime logs _ => simp [DaemonServer.Server.alive_of_logs logs] at dead
  | connect listening =>
      cases here : server.pc <;>
        simp [here, DaemonServer.Pc.listening, DaemonServer.Pc.alive] at listening dead
  | createDaemon here | createDaemonFails here | writePidFile here | writePidFileFails here
  | socket here | socketFails here | bind here | bindFails here | listen here
  | listenFails here | giveUp here | test here | enterAccept here | acceptFails here
  | removePidFile here | closeSocket here | accept here _ | announce here
  | recvData here _ _ _ | recvNothing here _ | sendReply here _ _ _ | sendBroken here _
  | closeClient here | signalAncestor here => simp [here, DaemonServer.Pc.alive] at dead

/-- A call that only a daemon makes is made by a daemon. -/
def DaemonCalls (m : Machine) : Prop :=
  ∀ (i : Nat) (server : Server),
    m.servers[i]? = some server → server.pc.daemonOnly = true → server.daemonMode = true

section Machine

variable {m next : Machine} {event : MachineEvent}

theorem DaemonCalls.move (calls : DaemonCalls m) (moves : DaemonServer.MachineMove m event next)
    : DaemonCalls next := by
  cases moves with
  | @launch pid port daemonMode _ =>
      intro i server found only
      rcases DaemonServer.lookup_launch found with old | new
      · exact calls i server old only
      · subst new
        cases daemonMode with
        | true => rfl
        | false => simp [DaemonServer.launch, DaemonServer.Pc.daemonOnly] at only
  | server found _ taken =>
      intro j other there only
      rcases DaemonServer.Machine.after_servers found there with ⟨_, rfl⟩ | ⟨_, old⟩
      · exact taken.daemonOnly (calls _ _ found) only
      · exact calls j other old only

theorem Kept.move (moves : DaemonServer.MachineMove m event next) : Kept m next := by
  cases moves with
  | launch _ =>
      intro i server found
      have bound := (List.getElem?_eq_some_iff.mp found).1
      refine ⟨server, ?_, rfl, rfl, id⟩
      rw [List.getElem?_append_left bound]
      exact found
  | @server i event server after found _ taken =>
      intro j other there
      by_cases mine : i = j
      · subst mine
        obtain rfl := Option.some.inj (found.symm.trans there)
        have bound := (List.getElem?_eq_some_iff.mp found).1
        exact ⟨after, by simp [Machine.after, bound], taken.same.1, taken.same.2,
          alive_of_move taken⟩
      · refine ⟨other, ?_, rfl, rfl, id⟩
        rw [DaemonServer.Machine.after, List.getElem?_set_ne mine]
        exact there

/-- A number that comes into the PID file is that of a daemon. -/
theorem pidFile_of_move (calls : DaemonCalls m) (moves : DaemonServer.MachineMove m event next)
    {pid : Nat} (file : next.pidFile = some pid)
    : m.pidFile = some pid ∨ Daemon next pid := by
  cases moves with
  | launch _ => exact Or.inl file
  | @server i event server after found _ taken =>
      cases taken with
      | writePidFile here =>
          obtain rfl : server.pid = pid := Option.some.inj file
          have bound := (List.getElem?_eq_some_iff.mp found).1
          have mode := calls i server found (by simp [here, DaemonServer.Pc.daemonOnly])
          exact Or.inr ⟨i, { server with pc := .socket }, by simp [Machine.after, bound], mode, rfl⟩
      | giveUp _ | removePidFile _ => simp [Machine.after, Machine.pidFileAfter] at file
      | _ => exact Or.inl file

/-- The machine after an instance was killed. -/
def killed (m : Machine) (i : Nat) : Machine :=
  { m with servers := m.servers.modify i fun server => { server with pc := .killed } }

/-- A killed instance stays the process it was. -/
theorem lookup_killed {i j : Nat} {server : Server}
    (found : (killed m i).servers[j]? = some server)
    : ∃ before,
        m.servers[j]? = some before
        ∧ (server = before ∨ server = { before with pc := .killed }) := by
  rw [killed, List.getElem?_modify] at found
  obtain ⟨before, there, same⟩ := Option.map_eq_some_iff.mp found
  refine ⟨before, there, ?_⟩
  split at same
  next => exact Or.inr same.symm
  next => exact Or.inl same.symm

theorem DaemonCalls.killed (calls : DaemonCalls m) (i : Nat) : DaemonCalls (killed m i) := by
  intro j server found only
  obtain ⟨before, there, rfl | rfl⟩ := lookup_killed found
  · exact calls j server there only
  · simp [DaemonServer.Pc.daemonOnly] at only

theorem Kept.killed (m : Machine) (i : Nat) : Kept m (killed m i) := by
  intro j server found
  by_cases mine : i = j
  · refine ⟨{ server with pc := .killed }, ?_, rfl, rfl, fun _ => rfl⟩
    simp [Starting.killed, mine, found]
  · refine ⟨server, ?_, rfl, rfl, id⟩
    simp [Starting.killed, mine, found]

end Machine

-----------------------------------------------------------------------------------------
-- One call of the script
-----------------------------------------------------------------------------------------

/-- The first `is_running` has found no instance. -/
def StartPc.passed : StartPc → Bool
  | .testFile behind | .readFile behind | .checkRunning behind | .removeStale behind
  | .message behind => behind
  | .testPath | .launch | .wait _ | .sleep => true
  | .returned (.started _) | .returned .failed => true
  | .returned (.alreadyRunning _) | .returned .missing => false

/-- `PID` is what the second `is_running` has read. -/
def StartPc.read : StartPc → Bool
  | .checkRunning true | .message true | .returned (.started _) => true
  | _ => false

/-- The second `is_running` has found a process with the number in `PID`. -/
def StartPc.succeeds : StartPc → Bool
  | .message true | .returned (.started _) => true
  | _ => false

/-- Behind the first `is_running` there is no PID file but that of a daemon, and the server
that the script has launched runs in the foreground and is dead when the script goes on.
-/
structure Right (m : Machine) (start : Start) : Prop where
  file : start.pc.passed = true → ∀ pid, m.pidFile = some pid → Daemon m pid
  read : start.pc.read = true → ∀ pid, start.pid = some pid → Daemon m pid
  found : start.pc.succeeds = true → start.pid ≠ none
  own
    : ∀ i,
        start.server = some i
        → ∃ server,
            m.servers[i]? = some server
            ∧ server.daemonMode = false
            ∧ (start.pc = .wait i ∨ server.pc.alive = false)

/-- What happens on the machine leaves the call as it is. -/
theorem Right.machine {m next : Machine} {start : Start} (right : Right m start)
    (kept : Kept m next)
    (file : ∀ pid, next.pidFile = some pid → m.pidFile = some pid ∨ Daemon next pid)
    : Right next start := by
  obtain ⟨right, read, found, own⟩ := right
  refine ⟨fun passed pid there => ?_, fun here pid same => (read here pid same).kept kept, found,
    fun i same => ?_⟩
  · rcases file pid there with before | daemon
    · exact (right passed pid before).kept kept
    · exact daemon
  · obtain ⟨server, there, mode, state⟩ := own i same
    obtain ⟨later, there', _, mode', dead⟩ := kept i server there
    exact ⟨later, there', mode'.trans mode, state.imp_right dead⟩

/-- A call that moves on keeps its server, or its server is dead. -/
theorem Right.of_own {m : Machine} {start after : Start} (right : Right m start)
    (same : after.server = start.server) (away : ∀ i, start.pc ≠ .wait i)
    : ∀ i,
        after.server = some i
        → ∃ server,
            m.servers[i]? = some server
            ∧ server.daemonMode = false
            ∧ (after.pc = .wait i ∨ server.pc.alive = false) := by
  intro i launched
  obtain ⟨server, there, mode, state⟩ := right.own i (same ▸ launched)
  exact ⟨server, there, mode, Or.inr (state.resolve_left (away i))⟩

/-- One statement of a call that touches its own variables only. -/
inductive Moves (s : State) (start : Start) : Start → Prop
  | fileThere {behind} (here : start.pc = .testFile behind)
    : Moves s start { start with pc := .readFile behind }
  | noFile {behind} (here : start.pc = .testFile behind) (none : s.machine.pidFile = none)
    : Moves s start { start with pc := .notRunning behind }
  | readFile {behind pid} (here : start.pc = .readFile behind)
    (file : pid = none ∨ pid = s.machine.pidFile)
    : Moves s start { start with pid, pc := .checkRunning behind }
  | running {behind} (here : start.pc = .checkRunning behind) (found : start.pid ≠ none)
    : Moves s start { start with pc := .message behind }
  | stale {behind} (here : start.pc = .checkRunning behind)
    : Moves s start { start with pc := .removeStale behind }
  | alreadyRunning {pid} (here : start.pc = .message false)
    : Moves s start { start with pc := .returned (.alreadyRunning pid) }
  | started {pid} (here : start.pc = .message true)
    : Moves s start { start with pc := .returned (.started pid) }
  | executable (here : start.pc = .testPath) : Moves s start { start with pc := .launch }
  | missing (here : start.pc = .testPath) : Moves s start { start with pc := .returned .missing }
  | wait {i server} (here : start.pc = .wait i) (found : s.machine.servers[i]? = some server)
    (dead : server.pc.alive = false)
    : Moves s start { start with pc := .sleep }
  | sleep (here : start.pc = .sleep) : Moves s start { start with pc := .testFile true }

theorem Moves.of_moves {s : State} {start after : Start} {outcome : Outcome}
    (taken : start.moves s outcome = some after)
    : Moves s start after := by
  unfold Start.moves at taken
  split at taken
  next behind here =>
    obtain rfl := Option.some.inj taken
    cases file : s.machine.pidFile with
    | none => exact .noFile here file
    | some pid => exact .fileThere here
  next behind here =>
    obtain ⟨_, same⟩ := Option.ite_none_right_eq_some.mp taken
    exact Option.some.inj same ▸ .fileThere here
  next behind here => exact Option.some.inj taken ▸ .readFile here (Or.inr rfl)
  next behind here =>
    obtain ⟨_, same⟩ := Option.ite_none_right_eq_some.mp taken
    exact Option.some.inj same ▸ .readFile here (Or.inl rfl)
  next behind here =>
    obtain rfl := Option.some.inj taken
    cases finds : s.finds start.pid with
    | false => exact .stale here
    | true =>
        refine .running here fun none => ?_
        simp [State.finds, none] at finds
  next here => exact Option.some.inj taken ▸ .alreadyRunning here
  next here => exact Option.some.inj taken ▸ .started here
  next here => exact Option.some.inj taken ▸ .executable here
  next here => exact Option.some.inj taken ▸ .missing here
  next i here =>
    obtain ⟨⟨server, found, dead⟩, same⟩ := Option.ite_none_right_eq_some.mp taken
    exact Option.some.inj same ▸ .wait here found dead
  next here => exact Option.some.inj taken ▸ .sleep here
  next => contradiction

theorem Right.moves {s : State} {start after : Start} (right : Right s.machine start)
    (moves : Moves s start after)
    : Right s.machine after := by
  obtain ⟨file, read, found, own⟩ := id right
  cases moves with
  | fileThere here | stale here =>
      exact ⟨fun passed => file (by simpa [here, StartPc.passed] using passed),
        by simp [StartPc.read], by simp [StartPc.succeeds], right.of_own rfl (by simp [here])⟩
  | @noFile behind here none =>
      refine ⟨fun _ pid there => by simp [none] at there, ?_, ?_,
        right.of_own rfl (by simp [here])⟩
      · cases behind <;> simp [StartPc.notRunning, StartPc.read]
      · cases behind <;> simp [StartPc.notRunning, StartPc.succeeds]
  | @readFile behind pid here same =>
      have before (passed : (StartPc.checkRunning behind).passed = true) :=
        file (by simpa [here, StartPc.passed] using passed)
      refine ⟨before, fun second other there => ?_, by simp [StartPc.succeeds],
        right.of_own rfl (by simp [here])⟩
      cases behind with
      | false => simp [StartPc.read] at second
      | true =>
          rcases same with none | same
          · simp [none] at there
          · exact before rfl other (same ▸ there)
  | @running behind here some =>
      refine ⟨fun passed => file (by simpa [here, StartPc.passed] using passed), fun second => ?_,
        fun _ => some, right.of_own rfl (by simp [here])⟩
      cases behind with
      | false => simp [StartPc.read] at second
      | true => exact read (by simp [here, StartPc.read])
  | alreadyRunning here | missing here =>
      exact ⟨by simp [StartPc.passed], by simp [StartPc.read], by simp [StartPc.succeeds],
        right.of_own rfl (by simp [here])⟩
  | started here =>
      exact ⟨fun _ => file (by simp [here, StartPc.passed]),
        fun _ => read (by simp [here, StartPc.read]),
        fun _ => found (by simp [here, StartPc.succeeds]), right.of_own rfl (by simp [here])⟩
  | executable here | sleep here =>
      exact ⟨fun _ => file (by simp [here, StartPc.passed]), by simp [StartPc.read],
        by simp [StartPc.succeeds], right.of_own rfl (by simp [here])⟩
  | @wait i server here there dead =>
      refine ⟨fun _ => file (by simp [here, StartPc.passed]), by simp [StartPc.read],
        by simp [StartPc.succeeds], fun j launched => ?_⟩
      obtain ⟨other, there', mode, state⟩ := own j launched
      refine ⟨other, there', mode, Or.inr (state.elim (fun waits => ?_) id)⟩
      obtain rfl : i = j := by simpa [here] using waits
      obtain rfl := Option.some.inj (there.symm.trans there')
      exact dead

-----------------------------------------------------------------------------------------
-- All calls
-----------------------------------------------------------------------------------------

structure InOrder (s : State) : Prop where
  calls : DaemonCalls s.machine
  starts : ∀ start ∈ s.starts, Right s.machine start

/-- What happens on the machine, with the same calls of the script. -/
theorem InOrder.machine {s : State} (inOrder : InOrder s) {machine : Machine}
    (calls : DaemonCalls machine) (kept : Kept s.machine machine)
    (file
      : ∀ pid,
          machine.pidFile = some pid → s.machine.pidFile = some pid ∨ Daemon machine pid)
    : InOrder { s with machine } :=
  ⟨calls, fun start member => (inOrder.starts start member).machine kept file⟩

/-- Removing the PID file is no disadvantage. -/
theorem InOrder.removeFile {s : State} (inOrder : InOrder s) : InOrder s.removeFile :=
  inOrder.machine inOrder.calls (.refl s.machine) fun pid there => by simp at there

theorem InOrder.set {s : State} (inOrder : InOrder s) {k : Nat} {after : Start}
    (right : Right s.machine after)
    : InOrder { s with starts := s.starts.set k after } := by
  refine ⟨inOrder.calls, fun start member => ?_⟩
  rcases List.mem_or_eq_of_mem_set member with old | new
  · exact inOrder.starts start old
  · exact new ▸ right

theorem InOrder.startDaemon {s next : State} {k : Nat} {start : Start} {outcome : Outcome}
    (inOrder : InOrder s) (found : s.starts[k]? = some start)
    (taken : startDaemon s k start outcome = some next)
    : InOrder next := by
  have right := inOrder.starts start (List.mem_of_getElem? found)
  unfold Starting.startDaemon at taken
  split at taken
  next behind here =>
    obtain rfl := Option.some.inj taken
    refine inOrder.removeFile.set ⟨fun _ pid there => by simp [State.removeFile] at there, ?_, ?_,
      right.of_own rfl (by simp [here])⟩
    · cases behind <;> simp [StartPc.notRunning, StartPc.read]
    · cases behind <;> simp [StartPc.notRunning, StartPc.succeeds]
  next pid here =>
    obtain ⟨_, taken⟩ := Option.ite_none_right_eq_some.mp taken
    obtain ⟨machine, launched, rfl⟩ := Option.map_eq_some_iff.mp taken
    have moves := DaemonServer.MachineMove.of_step launched
    have kept := Kept.move moves
    have file (pid : Nat) := @pidFile_of_move _ _ _ inOrder.calls moves pid
    refine (inOrder.machine (inOrder.calls.move moves) kept file).set ?_
    refine ⟨fun _ => (right.machine kept file).file (by simp [here, StartPc.passed]),
      by simp [StartPc.read], by simp [StartPc.succeeds], fun i same => ?_⟩
    obtain rfl : s.machine.servers.length = i := by simpa using same
    cases moves with
    | launch _ => exact ⟨_, List.getElem?_concat_length, rfl, Or.inl rfl⟩
  next =>
    obtain ⟨after, moves, rfl⟩ := Option.map_eq_some_iff.mp taken
    exact inOrder.set (right.moves (.of_moves moves))

theorem InOrder.step {s next : State} {action : Action} (inOrder : InOrder s)
    (taken : step s action = some next)
    : InOrder next := by
  cases action with
  | start =>
      obtain rfl := Option.some.inj taken
      refine ⟨inOrder.calls, fun start member => ?_⟩
      rcases List.mem_append.mp member with old | new
      · exact inOrder.starts start old
      · obtain rfl := List.mem_singleton.mp new
        exact ⟨by simp [StartPc.passed], by simp [StartPc.read], by simp [StartPc.succeeds],
          by simp⟩
  | script k outcome =>
      obtain ⟨start, found, taken⟩ := Option.bind_eq_some_iff.mp taken
      exact inOrder.startDaemon found taken
  | machine event =>
      obtain ⟨machine, moved, rfl⟩ : ∃ machine,
          machineStep s.machine event = some machine ∧ { s with machine } = next := by
        cases event with
        | launch pid port daemonMode =>
            obtain ⟨_, taken⟩ := Option.ite_none_right_eq_some.mp taken
            exact Option.map_eq_some_iff.mp taken
        | server i event => exact Option.map_eq_some_iff.mp taken
      have moves := DaemonServer.MachineMove.of_step moved
      exact inOrder.machine (inOrder.calls.move moves) (.move moves) fun pid =>
        pidFile_of_move inOrder.calls moves
  | killed i =>
      obtain ⟨_, same⟩ := Option.ite_none_right_eq_some.mp taken
      obtain rfl := Option.some.inj same
      exact inOrder.machine (inOrder.calls.killed i) (.killed s.machine i) fun _ there =>
        Or.inl there
  | otherStarts _ | otherEnds _ =>
      obtain ⟨_, same⟩ := Option.ite_none_right_eq_some.mp taken
      obtain rfl := Option.some.inj same
      exact ⟨inOrder.calls, inOrder.starts⟩
  | removeFile => exact Option.some.inj taken ▸ inOrder.removeFile

theorem inOrder_of_reachable {others : List Nat} {stale : Option Nat} {s : State}
    (reached : (system others stale).Reachable s)
    : InOrder s := by
  refine System.Reachable.invariant ?_ (fun _ _ _ => InOrder.step) reached
  intro _ same
  subst same
  exact ⟨fun i server found => by simp [initial, DaemonServer.machineStart] at found,
    by simp [initial]⟩

-----------------------------------------------------------------------------------------
-- Nobody else launches a daemon
-----------------------------------------------------------------------------------------

/-- Nobody launches a server with `-d`. -/
def NoDaemons (_ : State) : Action → Prop
  | .machine (.launch _ _ daemonMode) => daemonMode = false
  | _ => True

def AllForeground (m : Machine) : Prop := ∀ server ∈ m.servers, server.daemonMode = false

theorem AllForeground.move {m next : Machine} {event : MachineEvent}
    (all : AllForeground m) (moves : DaemonServer.MachineMove m event next)
    (foreground : ∀ pid port daemonMode, event = .launch pid port daemonMode → daemonMode = false)
    : AllForeground next := by
  cases moves with
  | @launch pid port daemonMode _ =>
      intro server member
      rcases List.mem_append.mp member with old | new
      · exact all server old
      · obtain rfl := List.mem_singleton.mp new
        exact foreground pid port daemonMode rfl
  | server found _ taken =>
      intro server member
      rcases List.mem_or_eq_of_mem_set member with old | new
      · exact all server old
      · rw [new, taken.same.2]
        exact all _ (List.mem_of_getElem? found)

theorem AllForeground.step {s next : State} {action : Action} (all : AllForeground s.machine)
    (noDaemons : NoDaemons s action) (taken : step s action = some next)
    : AllForeground next.machine := by
  cases action with
  | start | removeFile => exact Option.some.inj taken ▸ all
  | otherStarts _ | otherEnds _ =>
      obtain ⟨_, same⟩ := Option.ite_none_right_eq_some.mp taken
      exact Option.some.inj same ▸ all
  | script k outcome =>
      obtain ⟨start, _, taken⟩ := Option.bind_eq_some_iff.mp taken
      unfold startDaemon at taken
      split at taken
      next => exact Option.some.inj taken ▸ all
      next pid here =>
        obtain ⟨_, taken⟩ := Option.ite_none_right_eq_some.mp taken
        obtain ⟨machine, launched, rfl⟩ := Option.map_eq_some_iff.mp taken
        refine all.move (.of_step launched) fun _ _ daemonMode same => ?_
        exact (DaemonServer.MachineEvent.launch.inj same).2.2.symm
      next =>
        obtain ⟨after, _, rfl⟩ := Option.map_eq_some_iff.mp taken
        exact all
  | machine event =>
      cases event with
      | launch pid port daemonMode =>
          obtain ⟨_, taken⟩ := Option.ite_none_right_eq_some.mp taken
          obtain ⟨machine, launched, rfl⟩ := Option.map_eq_some_iff.mp taken
          refine all.move (.of_step launched) fun _ _ mode same => ?_
          exact (DaemonServer.MachineEvent.launch.inj same).2.2 ▸ noDaemons
      | server i event =>
          obtain ⟨machine, moved, rfl⟩ := Option.map_eq_some_iff.mp taken
          exact all.move (.of_step moved) fun _ _ _ same => by simp at same
  | killed i =>
      obtain ⟨_, same⟩ := Option.ite_none_right_eq_some.mp taken
      obtain rfl := Option.some.inj same
      intro server member
      obtain ⟨j, found⟩ := List.mem_iff_getElem?.mp member
      obtain ⟨before, there, rfl | rfl⟩ := lookup_killed (i := i) found
      · exact all server (List.mem_of_getElem? there)
      · exact all before (List.mem_of_getElem? there)

theorem allForeground_of_reachableBy {others : List Nat} {stale : Option Nat} {s : State}
    (reached : (system others stale).ReachableBy NoDaemons s)
    : AllForeground s.machine := by
  induction reached with
  | initial same =>
      subst same
      simp [AllForeground, initial, DaemonServer.machineStart]
  | step _ noDaemons taken all => exact all.step noDaemons taken

/-- A call of the script that reports a start has found the number of a daemon that was
launched with `-d`, not by a call of the script; the server of its own was dead by then. As long
as nobody launches a daemon, no call ever reports a start.
-/
theorem startDaemon_reports (others : List Nat) (stale : Option Nat)
    : (∀ s,
        (system others stale).Reachable s
        → ∀ start ∈ s.starts,
            (∀ reported,
              start.pc = .returned (.started reported)
              → ∃ pid, start.pid = some pid ∧ Daemon s.machine pid)
            ∧ ∀ i,
                start.server = some i
                → start.pc ≠ .wait i
                → ∃ server,
                    s.machine.servers[i]? = some server
                    ∧ server.daemonMode = false
                    ∧ server.pc.alive = false)
      ∧ ∀ s,
          (system others stale).ReachableBy NoDaemons s
          → ∀ start ∈ s.starts, ∀ reported, start.pc ≠ .returned (.started reported) := by
  have named {s : State} (reached : (system others stale).Reachable s) {start : Start}
      (member : start ∈ s.starts) {reported : Option Nat}
      (here : start.pc = .returned (.started reported))
      : ∃ pid, start.pid = some pid ∧ Daemon s.machine pid := by
    have right := (inOrder_of_reachable reached).starts start member
    have some := right.found (by simp [here, StartPc.succeeds])
    obtain ⟨pid, same⟩ := Option.ne_none_iff_exists'.mp some
    exact ⟨pid, same, right.read (by simp [here, StartPc.read]) pid same⟩
  constructor
  · intro s reached start member
    refine ⟨fun reported here => named reached member here, fun i launched behind => ?_⟩
    have right := (inOrder_of_reachable reached).starts start member
    obtain ⟨server, found, mode, state⟩ := right.own i launched
    exact ⟨server, found, mode, state.resolve_left behind⟩
  · intro s reached start member reported here
    obtain ⟨pid, _, i, server, found, daemon, _⟩ := named reached.reachable member here
    have foreground := allForeground_of_reachableBy reached server (List.mem_of_getElem? found)
    simp [foreground] at daemon

/-- While the script is about to launch its server, somebody else launches a daemon, which takes
the port.
-/
def overtaken : List Action :=
  [.start, .script 0 .plain, .machine (.launch 100 8888 true), .machine (.server 0 .createDaemon),
    .script 0 .plain, .machine (.server 0 .writePidFile), .machine (.server 0 .socket),
    .machine (.server 0 .bind), .script 0 (.launched 101), .machine (.server 1 .socket),
    .machine (.server 1 .bindFails), .machine (.server 0 .listen), .script 0 .plain,
    .script 0 .plain, .script 0 .plain, .script 0 .plain, .script 0 .plain, .script 0 .plain]

/-- The script reports the other one's daemon as its own. -/
theorem startDaemon_reports_overtaken
    : ∃ s : State,
        s.starts = [⟨.returned (.started (some 100)), some 100, some 1⟩]
        ∧ Daemon s.machine 100 := by
  have reached :=
    @System.reachable_of_run _ _ (system [] none) (initial [] none) rfl overtaken rfl
  obtain ⟨pid, same, daemon⟩ :=
    ((startDaemon_reports [] none).1 _ reached _ (.head _)).1 (some 100) rfl
  exact ⟨_, rfl, Option.some.inj same ▸ daemon⟩

end LinuxStudy.TestDaemon.Starting
