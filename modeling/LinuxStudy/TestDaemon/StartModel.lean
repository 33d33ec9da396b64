import LinuxStudy.TestDaemon.Model

/-! `test_daemon.sh start`, called any number of times on a machine on which others, too, launch
`daemon_server` and remove the PID file. The script launches the server without `-d`, so that
the shell waits for its end.
-/

namespace LinuxStudy.TestDaemon.Starting

open Transition
open DaemonServer (Machine MachineEvent machineStep machineStart Server)

/-- `PORT`, on which a server listens that is launched without options. -/
def defaultPort : Nat := 8888

/-- What `start_daemon` reports, with the PID that it reads for the message. -/
inductive Report
  | alreadyRunning (pid : Option Nat) -- `"守护进程已经在运行中 (PID: ...)"`
  | missing -- `"守护进程可执行文件不存在: ..."`
  | started (pid : Option Nat) -- `"守护进程启动成功 (PID: ...)"`
  | failed -- `"守护进程启动失败"`
  deriving DecidableEq, Repr

/-- Program points of `start_daemon`. It calls `is_running` twice, the second time `behind` the
launch.
-/
inductive StartPc
  | testFile (behind : Bool) -- `[ -f "$PID_FILE" ]` in `is_running`
  | readFile (behind : Bool) -- `PID=$(cat "$PID_FILE")`
  | checkRunning (behind : Bool) -- `ps -p $PID`
  | removeStale (behind : Bool) -- `rm -f "$PID_FILE"`
  | message (behind : Bool) -- `$(cat $PID_FILE)` in the message
  | testPath -- `[ ! -f "$DAEMON_PATH" ]`
  | launch -- `$DAEMON_PATH`
  | wait (server : Nat) -- the server runs in the foreground
  | sleep
  | returned (report : Report)
  deriving DecidableEq, Repr

/-- One call of the script. `pid` is the variable `PID`, with `none` for an empty string, and
`server` the instance that it has launched.
-/
structure Start where
  pc : StartPc
  pid : Option Nat
  server : Option Nat
  deriving DecidableEq, Repr

/-- The machine, the numbers of the processes that are no instances, and all calls of the
script.
-/
structure State where
  machine : Machine
  others : List Nat
  starts : List Start

/-- `ps -p $PID` finds a process. -/
def State.finds (s : State) (pid : Option Nat) : Bool :=
  pid.any fun pid => s.others.contains pid || s.machine.servers.any (hasPid pid)

/-- No living process has the number. -/
def State.free (s : State) (pid : Nat) : Prop := s.finds (some pid) = false

instance (s : State) (pid : Nat) : Decidable (s.free pid) :=
  inferInstanceAs (Decidable (_ = false))

def State.removeFile (s : State) : State :=
  { s with machine := { s.machine with pidFile := none } }

/-- An instance is inside `write_pid_file`, which has truncated the file and not filled it. -/
def State.truncated (s : State) : Prop := ∃ server ∈ s.machine.servers, server.pc = .writePidFile

instance (s : State) : Decidable s.truncated := by
  unfold State.truncated
  infer_instance

/-- Where `start_daemon` goes on when `is_running` has found no instance. -/
def StartPc.notRunning (behind : Bool) : StartPc :=
  if behind then .returned .failed else .testPath

/-- What a statement meets outside the script. -/
inductive Outcome
  | plain
  | truncated -- `write_pid_file` of an instance has truncated the file
  | missing -- there is no executable
  | launched (pid : Nat) -- the number of the new process
  deriving DecidableEq, Repr

/-- A statement of one call that touches nothing but its own variables. -/
def Start.moves (start : Start) (s : State) (outcome : Outcome) : Option Start :=
  match start.pc, outcome with
  | .testFile behind, .plain =>
      some { start with
        pc := if s.machine.pidFile.isSome then .readFile behind else .notRunning behind }
  | .testFile behind, .truncated =>
      if s.truncated then some { start with pc := .readFile behind } else none
  | .readFile behind, .plain =>
      some { start with pid := s.machine.pidFile, pc := .checkRunning behind }
  | .readFile behind, .truncated =>
      if s.truncated then some { start with pid := none, pc := .checkRunning behind } else none
  | .checkRunning behind, .plain =>
      some { start with pc := if s.finds start.pid then .message behind else .removeStale behind }
  | .message false, .plain =>
      some { start with pc := .returned (.alreadyRunning s.machine.pidFile) }
  | .message true, .plain =>
      some { start with pc := .returned (.started s.machine.pidFile) }
  | .testPath, .plain => some { start with pc := .launch }
  | .testPath, .missing => some { start with pc := .returned .missing }
  | .wait i, .plain =>
      if ∃ server ∈ s.machine.servers[i]?, server.pc.alive = false then
        some { start with pc := .sleep }
      else none
  | .sleep, .plain => some { start with pc := .testFile true }
  | _, _ => none

/-- A statement of the `k`th call. -/
def startDaemon (s : State) (k : Nat) (start : Start) (outcome : Outcome) : Option State :=
  match start.pc, outcome with
  | .removeStale behind, .plain =>
      some { s.removeFile with starts := s.starts.set k { start with pc := .notRunning behind } }
  | .launch, .launched pid =>
      if pid ∉ s.others then
        (machineStep s.machine (.launch pid defaultPort false)).map fun machine =>
          { s with
            machine
            starts := s.starts.set k { start with
              server := some s.machine.servers.length
              pc := .wait s.machine.servers.length } }
      else none
  | _, _ =>
      (start.moves s outcome).map fun after => { s with starts := s.starts.set k after }

inductive Action
  | start
  | script (k : Nat) (outcome : Outcome)
  | machine (event : MachineEvent)
  | killed (i : Nat)
  | otherStarts (pid : Nat)
  | otherEnds (pid : Nat)
  | removeFile
  deriving DecidableEq, Repr

def step (s : State) : Action → Option State
  | .start => some { s with starts := s.starts ++ [⟨.testFile false, none, none⟩] }
  | .script k outcome => s.starts[k]?.bind fun start => startDaemon s k start outcome
  -- an instance that somebody else launches gets a free number, too
  | .machine (.launch pid port daemonMode) =>
      if pid ∉ s.others then
        (machineStep s.machine (.launch pid port daemonMode)).map fun machine =>
          { s with machine }
      else none
  | .machine (.server i event) =>
      (machineStep s.machine (.server i event)).map fun machine => { s with machine }
  | .killed i =>
      if ∃ server ∈ s.machine.servers[i]?, server.pc.alive = true then
        some { s with
          machine :=
            { s.machine with
              servers := s.machine.servers.modify i fun server => { server with pc := .killed } } }
      else none
  | .otherStarts pid => if s.free pid then some { s with others := pid :: s.others } else none
  | .otherEnds pid =>
      if pid ∈ s.others then some { s with others := s.others.filter (· ≠ pid) } else none
  | .removeFile => some s.removeFile -- by another command of the script, or by hand

/-- A machine with these processes and maybe a PID file that an earlier daemon has left. -/
def initial (others : List Nat) (stale : Option Nat) : State where
  machine := { machineStart with pidFile := stale }
  others := others
  starts := []

def system (others : List Nat) (stale : Option Nat) : System State Action where
  Initial s := s = initial others stale
  step := step

end LinuxStudy.TestDaemon.Starting
