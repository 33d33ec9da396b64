import LinuxStudy.DaemonServer.Model

/-! `test_daemon.sh stop` on a machine with instances of `daemon_server` and other processes. An
instance may be killed at any point; a number is free for reuse as soon as its process has
died.
-/

namespace LinuxStudy.TestDaemon

open Transition
open DaemonServer (Machine MachineEvent machineStep machineStart Server)

/-- Program points of `stop_daemon` and of `is_running`, which it calls first. -/
inductive ScriptPc
  | idle
  | testFile -- `[ -f "$PID_FILE" ]`
  | readFile -- `PID=$(cat "$PID_FILE")` in `is_running`
  | checkRunning -- `ps -p $PID` in `is_running`
  | removeStale -- `rm -f "$PID_FILE"` in `is_running`
  | readPid -- `PID=$(cat "$PID_FILE")` in `stop_daemon`
  | term -- `kill -TERM $PID`
  | poll (left : Nat) -- `ps -p $PID` in the loop, with this many rounds behind this one
  | sleep (left : Nat)
  | removeStopped -- `rm -f "$PID_FILE"` in the loop
  | checkLast -- `ps -p $PID` behind the loop
  | kill -- `kill -9 $PID`
  | removeKilled -- `rm -f "$PID_FILE"` behind `kill -9`
  deriving DecidableEq, Repr

/-- The process that a signal of the script reaches: the `i`th instance, or another one. -/
inductive Target
  | server (i : Nat)
  | other (pid : Nat)
  deriving DecidableEq, Repr

/-- `others` are the numbers of the processes that are no instances. `pid` is the variable
`PID`, with `none` for an empty string. `signalled` records the targets of the signals.
-/
structure State where
  machine : Machine
  others : List Nat
  script : ScriptPc
  pid : Option Nat
  signalled : List Target

/-- The instance lives and has this number. -/
def hasPid (pid : Nat) (server : Server) : Bool := server.pc.alive && server.pid == pid

/-- `ps -p $PID` finds a process. -/
def State.finds (s : State) : Bool :=
  match s.pid with
  | some pid => s.others.contains pid || s.machine.servers.any (hasPid pid)
  | none => false

/-- The process that `kill $PID` reaches. -/
def State.target (s : State) : Option Target :=
  s.pid.bind fun pid =>
    if pid ∈ s.others then some (.other pid)
    else (s.machine.servers.findIdx? (hasPid pid)).map .server

/-- The file is removed. -/
def State.removeFile (s : State) : State :=
  { s with machine := { s.machine with pidFile := none } }

/-- The process dies without any clean-up. -/
def State.dies (s : State) : Target → State
  | .server i =>
      { s with
        machine :=
          { s.machine with
            servers := s.machine.servers.modify i fun server => { server with pc := .killed } } }
  | .other pid => { s with others := s.others.filter (· ≠ pid) }

/-- The record of a signal to `$PID`. -/
def State.signals (s : State) : State := { s with signalled := s.signalled ++ s.target.toList }

-----------------------------------------------------------------------------------------
-- The script
-----------------------------------------------------------------------------------------

/-- `stop_daemon` makes its next step; `cat` of a file that is gone gives an empty string. -/
def stopDaemon (s : State) : Option State :=
  match s.script with
  | .idle => none
  | .testFile =>
      some { s with script := if s.machine.pidFile.isSome then .readFile else .idle }
  | .readFile => some { s with pid := s.machine.pidFile, script := .checkRunning }
  | .checkRunning => some { s with script := if s.finds then .readPid else .removeStale }
  | .removeStale => some { s.removeFile with script := .idle }
  | .readPid => some { s with pid := s.machine.pidFile, script := .term }
  | .term => some { s.signals with script := .poll 9 }
  | .poll left => some { s with script := if s.finds then .sleep left else .removeStopped }
  | .sleep 0 => some { s with script := .checkLast }
  | .sleep (left + 1) => some { s with script := .poll left }
  | .removeStopped => some { s.removeFile with script := .idle }
  | .checkLast => some { s with script := if s.finds then .kill else .idle }
  | .kill =>
      let signalled := s.signals
      some { s.target.elim signalled signalled.dies with script := .removeKilled }
  | .removeKilled => some { s.removeFile with script := .idle }

/-- The script uses the file while an instance is inside `write_pid_file`, which has truncated
it and not yet filled it.
-/
def stopDaemonTruncated (s : State) : Option State :=
  if ∃ server ∈ s.machine.servers, server.pc = .writePidFile then
    match s.script with
    | .testFile => some { s with script := .readFile }
    | .readFile => some { s with pid := none, script := .checkRunning }
    | .readPid => some { s with pid := none, script := .term }
    | _ => none
  else none

inductive Action
  | machine (event : MachineEvent)
  | killed (i : Nat)
  | otherStarts (pid : Nat)
  | otherEnds (pid : Nat)
  | removeStale
  | stop
  | script
  | scriptTruncated
  deriving DecidableEq, Repr

/-- No living process has the number. -/
def State.free (s : State) (pid : Nat) : Prop :=
  pid ∉ s.others ∧ ∀ server ∈ s.machine.servers, hasPid pid server = false

instance (s : State) (pid : Nat) : Decidable (s.free pid) :=
  inferInstanceAs (Decidable (_ ∧ _))

/-- What happens on the machine; a new instance gets a free number. -/
def machineMoves (s : State) (event : MachineEvent) : Option State :=
  match event with
  | .launch pid _ _ =>
      if pid ∉ s.others then
        (machineStep s.machine event).map fun machine => { s with machine }
      else none
  | .server _ _ => (machineStep s.machine event).map fun machine => { s with machine }

def step (s : State) : Action → Option State
  | .machine event => machineMoves s event
  | .killed i =>
      if ∃ server ∈ s.machine.servers[i]?, server.pc.alive = true then some (s.dies (.server i))
      else none
  | .otherStarts pid =>
      if s.free pid then some { s with others := pid :: s.others } else none
  | .otherEnds pid => if pid ∈ s.others then some (s.dies (.other pid)) else none
  | .removeStale =>
      -- `is_running` in another command of the script
      if ∀ pid ∈ s.machine.pidFile, s.free pid then some s.removeFile else none
  | .stop => if s.script = .idle then some { s with script := .testFile } else none
  | .script => stopDaemon s
  | .scriptTruncated => stopDaemonTruncated s

/-- A machine with these processes, and no instance so far. -/
def start (others : List Nat) : State where
  machine := machineStart
  others := others
  script := .idle
  pid := none
  signalled := []

def system (others : List Nat) : System State Action where
  Initial s := s = start others
  step := step

end LinuxStudy.TestDaemon
