import LinuxStudy.Posix.DescriptorTable
import LinuxStudy.Posix.Sessions
import LinuxStudy.Transition.Runs

/-! `create_daemon` of `daemon_server.c` on a machine on which any other processes fork, exit,
are killed and move between process groups and sessions meanwhile. Any number of servers may be
launched with `-d`, one after the other or at the same time.
-/

namespace LinuxStudy.CreateDaemon

open Transition Posix

/-- What a descriptor refers to: `/dev/null`, or a file that was open at the launch. -/
inductive File
  | devNull (writable : Bool)
  | launched (number : Nat)
  deriving DecidableEq, Repr

/-- Program points from the call of `create_daemon` on. A `foreign` process runs something
else.
-/
inductive Pc
  | foreign
  | firstFork
  | firstExit -- of the parent behind the first `fork`
  | setsid
  | secondFork
  | secondExit -- of the parent behind the second `fork`
  | chdir
  | umask
  | closeStdin
  | closeStdout
  | closeStderr
  | openStdin
  | openStdout
  | openStderr
  | returned -- `create_daemon` has returned 0
  | failed -- it has returned -1, and `main` is about to exit
  deriving DecidableEq, Repr

/-- What a process goes on with. `inherited` records the descriptors at the launch and `opened`
the files that the calls of `open` have opened.
-/
structure Memory where
  pc : Pc
  inherited : Table File
  table : Table File
  opened : List File
  directory : String
  mask : Nat
  deriving DecidableEq, Repr

abbrev World := Processes Memory

/-- Launched with `-d`, in front of `create_daemon`. -/
def Memory.launch (table : Table File) (directory : String) (mask : Nat) : Memory where
  pc := .firstFork
  inherited := table
  table := table
  opened := []
  directory := directory
  mask := mask

def Memory.close (memory : Memory) (fd : Nat) (pc : Pc) : Memory :=
  { memory with table := memory.table.close fd, pc }

/-- `open("/dev/null", ...)` -/
def Memory.open (memory : Memory) (writable : Bool) (pc : Pc) : Memory :=
  { memory with
    table := memory.table.allocate (.devNull writable)
    opened := memory.opened ++ [.devNull writable]
    pc }

/-- The process goes on with this memory. -/
def goOn (s : World) (process : Process Memory) (memory : Memory) : World :=
  s.put { process with memory }

/-- Both calls of `fork` in `create_daemon`, and those of other programs. -/
def fork (s : World) (process : Process Memory) (pid : Nat) : Option World :=
  let memory := process.memory
  if s.Fresh pid then
    match memory.pc with
    | .firstFork =>
        some (s.fork process pid { memory with pc := .firstExit } { memory with pc := .setsid })
    | .secondFork =>
        some (s.fork process pid { memory with pc := .secondExit } { memory with pc := .chdir })
    | .foreign => some (s.fork process pid memory memory)
    | _ => none
  else none

/-- `fork` returns -1. -/
def forkFails (s : World) (process : Process Memory) : Option World :=
  match process.memory.pc with
  | .firstFork | .secondFork => some (goOn s process { process.memory with pc := .failed })
  | _ => none

/-- The statements that follow from the state alone. -/
def statement (s : World) (process : Process Memory) : Option World :=
  let memory := process.memory
  match memory.pc with
  | .foreign | .firstFork | .secondFork | .returned => none
  | .firstExit | .secondExit | .failed => some (s.exit process)
  | .setsid =>
      if s.leadsGroup process.pid then some (goOn s process { memory with pc := .failed })
      else some (s.setsid process { memory with pc := .secondFork })
  | .chdir => some (goOn s process { memory with directory := "/", pc := .umask })
  | .umask => some (goOn s process { memory with mask := 0, pc := .closeStdin })
  | .closeStdin => some (goOn s process (memory.close 0 .closeStdout))
  | .closeStdout => some (goOn s process (memory.close 1 .closeStderr))
  | .closeStderr => some (goOn s process (memory.close 2 .openStdin))
  | .openStdin => some (goOn s process (memory.open false .openStdout))
  | .openStdout => some (goOn s process (memory.open true .openStderr))
  | .openStderr => some (goOn s process (memory.open true .returned))

/-- `chdir` returns -1. -/
def chdirFails (s : World) (process : Process Memory) : Option World :=
  match process.memory.pc with
  | .chdir => some (goOn s process { process.memory with pc := .failed })
  | _ => none

/-- An `open` fails; the program does not look at the result. -/
def openFails (s : World) (process : Process Memory) : Option World :=
  match process.memory.pc with
  | .openStdin => some (goOn s process { process.memory with pc := .openStdout })
  | .openStdout => some (goOn s process { process.memory with pc := .openStderr })
  | .openStderr => some (goOn s process { process.memory with pc := .returned })
  | _ => none

/-- A foreign process becomes a server that is launched with `-d`. -/
def exec (s : World) (process : Process Memory) (memory : Memory) : Option World :=
  if process.memory.pc = .foreign then some (goOn s process memory) else none

/-- A foreign process, or a server behind `create_daemon`, opens a terminal, for instance as
its log file.
-/
def openTerminal (s : World) (process : Process Memory) (terminal : Nat) : Option World :=
  if process.memory.pc = .foreign ∨ process.memory.pc = .returned then
    some (s.openTerminal process terminal)
  else none

def foreignSetsid (s : World) (process : Process Memory) : Option World :=
  if process.memory.pc = .foreign ∧ s.leadsGroup process.pid = false then
    some (s.setsid process process.memory)
  else none

/-- `setpgid` by a foreign process, for itself or a child, to a group that is there or to one of
its own.
-/
def setpgid (s : World) (caller process : Process Memory) (group : Nat) : Option World :=
  if caller.memory.pc = .foreign
      ∧ (process.pid = caller.pid ∨ process.parent = caller.pid)
      ∧ (group = process.pid ∨ s.leadsGroup group = true) then
    some (s.put { process with group })
  else none

/-- A step of a process, or a signal that kills it. -/
inductive Action
  | exec (pid : Nat) (table : Table File) (directory : String) (mask : Nat)
  | fork (pid child : Nat)
  | forkFails (pid : Nat)
  | statement (pid : Nat)
  | chdirFails (pid : Nat)
  | openFails (pid : Nat)
  | openTerminal (pid terminal : Nat)
  | foreignSetsid (pid : Nat)
  | setpgid (caller pid group : Nat)
  | kill (pid : Nat)
  deriving DecidableEq, Repr

def step (s : World) : Action → Option World
  | .exec pid table directory mask =>
      (s.find pid).bind fun process => exec s process (.launch table directory mask)
  | .fork pid child => (s.find pid).bind fun process => fork s process child
  | .forkFails pid => (s.find pid).bind fun process => forkFails s process
  | .statement pid => (s.find pid).bind fun process => statement s process
  | .chdirFails pid => (s.find pid).bind fun process => chdirFails s process
  | .openFails pid => (s.find pid).bind fun process => openFails s process
  | .openTerminal pid terminal =>
      (s.find pid).bind fun process => openTerminal s process terminal
  | .foreignSetsid pid => (s.find pid).bind fun process => foreignSetsid s process
  | .setpgid caller pid group =>
      (s.find caller).bind fun caller =>
        (s.find pid).bind fun process => setpgid s caller process group
  | .kill pid => (s.find pid).map fun process => s.exit process

/-- Any processes of other programs. -/
def Initial (s : World) : Prop :=
  s.Distinct ∧ ∀ process ∈ s.list, process.memory.pc = .foreign

def system : System World Action where
  Initial := Initial
  step := step

end LinuxStudy.CreateDaemon
