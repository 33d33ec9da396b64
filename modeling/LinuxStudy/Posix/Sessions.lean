import Mathlib.Logic.Function.Basic

/-! Processes with their parents, process groups and sessions, and the controlling terminals
of the sessions. What else a process has is its memory. `init` is not listed: all it does here
is to adopt.
-/

namespace LinuxStudy.Posix

/-- The number of `init`. -/
def initPid : Nat := 1

structure Process (Memory : Type) where
  pid : Nat
  parent : Nat
  group : Nat
  session : Nat
  memory : Memory

/-- The processes there are, and the controlling terminal of each session. -/
structure Processes (Memory : Type) where
  list : List (Process Memory)
  terminal : Nat → Option Nat

variable {Memory : Type}

def Processes.find (s : Processes Memory) (pid : Nat) : Option (Process Memory) :=
  s.list.find? fun process => process.pid = pid

/-- A number that `fork` may give away: no process, group or session has it. -/
def Processes.Fresh (s : Processes Memory) (pid : Nat) : Prop :=
  pid ≠ initPid
  ∧ ∀ process ∈ s.list, process.pid ≠ pid ∧ process.group ≠ pid ∧ process.session ≠ pid

instance (s : Processes Memory) (pid : Nat) : Decidable (s.Fresh pid) :=
  inferInstanceAs (Decidable (_ ∧ _))

/-- Replace the process of this number. -/
def Processes.put (s : Processes Memory) (process : Process Memory) : Processes Memory :=
  { s with list := s.list.map fun other => if other.pid = process.pid then process else other }

/-- `fork`: the child differs in its number, its parent and what it goes on with. -/
def Processes.fork (s : Processes Memory) (process : Process Memory) (pid : Nat)
    (parent child : Memory)
    : Processes Memory :=
  let forked := s.put { process with memory := parent }
  { forked with
    list := forked.list ++ [{ process with pid, parent := process.pid, memory := child }] }

/-- A process adopted by `init` when its parent ends. -/
def Process.adopted (process : Process Memory) (parent : Nat) : Process Memory :=
  if process.parent = parent then { process with parent := initPid } else process

/-- The end of a process. A session without its leader has no terminal. -/
def Processes.exit (s : Processes Memory) (process : Process Memory) : Processes Memory where
  list := (s.list.filter fun other => other.pid ≠ process.pid).map (·.adopted process.pid)
  terminal :=
    if process.session = process.pid then Function.update s.terminal process.pid none
    else s.terminal

/-- `setsid` fails for a number that a process group has already. -/
def Processes.leadsGroup (s : Processes Memory) (pid : Nat) : Bool :=
  s.list.any fun process => process.group = pid

/-- `setsid`: a new session and a new group, which have no terminal. -/
def Processes.setsid (s : Processes Memory) (process : Process Memory) (memory : Memory)
    : Processes Memory where
  list := (s.put { process with group := process.pid, session := process.pid, memory }).list
  terminal := Function.update s.terminal process.pid none

/-- Opening a terminal that controls no session: the leader of a session without a terminal
acquires it.
-/
def Processes.openTerminal (s : Processes Memory) (process : Process Memory) (terminal : Nat)
    : Processes Memory :=
  if process.session = process.pid ∧ s.terminal process.session = none then
    { s with terminal := Function.update s.terminal process.session (some terminal) }
  else s

/-- No two processes have the same number, and none that of `init`. -/
structure Processes.Distinct (s : Processes Memory) : Prop where
  same : ∀ {p q}, p ∈ s.list → q ∈ s.list → p.pid = q.pid → p = q
  listed : ∀ {p}, p ∈ s.list → p.pid ≠ initPid

section Membership

variable {s : Processes Memory} {p q process : Process Memory} {pid : Nat}

theorem Processes.mem_of_find (found : s.find pid = some process)
    : process ∈ s.list ∧ process.pid = pid :=
  ⟨List.mem_of_find?_eq_some found, by simpa using List.find?_some found⟩

/-- After a replacement there is the new process, and there are the others. -/
theorem Processes.of_mem_put (member : q ∈ (s.put process).list)
    : q = process ∨ (q ∈ s.list ∧ q.pid ≠ process.pid) := by
  obtain ⟨other, listed, same⟩ := List.mem_map.mp member
  split at same
  next => exact Or.inl same.symm
  next different => exact Or.inr (same ▸ ⟨listed, different⟩)

theorem Processes.mem_put_self (member : p ∈ s.list) (same : p.pid = process.pid)
    : process ∈ (s.put process).list :=
  List.mem_map.mpr ⟨p, member, if_pos same⟩

theorem Processes.mem_put (member : q ∈ s.list) (different : q.pid ≠ process.pid)
    : q ∈ (s.put process).list :=
  List.mem_map.mpr ⟨q, member, if_neg different⟩

@[simp] theorem Process.pid_adopted : (p.adopted pid).pid = p.pid := by
  unfold Process.adopted
  split <;> rfl

@[simp] theorem Process.group_adopted : (p.adopted pid).group = p.group := by
  unfold Process.adopted
  split <;> rfl

@[simp] theorem Process.session_adopted : (p.adopted pid).session = p.session := by
  unfold Process.adopted
  split <;> rfl

@[simp] theorem Process.memory_adopted : (p.adopted pid).memory = p.memory := by
  unfold Process.adopted
  split <;> rfl

/-- The parent of a process that is left over is `init` or still there. -/
theorem Process.parent_adopted
    : (p.adopted pid).parent = initPid
      ∨ (p.parent ≠ pid ∧ (p.adopted pid).parent = p.parent) := by
  unfold Process.adopted
  split
  next => exact Or.inl rfl
  next other => exact Or.inr ⟨other, rfl⟩

theorem Processes.of_mem_exit (member : q ∈ (s.exit process).list)
    : ∃ p ∈ s.list, p.pid ≠ process.pid ∧ q = p.adopted process.pid := by
  obtain ⟨p, left, same⟩ := List.mem_map.mp member
  obtain ⟨listed, different⟩ := List.mem_filter.mp left
  exact ⟨p, listed, by simpa using different, same.symm⟩

theorem Processes.mem_exit (member : p ∈ s.list) (different : p.pid ≠ process.pid)
    : p.adopted process.pid ∈ (s.exit process).list :=
  List.mem_map.mpr ⟨p, List.mem_filter.mpr ⟨member, by simpa using different⟩, rfl⟩

theorem Processes.of_mem_fork {parent child : Memory}
    (member : q ∈ (s.fork process pid parent child).list)
    : q = { process with pid, parent := process.pid, memory := child }
      ∨ q ∈ (s.put { process with memory := parent }).list := by
  rcases List.mem_append.mp member with old | new
  · exact Or.inr old
  · exact Or.inl (List.mem_singleton.mp new)

theorem Processes.mem_fork {parent child : Memory}
    (member : q ∈ (s.put { process with memory := parent }).list)
    : q ∈ (s.fork process pid parent child).list :=
  List.mem_append_left _ member

/-- A session has a terminal after the end of a process only if it had it before. -/
theorem Processes.terminal_exit {session : Nat} (none_ : s.terminal session = none)
    : (s.exit process).terminal session = none := by
  simp only [Processes.exit]
  split
  next =>
    by_cases same : session = process.pid
    · rw [same, Function.update_self]
    · rw [Function.update_of_ne same, none_]
  next => exact none_

theorem Processes.terminal_setsid {session : Nat} {memory : Memory}
    (none_ : s.terminal session = none)
    : (s.setsid process memory).terminal session = none := by
  simp only [Processes.setsid]
  by_cases same : session = process.pid
  · rw [same, Function.update_self]
  · rw [Function.update_of_ne same, none_]

/-- Opening a terminal gives one to no session but that of its leader. -/
theorem Processes.terminal_openTerminal {session terminal : Nat}
    (none_ : s.terminal session = none) (other : process.pid ≠ session)
    : (s.openTerminal process terminal).terminal session = none := by
  unfold Processes.openTerminal
  split
  next leads => exact (Function.update_of_ne (leads.1.trans_ne other).symm _ _).trans none_
  next => exact none_

@[simp] theorem Processes.list_openTerminal {terminal : Nat}
    : (s.openTerminal process terminal).list = s.list := by
  unfold Processes.openTerminal
  split <;> rfl

end Membership

section Distinct

variable {s : Processes Memory} {p process : Process Memory} {pid : Nat}

theorem Processes.Distinct.put (distinct : s.Distinct) (member : p ∈ s.list)
    (same : p.pid = process.pid)
    : (s.put process).Distinct := by
  constructor
  · intro q r first second equal
    rcases Processes.of_mem_put first with rfl | ⟨first, _⟩ <;>
      rcases Processes.of_mem_put second with rfl | ⟨second, _⟩
    · rfl
    · exact absurd equal.symm ‹_›
    · exact absurd equal ‹_›
    · exact distinct.same first second equal
  · intro q there
    rcases Processes.of_mem_put there with rfl | ⟨there, _⟩
    · exact same ▸ distinct.listed member
    · exact distinct.listed there

/-- Only the numbers count. -/
theorem Processes.Distinct.of_list {next : Processes Memory} (distinct : s.Distinct)
    (same : next.list = s.list)
    : next.Distinct :=
  ⟨fun first second => distinct.same (same ▸ first) (same ▸ second),
    fun there => distinct.listed (same ▸ there)⟩

theorem Processes.Distinct.fork {parent child : Memory} (distinct : s.Distinct)
    (member : process ∈ s.list) (fresh : s.Fresh pid)
    : (s.fork process pid parent child).Distinct := by
  have kept : (s.put { process with memory := parent }).Distinct := distinct.put member rfl
  have other {q} (there : q ∈ (s.put { process with memory := parent }).list) : q.pid ≠ pid := by
    rcases Processes.of_mem_put there with rfl | ⟨there, _⟩
    · exact (fresh.2 _ member).1
    · exact (fresh.2 _ there).1
  constructor
  · intro q r first second equal
    rcases Processes.of_mem_fork first with rfl | first <;>
      rcases Processes.of_mem_fork second with rfl | second
    · rfl
    · exact absurd equal.symm (other second)
    · exact absurd equal (other first)
    · exact kept.same first second equal
  · intro q there
    rcases Processes.of_mem_fork there with rfl | there
    · exact fresh.1
    · exact kept.listed there

theorem Processes.Distinct.exit (distinct : s.Distinct) : (s.exit process).Distinct := by
  constructor
  · intro q r first second equal
    obtain ⟨p, before, _, rfl⟩ := Processes.of_mem_exit first
    obtain ⟨p', before', _, rfl⟩ := Processes.of_mem_exit second
    rw [distinct.same before before' (by simpa using equal)]
  · intro q there
    obtain ⟨p, before, _, rfl⟩ := Processes.of_mem_exit there
    simpa using distinct.listed before

end Distinct

end LinuxStudy.Posix
