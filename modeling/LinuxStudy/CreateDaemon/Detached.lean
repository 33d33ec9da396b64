import LinuxStudy.CreateDaemon.Model
import Mathlib.Tactic.IntervalCases

/-! What a process is when `create_daemon` has returned: no leader of its session, without a
terminal and never to get one, left by its parents, and with its standard streams at
`/dev/null`. Whatever other processes do meanwhile, `setsid` succeeds.
-/

namespace LinuxStudy.CreateDaemon

open Transition Posix

-----------------------------------------------------------------------------------------
-- What a process does by itself
-----------------------------------------------------------------------------------------

/-- The statements behind the second `fork` that a daemon has passed. -/
def Pc.rank : Pc → Nat
  | .umask => 1
  | .closeStdin => 2
  | .closeStdout => 3
  | .closeStderr => 4
  | .openStdin => 5
  | .openStdout => 6
  | .openStderr => 7
  | .returned => 8
  | .foreign | .firstFork | .firstExit | .setsid | .secondFork | .secondExit | .chdir
    | .failed => 0

/-- A daemon is the child of the second `fork`. -/
def Pc.daemon (pc : Pc) : Bool := pc = .chdir || 0 < pc.rank

/-- Behind one of the two calls of `fork` that the program makes, in the parent. -/
def Pc.leaving (pc : Pc) : Bool := pc = .firstExit || pc = .secondExit

/-- A child of the program, in `create_daemon` or behind it. -/
def Pc.young (pc : Pc) : Bool :=
  pc = .setsid || pc = .secondFork || pc = .secondExit || pc.daemon

/-- The files that are opened in the place of the standard streams. -/
def streams : List File := [.devNull false, .devNull true, .devNull true]

/-- A step that changes nothing but the memory of one process. -/
inductive Local (memory : Memory) : Memory → Prop
  | exec {table directory mask} (here : memory.pc = .foreign)
    : Local memory (.launch table directory mask)
  | fails (here : memory.pc = .firstFork ∨ memory.pc = .setsid ∨ memory.pc = .secondFork
      ∨ memory.pc = .chdir)
    : Local memory { memory with pc := .failed }
  | chdir (here : memory.pc = .chdir)
    : Local memory { memory with directory := "/", pc := .umask }
  | umask (here : memory.pc = .umask)
    : Local memory { memory with mask := 0, pc := .closeStdin }
  | close {fd pc} (bound : fd < 3) (here : memory.pc.rank = fd + 2) (next : pc.rank = fd + 3)
    : Local memory (memory.close fd pc)
  | open {k pc} (bound : k < 3) (here : memory.pc.rank = k + 5) (next : pc.rank = k + 6)
    : Local memory (memory.open (decide (0 < k)) pc)
  | openFails {k pc} (bound : k < 3) (here : memory.pc.rank = k + 5) (next : pc.rank = k + 6)
    : Local memory { memory with pc }

/-- How far a process of the program has come with its directory, its mask and its streams. -/
structure Redirected (memory : Memory) : Prop where
  opened : memory.opened.Sublist (streams.take (memory.pc.rank - 5))
  lookup
    : ∀ fd,
        memory.table.lookup fd
          = if fd < min (memory.pc.rank - 2) 3 then memory.opened[fd]?
            else memory.inherited.lookup fd
  directory : 1 ≤ memory.pc.rank → memory.directory = "/"
  mask : 2 ≤ memory.pc.rank → memory.mask = 0

theorem Pc.ne_foreign_of_rank {pc : Pc} (behind : 0 < pc.rank) : pc ≠ .foreign := by
  intro foreign
  simp [foreign, Pc.rank] at behind

/-- With the numbers below `n` in use and `n` free, the next file gets `n`. -/
theorem lowestFree_eq {table : Table File} {n : Nat}
    (below : ∀ fd < n, table.lookup fd ≠ none) (free : table.lookup n = none)
    : table.lowestFree = n := by
  apply Nat.le_antisymm
  · by_contra beyond
    have inside : n < table.slots.length :=
      Nat.lt_of_lt_of_le (Nat.not_le.mp beyond) List.findIdx_le_length
    have used := List.not_of_lt_findIdx (Nat.not_le.mp beyond)
    simp [Table.lookup, inside] at free
    simp [free] at used
  · by_contra before
    exact below _ (Nat.not_le.mp before) table.lookup_lowestFree

/-- Nothing is opened before the first `open`. -/
theorem Redirected.nothing {memory : Memory} (redirected : Redirected memory)
    (early : memory.pc.rank ≤ 5)
    : memory.opened = [] := by
  have opened := redirected.opened
  rw [Nat.sub_eq_zero_of_le early, List.take_zero] at opened
  exact List.sublist_nil.mp opened

theorem Local.redirected {memory next : Memory} (moves : Local memory next)
    (redirected : memory.pc ≠ .foreign → Redirected memory)
    : Redirected next := by
  cases moves with
  | exec here => exact ⟨List.nil_sublist _, fun fd => rfl, nofun, nofun⟩
  | fails here =>
      have rank : memory.pc.rank = 0 := by
        rcases here with here | here | here | here <;> rw [here] <;> rfl
      have own : memory.pc ≠ .foreign := by
        rcases here with here | here | here | here <;> simp [here]
      obtain ⟨opened, lookup, _, _⟩ := redirected own
      rw [rank] at opened lookup
      exact ⟨opened, lookup, nofun, nofun⟩
  | chdir here =>
      obtain ⟨opened, lookup, _, _⟩ := redirected (by simp [here])
      rw [here] at opened lookup
      exact ⟨opened, lookup, fun _ => rfl, nofun⟩
  | umask here =>
      obtain ⟨opened, lookup, directory, _⟩ := redirected (by simp [here])
      rw [here] at opened lookup directory
      exact ⟨opened, lookup, fun _ => directory (Nat.le_refl 1), fun _ => rfl⟩
  | @close fd pc bound here there =>
      have before := redirected (Pc.ne_foreign_of_rank (by omega))
      have nothing := before.nothing (by omega)
      have lookup := before.lookup
      have closed : min (fd + 2 - 2) 3 = fd := by omega
      have closes : min (fd + 3 - 2) 3 = fd + 1 := by omega
      rw [here, closed] at lookup
      refine ⟨nothing ▸ List.nil_sublist _, fun other => ?_, fun _ => before.directory (by omega),
        fun _ => before.mask (by omega)⟩
      simp only [Memory.close, there, closes, Table.lookup_close, lookup, nothing,
        List.getElem?_nil]
      by_cases own : other = fd
      · simp [own]
      · have same : other < fd + 1 ↔ other < fd := by omega
        simp [own, same]
  | @«open» k pc bound here there =>
      have before := redirected (Pc.ne_foreign_of_rank (by omega))
      obtain ⟨opened, lookup, _, _⟩ := id before
      have all : min (k + 5 - 2) 3 = 3 := by omega
      have still : min (k + 6 - 2) 3 = 3 := by omega
      have passed : k + 5 - 5 = k := by omega
      have passes : k + 6 - 5 = k + 1 := by omega
      rw [here, passed] at opened
      rw [here, all] at lookup
      have few : memory.opened.length ≤ k := opened.length_le.trans (List.length_take_le _ _)
      have place : memory.table.lowestFree = memory.opened.length := by
        refine lowestFree_eq (fun fd below => ?_) ?_
        · rw [lookup, if_pos (by omega), List.getElem?_eq_getElem below]
          exact Option.some_ne_none _
        · rw [lookup, if_pos (by omega), List.getElem?_eq_none (Nat.le_refl _)]
      refine ⟨?_, fun fd => ?_, fun _ => before.directory (by omega),
        fun _ => before.mask (by omega)⟩
      · have longer : streams.take (k + 1) = streams.take k ++ [.devNull (decide (0 < k))] := by
          interval_cases k <;> rfl
        simp only [Memory.open, there, passes, longer]
        exact opened.append_right _
      · simp only [Memory.open, there, still, Table.lookup_allocate, lookup, place]
        by_cases own : fd = memory.opened.length
        · have inside : fd < 3 := by omega
          simp [← own, inside]
        · simp only [own, if_false]
          split
          next =>
            rcases Nat.lt_or_gt_of_ne own with below | beyond
            · rw [List.getElem?_append_left below]
            · rw [List.getElem?_eq_none (by omega), List.getElem?_eq_none (by simp; omega)]
          next => rfl
  | @openFails k pc bound here there =>
      have before := redirected (Pc.ne_foreign_of_rank (by omega))
      obtain ⟨opened, lookup, _, _⟩ := id before
      have all : min (k + 5 - 2) 3 = 3 := by omega
      have still : min (k + 6 - 2) 3 = 3 := by omega
      rw [here] at opened
      rw [here, all] at lookup
      refine ⟨?_, fun fd => ?_, fun _ => before.directory (by omega),
        fun _ => before.mask (by omega)⟩
      · simp only [there]
        exact opened.trans (List.take_sublist_take_left (by omega))
      · simp only [there, still, lookup]

/-- No child of the program comes from elsewhere, and nobody leaves `create_daemon` on the way
but by its calls of `fork` and `setsid`.
-/
structure Kind (before after : Pc) : Prop where
  stays : before.leaving = false
  young : after.young = true → before.young = true
  daemon : after.daemon = true → before.daemon = true
  behind : after ≠ .setsid ∧ after ≠ .secondFork ∧ after ≠ .secondExit ∧ after ≠ .foreign

theorem Kind.of_rank {before after : Pc} (past : 0 < before.rank) (next : 0 < after.rank)
    : Kind before after := by
  cases before <;> simp only [Pc.rank, Nat.lt_irrefl] at past
  all_goals
    refine ⟨rfl, fun _ => rfl, fun _ => rfl, ?_, ?_, ?_, ?_⟩
    all_goals
      rintro rfl
      simp [Pc.rank] at next

theorem Local.kind {memory next : Memory} (moves : Local memory next)
    : Kind memory.pc next.pc := by
  cases moves with
  | exec here =>
      rw [here]
      exact ⟨rfl, nofun, nofun, nofun, nofun, nofun, nofun⟩
  | fails here =>
      rcases here with here | here | here | here <;> rw [here]
      all_goals exact ⟨rfl, nofun, nofun, nofun, nofun, nofun, nofun⟩
  | chdir here =>
      rw [here]
      exact ⟨rfl, fun _ => rfl, fun _ => rfl, nofun, nofun, nofun, nofun⟩
  | umask here => exact .of_rank (by simp [here, Pc.rank]) (by simp [Pc.rank])
  | close _ here there => exact .of_rank (by omega) (by simp only [Memory.close]; omega)
  | «open» _ here there => exact .of_rank (by omega) (by simp only [Memory.open]; omega)
  | openFails _ here there => exact .of_rank (by omega) (by simp only; omega)

-----------------------------------------------------------------------------------------
-- What the steps do to the table of processes
-----------------------------------------------------------------------------------------

/-- The three kinds of `fork`: what the parent and the child go on with. -/
inductive Forks (memory : Memory) : Memory → Memory → Prop
  | first (here : memory.pc = .firstFork)
    : Forks memory { memory with pc := .firstExit } { memory with pc := .setsid }
  | second (here : memory.pc = .secondFork)
    : Forks memory { memory with pc := .secondExit } { memory with pc := .chdir }
  | foreign (here : memory.pc = .foreign) : Forks memory memory memory

/-- One step, by what it does to the table of processes. -/
inductive Move (s : World) : World → Prop
  | goOn {process memory} (listed : process ∈ s.list) (alone : Local process.memory memory)
    : Move s (goOn s process memory)
  | fork {process pid parent child} (listed : process ∈ s.list) (fresh : s.Fresh pid)
    (forks : Forks process.memory parent child)
    : Move s (s.fork process pid parent child)
  | exit {process} (listed : process ∈ s.list) : Move s (s.exit process)
  | setsid {process} (listed : process ∈ s.list) (here : process.memory.pc = .setsid)
    : Move s (s.setsid process { process.memory with pc := .secondFork })
  | foreignSetsid {process} (listed : process ∈ s.list) (here : process.memory.pc = .foreign)
    : Move s (s.setsid process process.memory)
  | openTerminal {process terminal} (listed : process ∈ s.list)
    (here : process.memory.pc = .foreign ∨ process.memory.pc = .returned)
    : Move s (s.openTerminal process terminal)
  | setpgid {caller process group} (calling : caller ∈ s.list) (listed : process ∈ s.list)
    (here : caller.memory.pc = .foreign)
    (own : process.pid = caller.pid ∨ process.parent = caller.pid)
    (there : group = process.pid ∨ ∃ member ∈ s.list, member.group = group)
    : Move s (s.put { process with group })

theorem exists_of_leadsGroup {s : World} {group : Nat} (leads : s.leadsGroup group = true)
    : ∃ member ∈ s.list, member.group = group := by
  simpa [Processes.leadsGroup] using leads

theorem Move.of_statement {s next : World} {process : Process Memory}
    (listed : process ∈ s.list) (taken : statement s process = some next)
    : Move s next := by
  have alone {memory : Memory} (alone : Local process.memory memory)
      (same : some (CreateDaemon.goOn s process memory) = some next)
      : Move s next := Option.some.inj same ▸ .goOn listed alone
  cases here : process.memory.pc <;> simp only [statement, here] at taken
  case foreign | firstFork | secondFork | returned => contradiction
  case firstExit | secondExit | failed => exact Option.some.inj taken ▸ .exit listed
  case setsid =>
    split at taken
    next => exact alone (.fails (Or.inr (Or.inl here))) taken
    next => exact Option.some.inj taken ▸ .setsid listed here
  case chdir => exact alone (.chdir here) taken
  case umask => exact alone (.umask here) taken
  case closeStdin | closeStdout | closeStderr =>
    exact alone (.close (by decide) (by rw [here]; rfl) rfl) taken
  case openStdin => exact alone (@Local.open _ 0 _ (by decide) (by rw [here]; rfl) rfl) taken
  case openStdout => exact alone (@Local.open _ 1 _ (by decide) (by rw [here]; rfl) rfl) taken
  case openStderr => exact alone (@Local.open _ 2 _ (by decide) (by rw [here]; rfl) rfl) taken

theorem Move.of_step {s next : World} {action : Action} (taken : step s action = some next)
    : Move s next := by
  cases action <;> simp only [step] at taken
  case kill pid =>
    obtain ⟨process, found, same⟩ := Option.map_eq_some_iff.mp taken
    exact same ▸ .exit (Processes.mem_of_find found).1
  case setpgid caller pid group =>
    obtain ⟨caller, calling, taken⟩ := Option.bind_eq_some_iff.mp taken
    obtain ⟨process, found, taken⟩ := Option.bind_eq_some_iff.mp taken
    obtain ⟨⟨here, own, there⟩, same⟩ := Option.ite_none_right_eq_some.mp taken
    exact Option.some.inj same ▸ .setpgid (Processes.mem_of_find calling).1
      (Processes.mem_of_find found).1 here own (there.imp_right exists_of_leadsGroup)
  all_goals
    obtain ⟨process, found, taken⟩ := Option.bind_eq_some_iff.mp taken
    have listed := (Processes.mem_of_find found).1
  case statement pid => exact .of_statement listed taken
  case exec pid table directory mask =>
    obtain ⟨here, same⟩ := Option.ite_none_right_eq_some.mp taken
    exact Option.some.inj same ▸ .goOn listed (.exec here)
  case fork pid child =>
    simp only [CreateDaemon.fork] at taken
    obtain ⟨fresh, taken⟩ := Option.ite_none_right_eq_some.mp taken
    split at taken
    next here => exact Option.some.inj taken ▸ .fork listed fresh (.first here)
    next here => exact Option.some.inj taken ▸ .fork listed fresh (.second here)
    next here => exact Option.some.inj taken ▸ .fork listed fresh (.foreign here)
    next => contradiction
  case forkFails pid =>
    simp only [CreateDaemon.forkFails] at taken
    split at taken
    next here => exact Option.some.inj taken ▸ .goOn listed (.fails (Or.inl here))
    next here => exact Option.some.inj taken ▸ .goOn listed (.fails (by simp [here]))
    next => contradiction
  case chdirFails pid =>
    simp only [CreateDaemon.chdirFails] at taken
    split at taken
    next here => exact Option.some.inj taken ▸ .goOn listed (.fails (by simp [here]))
    next => contradiction
  case openFails pid =>
    simp only [CreateDaemon.openFails] at taken
    split at taken
    next here =>
      exact Option.some.inj taken ▸ .goOn listed (@Local.openFails _ 0 _ (by decide)
        (by rw [here]; rfl) rfl)
    next here =>
      exact Option.some.inj taken ▸ .goOn listed (@Local.openFails _ 1 _ (by decide)
        (by rw [here]; rfl) rfl)
    next here =>
      exact Option.some.inj taken ▸ .goOn listed (@Local.openFails _ 2 _ (by decide)
        (by rw [here]; rfl) rfl)
    next => contradiction
  case openTerminal pid terminal =>
    obtain ⟨here, same⟩ := Option.ite_none_right_eq_some.mp taken
    exact Option.some.inj same ▸ .openTerminal listed here
  case foreignSetsid pid =>
    obtain ⟨⟨here, _⟩, same⟩ := Option.ite_none_right_eq_some.mp taken
    exact Option.some.inj same ▸ .foreignSetsid listed here

-----------------------------------------------------------------------------------------
-- Sessions, groups and parents
-----------------------------------------------------------------------------------------

/-- The process is left to `init`, or its parent has nothing more to do than to exit. -/
def Orphaned (s : World) (process : Process Memory) : Prop :=
  process.parent = initPid
  ∨ ∃ parent ∈ s.list, parent.pid = process.parent ∧ parent.memory.pc.leaving = true

/-- A new session of this number has been made, and its leader has no terminal. -/
structure Leads (s : World) (process : Process Memory) : Prop where
  session : process.session = process.pid
  group : process.group = process.pid
  terminal : s.terminal process.pid = none

/-- The process lives in a session of another process, which can acquire no terminal for it. -/
structure Follows (s : World) (process : Process Memory) : Prop where
  session : process.session ≠ process.pid
  group : process.group = process.session
  terminal : s.terminal process.session = none
  leader
    : ∀ other ∈ s.list, other.pid = process.session → other.memory.pc = .secondExit

/-- What holds of each process of the program, according to where it is. -/
structure Sound (s : World) : Prop where
  distinct : s.Distinct
  orphaned : ∀ p ∈ s.list, p.memory.pc.young = true → Orphaned s p
  fresh : ∀ p ∈ s.list, p.memory.pc = .setsid → ∀ q ∈ s.list, q.group ≠ p.pid
  leads : ∀ p ∈ s.list, p.memory.pc = .secondFork ∨ p.memory.pc = .secondExit → Leads s p
  follows : ∀ p ∈ s.list, p.memory.pc.daemon = true → Follows s p
  redirected : ∀ p ∈ s.list, p.memory.pc ≠ .foreign → Redirected p.memory

variable {s : World} {process : Process Memory}

/-- Leaving parents that are still there leave no child to anybody else. -/
theorem Orphaned.keep {next : World} {p q : Process Memory} (same : q.parent = p.parent)
    (kept
      : ∀ parent ∈ s.list,
          parent.memory.pc.leaving = true
          → parent.pid = p.parent
          → ∃ still ∈ next.list, still.pid = parent.pid ∧ still.memory.pc.leaving = true)
    (orphaned : Orphaned s p)
    : Orphaned next q := by
  rcases orphaned with adopted | ⟨parent, there, pid, leaving⟩
  · exact Or.inl (same.trans adopted)
  · obtain ⟨still, there, own, leaving⟩ := kept parent there leaving pid
    exact Or.inr ⟨still, there, own.trans (pid.trans same.symm), leaving⟩

/-- Those who leave stay when another process is replaced. -/
theorem Sound.leaving_put (sound : Sound s) (listed : process ∈ s.list)
    (stays : process.memory.pc.leaving = false) {after parent : Process Memory}
    (same : after.pid = process.pid) (there : parent ∈ s.list)
    (leaving : parent.memory.pc.leaving = true)
    : parent ∈ (s.put after).list := by
  refine Processes.mem_put there fun own => ?_
  rw [sound.distinct.same there listed (own.trans same), stays] at leaving
  contradiction

/-- What the process in a session of another one needs of a step. -/
theorem Follows.keep {next : World} {p q : Process Memory} (follows : Follows s p)
    (same : q.pid = p.pid ∧ q.group = p.group ∧ q.session = p.session)
    (terminal : s.terminal p.session = none → next.terminal p.session = none)
    (leader : ∀ r ∈ next.list, r.pid = p.session → r.memory.pc = .secondExit)
    : Follows next q := by
  obtain ⟨pid, group, session⟩ := same
  exact ⟨session.trans_ne (pid.symm ▸ follows.session),
    group.trans (follows.group.trans session.symm), session.symm ▸ terminal follows.terminal,
    session.symm ▸ leader⟩

/-- Nobody but the leader itself has its number. -/
theorem Follows.leader_put {p after : Process Memory} (follows : Follows s p)
    (listed : process ∈ s.list) (same : after.pid = process.pid)
    (still : process.memory.pc = .secondExit → after.memory.pc = .secondExit)
    : ∀ r ∈ (s.put after).list, r.pid = p.session → r.memory.pc = .secondExit := by
  intro r there leading
  rcases Processes.of_mem_put there with rfl | ⟨there, _⟩
  · exact still (follows.leader process listed (same.symm.trans leading))
  · exact follows.leader r there leading

theorem Sound.goOn {memory : Memory} (sound : Sound s) (listed : process ∈ s.list)
    (alone : Local process.memory memory)
    : Sound (goOn s process memory) := by
  have kind := alone.kind
  obtain ⟨notSetsid, notSecondFork, notSecondExit, _⟩ := kind.behind
  have orphaned {p q : Process Memory} (same : q.parent = p.parent) (old : Orphaned s p)
      : Orphaned (CreateDaemon.goOn s process memory) q :=
    old.keep same fun parent there leaving _ =>
      ⟨parent, sound.leaving_put listed kind.stays rfl there leaving, rfl, leaving⟩
  have follows {p q : Process Memory} (old : Follows s p)
      (same : q.pid = p.pid ∧ q.group = p.group ∧ q.session = p.session)
      : Follows (CreateDaemon.goOn s process memory) q := by
    refine old.keep same id (old.leader_put listed rfl fun here => ?_)
    have stays := kind.stays
    simp [here, Pc.leaving] at stays
  refine ⟨sound.distinct.put listed rfl, fun p there young => ?_, fun p there here q other => ?_,
    fun p there here => ?_, fun p there daemon => ?_, fun p there own => ?_⟩
  all_goals rcases Processes.of_mem_put there with rfl | ⟨there, different⟩
  · exact orphaned rfl (sound.orphaned process listed (kind.young young))
  · exact orphaned rfl (sound.orphaned p there young)
  · exact absurd here notSetsid
  · rcases Processes.of_mem_put other with rfl | ⟨other, _⟩
    · exact sound.fresh p there here process listed
    · exact sound.fresh p there here q other
  · rcases here with here | here
    · exact absurd here notSecondFork
    · exact absurd here notSecondExit
  · obtain ⟨session, group, terminal⟩ := sound.leads p there here
    exact ⟨session, group, terminal⟩
  · exact follows (sound.follows process listed (kind.daemon daemon)) ⟨rfl, rfl, rfl⟩
  · exact follows (sound.follows p there daemon) ⟨rfl, rfl, rfl⟩
  · exact alone.redirected (sound.redirected process listed)
  · exact sound.redirected p there own

theorem Sound.exit (sound : Sound s) : Sound (s.exit process) := by
  refine ⟨sound.distinct.exit, fun p there young => ?_, fun p there here q other => ?_,
    fun p there here => ?_, fun p there daemon => ?_, fun p there own => ?_⟩
  all_goals obtain ⟨p, before, different, rfl⟩ := Processes.of_mem_exit there
  · rcases @Process.parent_adopted _ p process.pid with adopted | ⟨elsewhere, same⟩
    · exact Or.inl adopted
    · refine (sound.orphaned p before (by simpa using young)).keep same
        fun parent there leaving pid => ⟨_, Processes.mem_exit there (pid.trans_ne elsewhere), ?_⟩
      simpa using leaving
  · obtain ⟨r, left, _, rfl⟩ := Processes.of_mem_exit other
    simpa using sound.fresh p before (by simpa using here) r left
  · obtain ⟨session, group, terminal⟩ := sound.leads p before (by simpa using here)
    exact ⟨by simpa using session, by simpa using group,
      Processes.terminal_exit (by simpa using terminal)⟩
  · have follows := sound.follows p before (by simpa using daemon)
    refine follows.keep ⟨by simp, by simp, by simp⟩ Processes.terminal_exit
      fun r left leading => ?_
    obtain ⟨q, before, _, rfl⟩ := Processes.of_mem_exit left
    simpa using follows.leader q before (by simpa using leading)
  · simpa using sound.redirected p before (by simpa using own)

/-- `setsid` of the program, or of another process. -/
theorem Sound.setsid {memory : Memory} (sound : Sound s) (listed : process ∈ s.list)
    (kind
      : (process.memory.pc = .setsid ∧ memory = { process.memory with pc := .secondFork })
        ∨ (process.memory.pc = .foreign ∧ memory = process.memory))
    : Sound (s.setsid process memory) := by
  have stays : process.memory.pc.leaving = false := by
    rcases kind with ⟨here, _⟩ | ⟨here, _⟩ <;> rw [here] <;> rfl
  have later : memory.pc ≠ .setsid ∧ memory.pc.daemon = false := by
    rcases kind with ⟨_, rfl⟩ | ⟨here, rfl⟩
    · exact ⟨nofun, rfl⟩
    · rw [here]
      exact ⟨nofun, rfl⟩
  have young : memory.pc.young = true → process.memory.pc.young = true := by
    rcases kind with ⟨here, _⟩ | ⟨_, rfl⟩
    · rw [here]
      exact fun _ => rfl
    · exact id
  have redirected : memory.pc ≠ .foreign → Redirected memory := by
    rcases kind with ⟨here, rfl⟩ | ⟨_, rfl⟩
    · obtain ⟨opened, lookup, _, _⟩ := sound.redirected process listed (by simp [here])
      rw [here] at opened lookup
      exact fun _ => ⟨opened, lookup, nofun, nofun⟩
    · exact sound.redirected process listed
  have orphaned {p q : Process Memory} (same : q.parent = p.parent) (old : Orphaned s p)
      : Orphaned (s.setsid process memory) q :=
    old.keep same fun parent there leaving _ =>
      ⟨parent, sound.leaving_put listed stays rfl there leaving, rfl, leaving⟩
  have put
      : (s.put { process with group := process.pid, session := process.pid, memory }).Distinct :=
    sound.distinct.put listed rfl
  refine ⟨put.of_list rfl, fun p there here => ?_, fun p there here q other => ?_,
    fun p there here => ?_, fun p there daemon => ?_, fun p there own => ?_⟩
  · rcases Processes.of_mem_put there with rfl | ⟨there, _⟩
    · exact orphaned rfl (sound.orphaned process listed (young here))
    · exact orphaned rfl (sound.orphaned p there here)
  · rcases Processes.of_mem_put there with rfl | ⟨there, different⟩
    · exact absurd here later.1
    · rcases Processes.of_mem_put other with rfl | ⟨other, _⟩
      · exact different.symm
      · exact sound.fresh p there here q other
  · rcases Processes.of_mem_put there with rfl | ⟨there, _⟩
    · exact ⟨rfl, rfl, Function.update_self _ _ _⟩
    · obtain ⟨session, group, terminal⟩ := sound.leads p there here
      exact ⟨session, group, Processes.terminal_setsid terminal⟩
  · rcases Processes.of_mem_put there with rfl | ⟨there, _⟩
    · exact absurd daemon (by simp [later.2])
    · have old := sound.follows p there daemon
      refine old.keep ⟨rfl, rfl, rfl⟩ Processes.terminal_setsid
        (old.leader_put listed rfl fun here => ?_)
      simp [here, Pc.leaving] at stays
  · rcases Processes.of_mem_put there with rfl | ⟨there, _⟩
    · exact redirected own
    · exact sound.redirected p there own

/-- What each kind of `fork` makes of the parent and of the child. -/
structure ForkKind (before parent child : Pc) : Prop where
  stays : before.leaving = false
  young : parent.young = true → before.young = true
  away : parent.daemon = false ∧ parent ≠ .setsid ∧ parent ≠ .secondFork
  born : child.young = true → parent.leaving = true
  leads : child ≠ .secondFork ∧ child ≠ .secondExit
  behind : parent = .secondExit ∨ child.daemon = true → before = .secondFork ∧ parent = .secondExit

theorem Forks.kind {memory parent child : Memory} (forks : Forks memory parent child)
    : ForkKind memory.pc parent.pc child.pc := by
  cases forks with
  | first here | second here =>
      rw [here]
      constructor <;> simp [Pc.leaving, Pc.young, Pc.daemon, Pc.rank]
  | foreign here =>
      rw [here]
      constructor <;> simp [Pc.leaving, Pc.young, Pc.daemon, Pc.rank]

theorem Forks.redirected {memory parent child : Memory} (forks : Forks memory parent child)
    (redirected : memory.pc ≠ .foreign → Redirected memory)
    : (parent.pc ≠ .foreign → Redirected parent) ∧ (child.pc ≠ .foreign → Redirected child) := by
  cases forks with
  | first here | second here =>
      obtain ⟨opened, lookup, _, _⟩ := redirected (by simp [here])
      rw [here] at opened lookup
      exact ⟨fun _ => ⟨opened, lookup, nofun, nofun⟩, fun _ => ⟨opened, lookup, nofun, nofun⟩⟩
  | foreign here => exact ⟨redirected, redirected⟩

theorem Sound.fork {pid : Nat} {parent child : Memory} (sound : Sound s)
    (listed : process ∈ s.list) (fresh : s.Fresh pid)
    (forks : Forks process.memory parent child)
    : Sound (s.fork process pid parent child) := by
  have kind := forks.kind
  obtain ⟨notDaemon, notSetsid, notSecondFork⟩ := kind.away
  have unused := fresh.2
  have orphaned {p q : Process Memory} (same : q.parent = p.parent) (old : Orphaned s p)
      : Orphaned (s.fork process pid parent child) q :=
    old.keep same fun gone there leaving _ =>
      ⟨gone, Processes.mem_fork (sound.leaving_put listed kind.stays rfl there leaving), rfl,
        leaving⟩
  have here : { process with memory := parent } ∈ (s.fork process pid parent child).list :=
    Processes.mem_fork (Processes.mem_put_self listed rfl)
  have follows {p : Process Memory} (there : p ∈ s.list) (old : Follows s p)
      : Follows (s.fork process pid parent child) p := by
    refine old.keep ⟨rfl, rfl, rfl⟩ id fun r member leading => ?_
    rcases Processes.of_mem_fork member with rfl | member
    · exact absurd leading.symm (unused p there).2.2
    · have still : process.memory.pc = .secondExit → parent.pc = .secondExit := by
        intro here
        have stays := kind.stays
        simp [here, Pc.leaving] at stays
      have leader : ∀ r ∈ (s.put { process with memory := parent }).list,
          r.pid = p.session → r.memory.pc = .secondExit :=
        old.leader_put listed rfl still
      exact leader r member leading
  obtain ⟨parentRedirected, childRedirected⟩ := forks.redirected (sound.redirected process listed)
  refine ⟨sound.distinct.fork listed fresh, fun p there young => ?_,
    fun p there setsid q other => ?_, fun p there behind => ?_, fun p there daemon => ?_,
    fun p there own => ?_⟩
  · rcases Processes.of_mem_fork there with rfl | there
    · exact Or.inr ⟨_, here, rfl, kind.born young⟩
    · rcases Processes.of_mem_put there with rfl | ⟨there, _⟩
      · exact orphaned rfl (sound.orphaned process listed (kind.young young))
      · exact orphaned rfl (sound.orphaned p there young)
  · have old (r : Process Memory) (member : r ∈ s.list) : r.group ≠ p.pid := by
      rcases Processes.of_mem_fork there with rfl | there
      · exact (unused r member).2.1
      · rcases Processes.of_mem_put there with rfl | ⟨there, _⟩
        · exact absurd setsid notSetsid
        · exact sound.fresh p there setsid r member
    rcases Processes.of_mem_fork other with rfl | other
    · exact old process listed
    · rcases Processes.of_mem_put other with rfl | ⟨other, _⟩
      · exact old process listed
      · exact old q other
  · rcases Processes.of_mem_fork there with rfl | there
    · rcases behind with here | here
      · exact absurd here kind.leads.1
      · exact absurd here kind.leads.2
    · rcases Processes.of_mem_put there with rfl | ⟨there, _⟩
      · have second := kind.behind (Or.inl (behind.resolve_left notSecondFork))
        obtain ⟨session, group, terminal⟩ := sound.leads process listed (Or.inl second.1)
        exact ⟨session, group, terminal⟩
      · obtain ⟨session, group, terminal⟩ := sound.leads p there behind
        exact ⟨session, group, terminal⟩
  · rcases Processes.of_mem_fork there with rfl | there
    · -- The child of the second `fork` enters the session of its parent.
      obtain ⟨second, exits⟩ := kind.behind (Or.inr daemon)
      obtain ⟨session, group, terminal⟩ := sound.leads process listed (Or.inl second)
      refine ⟨(unused process listed).2.2, group.trans session.symm,
        session.symm ▸ terminal, fun r there leading => ?_⟩
      have own : r.pid = process.pid := leading.trans session
      rcases Processes.of_mem_fork there with rfl | there
      · exact absurd own.symm (unused process listed).1
      · rcases Processes.of_mem_put there with rfl | ⟨there, other⟩
        · exact exits
        · exact absurd own other
    · rcases Processes.of_mem_put there with rfl | ⟨there, _⟩
      · exact absurd daemon (by simp [notDaemon])
      · exact follows there (sound.follows p there daemon)
  · rcases Processes.of_mem_fork there with rfl | there
    · exact childRedirected own
    · rcases Processes.of_mem_put there with rfl | ⟨there, _⟩
      · exact parentRedirected own
      · exact sound.redirected p there own

theorem Sound.openTerminal {terminal : Nat} (sound : Sound s) (listed : process ∈ s.list)
    (here : process.memory.pc = .foreign ∨ process.memory.pc = .returned)
    : Sound (s.openTerminal process terminal) := by
  have list : (s.openTerminal process terminal).list = s.list := Processes.list_openTerminal
  have away {pid : Nat}
      (program : ∀ q ∈ s.list, q.pid = pid → q.memory.pc = .secondFork ∨ q.memory.pc = .secondExit)
      : process.pid ≠ pid := by
    intro same
    rcases program process listed same with there | there <;> simp [there] at here
  refine ⟨sound.distinct.of_list list, fun p there young => ?_, fun p there setsid q other => ?_,
    fun p there behind => ?_, fun p there daemon => ?_, fun p there own => ?_⟩
  all_goals rw [list] at there
  · exact (sound.orphaned p there young).keep rfl fun parent there leaving _ =>
      ⟨parent, list ▸ there, rfl, leaving⟩
  · exact sound.fresh p there setsid q (list ▸ other)
  · obtain ⟨session, group, terminal⟩ := sound.leads p there behind
    refine ⟨session, group, Processes.terminal_openTerminal terminal (away fun q other same => ?_)⟩
    rw [sound.distinct.same other there same]
    exact behind
  · have old := sound.follows p there daemon
    refine old.keep ⟨rfl, rfl, rfl⟩ (fun terminal => ?_) (list.symm ▸ old.leader)
    exact Processes.terminal_openTerminal terminal
      (away fun q other same => Or.inr (old.leader q other same))
  · exact sound.redirected p there own

/-- A process in `create_daemon` has no parent that could still move it to another group. -/
theorem Sound.not_young_of_setpgid {caller : Process Memory} (sound : Sound s)
    (calling : caller ∈ s.list) (listed : process ∈ s.list) (here : caller.memory.pc = .foreign)
    (own : process.pid = caller.pid ∨ process.parent = caller.pid)
    : process.memory.pc.young = false := by
  by_contra young
  rw [Bool.not_eq_false] at young
  rcases own with same | child
  · rw [sound.distinct.same listed calling same, here] at young
    contradiction
  · rcases sound.orphaned process listed young with adopted | ⟨parent, there, pid, leaving⟩
    · exact sound.distinct.listed calling (child.symm.trans adopted)
    · rw [sound.distinct.same there calling (pid.trans child), here] at leaving
      contradiction

theorem Sound.setpgid {caller : Process Memory} {group : Nat} (sound : Sound s)
    (calling : caller ∈ s.list) (listed : process ∈ s.list) (here : caller.memory.pc = .foreign)
    (own : process.pid = caller.pid ∨ process.parent = caller.pid)
    (there : group = process.pid ∨ ∃ member ∈ s.list, member.group = group)
    : Sound (s.put { process with group }) := by
  have old := sound.not_young_of_setpgid calling listed here own
  have away {pc : Pc} (young : pc.young = true) : process.memory.pc ≠ pc := by
    rintro rfl
    rw [old] at young
    contradiction
  have orphaned {p q : Process Memory} (same : q.parent = p.parent) (before : Orphaned s p)
      : Orphaned (s.put { process with group }) q := by
    refine before.keep same fun parent member leaving _ => ?_
    by_cases moved : parent.pid = process.pid
    · rw [sound.distinct.same member listed moved] at leaving ⊢
      exact ⟨{ process with group }, Processes.mem_put_self listed rfl, rfl, leaving⟩
    · exact ⟨parent, Processes.mem_put member moved, rfl, leaving⟩
  have put : (s.put { process with group }).Distinct := sound.distinct.put listed rfl
  refine ⟨put, fun p member young => ?_, fun p member setsid q other => ?_,
    fun p member behind => ?_, fun p member daemon => ?_, fun p member own => ?_⟩
  · rcases Processes.of_mem_put member with rfl | ⟨member, _⟩
    · exact orphaned rfl (sound.orphaned process listed young)
    · exact orphaned rfl (sound.orphaned p member young)
  · rcases Processes.of_mem_put member with rfl | ⟨before, different⟩
    · exact absurd setsid (away rfl)
    · rcases Processes.of_mem_put other with rfl | ⟨other, _⟩
      · rcases there with rfl | ⟨fellow, joined, rfl⟩
        · exact different.symm
        · exact sound.fresh p before setsid fellow joined
      · exact sound.fresh p before setsid q other
  · rcases Processes.of_mem_put member with rfl | ⟨member, _⟩
    · rcases behind with behind | behind
      · exact absurd behind (away rfl)
      · exact absurd behind (away rfl)
    · obtain ⟨session, group, terminal⟩ := sound.leads p member behind
      exact ⟨session, group, terminal⟩
  · rcases Processes.of_mem_put member with rfl | ⟨member, _⟩
    · exact absurd rfl (away (by simp [Pc.young, daemon]))
    · have before := sound.follows p member daemon
      exact before.keep ⟨rfl, rfl, rfl⟩ id (before.leader_put listed rfl id)
  · rcases Processes.of_mem_put member with rfl | ⟨member, _⟩
    · exact sound.redirected process listed own
    · exact sound.redirected p member own

theorem Sound.move {next : World} (sound : Sound s) (moves : Move s next) : Sound next := by
  cases moves with
  | goOn listed alone => exact sound.goOn listed alone
  | fork listed fresh forks => exact sound.fork listed fresh forks
  | exit => exact sound.exit
  | setsid listed here => exact sound.setsid listed (Or.inl ⟨here, rfl⟩)
  | foreignSetsid listed here => exact sound.setsid listed (Or.inr ⟨here, rfl⟩)
  | openTerminal listed here => exact sound.openTerminal listed here
  | setpgid calling listed here own there =>
      exact sound.setpgid calling listed here own there

theorem sound_of_reachable (reached : system.Reachable s) : Sound s := by
  apply reached.invariant
  · intro first ⟨distinct, foreign⟩
    refine ⟨distinct, fun p there young => ?_, fun p there here => ?_, fun p there here => ?_,
      fun p there daemon => ?_, fun p there own => ?_⟩
    · simp [foreign p there, Pc.young, Pc.daemon, Pc.rank] at young
    · simp [foreign p there] at here
    · simp [foreign p there] at here
    · simp [foreign p there, Pc.daemon, Pc.rank] at daemon
    · exact absurd (foreign p there) own
  · intro s action next sound taken
    exact sound.move (Move.of_step taken)

-----------------------------------------------------------------------------------------
-- The daemon
-----------------------------------------------------------------------------------------

/-- What `create_daemon` makes of a process. The daemon leads neither its session nor its group,
its session has no terminal, it is left to `init` as soon as its parent has exited, and of the
descriptors exactly the first three have changed: the calls of `open` that succeeded have opened
`/dev/null` under the lowest of them.
-/
structure Detached (s : World) (daemon : Process Memory) : Prop where
  leader : daemon.session ≠ daemon.pid ∧ daemon.group ≠ daemon.pid
  terminal : s.terminal daemon.session = none
  orphaned : Orphaned s daemon
  directory : daemon.memory.directory = "/"
  mask : daemon.memory.mask = 0
  opened : daemon.memory.opened.Sublist streams
  lookup
    : ∀ fd,
        daemon.memory.table.lookup fd
          = if fd < 3 then daemon.memory.opened[fd]? else daemon.memory.inherited.lookup fd

/-- On a machine on which anything else may happen, and whichever processes are killed, `setsid`
never fails, and whoever has returned from `create_daemon` is detached and stays detached, even
if it opens terminals later.
-/
theorem detached (reached : system.Reachable s)
    : (∀ p ∈ s.list, p.memory.pc = .returned → Detached s p)
      ∧ ∀ p ∈ s.list, p.memory.pc = .setsid → s.leadsGroup p.pid = false := by
  have sound := sound_of_reachable reached
  constructor
  · intro p there returned
    obtain ⟨session, group, terminal, _⟩ := sound.follows p there (by rw [returned]; rfl)
    obtain ⟨opened, lookup, directory, mask⟩ := sound.redirected p there (by simp [returned])
    rw [returned] at opened lookup directory mask
    exact ⟨⟨session, group.trans_ne session⟩, terminal,
      sound.orphaned p there (by rw [returned]; rfl), directory (by decide), mask (by decide),
      opened, lookup⟩
  · intro p there here
    have free := sound.fresh p there here
    simpa [Processes.leadsGroup] using free

/-- A shell in a session with a terminal, and nothing else. -/
def shellAlone : World where
  list := [⟨10, initPid, 10, 10, { Memory.launch ⟨[]⟩ "/home" 18 with pc := .foreign }⟩]
  terminal := Function.update (fun _ => none) 10 (some 3)

theorem shellAlone_initial : Initial shellAlone := by
  refine ⟨⟨fun {p q} first second _ => ?_, fun {p} there => ?_⟩, fun p there => ?_⟩
  · rw [List.mem_singleton.mp first, List.mem_singleton.mp second]
  · rw [List.mem_singleton.mp there]
    decide
  · rw [List.mem_singleton.mp there]

/-- The shell launches a server with two descriptors in a group of its own; the daemon opens a
terminal at last.
-/
def oneLaunch : List Action :=
  [.fork 10 11, .setpgid 10 11 11,
    .exec 11 ⟨[some (.launched 0), none, none, some (.launched 1)]⟩ "/home" 18,
    .fork 11 12, .statement 11, .statement 12, .fork 12 13]
  ++ List.replicate 5 (.statement 13) ++ [.statement 12] ++ List.replicate 3 (.statement 13)
  ++ [.openTerminal 13 4]

theorem detached_oneLaunch
    : ∃ s : World,
        ∃ daemon ∈ s.list,
          daemon.pid = 13
          ∧ daemon.parent = initPid
          ∧ daemon.memory.table.lookup 3 = some (.launched 1)
          ∧ Detached s daemon :=
  ⟨_, _, List.mem_cons_of_mem _ List.mem_cons_self, rfl, rfl, rfl,
    (detached (System.reachable_of_run shellAlone shellAlone_initial oneLaunch rfl)).1 _
      (List.mem_cons_of_mem _ List.mem_cons_self) rfl⟩

end LinuxStudy.CreateDaemon
