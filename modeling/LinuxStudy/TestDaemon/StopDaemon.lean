import LinuxStudy.TestDaemon.Model

/-! Which processes `test_daemon.sh stop` sends its signals to. It takes the number in the PID
file for the daemon as long as some process has it.
-/

namespace LinuxStudy.TestDaemon

open Transition

/-- Every signal went to an instance that lived. -/
def Sound (s : State) : Prop := ∀ target ∈ s.signalled, ∃ i, target = .server i

/-- In every history the script signals only living instances. -/
def SignalsOnlyDaemons (others : List Nat) : Prop :=
  ∀ s, (system others).Reachable s → Sound s

/-- The script may still send a signal to the number in `PID`. -/
def ScriptPc.signals : ScriptPc → Bool
  | .term | .poll _ | .sleep _ | .checkLast | .kill => true
  | _ => false

/-- The condition on the steps: the number that `stop_daemon` reads for `PID` is not that of
another process, and no other process starts under it before the last signal.
-/
def Meets (s : State) : Action → Prop
  | .script => s.script = .readPid → ∀ pid ∈ s.machine.pidFile, pid ∉ s.others
  | .otherStarts pid => s.script.signals = true → s.pid ≠ some pid
  | _ => True

instance (s : State) (action : Action) : Decidable (Meets s action) := by
  unfold Meets
  split <;> infer_instance

-----------------------------------------------------------------------------------------
-- Histories that meet the condition
-----------------------------------------------------------------------------------------

/-- No other process has the number that the script signals, and all signals so far were
sound.
-/
structure Guarded (s : State) : Prop where
  own : s.script.signals = true → ∀ pid ∈ s.pid, pid ∉ s.others
  sound : Sound s

section Step

variable {s next : State}

/-- A signal in a guarded state goes to an instance. -/
theorem Guarded.signals (guarded : Guarded s) (here : s.script.signals = true)
    : Sound s.signals := by
  intro target among
  simp only [State.signals, List.mem_append, Option.mem_toList] at among
  rcases among with earlier | now
  · exact guarded.sound target earlier
  · simp only [State.target, Option.bind_eq_some_iff] at now
    obtain ⟨pid, read, found⟩ := now
    rw [if_neg (guarded.own here pid read)] at found
    obtain ⟨i, _, rfl⟩ := Option.map_eq_some_iff.mp found
    exact ⟨i, rfl⟩

@[simp] theorem signalled_dies (s : State) (target : Target)
    : (s.dies target).signalled = s.signalled := by
  cases target <;> rfl

@[simp] theorem script_dies (s : State) (target : Target)
    : (s.dies target).script = s.script := by
  cases target <;> rfl

@[simp] theorem pid_dies (s : State) (target : Target) : (s.dies target).pid = s.pid := by
  cases target <;> rfl

/-- No other process appears by a death. -/
theorem others_dies_subset (s : State) (target : Target)
    : (s.dies target).others ⊆ s.others := by
  cases target with
  | server i => exact List.Subset.refl _
  | other pid => exact fun _ member => List.mem_of_mem_filter member

/-- A death keeps a state guarded. -/
theorem Guarded.dies (guarded : Guarded s) (target : Target) : Guarded (s.dies target) := by
  refine ⟨fun here pid read member => ?_, fun one among => ?_⟩
  · rw [script_dies] at here
    rw [pid_dies] at read
    exact guarded.own here pid read (others_dies_subset s target member)
  · rw [signalled_dies] at among
    exact guarded.sound one among

/-- The script keeps a state guarded if the number that it reads is not that of another
process.
-/
theorem Guarded.stopDaemon (guarded : Guarded s)
    (permitted : s.script = .readPid → ∀ pid ∈ s.machine.pidFile, pid ∉ s.others)
    (taken : stopDaemon s = some next)
    : Guarded next := by
  have sound := guarded.sound
  cases here : s.script with
  | idle => simp [TestDaemon.stopDaemon, here] at taken
  | readPid =>
      simp only [TestDaemon.stopDaemon, here, Option.some.injEq] at taken
      subst taken
      exact ⟨fun _ => permitted here, sound⟩
  | term =>
      simp only [TestDaemon.stopDaemon, here, Option.some.injEq] at taken
      subst taken
      exact ⟨fun _ => guarded.own (by rw [here]; rfl), guarded.signals (by rw [here]; rfl)⟩
  | kill =>
      simp only [TestDaemon.stopDaemon, here, Option.some.injEq] at taken
      subst taken
      have after := guarded.signals (by rw [here]; rfl)
      have kept : (s.target.elim s.signals s.signals.dies).signalled = s.signals.signalled := by
        cases s.target with
        | none => rfl
        | some target => exact signalled_dies s.signals target
      refine ⟨fun signals => (nomatch signals), fun target among => after target ?_⟩
      rw [← kept]
      exact among
  | poll _ | checkLast =>
      simp only [TestDaemon.stopDaemon, here, Option.some.injEq] at taken
      subst taken
      exact ⟨fun _ => guarded.own (by rw [here]; rfl), sound⟩
  | sleep left =>
      cases left <;>
        simp only [TestDaemon.stopDaemon, here, Option.some.injEq] at taken <;>
        subst taken <;>
        exact ⟨fun _ => guarded.own (by rw [here]; rfl), sound⟩
  | testFile | checkRunning =>
      simp only [TestDaemon.stopDaemon, here, Option.some.injEq] at taken
      subst taken
      refine ⟨fun signals => ?_, sound⟩
      simp only at signals
      split at signals <;> exact nomatch signals
  | readFile | removeStale | removeStopped | removeKilled =>
      simp only [TestDaemon.stopDaemon, here, Option.some.injEq] at taken
      subst taken
      exact ⟨fun signals => (nomatch signals), sound⟩

/-- Every step that meets the condition keeps a state guarded. -/
theorem Guarded.step {action : Action} (guarded : Guarded s) (permitted : Meets s action)
    (taken : step s action = some next)
    : Guarded next := by
  obtain ⟨own, sound⟩ := guarded
  cases action with
  | machine event =>
      cases event with
      | launch pid port daemonMode =>
          simp only [TestDaemon.step, machineMoves, Option.ite_none_right_eq_some] at taken
          obtain ⟨machine, _, rfl⟩ := Option.map_eq_some_iff.mp taken.2
          exact ⟨own, sound⟩
      | server i event =>
          obtain ⟨machine, _, rfl⟩ := Option.map_eq_some_iff.mp taken
          exact ⟨own, sound⟩
  | killed _ | otherEnds _ =>
      simp only [TestDaemon.step, Option.ite_none_right_eq_some, Option.some.injEq] at taken
      obtain ⟨_, rfl⟩ := taken
      exact Guarded.dies ⟨own, sound⟩ _
  | otherStarts pid =>
      simp only [TestDaemon.step, Option.ite_none_right_eq_some, Option.some.injEq] at taken
      obtain ⟨_, rfl⟩ := taken
      refine ⟨fun here one read among => ?_, sound⟩
      rcases List.mem_cons.mp among with rfl | among
      · exact permitted here read
      · exact own here one read among
  | removeStale =>
      simp only [TestDaemon.step, Option.ite_none_right_eq_some, Option.some.injEq] at taken
      obtain ⟨_, rfl⟩ := taken
      exact ⟨own, sound⟩
  | stop =>
      simp only [TestDaemon.step, Option.ite_none_right_eq_some, Option.some.injEq] at taken
      obtain ⟨_, rfl⟩ := taken
      exact ⟨fun signals => (nomatch signals), sound⟩
  | script => exact Guarded.stopDaemon ⟨own, sound⟩ permitted taken
  | scriptTruncated =>
      simp only [TestDaemon.step, stopDaemonTruncated, Option.ite_none_right_eq_some] at taken
      obtain ⟨_, taken⟩ := taken
      split at taken
      next =>
        obtain rfl := Option.some.inj taken
        exact ⟨fun signals => (nomatch signals), sound⟩
      next =>
        obtain rfl := Option.some.inj taken
        exact ⟨fun signals => (nomatch signals), sound⟩
      next =>
        obtain rfl := Option.some.inj taken
        exact ⟨fun _ pid read => (nomatch read), sound⟩
      next => exact nomatch taken

theorem guarded_of_reachable {others : List Nat} (reached : (system others).ReachableBy Meets s)
    : Guarded s := by
  refine System.ReachableBy.invariant (fun s first => ?_) (fun s action next _ => ?_) reached
  · rw [show s = start others from first]
    exact ⟨fun signals => (nomatch signals), fun target among => (nomatch among)⟩
  · exact fun guarded permitted taken => guarded.step permitted taken

end Step

-----------------------------------------------------------------------------------------
-- The steps outside the condition
-----------------------------------------------------------------------------------------

section Outside

variable {others : List Nat} {s next : State}

/-- Another process has the number that the script is about to signal. -/
def Endangered (s : State) : Prop :=
  s.script.signals = true ∧ ∃ pid ∈ s.pid, pid ∈ s.others

/-- `kill` reaches the other process. -/
theorem Endangered.not_sound (endangered : Endangered s) : ¬Sound s.signals := by
  obtain ⟨_, pid, read, among⟩ := endangered
  intro sound
  have target : s.target = some (.other pid) := by
    simp [State.target, Option.mem_def.mp read, among]
  obtain ⟨i, same⟩ := sound (.other pid) (by simp [State.signals, target])
  exact nomatch same

/-- `ps` finds the other process. -/
theorem Endangered.finds (endangered : Endangered s) : s.finds = true := by
  obtain ⟨_, pid, read, among⟩ := endangered
  simp [State.finds, Option.mem_def.mp read, among]

/-- One step of the script, and then a run to a state that is not sound. -/
theorem not_sound_of_script (taken : stopDaemon s = some next)
    (later
      : ∃ actions final, (system others).exec next actions = some final ∧ ¬Sound final)
    : ∃ actions final, (system others).exec s actions = some final ∧ ¬Sound final := by
  obtain ⟨actions, final, run, unsound⟩ := later
  exact ⟨.script :: actions, final, System.exec_cons_eq_some.mpr ⟨next, taken, run⟩, unsound⟩

/-- At the last signal. -/
theorem not_sound_of_kill (endangered : Endangered s) (here : s.script = .kill)
    : ∃ actions final, (system others).exec s actions = some final ∧ ¬Sound final := by
  have taken : stopDaemon s
      = some { s.target.elim s.signals s.signals.dies with script := .removeKilled } := by
    simp [stopDaemon, here]
  refine not_sound_of_script taken ⟨[], _, rfl, fun sound => endangered.not_sound ?_⟩
  intro target among
  refine sound target ?_
  cases s.target with
  | none => exact among
  | some one => simpa using among

theorem not_sound_of_checkLast (endangered : Endangered s) (here : s.script = .checkLast)
    : ∃ actions final, (system others).exec s actions = some final ∧ ¬Sound final := by
  have taken : stopDaemon s = some { s with script := .kill } := by
    simp [stopDaemon, here, endangered.finds]
  exact not_sound_of_script taken (not_sound_of_kill ⟨rfl, endangered.2⟩ rfl)

/-- Through the rounds of the loop, which all find the other process. -/
theorem not_sound_of_sleep (left : Nat) (endangered : Endangered s)
    (here : s.script = .sleep left)
    : ∃ actions final, (system others).exec s actions = some final ∧ ¬Sound final := by
  induction left generalizing s with
  | zero =>
      have taken : stopDaemon s = some { s with script := .checkLast } := by
        simp [stopDaemon, here]
      exact not_sound_of_script taken (not_sound_of_checkLast ⟨rfl, endangered.2⟩ rfl)
  | succ left ih =>
      have wakes : stopDaemon s = some { s with script := .poll left } := by
        simp [stopDaemon, here]
      have polling : Endangered { s with script := .poll left } := ⟨rfl, endangered.2⟩
      have polls : stopDaemon { s with script := .poll left }
          = some { s with script := .sleep left } := by
        simp [stopDaemon, polling.finds]
      exact not_sound_of_script wakes
        (not_sound_of_script polls (ih (s := { s with script := .sleep left })
          ⟨rfl, endangered.2⟩ rfl))

/-- From wherever the script is, it goes on to signal the other process. -/
theorem Endangered.exists_not_sound (endangered : Endangered s)
    : ∃ actions final, (system others).exec s actions = some final ∧ ¬Sound final := by
  cases here : s.script with
  | term =>
      have taken : stopDaemon s = some { s.signals with script := .poll 9 } := by
        simp [stopDaemon, here]
      exact not_sound_of_script taken ⟨[], _, rfl, endangered.not_sound⟩
  | poll left =>
      have taken : stopDaemon s = some { s with script := .sleep left } := by
        simp [stopDaemon, here, endangered.finds]
      exact not_sound_of_script taken (not_sound_of_sleep left ⟨rfl, endangered.2⟩ rfl)
  | sleep left => exact not_sound_of_sleep left endangered here
  | checkLast => exact not_sound_of_checkLast endangered here
  | kill => exact not_sound_of_kill endangered here
  | _ =>
      have signals := endangered.1
      rw [here] at signals
      exact nomatch signals

/-- A step outside the condition endangers another process. -/
theorem endangered_of_not_meets {action : Action} (taken : step s action = some next)
    (outside : ¬Meets s action)
    : Endangered next := by
  cases action with
  | script =>
      simp only [Meets, Classical.not_imp, not_forall, not_not] at outside
      obtain ⟨here, pid, file, among⟩ := outside
      simp only [step, stopDaemon, here, Option.some.injEq] at taken
      subst taken
      exact ⟨rfl, pid, file, among⟩
  | otherStarts pid =>
      simp only [Meets, Classical.not_imp, not_not] at outside
      obtain ⟨signals, read⟩ := outside
      simp only [step, Option.ite_none_right_eq_some, Option.some.injEq] at taken
      obtain ⟨_, rfl⟩ := taken
      exact ⟨signals, pid, read, List.mem_cons_self⟩
  | machine _ | killed _ | otherEnds _ | removeStale | stop | scriptTruncated =>
      exact absurd trivial outside

end Outside

/-- As long as every step meets the condition, the script signals only living instances; from
the first step that does not, it can go on to signal another process.
-/
theorem sound_of_meets (others : List Nat)
    : (∀ s, (system others).ReachableBy Meets s → Sound s)
      ∧ ∀ s action next, (system others).ReachableBy Meets s
        → step s action = some next
        → ¬Meets s action
        → ∃ actions final, (system others).exec next actions = some final ∧ ¬Sound final :=
  ⟨fun _ reached => (guarded_of_reachable reached).sound,
    fun _ _ _ _ taken outside => (endangered_of_not_meets taken outside).exists_not_sound⟩

/-- A daemon with the number 100 runs beside a process with the number 1, and is stopped. The
script finds it still alive once; the signal ends its `accept`.
-/
def stopped : List Action :=
  [.machine (.launch 100 8888 true), .machine (.server 0 .createDaemon),
    .machine (.server 0 .writePidFile), .machine (.server 0 .socket), .machine (.server 0 .bind),
    .machine (.server 0 .listen), .stop, .script, .machine (.server 0 .test), .script, .script,
    .script, .machine (.server 0 .enterAccept), .script, .otherStarts 101, .script,
    .machine (.server 0 (.signal .term true)), .machine (.server 0 .test),
    .machine (.server 0 .removePidFile), .machine (.server 0 .closeSocket), .script, .script,
    .script]

/-- The daemon has got the only signal, and has come to its end. -/
theorem sound_of_meets_stopped
    : ∃ final : State,
        final.script = .idle
        ∧ final.signalled = [.server 0]
        ∧ final.machine.servers.map (fun server => server.pc) = [.ended]
        ∧ Sound final := by
  have reached := System.reachable_restrict_iff.mp
    (@System.reachable_of_run _ _ ((system [1]).restrict Meets) (start [1]) rfl stopped rfl)
  exact ⟨_, rfl, rfl, rfl, (sound_of_meets [1]).1 _ reached⟩

/-- A daemon with the number 100 writes its PID file and is killed, and another process gets
the number.
-/
def staleFile : List Action :=
  [.machine (.launch 100 8888 true), .machine (.server 0 .createDaemon),
    .machine (.server 0 .writePidFile), .killed 0, .otherStarts 100]

/-- Then `stop` sends that process the signal. -/
theorem not_signalsOnlyDaemons_stale : ¬SignalsOnlyDaemons [] := by
  intro only
  have first : (system []).Reachable (start []) := .initial rfl
  obtain ⟨final, run, signalled⟩
      : ∃ final, (system []).exec (start [])
          (staleFile ++ [.stop, .script, .script, .script, .script, .script]) = some final
        ∧ final.signalled = [.other 100] := ⟨_, rfl, rfl⟩
  obtain ⟨i, same⟩ := only final (first.exec run) (.other 100) (by simp [signalled])
  exact nomatch same

end LinuxStudy.TestDaemon
