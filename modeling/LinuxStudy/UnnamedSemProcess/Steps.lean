import LinuxStudy.UnnamedSemProcess.Model

/-! The steps of `unnamed_sem_bin_process.c` read as a relation. -/

namespace LinuxStudy.UnnamedSemProcess

open Transition Posix Sync

variable {objects : Objects} {run : Run} {action : Action} {next : Objects × Run}

/-- One statement of the parent, or its end in front of it. -/
inductive Move (objects : Objects) (run : Run) : Action → Objects × Run → Prop
  | openValue (here : run.parent = .openValue)
    : Move objects run .parent
        ((objects.openOrCreate shmValueName 0).2,
          { run with
            shmValue := some (objects.openOrCreate shmValueName 0).1
            parent := .openSem })
  | openSem (here : run.parent = .openSem)
    : Move objects run .parent
        ((objects.openOrCreate semValueName 0).2,
          { run with
            semValue := some (objects.openOrCreate semValueName 0).1
            parent := .initValue })
  | initValue {shm} (here : run.parent = .initValue) (mapped : run.shmValue = some shm)
    : Move objects run .parent (objects.write shm 0, { run with parent := .semInit })
  | semInit {sem} (here : run.parent = .semInit) (mapped : run.semValue = some sem)
    : Move objects run .parent (objects.write sem 1, { run with parent := .fork })
  | fork (here : run.parent = .fork)
    : Move objects run .parent (objects, { run with parent := .semWait, child := .semWait })
  | parentWait {sem after} (here : run.parent = .semWait) (mapped : run.semValue = some sem)
    (granted : waitOn objects sem = some after)
    : Move objects run .parent (after, { run with parent := .load })
  | parentLoad {shm value} (here : run.parent = .load) (mapped : run.shmValue = some shm)
    (held : objects.content? shm = some value)
    : Move objects run .parent (objects, { run with parent := .store (value + 1) })
  | parentStore {shm tmp} (here : run.parent = .store tmp) (mapped : run.shmValue = some shm)
    : Move objects run .parent (objects.write shm tmp, { run with parent := .semPost })
  | parentPost {sem after} (here : run.parent = .semPost) (mapped : run.semValue = some sem)
    (posted : postOn objects sem = some after)
    : Move objects run .parent (after, { run with parent := .waitpid })
  | waitpid (here : run.parent = .waitpid) (gone : run.childGone)
    : Move objects run .parent (objects, { run with parent := .print })
  | parentPrint {shm value} (here : run.parent = .print) (mapped : run.shmValue = some shm)
    (held : objects.content? shm = some value)
    : Move objects run .parent
        (objects, { run with parentPrinted := some value, parent := .semDestroy })
  | semDestroy (here : run.parent = .semDestroy)
    : Move objects run .parent (objects, { run with parent := .unlinkValue })
  | unlinkValue (here : run.parent = .unlinkValue) (used : objects.names shmValueName ≠ none)
    : Move objects run .parent
        (objects.unlink shmValueName, { run with parent := .unlinkSem })
  | unlinkSem (here : run.parent = .unlinkSem) (used : objects.names semValueName ≠ none)
    : Move objects run .parent
        (objects.unlink semValueName, { run with parent := .release })
  | unlinkFails
    (here
      : (run.parent = .unlinkValue ∧ objects.names shmValueName = none)
        ∨ (run.parent = .unlinkSem ∧ objects.names semValueName = none))
    : Move objects run .parent (objects, { run with parentCut := true })
  | parentRelease (here : run.parent = .release)
    : Move objects run .parent (objects, { run with parent := .exited })
  | childWait {sem after} (here : run.child = .semWait) (mapped : run.semValue = some sem)
    (granted : waitOn objects sem = some after)
    : Move objects run .child (after, { run with child := .load })
  | childLoad {shm value} (here : run.child = .load) (mapped : run.shmValue = some shm)
    (held : objects.content? shm = some value)
    : Move objects run .child (objects, { run with child := .store (value + 1) })
  | childStore {shm tmp} (here : run.child = .store tmp) (mapped : run.shmValue = some shm)
    : Move objects run .child (objects.write shm tmp, { run with child := .semPost })
  | childPost {sem after} (here : run.child = .semPost) (mapped : run.semValue = some sem)
    (posted : postOn objects sem = some after)
    : Move objects run .child (after, { run with child := .print })
  | childPrint {shm value} (here : run.child = .print) (mapped : run.shmValue = some shm)
    (held : objects.content? shm = some value)
    : Move objects run .child
        (objects, { run with childPrinted := some value, child := .release })
  | childRelease (here : run.child = .release)
    : Move objects run .child (objects, { run with child := .exited })
  | cutParent (alive : run.parentCut = false ∧ run.parent ≠ .exited)
    : Move objects run .cutParent (objects, { run with parentCut := true })
  | cutChild (alive : run.childGone = false ∧ run.child ≠ .unborn)
    : Move objects run .cutChild (objects, { run with childCut := true })

/-- The parent's statements, by its program point. -/
theorem Move.of_parent (taken : parentProcess objects run = some next)
    : Move objects run .parent next := by
  cases here : run.parent <;> simp only [parentProcess, here] at taken
  case openValue => exact Option.some.inj taken ▸ .openValue here
  case openSem => exact Option.some.inj taken ▸ .openSem here
  case initValue =>
    obtain ⟨shm, mapped, rfl⟩ := Option.map_eq_some_iff.mp taken
    exact .initValue here mapped
  case semInit =>
    obtain ⟨sem, mapped, rfl⟩ := Option.map_eq_some_iff.mp taken
    exact .semInit here mapped
  case fork => exact Option.some.inj taken ▸ .fork here
  case semWait =>
    obtain ⟨after, granted, rfl⟩ := Option.map_eq_some_iff.mp taken
    obtain ⟨sem, mapped, granted⟩ := Option.bind_eq_some_iff.mp granted
    exact .parentWait here mapped granted
  case load =>
    obtain ⟨value, held, rfl⟩ := Option.map_eq_some_iff.mp taken
    obtain ⟨shm, mapped, held⟩ := Option.bind_eq_some_iff.mp held
    exact .parentLoad here mapped held
  case store tmp =>
    obtain ⟨shm, mapped, rfl⟩ := Option.map_eq_some_iff.mp taken
    exact .parentStore here mapped
  case semPost =>
    obtain ⟨after, posted, rfl⟩ := Option.map_eq_some_iff.mp taken
    obtain ⟨sem, mapped, posted⟩ := Option.bind_eq_some_iff.mp posted
    exact .parentPost here mapped posted
  case waitpid =>
    obtain ⟨gone, same⟩ := Option.ite_none_right_eq_some.mp taken
    exact Option.some.inj same ▸ .waitpid here gone
  case print =>
    obtain ⟨value, held, rfl⟩ := Option.map_eq_some_iff.mp taken
    obtain ⟨shm, mapped, held⟩ := Option.bind_eq_some_iff.mp held
    exact .parentPrint here mapped held
  case semDestroy => exact Option.some.inj taken ▸ .semDestroy here
  case unlinkValue =>
    split at taken
    next free =>
      obtain rfl := Option.some.inj taken
      rw [← here]
      exact .unlinkFails (.inl ⟨here, free⟩)
    next used => exact Option.some.inj taken ▸ .unlinkValue here used
  case unlinkSem =>
    split at taken
    next free =>
      obtain rfl := Option.some.inj taken
      rw [← here]
      exact .unlinkFails (.inr ⟨here, free⟩)
    next used => exact Option.some.inj taken ▸ .unlinkSem here used
  case release => exact Option.some.inj taken ▸ .parentRelease here
  case exited => contradiction

/-- The child's statements, by its program point. -/
theorem Move.of_child (taken : childProcess objects run = some next)
    : Move objects run .child next := by
  cases here : run.child <;> simp only [childProcess, here] at taken
  case unborn | exited => contradiction
  case semWait =>
    obtain ⟨after, granted, rfl⟩ := Option.map_eq_some_iff.mp taken
    obtain ⟨sem, mapped, granted⟩ := Option.bind_eq_some_iff.mp granted
    exact .childWait here mapped granted
  case load =>
    obtain ⟨value, held, rfl⟩ := Option.map_eq_some_iff.mp taken
    obtain ⟨shm, mapped, held⟩ := Option.bind_eq_some_iff.mp held
    exact .childLoad here mapped held
  case store tmp =>
    obtain ⟨shm, mapped, rfl⟩ := Option.map_eq_some_iff.mp taken
    exact .childStore here mapped
  case semPost =>
    obtain ⟨after, posted, rfl⟩ := Option.map_eq_some_iff.mp taken
    obtain ⟨sem, mapped, posted⟩ := Option.bind_eq_some_iff.mp posted
    exact .childPost here mapped posted
  case print =>
    obtain ⟨value, held, rfl⟩ := Option.map_eq_some_iff.mp taken
    obtain ⟨shm, mapped, held⟩ := Option.bind_eq_some_iff.mp held
    exact .childPrint here mapped held
  case release => exact Option.some.inj taken ▸ .childRelease here

/-- Every step is one of the listed ones, of a process that is not cut off. -/
theorem Move.of_step (taken : step objects run action = some next)
    : Move objects run action next
      ∧ (action = .parent → run.parentCut = false)
      ∧ (action = .child → run.childCut = false) := by
  cases action <;> obtain ⟨alive, taken⟩ := Option.ite_none_left_eq_some.mp taken
  case parent => exact ⟨.of_parent taken, fun _ => by simpa using alive, nofun⟩
  case child => exact ⟨.of_child taken, nofun, fun _ => by simpa using alive⟩
  case cutParent =>
    exact ⟨Option.some.inj taken ▸ .cutParent (by simpa using alive), nofun, nofun⟩
  case cutChild =>
    exact ⟨Option.some.inj taken ▸ .cutChild (by simpa using alive), nofun, nofun⟩

/-- A run whose processes are gone takes no step. -/
theorem Run.Gone.not_step (gone : run.Gone) : step objects run action ≠ some next := by
  obtain ⟨parent, child⟩ := gone
  intro taken
  cases action <;> obtain ⟨alive, taken⟩ := Option.ite_none_left_eq_some.mp taken
  case parent =>
    have exited := parent.resolve_left alive
    simp [parentProcess, exited] at taken
  case child =>
    rcases child.resolve_left alive with unborn | exited
    · simp [childProcess, unborn] at taken
    · simp [childProcess, exited] at taken
  case cutParent => simp_all
  case cutChild => simp_all [Run.childGone]

end LinuxStudy.UnnamedSemProcess
