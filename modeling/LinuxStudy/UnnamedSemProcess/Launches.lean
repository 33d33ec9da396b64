import LinuxStudy.Transition.Progress
import LinuxStudy.UnnamedSemProcess.Steps

/-! Launch after launch of `unnamed_sem_bin_process.c`. A run sets its two objects up anew, so
that it counts right whatever earlier runs have left in them, wherever they were cut off.
-/

namespace LinuxStudy.UnnamedSemProcess

open Transition Posix Sync

variable {objects : Objects} {run : Run} {action : Action} {next : Objects × Run}

/-- How many statements of the parent are behind it. -/
@[simp] def ParentPc.number : ParentPc → Nat
  | .openValue => 0
  | .openSem => 1
  | .initValue => 2
  | .semInit => 3
  | .fork => 4
  | .semWait => 5
  | .load => 6
  | .store _ => 7
  | .semPost => 8
  | .waitpid => 9
  | .print => 10
  | .semDestroy => 11
  | .unlinkValue => 12
  | .unlinkSem => 13
  | .release => 14
  | .exited => 15

@[simp] def ChildPc.number : ChildPc → Nat
  | .unborn => 0
  | .semWait => 1
  | .load => 2
  | .store _ => 3
  | .semPost => 4
  | .print => 5
  | .release => 6
  | .exited => 7

/-- 1 between the wait and the post of a process, else 0. -/
def ParentPc.inside (pc : ParentPc) : Nat := if 6 ≤ pc.number ∧ pc.number ≤ 8 then 1 else 0

def ChildPc.inside (pc : ChildPc) : Nat := if 2 ≤ pc.number ∧ pc.number ≤ 4 then 1 else 0

/-- 1 behind the store of a process, else 0. -/
def ParentPc.stored (pc : ParentPc) : Nat := if 8 ≤ pc.number then 1 else 0

def ChildPc.stored (pc : ChildPc) : Nat := if 4 ≤ pc.number then 1 else 0

/-- The mapped object holds this value. -/
def Cell (objects : Objects) (mapped : Option Nat) (value : Nat) : Prop :=
  ∃ object, mapped = some object ∧ objects.content? object = some value

-----------------------------------------------------------------------------------------
-- The names and the mapped objects
-----------------------------------------------------------------------------------------

/-- The two mappings are of two objects, which have their names until the parent removes
them.
-/
structure Mapped (objects : Objects) (run : Run) : Prop where
  sound : objects.Sound
  value : run.shmValue = none ↔ run.parent.number < 1
  sem : run.semValue = none ↔ run.parent.number < 2
  valueName
    : 1 ≤ run.parent.number
      → objects.names shmValueName = if run.parent.number < 13 then run.shmValue else none
  semName
    : 2 ≤ run.parent.number
      → objects.names semValueName = if run.parent.number < 14 then run.semValue else none
  exist
    : ∀ object,
        run.shmValue = some object ∨ run.semValue = some object
        → object < objects.contents.length
  apart : ∀ object, run.shmValue = some object → run.semValue ≠ some object

/-- A step that maps and unlinks nothing. -/
theorem Mapped.of_same (mapped : Mapped objects run) {after : Objects} {other : Run}
    (names : after.names = objects.names)
    (length : after.contents.length = objects.contents.length)
    (value : other.shmValue = run.shmValue) (sem : other.semValue = run.semValue)
    (place : ∀ k ∈ [1, 2, 13, 14], other.parent.number < k ↔ run.parent.number < k)
    : Mapped after other where
  sound := by
    refine ⟨fun name object used => ?_, fun one two object first second => ?_⟩
    · rw [length]
      exact mapped.sound.bound name object (names ▸ used)
    · exact mapped.sound.own one two object (names ▸ first) (names ▸ second)
  value := by rw [value, mapped.value, place 1 (by simp)]
  sem := by rw [sem, mapped.sem, place 2 (by simp)]
  valueName late := by
    have late : 1 ≤ run.parent.number := Nat.not_lt.mp ((place 1 (by simp)).not.mp (by omega))
    simp only [names, mapped.valueName late, value, place 13 (by simp)]
  semName late := by
    have late : 2 ≤ run.parent.number := Nat.not_lt.mp ((place 2 (by simp)).not.mp (by omega))
    simp only [names, mapped.semName late, sem, place 14 (by simp)]
  exist object one := by
    rw [value, sem] at one
    rw [length]
    exact mapped.exist object one
  apart object one := by
    rw [value] at one
    rw [sem]
    exact mapped.apart object one

/-- A wait or a post writes the semaphore. -/
theorem exists_write_of_waitOn {sem : Nat} {after : Objects}
    (granted : waitOn objects sem = some after)
    : ∃ value, after = objects.write sem value := by
  obtain ⟨value, held, granted⟩ := Option.bind_eq_some_iff.mp granted
  obtain ⟨lower, _, rfl⟩ := Option.map_eq_some_iff.mp granted
  exact ⟨lower, rfl⟩

theorem exists_write_of_postOn {sem : Nat} {after : Objects}
    (posted : postOn objects sem = some after)
    : ∃ value, after = objects.write sem value := by
  obtain ⟨value, held, rfl⟩ := Option.map_eq_some_iff.mp posted
  exact ⟨semPost value, rfl⟩

theorem names_ne : shmValueName ≠ semValueName := by decide

theorem length_write {object value : Nat}
    : (objects.write object value).contents.length = objects.contents.length := by
  simp [NamedObjects.write]

theorem Mapped.move (mapped : Mapped objects run) (move : Move objects run action next)
    : Mapped next.1 next.2 := by
  cases move with
  | openValue here =>
      have sound : (objects.openOrCreate shmValueName 0).2.Sound := mapped.sound.openOrCreate
      have unmapped : run.semValue = none := mapped.sem.mpr (by simp [here])
      refine ⟨sound, by simp, by simp [unmapped],
        fun _ => by simp, fun late => by simp at late,
        fun object one => ?_, fun object _ => by simp [unmapped]⟩
      rcases one with value | sem
      · obtain rfl := Option.some.inj value
        exact sound.bound shmValueName _ NamedObjects.names_openOrCreate
      · simp [unmapped] at sem
  | openSem here =>
      have sound : (objects.openOrCreate semValueName 0).2.Sound := mapped.sound.openOrCreate
      have value : (objects.openOrCreate semValueName 0).2.names shmValueName = run.shmValue := by
        rw [NamedObjects.names_openOrCreate_of_ne names_ne,
          mapped.valueName (by simp [here])]
        simp [here]
      have before : run.shmValue ≠ none := fun unmapped => by
        have early := mapped.value.mp unmapped
        simp [here] at early
      refine ⟨sound, by simpa using before, by simp,
        fun _ => by simpa using value, fun _ => by simp,
        fun object one => ?_, fun object one same => ?_⟩
      · rcases one with one | sem
        · exact sound.bound shmValueName object (value.trans one)
        · obtain rfl := Option.some.inj sem
          exact sound.bound semValueName _ NamedObjects.names_openOrCreate
      · obtain rfl := Option.some.inj same
        exact names_ne (sound.own _ _ _ (value.trans one) NamedObjects.names_openOrCreate)
  | unlinkValue here used =>
      have sem := mapped.semName (by simp [here])
      refine ⟨mapped.sound.unlink, ?_, ?_, fun _ => by simp [NamedObjects.unlink],
        fun _ => ?_, mapped.exist, mapped.apart⟩
      · simpa [here] using mapped.value
      · simpa [here] using mapped.sem
      · simpa [here, NamedObjects.unlink, names_ne.symm] using sem
  | unlinkSem here used =>
      have value := mapped.valueName (by simp [here])
      refine ⟨mapped.sound.unlink, ?_, ?_, fun _ => ?_,
        fun _ => by simp [NamedObjects.unlink], mapped.exist, mapped.apart⟩
      · simpa [here] using mapped.value
      · simpa [here] using mapped.sem
      · simpa [here, NamedObjects.unlink, names_ne] using value
  | initValue here | semInit here | parentStore here =>
      exact mapped.of_same rfl length_write rfl rfl (by simp [here])
  | fork here | parentLoad here | waitpid here | parentPrint here | semDestroy here
  | parentRelease here =>
      exact mapped.of_same rfl rfl rfl rfl (by simp [here])
  | parentWait here _ granted =>
      obtain ⟨value, rfl⟩ := exists_write_of_waitOn granted
      exact mapped.of_same rfl length_write rfl rfl (by simp [here])
  | parentPost here _ posted =>
      obtain ⟨value, rfl⟩ := exists_write_of_postOn posted
      exact mapped.of_same rfl length_write rfl rfl (by simp [here])
  | unlinkFails | cutParent | cutChild => exact mapped.of_same rfl rfl rfl rfl fun _ _ => Iff.rfl
  | childLoad | childPrint | childRelease =>
      exact mapped.of_same rfl rfl rfl rfl fun _ _ => Iff.rfl
  | childStore => exact mapped.of_same rfl length_write rfl rfl fun _ _ => Iff.rfl
  | childWait _ _ granted =>
      obtain ⟨value, rfl⟩ := exists_write_of_waitOn granted
      exact mapped.of_same rfl length_write rfl rfl fun _ _ => Iff.rfl
  | childPost _ _ posted =>
      obtain ⟨value, rfl⟩ := exists_write_of_postOn posted
      exact mapped.of_same rfl length_write rfl rfl fun _ _ => Iff.rfl

-----------------------------------------------------------------------------------------
-- What the two objects hold
-----------------------------------------------------------------------------------------

theorem Cell.write_self {mapped : Option Nat} {value object : Nat}
    (cell : Cell objects mapped value) (here : mapped = some object) (new : Nat)
    : Cell (objects.write object new) mapped new := by
  obtain ⟨found, same, held⟩ := cell
  obtain rfl := Option.some.inj (same.symm.trans here)
  exact ⟨found, same, NamedObjects.content_write held new⟩

theorem Cell.write_other {mapped : Option Nat} {value object : Nat}
    (cell : Cell objects mapped value) (away : mapped ≠ some object) (new : Nat)
    : Cell (objects.write object new) mapped value := by
  obtain ⟨found, same, held⟩ := cell
  have apart : found ≠ object := fun equal => away (equal ▸ same)
  exact ⟨found, same, (NamedObjects.content_write_of_ne apart new).trans held⟩

/-- What is read from a mapping is what the object holds. -/
theorem Cell.eq {mapped : Option Nat} {value held object : Nat} (cell : Cell objects mapped value)
    (here : mapped = some object) (read : objects.content? object = some held)
    : held = value := by
  obtain ⟨found, same, held'⟩ := cell
  obtain rfl := Option.some.inj (same.symm.trans here)
  exact Option.some.inj (read.symm.trans held')

/-- The shared `int` is the number of stores, and one permit is in the semaphore or with the
process inside. `waitpid` returns before the parent prints.
-/
structure Raised (objects : Objects) (run : Run) : Prop where
  total
    : 3 ≤ run.parent.number → Cell objects run.shmValue (run.parent.stored + run.child.stored)
  permit
    : 4 ≤ run.parent.number
      → ∃ value,
          Cell objects run.semValue value ∧ value + run.parent.inside + run.child.inside = 1
  parentTmp : ∀ tmp, run.parent = .store tmp → tmp = run.child.stored + 1
  childTmp : ∀ tmp, run.child = .store tmp → tmp = run.parent.stored + 1
  born : run.child = .unborn ↔ run.parent.number < 5
  reaped : 10 ≤ run.parent.number → run.childGone
  shown : run.parentPrinted = none ↔ run.parent.number < 11
  parentShown : ∀ n, run.parentPrinted = some n → n = 1 + run.child.stored
  childShown : ∀ n, run.childPrinted = some n → n = 1 ∨ n = 2

/-- A step of the parent that leaves the contents alone, inside or outside, and reaches no
new stage.
-/
theorem Raised.of_same (raised : Raised objects run) {after : Objects} {place : ParentPc}
    (contents : after.contents = objects.contents) (inside : place.inside = run.parent.inside)
    (stored : place.stored = run.parent.stored) (quiet : ∀ tmp, place ≠ .store tmp)
    (stage : ∀ k ∈ [3, 4, 5, 10, 11], place.number < k ↔ run.parent.number < k)
    : Raised after { run with parent := place } := by
  have cell {mapped : Option Nat} {value : Nat} (cell : Cell objects mapped value)
      : Cell after mapped value := by
    obtain ⟨object, same, held⟩ := cell
    exact ⟨object, same, by rw [NamedObjects.content?, contents]; exact held⟩
  have late (k : Nat) (member : k ∈ [3, 4, 5, 10, 11]) (there : k ≤ place.number)
      : k ≤ run.parent.number :=
    Nat.not_lt.mp ((stage k member).not.mp (Nat.not_lt.mpr there))
  constructor
  · intro there
    rw [stored]
    exact cell (raised.total (late 3 (by simp) there))
  · intro there
    obtain ⟨value, holds, balance⟩ := raised.permit (late 4 (by simp) there)
    exact ⟨value, cell holds, by rw [inside]; exact balance⟩
  · exact fun tmp here => absurd here (quiet tmp)
  · intro tmp here
    rw [stored]
    exact raised.childTmp tmp here
  · exact raised.born.trans (stage 5 (by simp)).symm
  · exact fun there => raised.reaped (late 10 (by simp) there)
  · exact raised.shown.trans (stage 11 (by simp)).symm
  · exact raised.parentShown
  · exact raised.childShown

/-- A process that is cut off leaves everything as it is. -/
theorem Raised.cut (raised : Raised objects run) {parentCut childCut : Bool}
    (later : run.childCut = true → childCut = true)
    : Raised objects { run with parentCut, childCut } := by
  refine ⟨raised.total, raised.permit, raised.parentTmp, raised.childTmp, raised.born,
    fun there => ?_, raised.shown, raised.parentShown, raised.childShown⟩
  have gone := raised.reaped there
  simp only [Run.childGone, Bool.or_eq_true, decide_eq_true_eq] at gone ⊢
  exact gone.imp_left later

/-- Only one process is inside. -/
theorem Raised.exclusive (raised : Raised objects run)
    : run.parent.inside = 0 ∨ run.child.inside = 0 := by
  by_cases early : run.parent.number < 4
  · left
    simp only [ParentPc.inside]
    split <;> omega
  · obtain ⟨value, _, balance⟩ := raised.permit (Nat.not_lt.mp early)
    omega

/-- The parent's statements. -/
theorem Raised.parent (raised : Raised objects run) (mapped : Mapped objects run)
    (move : Move objects run .parent next)
    : Raised next.1 next.2 := by
  obtain ⟨total, permit, parentTmp, childTmp, born, reaped, shown, parentShown, childShown⟩ :=
    id raised
  cases move with
  | openValue here | openSem here =>
      rw [here] at childTmp born shown
      exact ⟨by simp, by simp, nofun, childTmp, born.trans (by simp), by simp,
        shown.trans (by simp), parentShown, childShown⟩
  | @initValue shm here value =>
      rw [here] at childTmp born shown
      have unborn : run.child = .unborn := born.mpr (by decide)
      have bound := mapped.exist shm (.inl value)
      have cell : Cell (objects.write shm 0) run.shmValue 0 :=
        Cell.write_self ⟨shm, value, List.getElem?_eq_getElem bound⟩ value 0
      refine ⟨fun _ => ?_, by simp, nofun, childTmp, born.trans (by simp), by simp,
        shown.trans (by simp), parentShown, childShown⟩
      simp only [unborn]
      exact cell
  | @semInit sem here value =>
      rw [here] at total childTmp born shown
      have unborn : run.child = .unborn := born.mpr (by decide)
      have bound := mapped.exist sem (.inr value)
      have away : run.shmValue ≠ some sem := fun same => mapped.apart sem same value
      have cell : Cell (objects.write sem 1) run.semValue 1 :=
        Cell.write_self ⟨sem, value, List.getElem?_eq_getElem bound⟩ value 1
      refine ⟨fun _ => (total (by decide)).write_other away 1, fun _ => ⟨1, cell, ?_⟩, nofun,
        childTmp, born.trans (by simp), by simp, shown.trans (by simp), parentShown,
        childShown⟩
      simp only [unborn]
      rfl
  | fork here =>
      rw [here] at total permit born shown
      have unborn : run.child = .unborn := born.mpr (by decide)
      rw [unborn] at total permit
      refine ⟨fun _ => total (by decide), fun _ => permit (by decide), nofun, nofun,
        by simp, by simp, shown.trans (by simp), fun n printed => ?_, childShown⟩
      simp [shown.mpr (by decide)] at printed
  | @parentWait sem after here value granted =>
      rw [here] at total permit childTmp born shown
      obtain ⟨held, cell, balance⟩ := permit (by decide)
      obtain ⟨object, same, content⟩ := id cell
      obtain rfl := Option.some.inj (same.symm.trans value)
      obtain ⟨lower, lowered, rfl⟩ := waitOn_eq_some content granted
      have away : run.shmValue ≠ some object := fun same => mapped.apart object same value
      refine ⟨fun _ => (total (by decide)).write_other away lower,
        fun _ => ⟨lower, cell.write_self value lower, ?_⟩, nofun, childTmp,
        born.trans (by simp), by simp, shown.trans (by simp), parentShown, childShown⟩
      change held + 0 + run.child.inside = 1 at balance
      change lower + 1 + run.child.inside = 1
      omega
  | @parentLoad shm value here maps held =>
      rw [here] at total permit childTmp born shown
      have read := (total (by decide)).eq maps held
      refine ⟨fun _ => total (by decide), fun _ => permit (by decide), fun tmp same => ?_,
        childTmp, born.trans (by simp), by simp, shown.trans (by simp), parentShown,
        childShown⟩
      obtain rfl := ParentPc.store.inj same
      rw [read]
      exact congrArg (· + 1) (Nat.zero_add _)
  | @parentStore shm tmp here maps =>
      have outside := raised.exclusive
      have new := parentTmp tmp here
      rw [here] at total permit born shown outside
      obtain ⟨held, cell, balance⟩ := permit (show 4 ≤ 7 by decide)
      have away : run.semValue ≠ some shm := mapped.apart shm maps
      refine ⟨fun _ => ?_, fun _ => ⟨held, cell.write_other away tmp, balance⟩, nofun,
        fun other storing => ?_, born.trans (by simp),
        by simp, shown.trans (by simp), parentShown,
        childShown⟩
      · have written := (total (show 3 ≤ 7 by decide)).write_self maps tmp
        rw [new, Nat.add_comm] at written
        rw [new, Nat.add_comm run.child.stored]
        exact written
      · rcases outside with outside | outside
        · exact nomatch outside
        · rw [storing] at outside
          exact nomatch outside
  | @parentPost sem after here value posted =>
      rw [here] at total permit childTmp born shown
      obtain ⟨held, cell, balance⟩ := permit (by decide)
      obtain ⟨object, same, content⟩ := id cell
      obtain rfl := Option.some.inj (same.symm.trans value)
      rw [postOn_of_content content] at posted
      obtain rfl := Option.some.inj posted
      have away : run.shmValue ≠ some object := fun same => mapped.apart object same value
      refine ⟨fun _ => (total (by decide)).write_other away _,
        fun _ => ⟨held + 1, cell.write_self value _, ?_⟩, nofun, childTmp,
        born.trans (by simp), by simp, shown.trans (by simp), parentShown, childShown⟩
      change held + 1 + run.child.inside = 1 at balance
      change held + 1 + 0 + run.child.inside = 1
      omega
  | waitpid here gone =>
      rw [here] at total permit childTmp born shown
      exact ⟨fun _ => total (by decide), fun _ => permit (by decide), nofun, childTmp,
        born.trans (by simp), fun _ => gone, shown.trans (by simp), parentShown, childShown⟩
  | @parentPrint shm value here maps held =>
      rw [here] at total permit childTmp born reaped
      have read := (total (by decide)).eq maps held
      refine ⟨fun _ => total (by decide), fun _ => permit (by decide), nofun, childTmp,
        born.trans (by simp), fun _ => reaped (by decide), by simp, fun n printed => ?_,
        childShown⟩
      obtain rfl := Option.some.inj printed
      exact read
  | semDestroy here | unlinkValue here | unlinkSem here | parentRelease here =>
      exact raised.of_same rfl (by rw [here]; rfl) (by rw [here]; rfl) nofun
        (by rw [here]; decide)
  | unlinkFails => exact raised.cut id

/-- A step of a running child, which its parent has not reaped, concerns the two objects and
its own place.
-/
theorem Raised.of_child (raised : Raised objects run) (alive : run.childCut = false)
    (running : run.child ≠ .unborn ∧ run.child ≠ .exited) {after : Objects} {other : Run}
    (same
      : other.parent = run.parent
        ∧ other.shmValue = run.shmValue
        ∧ other.semValue = run.semValue
        ∧ other.parentPrinted = run.parentPrinted)
    (born : other.child ≠ .unborn)
    (total : Cell after run.shmValue (run.parent.stored + other.child.stored))
    (permit
      : ∃ value,
          Cell after run.semValue value ∧ value + run.parent.inside + other.child.inside = 1)
    (parentTmp : ∀ tmp, run.parent = .store tmp → tmp = other.child.stored + 1)
    (childTmp : ∀ tmp, other.child = .store tmp → tmp = run.parent.stored + 1)
    (childShown : ∀ n, other.childPrinted = some n → n = 1 ∨ n = 2)
    : Raised after other := by
  obtain ⟨parent, shm, sem, printed⟩ := same
  have early : run.parent.number < 10 := by
    by_contra late
    have gone := raised.reaped (Nat.not_lt.mp late)
    simp [Run.childGone, alive, running.2] at gone
  have forked : 5 ≤ run.parent.number := Nat.not_lt.mp (raised.born.not.mp running.1)
  have unshown : run.parentPrinted = none :=
    raised.shown.mpr (Nat.lt_of_lt_of_le early (by decide))
  constructor
  · rw [parent, shm]
    exact fun _ => total
  · rw [parent, sem]
    exact fun _ => permit
  · rw [parent]
    exact parentTmp
  · rw [parent]
    exact childTmp
  · rw [parent]
    exact iff_of_false born (Nat.not_lt.mpr forked)
  · rw [parent]
    exact fun late => absurd early (Nat.not_lt.mpr late)
  · rw [parent, printed]
    exact raised.shown
  · simp [printed, unshown]
  · exact childShown

/-- The child's statements. -/
theorem Raised.child (raised : Raised objects run) (mapped : Mapped objects run)
    (alive : run.childCut = false) (move : Move objects run .child next)
    : Raised next.1 next.2 := by
  have outside := raised.exclusive
  have forked (here : run.child ≠ .unborn) : 5 ≤ run.parent.number :=
    Nat.not_lt.mp (raised.born.not.mp here)
  have total (here : run.child ≠ .unborn) :=
    raised.total (Nat.le_trans (by decide) (forked here))
  have permit (here : run.child ≠ .unborn) :=
    raised.permit (Nat.le_trans (by decide) (forked here))
  have parentTmp := raised.parentTmp
  have childTmp := raised.childTmp
  cases move with
  | @childWait sem after here value granted =>
      have running : run.child ≠ .unborn ∧ run.child ≠ .exited := by simp [here]
      have total := total running.1
      obtain ⟨held, cell, balance⟩ := permit running.1
      rw [here] at total parentTmp balance
      obtain ⟨object, same, content⟩ := id cell
      obtain rfl := Option.some.inj (same.symm.trans value)
      obtain ⟨lower, lowered, rfl⟩ := waitOn_eq_some content granted
      have away : run.shmValue ≠ some object := fun same => mapped.apart object same value
      refine raised.of_child alive running ⟨rfl, rfl, rfl, rfl⟩ nofun
        (total.write_other away lower) ⟨lower, cell.write_self value lower, ?_⟩ parentTmp nofun
        raised.childShown
      change held + run.parent.inside + 0 = 1 at balance
      change lower + run.parent.inside + 1 = 1
      omega
  | @childLoad shm value here maps held =>
      have running : run.child ≠ .unborn ∧ run.child ≠ .exited := by simp [here]
      have total := total running.1
      have permit := permit running.1
      rw [here] at total parentTmp permit
      refine raised.of_child alive running ⟨rfl, rfl, rfl, rfl⟩ nofun total permit parentTmp
        (fun tmp same => ?_) raised.childShown
      obtain rfl := ChildPc.store.inj same
      rw [total.eq maps held]
      rfl
  | @childStore shm tmp here maps =>
      have running : run.child ≠ .unborn ∧ run.child ≠ .exited := by simp [here]
      have total := total running.1
      obtain ⟨held, cell, balance⟩ := permit running.1
      have new := childTmp tmp here
      rw [here] at total balance outside
      have away : run.semValue ≠ some shm := mapped.apart shm maps
      refine raised.of_child alive running ⟨rfl, rfl, rfl, rfl⟩ nofun ?_
        ⟨held, cell.write_other away tmp, balance⟩ (fun other storing => ?_) nofun
        raised.childShown
      · have written := total.write_self maps tmp
        rw [new] at written ⊢
        exact written
      · rcases outside with outside | outside
        · rw [storing] at outside
          exact nomatch outside
        · exact nomatch outside
  | @childPost sem after here value posted =>
      have running : run.child ≠ .unborn ∧ run.child ≠ .exited := by simp [here]
      have total := total running.1
      obtain ⟨held, cell, balance⟩ := permit running.1
      rw [here] at total parentTmp balance
      obtain ⟨object, same, content⟩ := id cell
      obtain rfl := Option.some.inj (same.symm.trans value)
      rw [postOn_of_content content] at posted
      obtain rfl := Option.some.inj posted
      have away : run.shmValue ≠ some object := fun same => mapped.apart object same value
      refine raised.of_child alive running ⟨rfl, rfl, rfl, rfl⟩ nofun
        (total.write_other away _) ⟨held + 1, cell.write_self value _, ?_⟩ parentTmp nofun
        raised.childShown
      change held + run.parent.inside + 1 = 1 at balance
      change held + 1 + run.parent.inside + 0 = 1
      omega
  | @childPrint shm value here maps held =>
      have running : run.child ≠ .unborn ∧ run.child ≠ .exited := by simp [here]
      have total := total running.1
      have permit := permit running.1
      rw [here] at total parentTmp permit
      refine raised.of_child alive running ⟨rfl, rfl, rfl, rfl⟩ nofun total permit parentTmp nofun
        fun n printed => ?_
      obtain rfl := Option.some.inj printed
      rw [total.eq maps held]
      unfold ParentPc.stored
      split
      · exact .inr rfl
      · exact .inl rfl
  | childRelease here =>
      have running : run.child ≠ .unborn ∧ run.child ≠ .exited := by simp [here]
      have total := total running.1
      have permit := permit running.1
      rw [here] at total parentTmp permit
      exact raised.of_child alive running ⟨rfl, rfl, rfl, rfl⟩ nofun total permit parentTmp nofun
        raised.childShown

-----------------------------------------------------------------------------------------
-- One run behind the other
-----------------------------------------------------------------------------------------

/-- What holds of the run launched last, in every reachable state. -/
structure Kept (objects : Objects) (run : Run) : Prop where
  mapped : Mapped objects run
  raised : Raised objects run

theorem Kept.step (kept : Kept objects run) (taken : step objects run action = some next)
    : Kept next.1 next.2 := by
  obtain ⟨move, _, alive⟩ := Move.of_step taken
  refine ⟨kept.mapped.move move, ?_⟩
  cases action with
  | parent => exact kept.raised.parent kept.mapped move
  | child => exact kept.raised.child kept.mapped (alive rfl) move
  | cutParent =>
      cases move
      exact kept.raised.cut id
  | cutChild =>
      cases move
      exact kept.raised.cut fun _ => rfl

/-- A run about to begin, whatever the names and the objects are. -/
theorem Kept.fresh (sound : objects.Sound) : Kept objects fresh where
  mapped := by
    refine ⟨sound, by simp [UnnamedSemProcess.fresh],
      by simp [UnnamedSemProcess.fresh], ?_, ?_, ?_, ?_⟩
    · intro late
      exact absurd late (by decide)
    · intro late
      exact absurd late (by decide)
    · rintro object (mapped | mapped) <;> exact nomatch mapped
    · exact fun object mapped => nomatch mapped
  raised := by
    refine ⟨fun late => absurd late (by decide), fun late => absurd late (by decide), nofun, nofun,
      iff_of_true rfl (by decide), fun late => absurd late (by decide),
      iff_of_true rfl (by decide), nofun, nofun⟩

/-- All that a run needs of the runs before is that their processes are gone. -/
theorem kept_inherits : program.Inherits Kept Run.Gone HandsOn where
  kept kept taken := kept.step taken
  stays gone taken := absurd taken gone.not_step
  harmless gone taken := absurd taken gone.not_step
  launched kept gone := ⟨gone, .fresh kept.mapped.sound⟩

theorem kept_of_reachable {s : Launches Objects Run}
    (reached : system.ReachableBy (Program.HandsOn HandsOn) s)
    : Kept s.machine s.current :=
  (kept_inherits.invariant (.fresh NamedObjects.sound_empty) reached).1

-----------------------------------------------------------------------------------------
-- An undisturbed run
-----------------------------------------------------------------------------------------

/-- The names are there when the parent removes them. -/
theorem Mapped.named (mapped : Mapped objects run)
    : (run.parent = .unlinkValue → objects.names shmValueName ≠ none)
      ∧ (run.parent = .unlinkSem → objects.names semValueName ≠ none) := by
  constructor
  · intro here
    rw [mapped.valueName (by simp [here])]
    simpa [here] using mapped.value
  · intro here
    rw [mapped.semName (by simp [here])]
    simpa [here] using mapped.sem

/-- What is left of a run. -/
def Run.work (run : Run) : Nat := (15 - run.parent.number) + (7 - run.child.number)

theorem Kept.work_lt (kept : Kept objects run) (move : Move objects run action next)
    (own : action = .parent ∨ action = .child)
    : next.2.work < run.work := by
  cases move with
  | cutParent | cutChild => simp at own
  | unlinkFails here =>
      rcases here with ⟨here, free⟩ | ⟨here, free⟩
      · exact absurd free (kept.mapped.named.1 here)
      · exact absurd free (kept.mapped.named.2 here)
  | fork here =>
      have unborn := kept.raised.born.mpr (by simp [here])
      simp [Run.work, here, unborn]
  | childWait here | childLoad here | childStore here | childPost here | childPrint here
  | childRelease here =>
      simp only [Run.work, here, ChildPc.number]
      omega
  | openValue here | openSem here | initValue here | semInit here | parentWait here
  | parentLoad here | parentStore here | parentPost here | waitpid here | parentPrint here
  | semDestroy here | unlinkValue here | unlinkSem here | parentRelease here =>
      simp only [Run.work, here, ParentPc.number]
      omega

/-- Nobody has cut a process off. -/
def Run.Whole (run : Run) : Prop := run.parentCut = false ∧ run.childCut = false

theorem Kept.whole (kept : Kept objects run) (whole : run.Whole)
    (move : Move objects run action next) (own : action = .parent ∨ action = .child)
    : next.2.Whole := by
  cases move with
  | cutParent | cutChild => simp at own
  | unlinkFails here =>
      rcases here with ⟨here, free⟩ | ⟨here, free⟩
      · exact absurd free (kept.mapped.named.1 here)
      · exact absurd free (kept.mapped.named.2 here)
  | _ => exact whole

/-- The parent goes on unless it waits for the permit or for its child. -/
theorem Kept.parent_isSome (kept : Kept objects run)
    (granted : run.parent = .semWait → ∃ value, Cell objects run.semValue value ∧ 0 < value)
    (gone : run.parent = .waitpid → run.childGone) (unfinished : run.parent ≠ .exited)
    : (parentProcess objects run).isSome := by
  obtain ⟨mapped, raised⟩ := kept
  have cell (late : 3 ≤ run.parent.number) := raised.total late
  have permit (late : 4 ≤ run.parent.number) := raised.permit late
  cases here : run.parent
  case exited => exact absurd here unfinished
  case openValue | openSem | fork | semDestroy | release => simp [parentProcess, here]
  case waitpid => simp [parentProcess, here, gone here]
  case initValue =>
    have held : run.shmValue ≠ none := by simp [mapped.value, here]
    simpa [parentProcess, here, Option.isSome_iff_ne_none] using held
  case semInit =>
    have held : run.semValue ≠ none := by simp [mapped.sem, here]
    simpa [parentProcess, here, Option.isSome_iff_ne_none] using held
  case semWait =>
    obtain ⟨value, ⟨object, same, held⟩, positive⟩ := granted here
    simp [parentProcess, here, same, waitOn_isSome held positive]
  case load | store | print =>
    obtain ⟨object, same, held⟩ := cell (by simp [here])
    simp [parentProcess, here, same, held]
  case semPost =>
    obtain ⟨value, ⟨object, same, held⟩, _⟩ := permit (by simp [here])
    simp [parentProcess, here, same, postOn_of_content held]
  case unlinkValue | unlinkSem =>
    simp only [parentProcess, here]
    split <;> rfl

/-- The child goes on unless it waits for the permit. -/
theorem Kept.child_isSome (kept : Kept objects run)
    (granted : run.child = .semWait → ∃ value, Cell objects run.semValue value ∧ 0 < value)
    (running : run.child ≠ .unborn ∧ run.child ≠ .exited)
    : (childProcess objects run).isSome := by
  have forked : 5 ≤ run.parent.number := Nat.not_lt.mp (kept.raised.born.not.mp running.1)
  have cell := kept.raised.total (Nat.le_trans (by decide) forked)
  have permit := kept.raised.permit (Nat.le_trans (by decide) forked)
  cases here : run.child
  case unborn => exact absurd here running.1
  case exited => exact absurd here running.2
  case release => simp [childProcess, here]
  case semWait =>
    obtain ⟨value, ⟨object, same, held⟩, positive⟩ := granted here
    simp [childProcess, here, same, waitOn_isSome held positive]
  case load | store | print =>
    obtain ⟨object, same, held⟩ := cell
    simp [childProcess, here, same, held]
  case semPost =>
    obtain ⟨value, ⟨object, same, held⟩, _⟩ := permit
    simp [childProcess, here, same, postOn_of_content held]

/-- Until the parent has exited, one of the two processes can go on: whoever waits, waits for
the other one.
-/
theorem Kept.proceeds (kept : Kept objects run) (whole : run.Whole)
    (unfinished : run.parent ≠ .exited)
    : ∃ action : Action,
        (action = .parent ∨ action = .child)
        ∧ (UnnamedSemProcess.step objects run action).isSome := by
  have gone : run.childGone ↔ run.child = .exited := by simp [Run.childGone, whole.2]
  by_cases blocked
    : (run.parent = .semWait ∧ run.child.inside = 1)
      ∨ (run.parent = .waitpid ∧ run.child ≠ .exited)
  · -- the child goes on
    refine ⟨.child, .inr rfl, ?_⟩
    simp only [UnnamedSemProcess.step, whole.2]
    have forked : 5 ≤ run.parent.number := by
      rcases blocked with ⟨here, _⟩ | ⟨here, _⟩ <;> simp [here]
    refine kept.child_isSome (fun waits => ?_)
      ⟨kept.raised.born.not.mpr (Nat.not_lt.mpr forked), fun exited => ?_⟩
    · obtain ⟨value, cell, balance⟩ := kept.raised.permit (Nat.le_trans (by decide) forked)
      refine ⟨value, cell, ?_⟩
      rw [waits] at balance blocked
      rcases blocked with ⟨_, inside⟩ | ⟨here, _⟩
      · simp [ChildPc.inside] at inside
      · rw [here] at balance
        change value + 0 + 0 = 1 at balance
        omega
    · rw [exited] at blocked
      rcases blocked with ⟨_, inside⟩ | ⟨_, other⟩
      · simp [ChildPc.inside] at inside
      · exact other rfl
  · obtain ⟨free, reaps⟩ := not_or.mp blocked
    refine ⟨.parent, .inl rfl, ?_⟩
    simp only [UnnamedSemProcess.step, whole.1]
    refine kept.parent_isSome (fun waits => ?_) (fun waits => ?_) unfinished
    · obtain ⟨value, cell, balance⟩ := kept.raised.permit (by simp [waits])
      have outside : run.child.inside ≠ 1 := fun inside => free ⟨waits, inside⟩
      refine ⟨value, cell, ?_⟩
      rw [waits] at balance
      change value + 0 + run.child.inside = 1 at balance
      omega
    · by_contra running
      exact reaps ⟨waits, gone.not.mp running⟩

/-- Both processes have exited, 2 was printed, and both names are free again. -/
def Done (s : Launches Objects Run) : Prop :=
  s.current.parent = .exited
  ∧ s.current.child = .exited
  ∧ s.current.parentPrinted = some 2
  ∧ s.machine.names shmValueName = none
  ∧ s.machine.names semValueName = none

/-- A parent that has exited without being cut off leaves everything done. -/
theorem Kept.done {s : Launches Objects Run} (kept : Kept s.machine s.current)
    (whole : s.current.Whole) (exited : s.current.parent = .exited)
    : Done s := by
  obtain ⟨mapped, raised⟩ := kept
  have gone := raised.reaped (by simp [exited])
  have child : s.current.child = .exited := by simpa [Run.childGone, whole.2] using gone
  refine ⟨exited, child, ?_, ?_, ?_⟩
  · cases printed : s.current.parentPrinted with
    | none =>
        have early := raised.shown.mp printed
        simp [exited] at early
    | some n => rw [raised.parentShown n printed, child]; rfl
  · rw [mapped.valueName (by simp [exited])]
    simp [exited]
  · rw [mapped.semName (by simp [exited])]
    simp [exited]

/-- The statements of the run launched last. -/
def Own (_ : Launches Objects Run) (action : LaunchAction Action) : Prop :=
  ∃ statement : Action,
    (statement = .parent ∨ statement = .child) ∧ action = .current statement

/-- Launch after launch, each behind one whose processes are gone, wherever they were cut off:
the critical sections of the last run exclude each other, the child prints 1 or 2, and the
parent the number of stores. As long as nobody cuts it off, the run inevitably prints 2 and
removes both names.
-/
theorem recovers {s : Launches Objects Run}
    (reached : system.ReachableBy (Program.HandsOn HandsOn) s)
    : (s.current.parent.inside = 0 ∨ s.current.child.inside = 0)
      ∧ (∀ n, s.current.childPrinted = some n → n = 1 ∨ n = 2)
      ∧ (∀ n, s.current.parentPrinted = some n → n = 1 + s.current.child.stored)
      ∧ (s.current.Whole → system.Inevitable Own Done s) := by
  have kept := kept_of_reachable reached
  refine ⟨kept.raised.exclusive, kept.raised.childShown, kept.raised.parentShown, ?_⟩
  intro whole
  refine .of_measure (fun s => Kept s.machine s.current ∧ s.current.Whole)
    (fun s => s.current.work) ?_ ?_ ?_ ⟨kept, whole⟩
  · rintro s action next ⟨kept, whole⟩ own taken
    obtain ⟨statement, one, rfl⟩ := own
    obtain ⟨after, ran, rfl⟩ := Option.map_eq_some_iff.mp taken
    exact ⟨kept.step ran, kept.whole whole (Move.of_step ran).1 one⟩
  · rintro s ⟨kept, whole⟩
    by_cases exited : s.current.parent = .exited
    · exact .inl (kept.done whole exited)
    · obtain ⟨action, own, possible⟩ := kept.proceeds whole exited
      obtain ⟨after, ran⟩ := Option.isSome_iff_exists.mp possible
      exact .inr ⟨.current action, _, ⟨action, own, rfl⟩,
        Option.map_eq_some_iff.mpr ⟨after, ran, rfl⟩⟩
  · rintro s action next ⟨kept, _⟩ own taken
    obtain ⟨statement, one, rfl⟩ := own
    obtain ⟨after, ran, rfl⟩ := Option.map_eq_some_iff.mp taken
    exact kept.work_lt (Move.of_step ran).1 one

/-- A run is killed between its wait and its post: the semaphore stays at 0 and the names stay
used. The next run counts right all the same.
-/
def killedInside : List (LaunchAction Action) :=
  [.current .parent, .current .parent, .current .parent, .current .parent, .current .parent,
    .current .parent, .current .parent, .current .cutParent, .current .cutChild, .launch]

theorem recovers_killedInside
    : ∃ s : Launches Objects Run,
        s.machine.content? 1 = some 0
        ∧ s.current = fresh
        ∧ system.Inevitable Own Done s := by
  have run
      : ((system.restrict (Program.HandsOn HandsOn)).exec
          ⟨NamedObjects.empty, fresh, []⟩ killedInside).isSome := by
    rfl
  have reached
      : system.ReachableBy (Program.HandsOn HandsOn)
          (((system.restrict (Program.HandsOn HandsOn)).exec
            ⟨NamedObjects.empty, fresh, []⟩ killedInside).get run) :=
    System.reachable_restrict_iff.mp (System.reachable_of_run _ rfl _ run)
  exact ⟨_, rfl, rfl, (recovers reached).2.2.2 ⟨rfl, rfl⟩⟩

end LinuxStudy.UnnamedSemProcess
