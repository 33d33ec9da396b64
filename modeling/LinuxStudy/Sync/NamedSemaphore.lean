import LinuxStudy.Posix.NamedObjects
import LinuxStudy.Sync.Semaphore

/-! Named semaphores: the objects are the values, and what a process holds behind `sem_open`
is the number of an object.
-/

namespace LinuxStudy.Sync

open Posix

variable {Name : Type}

/-- `sem_wait` -/
def waitOn (objects : NamedObjects Name Nat) (sem : Nat) : Option (NamedObjects Name Nat) :=
  (objects.content? sem).bind fun value => (semWait value).map (objects.write sem)

/-- `sem_post` -/
def postOn (objects : NamedObjects Name Nat) (sem : Nat) : Option (NamedObjects Name Nat) :=
  (objects.content? sem).map fun value => objects.write sem (semPost value)

/-- The object behind the name, or the one that was opened under it. -/
def Denotes (objects : NamedObjects Name Nat) (name : Name) (handle : Option Nat)
    (object : Nat)
    : Prop :=
  objects.names name = some object ∨ handle = some object

/-- A semaphore that the processes of one program open under a name and use: its value, which
is the initial one as long as nobody has opened it, and that the name belongs to nobody else.
-/
structure Semaphore (objects : NamedObjects Name Nat) (name : Name) (initial : Nat)
    (handle : Option Nat) (value : Nat)
    : Prop where
  holds : ∀ object, Denotes objects name handle object → objects.content? object = some value
  refers : ∀ sem, handle = some sem → objects.Refers name sem
  intended : handle = none → value = initial

/-- Two semaphores that share no object. -/
def Apart (objects : NamedObjects Name Nat) (name other : Name) (handle handle' : Option Nat)
    : Prop :=
  ∀ object, Denotes objects name handle object → ¬Denotes objects other handle' object

variable {objects next : NamedObjects Name Nat} {name other : Name} {initial fresh sem : Nat}
  {handle handle' : Option Nat} {value new object : Nat}

/-- A wait that returns has taken one from the value. -/
theorem waitOn_eq_some (held : objects.content? sem = some value)
    (taken : waitOn objects sem = some next)
    : ∃ lower, value = lower + 1 ∧ next = objects.write sem lower := by
  rw [waitOn, held] at taken
  obtain ⟨lower, granted, same⟩ := Option.map_eq_some_iff.mp taken
  exact ⟨lower, semWait_eq_some.mp granted, same.symm⟩

/-- A wait on a positive value returns. -/
theorem waitOn_isSome (held : objects.content? sem = some value) (positive : 0 < value)
    : (waitOn objects sem).isSome := by
  obtain ⟨lower, granted⟩ := exists_semWait.mpr positive
  simp [waitOn, held, granted]

theorem postOn_of_content (held : objects.content? sem = some value)
    : postOn objects sem = some (objects.write sem (value + 1)) := by
  simp [postOn, held, semPost]

-----------------------------------------------------------------------------------------
-- One semaphore
-----------------------------------------------------------------------------------------

theorem Semaphore.content (semaphore : Semaphore objects name initial (some sem) value)
    : objects.content? sem = some value :=
  semaphore.holds sem (Or.inr rfl)

/-- A semaphore with its initial value is found so by whoever opens it next. -/
theorem Semaphore.offers (semaphore : Semaphore objects name initial handle value)
    (same : value = initial)
    : objects.Offers name initial :=
  fun object used => same ▸ semaphore.holds object (Or.inl used)

/-- What is offered has not been opened yet. -/
theorem Semaphore.unopened (offers : objects.Offers name initial)
    : Semaphore objects name initial none initial := by
  refine ⟨fun object denoted => ?_, by simp, fun _ => rfl⟩
  exact offers object (denoted.resolve_right (by simp))

/-- Writing the semaphore changes its value. -/
theorem Semaphore.write (semaphore : Semaphore objects name initial (some sem) value)
    (new : Nat)
    : Semaphore (objects.write sem new) name initial (some sem) new := by
  refine ⟨fun object denoted => ?_, fun _ held => semaphore.refers _ held, by simp⟩
  have same : object = sem := by
    rcases denoted with used | held
    · exact semaphore.refers sem rfl object used
    · exact (Option.some.inj held).symm
  exact same ▸ NamedObjects.content_write semaphore.content new

/-- Writing another object does not. -/
theorem Semaphore.writeOther (semaphore : Semaphore objects name initial handle value)
    (away : ¬Denotes objects name handle object) (new : Nat)
    : Semaphore (objects.write object new) name initial handle value := by
  refine ⟨fun found denoted => ?_, semaphore.refers, semaphore.intended⟩
  have different : found ≠ object := fun same => away (same ▸ denoted)
  exact (NamedObjects.content_write_of_ne different new).trans (semaphore.holds found denoted)

/-- A wait that returns on the semaphore. -/
theorem Semaphore.waitOn (semaphore : Semaphore objects name initial (some sem) value)
    (taken : waitOn objects sem = some next)
    : ∃ lower,
        value = lower + 1
        ∧ next = objects.write sem lower
        ∧ Semaphore next name initial (some sem) lower := by
  obtain ⟨lower, lowered, rfl⟩ := waitOn_eq_some semaphore.content taken
  exact ⟨lower, lowered, rfl, semaphore.write lower⟩

/-- A post on the semaphore. -/
theorem Semaphore.postOn (semaphore : Semaphore objects name initial (some sem) value)
    (taken : postOn objects sem = some next)
    : next = objects.write sem (value + 1)
      ∧ Semaphore next name initial (some sem) (value + 1) := by
  rw [postOn_of_content semaphore.content] at taken
  obtain rfl := Option.some.inj taken
  exact ⟨rfl, semaphore.write (value + 1)⟩

variable [DecidableEq Name]

/-- The first to open a semaphore finds the initial value. -/
theorem Semaphore.opened (semaphore : Semaphore objects name initial none value)
    : Semaphore (objects.openOrCreate name initial).2 name initial
        (some (objects.openOrCreate name initial).1) initial := by
  have found := (semaphore.offers (semaphore.intended rfl)).found
  refine ⟨fun object denoted => ?_, fun _ held => ?_, by simp⟩
  · have same : object = (objects.openOrCreate name initial).1 := by
      rcases denoted with used | held
      · exact NamedObjects.refers_openOrCreate object used
      · exact (Option.some.inj held).symm
    exact same ▸ found
  · exact Option.some.inj held ▸ NamedObjects.refers_openOrCreate

/-- Opening another name. -/
theorem Semaphore.openOther (semaphore : Semaphore objects name initial handle value)
    (different : name ≠ other)
    : Semaphore (objects.openOrCreate other fresh).2 name initial handle value := by
  have names : (objects.openOrCreate other fresh).2.names name = objects.names name :=
    objects.names_openOrCreate_of_ne different
  refine ⟨fun object denoted => ?_, fun sem held found used => ?_, semaphore.intended⟩
  · rw [Denotes, names] at denoted
    exact NamedObjects.content_openOrCreate (semaphore.holds object denoted)
  · exact semaphore.refers sem held found (names ▸ used)

/-- Removing a name takes nothing from a semaphore. -/
theorem denotes_unlink (denoted : Denotes (objects.unlink name) other handle object)
    : Denotes objects other handle object := by
  rcases denoted with used | held
  · have names : (objects.unlink name).names other = none
        ∨ (objects.unlink name).names other = objects.names other := objects.names_unlink other
    rcases names with free | same
    · simp [free] at used
    · exact Or.inl (same ▸ used)
  · exact Or.inr held

theorem Semaphore.unlink (semaphore : Semaphore objects other initial handle value)
    : Semaphore (objects.unlink name) other initial handle value :=
  ⟨fun object denoted => semaphore.holds object (denotes_unlink denoted),
    fun sem held => (semaphore.refers sem held).unlink, semaphore.intended⟩

-----------------------------------------------------------------------------------------
-- Two semaphores
-----------------------------------------------------------------------------------------

omit [DecidableEq Name] in
theorem Apart.symm (apart : Apart objects name other handle handle')
    : Apart objects other name handle' handle :=
  fun object denoted denoted' => apart object denoted' denoted

omit [DecidableEq Name] in
/-- The names of two semaphores that share no object share none. -/
theorem Apart.names (apart : Apart objects name other handle handle')
    : Apart objects name other none none :=
  fun object denoted denoted' =>
    apart object (Or.inl (denoted.resolve_right (by simp)))
      (Or.inl (denoted'.resolve_right (by simp)))

omit [DecidableEq Name] in
/-- Writing binds no name. -/
theorem Apart.write (apart : Apart objects name other handle handle') (sem new : Nat)
    : Apart (objects.write sem new) name other handle handle' :=
  apart

theorem Apart.unlink (apart : Apart objects name other handle handle') (removed : Name)
    : Apart (objects.unlink removed) name other handle handle' :=
  fun object denoted denoted' =>
    apart object (denotes_unlink denoted) (denotes_unlink denoted')

/-- Opening one of them gives an object that was its own or is new. -/
theorem Apart.opened (apart : Apart objects name other none handle') (different : other ≠ name)
    (semaphore : Semaphore objects other initial handle' value)
    : Apart (objects.openOrCreate name fresh).2 name other
        (some (objects.openOrCreate name fresh).1) handle' := by
  intro object denoted denoted'
  rw [Denotes, NamedObjects.names_openOrCreate_of_ne different] at denoted'
  have opened : object = (objects.openOrCreate name fresh).1 := by
    rcases denoted with used | held
    · exact NamedObjects.refers_openOrCreate object used
    · exact (Option.some.inj held).symm
  cases used : objects.names name with
  | some old =>
      rw [NamedObjects.openOrCreate_of_some used] at opened
      exact apart object (Or.inl (opened ▸ used)) denoted'
  | none =>
      -- the new object has the next number, all others have a content
      rw [(NamedObjects.openOrCreate_of_none used fresh).1] at opened
      obtain ⟨bound, -⟩ := List.getElem?_eq_some_iff.mp (semaphore.holds object denoted')
      exact absurd bound (by simp [opened])

end LinuxStudy.Sync
