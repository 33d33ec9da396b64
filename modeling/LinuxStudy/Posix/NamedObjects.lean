import Mathlib.Logic.Function.Basic

/-! Named kernel objects such as message queues and semaphores. Whoever opens a name that is
free creates a new object; a removed name leaves its object to those who hold it. Objects are
numbered as they are created, and one that is destroyed, because it has no name any more and
nobody holds it, keeps its number with the content that it had last.
-/

namespace LinuxStudy.Posix

/-- The objects in the order of their creation, and which of them each name refers to. -/
structure NamedObjects (Name Content : Type) where
  names : Name → Option Nat
  contents : List Content

variable {Name Content : Type}

/-- No object, no name. -/
def NamedObjects.empty : NamedObjects Name Content := ⟨fun _ => none, []⟩

def NamedObjects.content? (objects : NamedObjects Name Content) (object : Nat) : Option Content :=
  objects.contents[object]?

/-- Replace the content of one object. -/
def NamedObjects.write (objects : NamedObjects Name Content) (object : Nat) (content : Content)
    : NamedObjects Name Content :=
  { objects with contents := objects.contents.set object content }

/-- Writing an object that exists. -/
theorem NamedObjects.content_write {objects : NamedObjects Name Content} {object : Nat}
    {before : Content} (exists_ : objects.content? object = some before) (content : Content)
    : (objects.write object content).content? object = some content := by
  obtain ⟨bound, -⟩ := List.getElem?_eq_some_iff.mp exists_
  simp [NamedObjects.write, NamedObjects.content?, bound]

@[simp] theorem NamedObjects.names_write {objects : NamedObjects Name Content} {object : Nat}
    {content : Content}
    : (objects.write object content).names = objects.names :=
  rfl

/-- Writing one object leaves the others. -/
theorem NamedObjects.content_write_of_ne {objects : NamedObjects Name Content}
    {object other : Nat} (different : other ≠ object) (content : Content)
    : (objects.write object content).content? other = objects.content? other := by
  simp [NamedObjects.write, NamedObjects.content?, different.symm]

/-- Whoever opens the name with this initial value finds the value: the name is free, or its
object has it.
-/
def NamedObjects.Offers (objects : NamedObjects Name Content) (name : Name) (content : Content)
    : Prop :=
  ∀ object, objects.names name = some object → objects.content? object = some content

/-- The name is free or belongs to this object. -/
def NamedObjects.Refers (objects : NamedObjects Name Content) (name : Name) (object : Nat)
    : Prop :=
  ∀ other, objects.names name = some other → other = object

/-- No object is offered under a free name. -/
theorem NamedObjects.offers_of_free {objects : NamedObjects Name Content} {name : Name}
    {content : Content} (free : objects.names name = none)
    : objects.Offers name content := by
  intro object used
  simp [free] at used

variable [DecidableEq Name]

/-- Opening with `O_CREAT`: the object of this name, a new one if there is none. -/
def NamedObjects.openOrCreate (objects : NamedObjects Name Content) (name : Name)
    (fresh : Content)
    : Nat × NamedObjects Name Content :=
  match objects.names name with
  | some object => (object, objects)
  | none =>
      (objects.contents.length,
        { names := Function.update objects.names name (some objects.contents.length)
          contents := objects.contents ++ [fresh] })

/-- The name is free again; the object is not touched. -/
def NamedObjects.unlink (objects : NamedObjects Name Content) (name : Name)
    : NamedObjects Name Content :=
  { objects with names := Function.update objects.names name none }

section Lookup

variable {objects : NamedObjects Name Content} {name : Name} {fresh : Content} {object : Nat}

theorem NamedObjects.openOrCreate_of_some (used : objects.names name = some object)
    : objects.openOrCreate name fresh = (object, objects) := by
  simp [NamedObjects.openOrCreate, used]

/-- A name that is free gives a new object. -/
theorem NamedObjects.openOrCreate_of_none (free : objects.names name = none) (fresh : Content)
    : (objects.openOrCreate name fresh).1 = objects.contents.length
      ∧ (objects.openOrCreate name fresh).2.contents = objects.contents ++ [fresh] := by
  simp [NamedObjects.openOrCreate, free]

/-- Whoever opens the name next gets the same object. -/
@[simp] theorem NamedObjects.names_openOrCreate
    : (objects.openOrCreate name fresh).2.names name
      = some (objects.openOrCreate name fresh).1 := by
  unfold NamedObjects.openOrCreate
  split
  next used => exact used
  next => simp

@[simp] theorem NamedObjects.content_unlink
    : (objects.unlink name).content? object = objects.content? object :=
  rfl

/-- A name that is unlinked is free, and no other name changes. -/
theorem NamedObjects.names_unlink (other : Name)
    : (objects.unlink name).names other = none
      ∨ (objects.unlink name).names other = objects.names other := by
  by_cases same : other = name
  · exact Or.inl (by simp [NamedObjects.unlink, same])
  · exact Or.inr (by simp [NamedObjects.unlink, same])

/-- Opening one name does not bind another. -/
theorem NamedObjects.names_openOrCreate_of_ne {other : Name} (different : other ≠ name)
    : (objects.openOrCreate name fresh).2.names other = objects.names other := by
  unfold NamedObjects.openOrCreate
  split
  · rfl
  · simp [different]

/-- Opening keeps the content of every object there is. -/
theorem NamedObjects.content_openOrCreate {content : Content}
    (exists_ : objects.content? object = some content)
    : (objects.openOrCreate name fresh).2.content? object = some content := by
  unfold NamedObjects.openOrCreate
  split
  · exact exists_
  · obtain ⟨bound, -⟩ := List.getElem?_eq_some_iff.mp exists_
    exact (List.getElem?_append_left bound).trans exists_

end Lookup

section Openings

variable {objects : NamedObjects Name Content} {name other : Name} {content : Content}
  {object : Nat}

/-- What a name offers is what its opener finds. -/
theorem NamedObjects.Offers.found (offers : objects.Offers name content)
    : (objects.openOrCreate name content).2.content? (objects.openOrCreate name content).1
      = some content := by
  unfold NamedObjects.openOrCreate
  split
  next object used => exact offers object used
  next free => simp [NamedObjects.content?]

theorem NamedObjects.refers_openOrCreate
    : (objects.openOrCreate name content).2.Refers name
        (objects.openOrCreate name content).1 := by
  intro other used
  exact (Option.some.inj (NamedObjects.names_openOrCreate.symm.trans used)).symm

theorem NamedObjects.Refers.unlink (refers : objects.Refers other object)
    : (objects.unlink name).Refers other object := by
  intro found used
  have names : (objects.unlink name).names other = none
      ∨ (objects.unlink name).names other = objects.names other := objects.names_unlink other
  rcases names with free | same
  · simp [free] at used
  · exact refers found (same ▸ used)

end Openings

-----------------------------------------------------------------------------------------
-- One object for each name
-----------------------------------------------------------------------------------------

/-- Every name refers to an object that exists, and no two names refer to the same one. -/
structure NamedObjects.Sound (objects : NamedObjects Name Content) : Prop where
  bound : ∀ name object, objects.names name = some object → object < objects.contents.length
  own
    : ∀ name other object,
        objects.names name = some object → objects.names other = some object → name = other

section Sound

variable {objects : NamedObjects Name Content} {name : Name} {content : Content} {object : Nat}

omit [DecidableEq Name] in
theorem NamedObjects.sound_empty : (NamedObjects.empty : NamedObjects Name Content).Sound :=
  ⟨nofun, nofun⟩

/-- A new object has no other name. -/
theorem NamedObjects.Sound.openOrCreate (sound : objects.Sound)
    : (objects.openOrCreate name content).2.Sound := by
  unfold NamedObjects.openOrCreate
  split
  next => exact sound
  next free =>
    have old (other : Name) (found : Nat)
        (used : Function.update objects.names name (some objects.contents.length) other
          = some found)
        : (other = name ∧ found = objects.contents.length)
          ∨ (objects.names other = some found ∧ found < objects.contents.length) := by
      by_cases same : other = name
      · subst same
        simp only [Function.update_self, Option.some.injEq] at used
        exact .inl ⟨rfl, used.symm⟩
      · rw [Function.update_of_ne same] at used
        exact .inr ⟨used, sound.bound other found used⟩
    constructor
    · intro other found used
      rcases old other found used with ⟨_, new⟩ | ⟨_, bound⟩ <;> simp <;> omega
    · intro one other found first second
      rcases old one found first with ⟨rfl, new⟩ | ⟨first, bound⟩
      · rcases old other found second with ⟨rfl, _⟩ | ⟨_, bound⟩
        · rfl
        · omega
      · rcases old other found second with ⟨_, new⟩ | ⟨second, _⟩
        · omega
        · exact sound.own one other found first second

theorem NamedObjects.Sound.unlink (sound : objects.Sound) : (objects.unlink name).Sound := by
  have old (other : Name) (found : Nat) (used : (objects.unlink name).names other = some found)
      : objects.names other = some found := by
    have names : (objects.unlink name).names other = none
        ∨ (objects.unlink name).names other = objects.names other := objects.names_unlink other
    rcases names with free | same
    · simp [free] at used
    · exact same ▸ used
  exact ⟨fun other found used => sound.bound other found (old other found used),
    fun one other found first second =>
      sound.own one other found (old one found first) (old other found second)⟩

end Sound

end LinuxStudy.Posix
