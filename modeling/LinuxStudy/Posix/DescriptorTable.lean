import Mathlib.Data.List.Nodup

/-! Descriptor tables: small numbers naming open files, where a new file always gets the
lowest free number. The tables are generic in what an entry refers to. The connections they
may refer to are numbered in the order in which they arrive.
-/

namespace LinuxStudy.Posix

/-- The open descriptors of one process; the position of a slot is its number. -/
structure Table (File : Type) where
  slots : List (Option File)
  deriving DecidableEq, Repr

variable {File : Type}

/-- The file a descriptor number refers to, if the number is open. -/
def Table.lookup (table : Table File) (fd : Nat) : Option File :=
  (table.slots[fd]?).getD none

/-- The number the kernel gives to the next file. -/
def Table.lowestFree (table : Table File) : Nat :=
  table.slots.findIdx Option.isNone

/-- Open a file under the lowest free number. -/
def Table.allocate (table : Table File) (file : File) : Table File :=
  if table.lowestFree < table.slots.length then
    ⟨table.slots.set table.lowestFree (some file)⟩
  else
    ⟨table.slots ++ [some file]⟩

/-- Close a descriptor; closing a free number changes nothing. -/
def Table.close (table : Table File) (fd : Nat) : Table File :=
  ⟨table.slots.set fd none⟩

/-- The table of a process that has ended. -/
def Table.empty : Table File := ⟨[]⟩

/-- How many descriptors of this table refer to the file. -/
def Table.references [DecidableEq File] (table : Table File) (file : File) : Nat :=
  table.slots.count (some file)

@[simp] theorem Table.lookup_empty (fd : Nat) : (Table.empty : Table File).lookup fd = none :=
  rfl

@[simp] theorem Table.lookup_close (table : Table File) (fd other : Nat)
    : (table.close fd).lookup other = if other = fd then none else table.lookup other := by
  simp only [Table.lookup, Table.close, List.getElem?_set]
  by_cases same : fd = other
  · subst same
    by_cases bound : fd < table.slots.length <;> simp [bound]
  · simp [same, Ne.symm same]

/-- The number chosen for a new file is not in use. -/
@[simp] theorem Table.lookup_lowestFree (table : Table File)
    : table.lookup table.lowestFree = none := by
  by_cases bound : table.lowestFree < table.slots.length
  · have free : (table.slots[table.lowestFree]).isNone := List.findIdx_getElem
    simpa [Table.lookup, bound] using free
  · simp [Table.lookup, List.getElem?_eq_none (Nat.le_of_not_lt bound)]

/-- An open number is never the one chosen for a new file. -/
theorem Table.ne_lowestFree {table : Table File} {fd : Nat} {file : File}
    (found : table.lookup fd = some file)
    : fd ≠ table.lowestFree := by
  intro same
  subst same
  simp at found

@[simp] theorem Table.lookup_allocate (table : Table File) (file : File) (fd : Nat)
    : (table.allocate file).lookup fd
      = if fd = table.lowestFree then some file else table.lookup fd := by
  unfold Table.allocate
  split
  next bound =>
    simp only [Table.lookup, List.getElem?_set]
    by_cases same : table.lowestFree = fd
    · simp [← same, bound]
    · simp [same, Ne.symm same]
  next bound =>
    have last : table.lowestFree = table.slots.length :=
      Nat.le_antisymm List.findIdx_le_length (Nat.le_of_not_lt bound)
    simp only [Table.lookup, last]
    by_cases same : fd = table.slots.length
    · simp [same]
    · by_cases inside : fd < table.slots.length
      · simp [same, List.getElem?_append_left inside]
      · have beyond : table.slots.length + 1 ≤ fd := by omega
        rw [List.getElem?_eq_none (by simpa using beyond),
          List.getElem?_eq_none (Nat.le_of_not_lt inside)]
        simp [same]

/-- What is open after a `close` was open before it, under another number. -/
theorem Table.lookup_of_close {table : Table File} {fd other : Nat} {file : File}
    (found : (table.close fd).lookup other = some file)
    : other ≠ fd ∧ table.lookup other = some file := by
  rw [Table.lookup_close] at found
  exact Option.ite_none_left_eq_some.mp found

/-- Closing a number that is free changes no lookup. -/
theorem Table.lookup_close_of_free {table : Table File} {fd : Nat}
    (free : table.lookup fd = none) (other : Nat)
    : (table.close fd).lookup other = table.lookup other := by
  rw [Table.lookup_close]
  split
  next same => rw [same, free]
  next => rfl

-----------------------------------------------------------------------------------------
-- Files that have a descriptor
-----------------------------------------------------------------------------------------

/-- After a file is opened, it has a descriptor like those that had one before. -/
theorem Table.exists_lookup_allocate {table : Table File} {new file : File}
    : (∃ fd, (table.allocate new).lookup fd = some file)
      ↔ file = new ∨ ∃ fd, table.lookup fd = some file := by
  simp only [Table.lookup_allocate]
  constructor
  · intro open_
    obtain ⟨fd, found⟩ := open_
    split at found
    next => exact Or.inl (Option.some.inj found).symm
    next => exact Or.inr ⟨fd, found⟩
  · intro open_
    rcases open_ with same | ⟨fd, found⟩
    · exact ⟨table.lowestFree, by simp [same]⟩
    · exact ⟨fd, by rw [if_neg (Table.ne_lowestFree found), found]⟩

/-- After the only descriptor of a file is closed, all others still have theirs. -/
theorem Table.exists_lookup_close {table : Table File} {fd : Nat} {closed file : File}
    (found : table.lookup fd = some closed)
    (only : ∀ other, table.lookup other = some closed → other = fd)
    : (∃ other, (table.close fd).lookup other = some file)
      ↔ (∃ other, table.lookup other = some file) ∧ file ≠ closed := by
  constructor
  · intro left
    obtain ⟨other, open_⟩ := left
    obtain ⟨different, open_⟩ := Table.lookup_of_close open_
    exact ⟨⟨other, open_⟩, fun same => different (only other (same ▸ open_))⟩
  · intro kept
    obtain ⟨⟨other, open_⟩, different⟩ := kept
    refine ⟨other, ?_⟩
    rw [Table.lookup_close, if_neg, open_]
    intro same
    rw [same, found] at open_
    exact different (Option.some.inj open_).symm

/-- A file that had one descriptor at most still has, unless it was opened once more. -/
theorem Table.unique_allocate {table : Table File} {new file : File}
    (fresh : ∀ fd, table.lookup fd ≠ some new)
    (unique
      : ∀ {fd other},
          table.lookup fd = some file → table.lookup other = some file → fd = other)
    {fd other : Nat} (found : (table.allocate new).lookup fd = some file)
    (again : (table.allocate new).lookup other = some file)
    : fd = other := by
  rw [Table.lookup_allocate] at found again
  split at found <;> split at again
  next one two => rw [one, two]
  next => exact absurd (found ▸ again) (fresh other)
  next => exact absurd (again ▸ found) (fresh fd)
  next => exact unique found again

-----------------------------------------------------------------------------------------
-- Numbering what arrives
-----------------------------------------------------------------------------------------

/-- Connections are numbered as they arrive, so a new one is none of those already there. -/
theorem nodup_arrival {known : List Nat} {next : Nat} (once : known.Nodup)
    (below : ∀ c ∈ known, c < next)
    : (known ++ [next]).Nodup := by
  rw [← List.concat_eq_append]
  exact once.concat fun member => Nat.lt_irrefl _ (below next member)

theorem lt_of_mem_arrival {known : List Nat} {next : Nat} (below : ∀ c ∈ known, c < next)
    : ∀ c ∈ known ++ [next], c < next + 1 := by
  intro c member
  rcases List.mem_append.mp member with old | new
  · exact Nat.lt_succ_of_lt (below c old)
  · exact Nat.lt_succ_of_le (Nat.le_of_eq (List.mem_singleton.mp new))

-----------------------------------------------------------------------------------------
-- Reference counts
-----------------------------------------------------------------------------------------

/-- A file has no reference in the table exactly when no number names it. -/
theorem Table.references_eq_zero_iff [DecidableEq File] {table : Table File} {file : File}
    : table.references file = 0 ↔ ∀ fd, table.lookup fd ≠ some file := by
  rw [Table.references, List.count_eq_zero, List.mem_iff_getElem?]
  constructor
  · intro absent fd found
    apply absent
    refine ⟨fd, ?_⟩
    cases slot : table.slots[fd]? with
    | none => simp [Table.lookup, slot] at found
    | some entry => simpa [Table.lookup, slot] using found
  · intro absent open_
    obtain ⟨fd, slot⟩ := open_
    exact absent fd (by simp [Table.lookup, slot])

end LinuxStudy.Posix
