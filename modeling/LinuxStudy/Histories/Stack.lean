import Mathlib.Data.List.Perm.Basic
import Mathlib.Data.List.Nodup

/-! Histories of a last-in first-out store, over any type of elements. A disciplined
history accounts for every element exactly once: it was popped or is still on the stack.
-/

namespace LinuxStudy.Histories

universe u

/-- One operation on the store, with the element it moved. -/
inductive Event (α : Type u)
  | pushed (element : α)
  | popped (element : α)
  deriving DecidableEq, Repr

variable {α : Type u}

def Event.push? : Event α → Option α
  | .pushed element => some element
  | .popped _ => none

def Event.pop? : Event α → Option α
  | .pushed _ => none
  | .popped element => some element

/-- The elements put into the store, in order. -/
def pushes (history : List (Event α)) : List α := history.filterMap Event.push?

/-- The elements taken from the store, in order. -/
def pops (history : List (Event α)) : List α := history.filterMap Event.pop?

/-- The stack after one more operation, top element last. -/
def Event.apply (stack : List α) : Event α → List α
  | .pushed element => stack ++ [element]
  | .popped _ => stack.dropLast

/-- The stack a history leaves behind, top element last. -/
def stackOf (history : List (Event α)) : List α := history.foldl Event.apply []

/-- Every element popped was the top of the stack at that moment. -/
inductive LastInFirstOut : List (Event α) → Prop
  | nil : LastInFirstOut []
  | push {history element} (before : LastInFirstOut history)
    : LastInFirstOut (history ++ [.pushed element])
  | pop {history element} (before : LastInFirstOut history)
    (top : (stackOf history).getLast? = some element)
    : LastInFirstOut (history ++ [.popped element])

@[simp] theorem pushes_nil : pushes ([] : List (Event α)) = [] := rfl

@[simp] theorem pops_nil : pops ([] : List (Event α)) = [] := rfl

@[simp] theorem stackOf_nil : stackOf ([] : List (Event α)) = [] := rfl

@[simp] theorem pushes_pushed (history : List (Event α)) (element : α)
    : pushes (history ++ [.pushed element]) = pushes history ++ [element] := by
  simp [pushes, Event.push?]

@[simp] theorem pushes_popped (history : List (Event α)) (element : α)
    : pushes (history ++ [.popped element]) = pushes history := by
  simp [pushes, Event.push?]

@[simp] theorem pops_pushed (history : List (Event α)) (element : α)
    : pops (history ++ [.pushed element]) = pops history := by
  simp [pops, Event.pop?]

@[simp] theorem pops_popped (history : List (Event α)) (element : α)
    : pops (history ++ [.popped element]) = pops history ++ [element] := by
  simp [pops, Event.pop?]

@[simp] theorem stackOf_pushed (history : List (Event α)) (element : α)
    : stackOf (history ++ [.pushed element]) = stackOf history ++ [element] := by
  simp [stackOf, Event.apply]

@[simp] theorem stackOf_popped (history : List (Event α)) (element : α)
    : stackOf (history ++ [.popped element]) = (stackOf history).dropLast := by
  simp [stackOf, Event.apply]

-----------------------------------------------------------------------------------------
-- What a disciplined history leaves behind
-----------------------------------------------------------------------------------------

/-- The stack lists pushed elements in the order they were pushed. -/
theorem LastInFirstOut.stack_sublist {history : List (Event α)}
    (disciplined : LastInFirstOut history)
    : (stackOf history).Sublist (pushes history) := by
  induction disciplined with
  | nil => simp
  | @push _ element _ ih => simpa using ih.append (List.Sublist.refl [element])
  | pop _ _ ih => simpa using (List.dropLast_sublist _).trans ih

/-- Popped and remaining elements together are the pushed ones, with multiplicity. -/
theorem LastInFirstOut.accounted {history : List (Event α)}
    (disciplined : LastInFirstOut history)
    : (pops history ++ stackOf history).Perm (pushes history) := by
  induction disciplined with
  | nil => simp
  | push _ ih => simpa using ih.append_right _
  | @pop history element _ top ih =>
      have split : stackOf history = (stackOf history).dropLast ++ [element] :=
        (List.dropLast_append_getLast? element top).symm
      rw [split] at ih
      simp only [pops_popped, stackOf_popped, pushes_popped, List.append_assoc]
      exact ((List.perm_append_comm).append_left _).trans ih

/-- A sublist of distinct elements is the filter by its own members. -/
theorem sublist_eq_filter [DecidableEq α] {part whole : List α} (inside : part.Sublist whole)
    (distinct : whole.Nodup)
    : part = whole.filter (· ∈ part) := by
  have own : part.filter (· ∈ part) = part := List.filter_eq_self.mpr (by simp)
  have below : part.Sublist (whole.filter (· ∈ part)) := by
    simpa only [own] using inside.filter (· ∈ part)
  refine below.eq_of_length_le ((distinct.filter _).length_le_of_subset ?_)
  intro element member
  simpa using (List.mem_filter.mp member).2

/-- Among distinct pushed elements, the stack is exactly those not popped yet. -/
theorem LastInFirstOut.stack_eq_filter [DecidableEq α] {history : List (Event α)}
    (disciplined : LastInFirstOut history) (distinct : (pushes history).Nodup)
    : stackOf history = (pushes history).filter (· ∉ pops history) := by
  have apart := List.nodup_append.mp (disciplined.accounted.nodup_iff.mpr distinct)
  have kept : ∀ element ∈ pushes history,
      element ∉ pops history ↔ element ∈ stackOf history := by
    intro element member
    rcases List.mem_append.mp (disciplined.accounted.mem_iff.mpr member) with taken | left
    · have absent : element ∉ stackOf history := fun left =>
        apart.2.2 element taken element left rfl
      simp [taken, absent]
    · have absent : element ∉ pops history := fun taken =>
        apart.2.2 element taken element left rfl
      simp [left, absent]
  have same : (pushes history).filter (· ∉ pops history)
      = (pushes history).filter (· ∈ stackOf history) :=
    List.filter_congr fun element member => decide_eq_decide.mpr (kept element member)
  rw [same]
  exact sublist_eq_filter disciplined.stack_sublist distinct

/-- Every prefix of a disciplined history is disciplined, by induction from its end. -/
theorem LastInFirstOut.of_append {history before after : List (Event α)}
    (disciplined : LastInFirstOut history) (split : history = before ++ after)
    : LastInFirstOut before := by
  induction disciplined generalizing after with
  | nil =>
      obtain ⟨rfl, _⟩ := List.append_eq_nil_iff.mp split.symm
      exact .nil
  | push earlier ih =>
      rcases List.eq_nil_or_concat' after with rfl | ⟨rest, last, rfl⟩
      · exact List.append_nil before ▸ split ▸ earlier.push
      · rw [← List.append_assoc] at split
        exact ih (List.append_inj' split rfl).1
  | pop earlier top ih =>
      rcases List.eq_nil_or_concat' after with rfl | ⟨rest, last, rfl⟩
      · exact List.append_nil before ▸ split ▸ earlier.pop top
      · rw [← List.append_assoc] at split
        exact ih (List.append_inj' split rfl).1

/-- The last operation of a disciplined history, when it is a pop, returned the top. -/
theorem LastInFirstOut.last_pop {history before : List (Event α)} {element : α}
    (disciplined : LastInFirstOut history) (ends : history = before ++ [.popped element])
    : (stackOf before).getLast? = some element := by
  cases disciplined with
  | nil => simp at ends
  | push _ => simp at ends
  | pop _ top =>
      obtain ⟨rfl, same⟩ := List.append_inj' ends rfl
      obtain rfl : _ = element := by simpa using same
      exact top

/-- Among distinct elements, every pop inside a disciplined history returned the newest of
the elements pushed and not popped before it.
-/
theorem LastInFirstOut.pop_newest [DecidableEq α] {before after : List (Event α)}
    {element : α} (disciplined : LastInFirstOut (before ++ .popped element :: after))
    (distinct : (pushes (before ++ .popped element :: after)).Nodup)
    : ((pushes before).filter (· ∉ pops before)).getLast? = some element := by
  have upTo : LastInFirstOut (before ++ [.popped element]) :=
    disciplined.of_append (List.append_assoc before [.popped element] after).symm
  have earlier : LastInFirstOut before := upTo.of_append rfl
  rw [pushes, List.filterMap_append] at distinct
  rw [← earlier.stack_eq_filter (List.nodup_append.mp distinct).1]
  exact upTo.last_pop rfl

end LinuxStudy.Histories
