import LinuxStudy.Posix.Bytes
import Mathlib.Data.List.TakeWhile

/-! The lines of a text. -/

namespace LinuxStudy.Posix

/-- The lines without their newlines; what follows the last newline is a line unless it is
empty.
-/
def lines (text : Bytes) : List Bytes :=
  let parts := text.splitOn newline
  if parts.getLast? = some [] then parts.dropLast else parts

/-- The text up to its first newline. -/
def firstLine (text : Bytes) : Bytes := text.takeWhile (· ≠ newline)

@[simp] theorem lines_nil : lines [] = [] := rfl

theorem newline_notMem_firstLine (text : Bytes) : newline ∉ firstLine text := by
  intro member
  simpa using List.mem_takeWhile_imp member

/-- A text has only its first line, or goes on behind the newline. -/
theorem firstLine_cases (text : Bytes)
    : text = firstLine text ∨ ∃ rest, text = firstLine text ++ newline :: rest := by
  have split := List.takeWhile_append_dropWhile (p := (· ≠ newline)) (l := text)
  cases remaining : text.dropWhile (· ≠ newline) with
  | nil =>
      rw [remaining, List.append_nil] at split
      exact Or.inl split.symm
  | cons byte rest =>
      have stops := List.head?_dropWhile_not (fun byte => decide (byte ≠ newline)) text
      rw [remaining] at stops
      have here : byte = newline := by simpa using stops
      rw [remaining, here] at split
      exact Or.inr ⟨rest, split.symm⟩

/-- The first line, and the lines behind its newline. -/
theorem lines_append_newline {line : Bytes} (free : newline ∉ line) (rest : Bytes)
    : lines (line ++ newline :: rest) = line :: lines rest := by
  have first : (line ++ newline :: rest).splitOn newline = line :: rest.splitOn newline :=
    List.splitOn_append_cons_self_of_not_mem free rest
  have some : rest.splitOn newline ≠ [] := List.splitOn_ne_nil _ _
  simp only [lines, first, List.getLast?_cons_of_ne_nil some]
  split
  next => rw [List.dropLast_cons_of_ne_nil some]
  next => rfl

/-- A last line without a newline. -/
theorem lines_of_notMem {line : Bytes} (free : newline ∉ line) (nonempty : line ≠ [])
    : lines line = [line] := by
  have single : line.splitOn newline = [line] := List.splitOn_eq_singleton free
  simp [lines, single, nonempty]

/-- Lines written one by one with their newlines are read back. -/
theorem lines_flatMap {α : Type} {items : List α} {line : α → Bytes}
    (free : ∀ item ∈ items, newline ∉ line item)
    : lines (items.flatMap fun item => line item ++ [newline]) = items.map line := by
  induction items with
  | nil => rfl
  | cons item items ih =>
      have rest := ih fun other among => free other (List.mem_cons_of_mem _ among)
      have first := free item List.mem_cons_self
      rw [List.flatMap_cons, List.append_assoc, List.singleton_append,
        lines_append_newline first, rest, List.map_cons]

/-- Taking the first line with its newline, if it has one, leaves the other lines. -/
theorem lines_eq_cons {text : Bytes} (nonempty : firstLine text ≠ []) {n : Nat}
    (length : n = min ((firstLine text).length + 1) text.length)
    : (text.take n = firstLine text ++ [newline] ∨ text.take n = firstLine text)
      ∧ lines text = firstLine text :: lines (text.drop n) := by
  have free := newline_notMem_firstLine text
  have cases := firstLine_cases text
  generalize firstLine text = line at *
  rcases cases with rfl | ⟨rest, rfl⟩
  · have all : n = text.length := by omega
    refine ⟨Or.inr (by rw [all, List.take_length]), ?_⟩
    rw [all, List.drop_length, lines_nil, lines_of_notMem free nonempty]
  · have behind : n = (line ++ [newline]).length := by
      rw [length]
      simp
    have split : line ++ newline :: rest = (line ++ [newline]) ++ rest := by simp
    refine ⟨Or.inl ?_, ?_⟩
    · rw [split, behind, List.take_left']
      rfl
    · rw [lines_append_newline free, split, behind, List.drop_left']
      rfl

end LinuxStudy.Posix
