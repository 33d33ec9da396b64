import LinuxStudy.Posix.Bytes

/-! Reading a string from a buffer that may hold no terminator, and what is left in a buffer
behind a message shorter than an earlier one.
-/

namespace LinuxStudy.Posix

/-- The string that `printf("%s")` or `strcmp` reads; there is none when the buffer has no
NUL, and the call goes on to read behind its end.
-/
def stringIn (buffer : Bytes) : Option Bytes :=
  if 0 ∈ buffer then some (cString buffer) else none

@[simp] theorem stringIn_eq_none {buffer : Bytes} : stringIn buffer = none ↔ 0 ∉ buffer := by
  simp [stringIn]

/-- A NUL in front ends the string there. -/
theorem cString_append_of_mem {bytes : Bytes} (terminated : 0 ∈ bytes) (rest : Bytes)
    : cString (bytes ++ rest) = cString bytes := by
  induction bytes with
  | nil => exact nomatch terminated
  | cons byte bytes ih =>
      by_cases here : byte = 0
      · simp [cString, here]
      · have behind : 0 ∈ bytes := by
          rcases List.mem_cons.mp terminated with same | behind
          · exact absurd same.symm here
          · exact behind
        have more := ih behind
        unfold cString at more ⊢
        rw [List.cons_append, List.takeWhile_cons, more, List.takeWhile_cons]

/-- A chunk stored at the start of a buffer is read back up to its first NUL if it has one, or
if a NUL follows it in the buffer, and not otherwise.
-/
theorem stringIn_overwrite_iff (buffer chunk : Bytes)
    : stringIn (overwrite buffer chunk) = some (cString chunk)
      ↔ 0 ∈ chunk ∨ buffer[chunk.length]? = some 0 := by
  by_cases terminated : 0 ∈ chunk
  · simp [stringIn, overwrite, cString_append_of_mem terminated, terminated]
  · have first : (buffer.drop chunk.length).head? = buffer[chunk.length]? := by
      rw [List.head?_drop]
    cases behind : buffer.drop chunk.length with
    | nil =>
        rw [behind, List.head?_nil] at first
        simp [stringIn, overwrite, behind, terminated, ← first]
    | cons byte rest =>
        rw [behind, List.head?_cons] at first
        simp only [← first, Option.some.injEq, terminated, false_or]
        constructor
        · intro shown
          simp only [stringIn, overwrite, behind, Option.ite_none_right_eq_some,
            Option.some.injEq, cString_of_nulFree terminated, cString_append terminated] at shown
          by_contra other
          simp [cString, other] at shown
        · rintro rfl
          simp [stringIn, overwrite, behind, cString_append_zero terminated,
            cString_of_nulFree terminated]

/-- A byte of the buffer after a chunk has been stored: the chunk's, or the one that was
there.
-/
theorem getElem?_overwrite {buffer : Bytes} (chunk : Bytes) {i : Nat}
    (inside : i < buffer.length)
    : (overwrite buffer chunk)[i]? = some (chunk.getD i (buffer.getD i 0)) := by
  by_cases covered : i < chunk.length
  · simp [overwrite, List.getElem?_append_left covered, covered]
  · have behind : chunk.length ≤ i := Nat.le_of_not_lt covered
    rw [overwrite, List.getElem?_append_right behind, List.getElem?_drop,
      Nat.add_sub_cancel' behind]
    simp [List.getElem?_eq_none behind, inside]

-----------------------------------------------------------------------------------------
-- Comparing with a string
-----------------------------------------------------------------------------------------

/-- Whether `strcmp` finds a string without NULs equal to the one in the buffer; there is no
answer when it comes to the end of the buffer first.
-/
def strcmpIs : Bytes → Bytes → Option Bool
  | [], _ => none
  | byte :: _, [] => some (byte = 0)
  | byte :: buffer, char :: string => if byte = char then strcmpIs buffer string else some false

/-- A buffer longer than the string is long enough to compare them. -/
theorem strcmpIs_ne_none {buffer string : Bytes} (longer : string.length < buffer.length)
    : strcmpIs buffer string ≠ none := by
  induction string generalizing buffer with
  | nil =>
      cases buffer with
      | nil => exact absurd longer (Nat.lt_irrefl 0)
      | cons byte buffer => exact Option.some_ne_none _
  | cons char string ih =>
      cases buffer with
      | nil => exact absurd longer (Nat.not_lt_zero _)
      | cons byte buffer =>
          rw [strcmpIs]
          split
          · exact ih (Nat.lt_of_succ_lt_succ longer)
          · exact Option.some_ne_none _

/-- In a buffer without a NUL the string is not found. -/
theorem strcmpIs_ne_true {buffer : Bytes} (nulFree : 0 ∉ buffer) (string : Bytes)
    : strcmpIs buffer string ≠ some true := by
  induction string generalizing buffer with
  | nil =>
      cases buffer with
      | nil => exact nofun
      | cons byte buffer =>
          have other : byte ≠ 0 := fun same => nulFree (same ▸ List.mem_cons_self)
          simp [strcmpIs, other]
  | cons char string ih =>
      cases buffer with
      | nil => exact nofun
      | cons byte buffer =>
          rw [strcmpIs]
          split
          · exact ih fun member => nulFree (List.mem_cons_of_mem _ member)
          · exact nofun

end LinuxStudy.Posix
