import Mathlib.Data.List.Basic

/-! Byte buffers and the C string functions that work on them. -/

namespace LinuxStudy.Posix

abbrev Bytes := List UInt8

/-- The bytes `printf("%s")` and `strlen` see: everything before the first NUL. -/
def cString (buffer : Bytes) : Bytes := buffer.takeWhile (· ≠ 0)

/-- Store a chunk at the start of a buffer, as `recv` does. -/
def overwrite (buffer chunk : Bytes) : Bytes := chunk ++ buffer.drop chunk.length

@[simp] theorem take_overwrite (buffer chunk : Bytes)
    : (overwrite buffer chunk).take chunk.length = chunk := by
  simp [overwrite]

@[simp] theorem length_overwrite {buffer chunk : Bytes} (fits : chunk.length ≤ buffer.length)
    : (overwrite buffer chunk).length = buffer.length := by
  simp [overwrite]
  omega

/-- A NUL stored behind the first bytes leaves those bytes as they are. -/
@[simp] theorem take_set_self (buffer : Bytes) (length : Nat) (byte : UInt8)
    : (buffer.set length byte).take length = buffer.take length :=
  List.take_set_of_le (Nat.le_refl length)

/-- The string goes on behind bytes without a NUL. -/
theorem cString_append {bytes rest : Bytes} (nulFree : 0 ∉ bytes)
    : cString (bytes ++ rest) = bytes ++ cString rest := by
  have all : ∀ byte ∈ bytes, (byte ≠ 0) := fun byte member same => nulFree (same ▸ member)
  exact List.takeWhile_append_of_pos (by simpa using all)

/-- Bytes without a NUL, with a NUL behind them, are read back as they are. -/
theorem cString_append_zero {bytes rest : Bytes} (nulFree : 0 ∉ bytes)
    : cString (bytes ++ 0 :: rest) = bytes := by
  rw [cString_append nulFree]
  simp [cString]

theorem cString_of_nulFree {bytes : Bytes} (nulFree : 0 ∉ bytes) : cString bytes = bytes := by
  simpa [cString] using @cString_append bytes [] nulFree

/-- A string lies at the start of its buffer. -/
theorem prefix_cString (buffer : Bytes) : cString buffer <+: buffer :=
  List.takeWhile_prefix _

/-- The first `strlen` bytes of a buffer are its string. -/
theorem take_length_cString (buffer : Bytes)
    : buffer.take (cString buffer).length = cString buffer :=
  (List.prefix_iff_eq_take.mp (prefix_cString buffer)).symm

/-- A NUL stored behind the first bytes ends the string there at the latest. -/
theorem cString_set_zero {buffer : Bytes} {length : Nat} (bound : length < buffer.length)
    : cString (buffer.set length 0) = cString (buffer.take length) := by
  have split : buffer.set length 0
      = buffer.take length ++ 0 :: buffer.drop (length + 1) := by
    rw [List.set_eq_take_append_cons_drop, if_pos bound]
  rw [split, cString, List.takeWhile_append]
  split
  next whole =>
    have all := (prefix_cString (buffer.take length)).eq_of_length whole
    simp [all]
  next => rfl

/-- A chunk stored in a cleared buffer with room left is shown as it is. -/
theorem cString_overwrite_zeros {chunk : Bytes} {size : Nat} (nulFree : 0 ∉ chunk)
    (fits : chunk.length < size)
    : cString (overwrite (List.replicate size 0) chunk) = chunk := by
  have room : size - chunk.length = (size - chunk.length - 1) + 1 := by omega
  rw [overwrite, List.drop_replicate, room, List.replicate_succ]
  exact cString_append_zero nulFree

-----------------------------------------------------------------------------------------
-- Streams under way
-----------------------------------------------------------------------------------------

/-- The next bytes of a stream behind those that have arrived. -/
theorem take_append_arriving (stream : Bytes) (arrived n : Nat)
    : stream.take arrived ++ (stream.drop arrived).take n
      = stream.take (arrived + ((stream.drop arrived).take n).length) := by
  rw [List.take_add, List.append_cancel_left_eq]
  exact List.prefix_iff_eq_take.mp (List.take_prefix n (stream.drop arrived))

/-- No more bytes arrive than there are. -/
theorem arriving_le {stream : Bytes} {arrived : Nat} (bound : arrived ≤ stream.length) (n : Nat)
    : arrived + ((stream.drop arrived).take n).length ≤ stream.length := by
  rw [List.length_take, List.length_drop]
  omega

-----------------------------------------------------------------------------------------
-- Reading lines
-----------------------------------------------------------------------------------------

/-- `'\n'` -/
def newline : UInt8 := 10

/-- What `fgets` with a buffer of this size takes from a stream: bytes up to and including
the first newline, at most one less than the size.
-/
def fgetsLine (size : Nat) (stream : Bytes) : Bytes :=
  let window := stream.take (size - 1)
  window.takeWhile (· ≠ newline) ++ (window.dropWhile (· ≠ newline)).take 1

/-- The line is at the start of the stream. -/
theorem fgetsLine_prefix (size : Nat) (stream : Bytes) : fgetsLine size stream <+: stream := by
  have window := List.take_prefix (size - 1) stream
  refine List.IsPrefix.trans ?_ window
  have split := List.takeWhile_append_dropWhile (p := (· ≠ newline)) (l := stream.take (size - 1))
  refine ⟨((stream.take (size - 1)).dropWhile (· ≠ newline)).drop 1, ?_⟩
  simp only [fgetsLine, List.append_assoc, List.take_append_drop]
  exact split

/-- As long as the stream has bytes, the line has some. -/
theorem fgetsLine_ne_nil {size : Nat} {stream : Bytes} (room : 1 < size) (more : stream ≠ [])
    : fgetsLine size stream ≠ [] := by
  intro none
  obtain ⟨byte, rest, rfl⟩ := List.exists_cons_of_ne_nil more
  obtain ⟨size, rfl⟩ : ∃ n, size = n + 2 := ⟨size - 2, by omega⟩
  by_cases end_ : byte = newline
  · simp [fgetsLine, end_] at none
  · simp [fgetsLine, end_] at none

/-- A line that fits is read with its newline. -/
theorem fgetsLine_append_newline {size : Nat} {line : Bytes} (free : newline ∉ line)
    (room : line.length + 2 ≤ size) (rest : Bytes)
    : fgetsLine size (line ++ newline :: rest) = line ++ [newline] := by
  have all : ∀ byte ∈ line, decide (byte ≠ newline) = true := fun byte member =>
    decide_eq_true fun same => free (same ▸ member)
  obtain ⟨room', split⟩ : ∃ n, size - 1 = line.length + (n + 1) :=
    ⟨size - 1 - line.length - 1, by omega⟩
  have window : (line ++ newline :: rest).take (size - 1) = line ++ newline :: rest.take room' := by
    rw [split, List.take_length_add_append, List.take_succ_cons]
  rw [fgetsLine, window]
  simp only [List.takeWhile_append_of_pos all, List.dropWhile_append_of_pos all]
  simp

/-- A line one byte longer is read without it. -/
theorem fgetsLine_of_length {size : Nat} {line : Bytes} (free : newline ∉ line)
    (full : line.length + 1 = size) (rest : Bytes)
    : fgetsLine size (line ++ newline :: rest) = line := by
  have all : ∀ byte ∈ line, decide (byte ≠ newline) = true := fun byte member =>
    decide_eq_true fun same => free (same ▸ member)
  have window : (line ++ newline :: rest).take (size - 1) = line := by
    rw [← full, Nat.add_sub_cancel, List.take_left']
    rfl
  rw [fgetsLine, window]
  have whole := @List.takeWhile_append_of_pos _ _ line [] all
  have nothing := @List.dropWhile_append_of_pos _ _ line [] all
  simp only [List.append_nil, List.takeWhile_nil, List.dropWhile_nil] at whole nothing
  simp only [whole, nothing, List.take_nil, List.append_nil]

end LinuxStudy.Posix
