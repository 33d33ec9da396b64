import LinuxStudy.Posix.Bytes

/-! What a loop of `fgets` reads from its input, piece by piece. -/

namespace LinuxStudy.Posix

/-- The first pieces of a stream, at most this many. -/
def firstPieces (size : Nat) : Nat → Bytes → List Bytes
  | 0, _ => []
  | limit + 1, stream =>
      let line := fgetsLine size stream
      if line = [] then []
      else line :: firstPieces size limit (stream.drop line.length)

/-- The pieces that `fgets` with a buffer of this size reads up to the end of the stream. No
stream has more pieces than bytes.
-/
def pieces (size : Nat) (stream : Bytes) : List Bytes := firstPieces size stream.length stream

variable {size : Nat} {stream : Bytes}

@[simp] theorem pieces_nil (size : Nat) : pieces size [] = [] := rfl

/-- A limit of the stream's length or more is none. -/
theorem firstPieces_of_le {limit : Nat} (enough : stream.length ≤ limit)
    : firstPieces size limit stream = pieces size stream := by
  suffices same : ∀ {limit other : Nat} {stream : Bytes},
      stream.length ≤ limit
      → stream.length ≤ other
      → firstPieces size limit stream = firstPieces size other stream by
    exact same enough (Nat.le_refl _)
  intro limit
  induction limit with
  | zero =>
      intro other stream none _
      obtain rfl := List.length_eq_zero_iff.mp (Nat.le_zero.mp none)
      cases other <;> simp [firstPieces, fgetsLine]
  | succ limit ih =>
      intro other stream short short'
      cases other with
      | zero =>
          obtain rfl := List.length_eq_zero_iff.mp (Nat.le_zero.mp short')
          simp [firstPieces, fgetsLine]
      | succ other =>
          simp only [firstPieces]
          split
          next => rfl
          next some =>
            have positive := List.length_pos_of_ne_nil some
            have rest (bound : Nat) (enough : stream.length ≤ bound + 1)
                : (stream.drop (fgetsLine size stream).length).length ≤ bound := by
              rw [List.length_drop]
              omega
            rw [ih (rest limit short) (rest other short')]

/-- The first piece, and the pieces of what it leaves. -/
theorem pieces_eq_cons (some : fgetsLine size stream ≠ [])
    : pieces size stream
      = fgetsLine size stream :: pieces size (stream.drop (fgetsLine size stream).length) := by
  obtain ⟨limit, length⟩ : ∃ limit, stream.length = limit + 1 := by
    refine Nat.exists_eq_succ_of_ne_zero fun none => some ?_
    rw [List.length_eq_zero_iff.mp none]
    simp [fgetsLine]
  have positive := List.length_pos_of_ne_nil some
  have first : pieces size stream
      = fgetsLine size stream
        :: firstPieces size limit (stream.drop (fgetsLine size stream).length) := by
    rw [pieces, length, firstPieces, if_neg some]
  rw [first, firstPieces_of_le (by rw [List.length_drop]; omega)]

/-- The pieces make up the stream. -/
theorem flatten_pieces (room : 1 < size) (stream : Bytes)
    : (pieces size stream).flatten = stream := by
  induction length : stream.length using Nat.strongRecOn generalizing stream with
  | ind n ih =>
      by_cases none : stream = []
      · simp [none]
      · have some := fgetsLine_ne_nil room none
        have positive := List.length_pos_of_ne_nil some
        have front := fgetsLine_prefix size stream
        have first := List.prefix_iff_eq_take.mp front
        have shorter : (stream.drop (fgetsLine size stream).length).length < n := by
          rw [List.length_drop]
          have some := List.length_pos_of_ne_nil none
          omega
        rw [pieces_eq_cons some, List.flatten_cons, ih _ shorter _ rfl]
        conv => lhs; arg 1; rw [first]
        exact List.take_append_drop _ _

end LinuxStudy.Posix
