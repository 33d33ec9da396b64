import LinuxStudy.FifoPipe.Model

/-! Which cuts of the writer's standard input let it find the line `quit`. It looks for it only
at the start of what one `read` returns.
-/

namespace LinuxStudy.FifoPipe

open Posix

/-- The writer stops at this piece. -/
def Piece.Quits (piece : Piece) : Prop := quitLine <+: piece.bytes

instance (piece : Piece) : Decidable piece.Quits := inferInstanceAs (Decidable (_ <+: _))

/-- The bytes that the writer passes on. -/
def passed : List Piece → Bytes
  | [] => []
  | piece :: pieces => if piece.Quits then [] else piece.bytes ++ passed pieces

/-- The pieces that the writer reads. -/
def handled : List Piece → List Piece
  | [] => []
  | piece :: pieces => piece :: if piece.Quits then [] else handled pieces

/-- Behind this text, the first piece that begins with `"quit\n"` begins a line, and no line
`quit` begins in a piece before it.
-/
def Aligned (earlier : Bytes) : List Piece → Prop
  | [] => True
  | piece :: pieces =>
      if piece.Quits then LineStart earlier
      else
        (∀ i < piece.bytes.length,
          ¬QuitAt (earlier ++ stream (piece :: pieces)) (earlier.length + i))
        ∧ Aligned (earlier ++ piece.bytes) pieces

-----------------------------------------------------------------------------------------
-- The first quit line
-----------------------------------------------------------------------------------------

theorem beforeQuit_eq_take (text : Bytes)
    : beforeQuit text = text.take (beforeQuit text).length := by
  rw [beforeQuit, List.length_take]
  exact List.take_eq_take_min

/-- No quit line begins before the end of what is to be passed on. -/
theorem length_beforeQuit_le {text : Bytes} {i : Nat} (inside : i < text.length)
    (quit : QuitAt text i)
    : (beforeQuit text).length ≤ i := by
  rw [beforeQuit, List.length_take]
  cases found : (List.range text.length).find? fun i => QuitAt text i with
  | none =>
      have no := List.find?_eq_none.mp found i (List.mem_range.mpr inside)
      exact absurd quit (by simpa using no)
  | some first =>
      obtain ⟨_, _, least⟩ := List.find?_range_eq_some.mp found
      have bound : first ≤ i := by
        by_contra later
        have no := least i (by omega)
        simp [quit] at no
      simp only [Option.getD_some]
      omega

/-- Where no quit line has begun, the bytes are to be passed on. -/
theorem le_length_beforeQuit {text : Bytes} {n : Nat} (bound : n ≤ text.length)
    (none : ∀ i < n, ¬QuitAt text i)
    : n ≤ (beforeQuit text).length := by
  rw [beforeQuit, List.length_take]
  cases found : (List.range text.length).find? fun i => QuitAt text i with
  | none =>
      simp only [Option.getD_none]
      omega
  | some first =>
      obtain ⟨quit, inside, _⟩ := List.find?_range_eq_some.mp found
      have later : n ≤ first := by
        by_contra earlier
        exact none first (by omega) (by simpa using quit)
      have within : first < text.length := List.mem_range.mp inside
      simp only [Option.getD_some]
      omega

-----------------------------------------------------------------------------------------
-- The pieces
-----------------------------------------------------------------------------------------

theorem stream_cons (piece : Piece) (pieces : List Piece)
    : stream (piece :: pieces) = piece.bytes ++ stream pieces :=
  List.flatMap_cons

/-- What is passed on are the bytes before the first line `quit` exactly if the pieces are
aligned with it.
-/
theorem append_passed_eq_iff {earlier : Bytes} {pieces : List Piece}
    (none : ∀ i < earlier.length, ¬QuitAt (earlier ++ stream pieces) i)
    : earlier ++ passed pieces = beforeQuit (earlier ++ stream pieces)
      ↔ Aligned earlier pieces := by
  induction pieces generalizing earlier with
  | nil =>
      simp only [stream, List.flatMap_nil, List.append_nil, passed, Aligned, iff_true] at none ⊢
      have all := le_length_beforeQuit (Nat.le_refl _) none
      rw [beforeQuit_eq_take, List.take_of_length_le all]
  | cons piece pieces ih =>
      have some := piece.nonempty
      have length : (earlier ++ stream (piece :: pieces)).length
          = earlier.length + piece.bytes.length + (stream pieces).length := by
        rw [stream_cons]
        simp [Nat.add_assoc]
      by_cases quits : piece.Quits
      · simp only [passed, Aligned, quits, if_true, List.append_nil]
        have follows : quitLine <+: (earlier ++ stream (piece :: pieces)).drop earlier.length := by
          rw [List.drop_left, stream_cons]
          exact quits.trans (List.prefix_append _ _)
        have begins : QuitAt (earlier ++ stream (piece :: pieces)) earlier.length
            ↔ LineStart earlier := by
          rw [QuitAt, List.take_left]
          exact and_iff_left follows
        rw [← begins]
        constructor
        · intro same
          by_contra no
          have begun : ∀ i < earlier.length + 1,
              ¬QuitAt (earlier ++ stream (piece :: pieces)) i := by
            intro i bound
            rcases Nat.lt_succ_iff_lt_or_eq.mp bound with before | rfl
            · exact none i before
            · exact no
          have more := le_length_beforeQuit (by omega) begun
          rw [← same] at more
          omega
        · intro quit
          have less := length_beforeQuit_le (by omega) quit
          have more := le_length_beforeQuit (by omega) none
          rw [beforeQuit_eq_take, Nat.le_antisymm less more, List.take_left]
      · simp only [passed, Aligned, quits, if_false]
        have shift : earlier ++ stream (piece :: pieces)
            = earlier ++ piece.bytes ++ stream pieces := by
          rw [stream_cons, List.append_assoc]
        have behind (here : ∀ i < piece.bytes.length,
              ¬QuitAt (earlier ++ stream (piece :: pieces)) (earlier.length + i))
            : ∀ i < (earlier ++ piece.bytes).length,
              ¬QuitAt (earlier ++ piece.bytes ++ stream pieces) i := by
          intro i bound
          rw [← shift]
          rw [List.length_append] at bound
          by_cases before : i < earlier.length
          · exact none i before
          · have inPiece := here (i - earlier.length) (by omega)
            rwa [Nat.add_sub_cancel' (by omega)] at inPiece
        constructor
        · intro same
          have here : ∀ i < piece.bytes.length,
              ¬QuitAt (earlier ++ stream (piece :: pieces)) (earlier.length + i) := by
            intro i bound quit
            have less := length_beforeQuit_le (by omega) quit
            rw [← same] at less
            simp only [List.length_append] at less
            omega
          refine ⟨here, (ih (behind here)).mp ?_⟩
          rw [← shift, List.append_assoc]
          exact same
        · rintro ⟨here, aligned⟩
          rw [shift, ← List.append_assoc]
          exact (ih (behind here)).mpr aligned

/-- From the start of the standard input. -/
theorem passed_eq_iff (pieces : List Piece)
    : passed pieces = beforeQuit (stream pieces) ↔ Aligned [] pieces := by
  simpa using @append_passed_eq_iff [] pieces (by simp)

end LinuxStudy.FifoPipe
