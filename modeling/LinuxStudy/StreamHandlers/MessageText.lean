import LinuxStudy.StreamHandlers.Model

/-! The text that the receive loops show for a message. No terminator is stored behind it, so
it depends on what earlier messages have left in the buffer.
-/

namespace LinuxStudy.StreamHandlers

open Posix

/-- Every result is shown as its own bytes up to the first NUL. -/
def Handler.ShowsMessages (handler : Handler) (memory : Memory) (results : List RecvResult)
    : Prop :=
  handler.run memory results
    = results.map fun result =>
        handler.prints.map fun print => some (print.line (cString result.bytes))

/-- The byte that the last result long enough has left at an index, or that was there before
all of them.
-/
def leftAt (first : UInt8) (index : Nat) (earlier : List RecvResult) : UInt8 :=
  earlier.foldl (fun byte result => result.bytes.getD index byte) first

/-- A NUL ends the string of a result: one of its own, or one in the buffer behind it, where
it was stored by `memset`, by an earlier and longer result or by nobody. `buffer` is what the
loop begins with.
-/
def Handler.Terminated (handler : Handler) (buffer : Bytes) (earlier : List RecvResult)
    (result : RecvResult)
    : Prop :=
  0 ∈ result.bytes
    ∨ result.bytes.length < bufSize
      ∧ (handler.cleared = true ∧ earlier ≠ []
        ∨ leftAt (buffer.getD result.bytes.length 0) result.bytes.length earlier = 0)

-----------------------------------------------------------------------------------------
-- One message
-----------------------------------------------------------------------------------------

theorem Print.line_injective (print : Print) : Function.Injective print.line := by
  intro text other same
  have front := List.append_cancel_right same
  exact List.append_cancel_left front

section Message

variable {handler : Handler} {buffer : Bytes}

/-- The message is shown exactly when the buffer is read as the message. -/
theorem Handler.output_eq_iff (prints : handler.prints ≠ []) (text : Bytes)
    : handler.output buffer = (handler.prints.map fun print => some (print.line text))
      ↔ stringIn buffer = some text := by
  constructor
  · intro same
    obtain ⟨print, rest, split⟩ := List.exists_cons_of_ne_nil prints
    simp only [Handler.output, split, List.map_cons, List.cons.injEq] at same
    obtain ⟨shown, read, line⟩ := Option.map_eq_some_iff.mp same.1
    rw [read, print.line_injective line]
  · intro read
    simp [Handler.output, read]

/-- The first message from a buffer, by what lies behind it. -/
theorem Handler.terminated_nil (size : buffer.length = bufSize) (result : RecvResult)
    : handler.Terminated buffer [] result
      ↔ stringIn (overwrite buffer result.bytes) = some (cString result.bytes) := by
  rw [stringIn_overwrite_iff, Handler.Terminated]
  refine or_congr_right ?_
  by_cases room : result.bytes.length < bufSize
  · have inside : result.bytes.length < buffer.length := size ▸ room
    simp [room, leftAt, List.getElem?_eq_getElem inside, List.getD_eq_getElem?_getD]
  · have outside : buffer.length ≤ result.bytes.length := by omega
    simp [room, List.getElem?_eq_none outside]

theorem length_zeros : zeros.length = bufSize := List.length_replicate

theorem Handler.length_reuse (size : buffer.length = bufSize)
    : (handler.reuse buffer).length = bufSize := by
  unfold Handler.reuse
  split
  · exact length_zeros
  · exact size

/-- Behind a message the loop goes on with what it has left in the buffer. -/
theorem Handler.terminated_cons (size : buffer.length = bufSize) (first : RecvResult)
    (earlier : List RecvResult) (result : RecvResult)
    : handler.Terminated buffer (first :: earlier) result
      ↔ handler.Terminated (handler.reuse (overwrite buffer first.bytes)) earlier result := by
  unfold Handler.Terminated
  refine or_congr_right (and_congr_right fun room => ?_)
  have inside : result.bytes.length < buffer.length := size ▸ room
  cases clears : handler.cleared with
  | true =>
      have zero : zeros.getD result.bytes.length 0 = 0 := by
        simp [zeros, List.getD_eq_getElem?_getD, room]
      simp only [Handler.reuse, clears, if_true, zero, ne_eq, reduceCtorEq, not_false_eq_true,
        and_self, true_or, true_and, true_iff]
      cases earlier with
      | nil => exact Or.inr rfl
      | cons => exact Or.inl (List.cons_ne_nil _ _)
  | false =>
      have left := getElem?_overwrite first.bytes inside
      simp [Handler.reuse, clears, leftAt, List.getD_eq_getElem?_getD] at left ⊢
      rw [left]
      simp

end Message

-----------------------------------------------------------------------------------------
-- The loop
-----------------------------------------------------------------------------------------

/-- From any buffer, the messages are shown exactly if each of them is terminated. -/
theorem Handler.loop_eq_iff {handler : Handler} (prints : handler.prints ≠ []) {buffer : Bytes}
    (size : buffer.length = bufSize) (results : List RecvResult)
    : handler.loop buffer results
        = (results.map fun result =>
            handler.prints.map fun print => some (print.line (cString result.bytes)))
      ↔ ∀ earlier result later, results = earlier ++ result :: later
        → handler.Terminated buffer earlier result := by
  induction results generalizing buffer with
  | nil => simp [Handler.loop]
  | cons first results ih =>
      have fits : first.bytes.length ≤ buffer.length := size ▸ first.fits
      have stored : (overwrite buffer first.bytes).length = bufSize := by
        rw [length_overwrite fits, size]
      have rest := ih (@Handler.length_reuse handler _ stored)
      rw [Handler.loop, List.map_cons, List.cons.injEq, Handler.output_eq_iff prints,
        ← Handler.terminated_nil size, rest]
      constructor
      · rintro ⟨here, others⟩ earlier result later split
        cases earlier with
        | nil =>
            obtain ⟨rfl, _⟩ := List.cons.inj split
            exact here
        | cons one earlier =>
            obtain ⟨rfl, behind⟩ := List.cons.inj split
            exact (Handler.terminated_cons size _ _ _).mpr (others earlier result later behind)
      · intro all
        refine ⟨all [] first results rfl, fun earlier result later split => ?_⟩
        refine (Handler.terminated_cons size _ _ _).mp (all (first :: earlier) result later ?_)
        rw [split, List.cons_append]

theorem Function.prints_ne_nil (function : Function) : function.handler.prints ≠ [] := by
  cases function <;> exact List.cons_ne_nil _ _

theorem Handler.length_allocate (handler : Handler) (memory : Memory)
    : (handler.allocate memory).length = bufSize := by
  unfold Handler.allocate
  split
  · exact length_zeros
  · exact memory.size

/-- Each of the four functions shows every message as its own text exactly if a NUL ends each
of them in the buffer.
-/
theorem showsMessages_iff (function : Function) (memory : Memory) (results : List RecvResult)
    : function.handler.ShowsMessages memory results
      ↔ ∀ earlier result later, results = earlier ++ result :: later
        → function.handler.Terminated (function.handler.allocate memory) earlier result :=
  Handler.loop_eq_iff function.prints_ne_nil (Handler.length_allocate _ memory) results

/-- A message "hello\n" and a shorter one "ab\n". -/
def hello : RecvResult := ⟨[104, 101, 108, 108, 111, 10], by decide, by decide⟩

def ab : RecvResult := ⟨[97, 98, 10], by decide, by decide⟩

/-- Behind "hello\n", the thread of a multi-client server shows "ab\n" as "ab\nlo\n". -/
theorem not_showsMessages_shorter
    : let function : Function := .threadsServerReadFromWriteThread 4
      let memory : Memory := ⟨zeros, length_zeros⟩
      stringIn (overwrite (overwrite zeros hello.bytes) ab.bytes)
          = some (ab.bytes ++ [108, 111, 10])
        ∧ ¬function.handler.ShowsMessages memory [hello, ab] := by
  intro function memory
  constructor
  · have stored : overwrite (overwrite zeros hello.bytes) ab.bytes
        = ab.bytes ++ [108, 111, 10] ++ 0 :: List.replicate 1017 0 := rfl
    have nulFree : 0 ∉ ab.bytes ++ [108, 111, 10] := by decide
    rw [stored, stringIn, cString_append_zero nulFree, if_pos]
    exact List.mem_append_right _ List.mem_cons_self
  · intro shows
    have all := (Handler.loop_eq_iff function.prints_ne_nil
      (Handler.length_allocate _ memory) [hello, ab]).mp shows
    rcases all [hello] ab [] rfl with own | ⟨_, ⟨clears, _⟩ | left⟩
    · exact absurd own (by decide)
    · exact absurd clears (by decide)
    · exact absurd left (by decide)

end LinuxStudy.StreamHandlers
