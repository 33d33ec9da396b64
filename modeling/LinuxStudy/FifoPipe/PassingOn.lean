import LinuxStudy.FifoPipe.Cuts

/-! What `fifo_pipe_read.c` prints of the standard input of `fifo_pipe_write.c`, in every order
of their calls.
-/

namespace LinuxStudy.FifoPipe

open Transition Posix

/-- Both programs end, and the reader has printed the bytes before the first line `quit`; no
store of the writer falls outside its buffer.
-/
structure PassesOn (memory : Memory) (pieces : List Piece) : Prop where
  inside
    : ∀ s, (system memory pieces).Reachable s → ∀ index ∈ s.stores, index < bufSize
  prints
    : (system memory pieces).Inevitable (fun _ _ => True)
      (fun s => s.writer = .ended ∧ s.reader = .ended
        ∧ s.printed = beforeQuit (stream pieces))
      (start memory pieces)

/-- The lengths of the pieces that the writer reads. -/
def handledLengths (pieces : List Piece) : List Nat :=
  (handled pieces).map fun piece => piece.bytes.length

-----------------------------------------------------------------------------------------
-- The steps
-----------------------------------------------------------------------------------------

/-- One step of the writer or of the reader. -/
inductive Move (s : State) : Action → State → Prop
  | writerRead {piece rest} (here : s.writer = .read) (input : s.input = piece :: rest)
    : Move s .writerRead
        { s with
          input := rest
          buffer := overwrite s.buffer piece.bytes
          writer := .store piece.bytes.length }
  | writerReadEnd (here : s.writer = .read) (input : s.input = [])
    : Move s .writerReadEnd { s with writer := .close }
  | writerStore {readNum} (here : s.writer = .store readNum)
    : Move s .writerStore
        { s with
          buffer := s.buffer.set readNum 0
          stores := s.stores ++ [readNum]
          writer := .compare readNum }
  | writerQuits {readNum} (here : s.writer = .compare readNum)
    (same : s.buffer.take quitLine.length = quitLine)
    : Move s .writerCompare { s with writer := .close }
  | writerGoesOn {readNum} (here : s.writer = .compare readNum)
    (other : ¬s.buffer.take quitLine.length = quitLine)
    : Move s .writerCompare { s with writer := .write readNum }
  | writerWrite {readNum} (here : s.writer = .write readNum)
    : Move s .writerWrite
        { s with
          content := s.content ++ s.buffer.take readNum
          written := s.written ++ s.buffer.take readNum
          writer := .read }
  | writerClose (here : s.writer = .close) : Move s .writerClose { s with writer := .ended }
  | readerRead (here : s.reader = .read) (some : s.content ≠ [])
    : Move s .readerRead
        { s with
          content := s.content.drop bufSize
          printed := s.printed ++ pipeRead bufSize s.content }
  | readerReadEnd (here : s.reader = .read) (empty : s.content = [])
    (closed : s.writer = .ended)
    : Move s .readerReadEnd { s with reader := .ended }

/-- Every step is one of these. -/
theorem Move.of_step {s next : State} {action : Action} (taken : step s action = some next)
    : Move s action next := by
  cases action with
  | writerRead =>
      simp only [step, FifoPipe.writerRead] at taken
      split at taken
      next here input => exact Option.some.inj taken ▸ .writerRead here input
      next => contradiction
  | writerReadEnd =>
      simp only [step, FifoPipe.writerReadEnd] at taken
      split at taken
      next here input => exact Option.some.inj taken ▸ .writerReadEnd here input
      next => contradiction
  | writerStore =>
      simp only [step, FifoPipe.writerStore] at taken
      split at taken
      next here => exact Option.some.inj taken ▸ .writerStore here
      next => contradiction
  | writerCompare =>
      simp only [step, FifoPipe.writerCompare] at taken
      split at taken
      next here =>
        obtain rfl := Option.some.inj taken
        split
        next same => exact .writerQuits here same
        next other => exact .writerGoesOn here other
      next => contradiction
  | writerWrite =>
      simp only [step, FifoPipe.writerWrite] at taken
      split at taken
      next here =>
        obtain ⟨_, same⟩ := Option.ite_none_right_eq_some.mp taken
        exact Option.some.inj same ▸ .writerWrite here
      next => contradiction
  | writerClose =>
      obtain ⟨here, same⟩ := Option.ite_none_right_eq_some.mp taken
      exact Option.some.inj same ▸ .writerClose here
  | readerRead =>
      obtain ⟨⟨here, some⟩, same⟩ := Option.ite_none_right_eq_some.mp taken
      exact Option.some.inj same ▸ .readerRead here some
  | readerReadEnd =>
      obtain ⟨⟨here, empty, closed⟩, same⟩ := Option.ite_none_right_eq_some.mp taken
      exact Option.some.inj same ▸ .readerReadEnd here empty closed

-----------------------------------------------------------------------------------------
-- What is still to come
-----------------------------------------------------------------------------------------

/-- The bytes that the writer has still to pass on. -/
def toPass (s : State) : Bytes :=
  match s.writer with
  | .read => passed s.input
  | .store readNum | .compare readNum =>
      if quitLine <+: s.buffer.take readNum then []
      else s.buffer.take readNum ++ passed s.input
  | .write readNum => s.buffer.take readNum ++ passed s.input
  | .close | .ended => []

/-- The indices of its stores that are still to come. -/
def toStore (s : State) : List Nat :=
  match s.writer with
  | .read | .write _ => handledLengths s.input
  | .store readNum =>
      readNum :: if quitLine <+: s.buffer.take readNum then [] else handledLengths s.input
  | .compare readNum =>
      if quitLine <+: s.buffer.take readNum then [] else handledLengths s.input
  | .close | .ended => []

/-- The length of the piece in the buffer. -/
def WriterPc.readNum? : WriterPc → Option Nat
  | .store readNum | .compare readNum | .write readNum => some readNum
  | .read | .close | .ended => none

/-- The two programs on their way through the pieces. -/
structure Underway (pieces : List Piece) (s : State) : Prop where
  size : s.buffer.length = bufSize
  bounds : ∀ n ∈ s.writer.readNum?, 0 < n ∧ n ≤ bufSize
  compares
    : ∀ n, s.writer = .compare n
      → (s.buffer.take quitLine.length = quitLine ↔ quitLine <+: s.buffer.take n)
  passes : s.written ++ toPass s = passed pieces
  stores : s.stores ++ toStore s = handledLengths pieces
  copied : s.printed ++ s.content = s.written
  finished : s.reader = .ended → s.writer = .ended ∧ s.content = []

/-- Behind the store of the terminator, `strncmp` finds the word exactly if the piece begins
with it.
-/
theorem take_set_eq_quitLine_iff {buffer : Bytes} {n : Nat} (size : buffer.length = bufSize)
    (bound : n ≤ bufSize)
    : (buffer.set n 0).take quitLine.length = quitLine ↔ quitLine <+: buffer.take n := by
  have length : quitLine.length = 5 := rfl
  by_cases long : quitLine.length ≤ n
  · rw [List.take_set_of_le long, List.prefix_iff_eq_take, List.take_take, Nat.min_eq_left long]
    exact eq_comm
  · have inside : n < buffer.length := by
      have room : bufSize = 1024 := rfl
      omega
    constructor
    · intro same
      have stored : ((buffer.set n 0).take quitLine.length)[n]? = some 0 := by
        rw [List.getElem?_take_of_lt (by omega), List.getElem?_set_self inside]
      rw [same] at stored
      have member : (0 : UInt8) ∈ quitLine := List.mem_of_getElem? stored
      exact absurd member (by decide)
    · intro begins
      have short := begins.length_le
      rw [List.length_take] at short
      omega

section Step

variable {pieces : List Piece} {s next : State}

theorem underway_start (memory : Memory) : Underway pieces (start memory pieces) where
  size := memory.size
  bounds _ none := nomatch none
  compares _ here := nomatch here
  passes := rfl
  stores := rfl
  copied := rfl
  finished here := nomatch here

/-- Every step keeps the two programs on their way. -/
theorem Underway.step {action : Action} (underway : Underway pieces s)
    (taken : step s action = some next)
    : Underway pieces next := by
  obtain ⟨size, bounds, compares, passes, stores, copied, finished⟩ := underway
  -- a writer that goes on has not ended, and neither has the reader
  have stillOpen (working : s.writer ≠ .ended) : s.reader ≠ .ended := fun ended =>
    working (finished ended).1
  cases Move.of_step taken with
  | @writerRead piece rest here input =>
      have fits : piece.bytes.length ≤ s.buffer.length := size ▸ piece.fits
      have open_ := stillOpen (by simp [here])
      refine ⟨by rw [length_overwrite fits, size], ?_, by simp, ?_, ?_, copied,
        fun ended => absurd ended open_⟩
      · simpa [WriterPc.readNum?] using ⟨piece.nonempty, piece.fits⟩
      · rw [← passes]
        by_cases quits : quitLine <+: piece.bytes <;>
          simp [toPass, here, input, passed, Piece.Quits, quits]
      · rw [← stores]
        by_cases quits : quitLine <+: piece.bytes <;>
          simp [toStore, here, input, handledLengths, handled, Piece.Quits, quits]
  | writerReadEnd here input =>
      have open_ := stillOpen (by simp [here])
      refine ⟨size, by simp [WriterPc.readNum?], by simp, ?_, ?_, copied,
        fun ended => absurd ended open_⟩
      · rw [← passes]
        simp [toPass, here, input, passed]
      · rw [← stores]
        simp [toStore, here, input, handledLengths, handled]
  | @writerStore readNum here =>
      have bound := bounds readNum (by rw [here]; rfl)
      have open_ := stillOpen (by simp [here])
      refine ⟨by rw [List.length_set, size], ?_, ?_, ?_, ?_, copied,
        fun ended => absurd ended open_⟩
      · simpa [WriterPc.readNum?] using bound
      · intro n same
        obtain rfl : readNum = n := by simpa using same
        rw [take_set_self]
        exact take_set_eq_quitLine_iff size bound.2
      · rw [← passes]
        simp [toPass, here]
      · rw [← stores]
        simp [toStore, here]
  | @writerQuits readNum here same =>
      have quits : quitLine <+: s.buffer.take readNum := (compares readNum here).mp same
      have open_ := stillOpen (by simp [here])
      refine ⟨size, by simp [WriterPc.readNum?], by simp, ?_, ?_, copied,
        fun ended => absurd ended open_⟩
      · rw [← passes]
        simp [toPass, here, quits]
      · rw [← stores]
        simp [toStore, here, quits]
  | @writerGoesOn readNum here other =>
      have goesOn : ¬quitLine <+: s.buffer.take readNum := fun quits =>
        other ((compares readNum here).mpr quits)
      have bound := bounds readNum (by rw [here]; rfl)
      have open_ := stillOpen (by simp [here])
      refine ⟨size, ?_, by simp, ?_, ?_, copied, fun ended => absurd ended open_⟩
      · simpa [WriterPc.readNum?] using bound
      · rw [← passes]
        simp [toPass, here, goesOn]
      · rw [← stores]
        simp [toStore, here, goesOn]
  | writerWrite here =>
      have open_ := stillOpen (by simp [here])
      refine ⟨size, by simp [WriterPc.readNum?], by simp, ?_, ?_, ?_,
        fun ended => absurd ended open_⟩
      · rw [← passes]
        simp [toPass, here]
      · rw [← stores]
        simp [toStore, here]
      · rw [← List.append_assoc, copied]
  | writerClose here =>
      have open_ := stillOpen (by simp [here])
      refine ⟨size, by simp [WriterPc.readNum?], by simp, ?_, ?_, copied,
        fun ended => absurd ended open_⟩
      · rw [← passes]
        simp [toPass, here]
      · rw [← stores]
        simp [toStore, here]
  | readerRead here _ =>
      refine ⟨size, bounds, compares, passes, stores, ?_, fun ended => ?_⟩
      · rw [List.append_assoc, pipeRead_append_drop, copied]
      · exact absurd (here.symm.trans ended) (by simp)
  | readerReadEnd _ empty closed =>
      exact ⟨size, bounds, compares, passes, stores, copied, fun _ => ⟨closed, empty⟩⟩

theorem Underway.of_reachable {memory : Memory} (reached : (system memory pieces).Reachable s)
    : Underway pieces s := by
  refine System.Reachable.invariant (fun s first => ?_) (fun s action next => ?_) reached
  · rw [show s = start memory pieces from first]
    exact underway_start memory
  · exact Underway.step

-----------------------------------------------------------------------------------------
-- The end
-----------------------------------------------------------------------------------------

/-- At the end all that was to be passed on is printed, and all stores are made. -/
theorem Underway.ended (underway : Underway pieces s) (closed : s.writer = .ended)
    (ended : s.reader = .ended)
    : s.printed = passed pieces ∧ s.stores = handledLengths pieces := by
  have passes := underway.passes
  have stores := underway.stores
  have copied := underway.copied
  rw [(underway.finished ended).2, List.append_nil] at copied
  simp only [toPass, toStore, closed, List.append_nil] at passes stores
  exact ⟨copied.trans passes, stores⟩

/-- Steps that are left for the pieces not yet read, and for the one in the buffer; each byte
is written and printed.
-/
def inputCost : List Piece → Nat
  | [] => 0
  | piece :: pieces => 2 * piece.bytes.length + 4 + inputCost pieces

def WriterPc.cost : WriterPc → Nat
  | .read => 2
  | .store readNum => 2 * readNum + 5
  | .compare readNum => 2 * readNum + 4
  | .write readNum => 2 * readNum + 3
  | .close => 1
  | .ended => 0

def ReaderPc.cost : ReaderPc → Nat
  | .read => 1
  | .ended => 0

def State.cost (s : State) : Nat :=
  inputCost s.input + s.writer.cost + s.content.length + s.reader.cost

/-- Every step lowers the cost. -/
theorem cost_lt_of_step {action : Action} (taken : step s action = some next)
    : next.cost < s.cost := by
  cases Move.of_step taken with
  | writerRead here input | writerReadEnd here input =>
      simp only [State.cost, inputCost, here, input, WriterPc.cost]
      omega
  | writerStore here | writerQuits here | writerGoesOn here | writerClose here =>
      simp only [State.cost, here, WriterPc.cost]
      omega
  | writerWrite here =>
      simp only [State.cost, here, WriterPc.cost, List.length_append, List.length_take]
      omega
  | readerRead _ more =>
      have some : 0 < s.content.length := List.length_pos_of_ne_nil more
      have size : 0 < bufSize := by decide
      simp only [State.cost, List.length_drop]
      omega
  | readerReadEnd here =>
      simp only [State.cost, here, ReaderPc.cost]
      omega

/-- The reader reads when there is something in the FIFO, and it has not ended then. -/
theorem Underway.reads (underway : Underway pieces s) (more : s.content ≠ [])
    : ∃ action next, FifoPipe.step s action = some next := by
  cases here : s.reader with
  | read => exact ⟨.readerRead, _, if_pos ⟨here, more⟩⟩
  | ended => exact absurd (underway.finished here).2 more

/-- Until both have ended, one of them can go on. -/
theorem Underway.progress (underway : Underway pieces s)
    : (s.writer = .ended ∧ s.reader = .ended)
      ∨ ∃ action next, FifoPipe.step s action = some next := by
  cases here : s.writer with
  | read =>
      cases input : s.input with
      | nil =>
          have taken : FifoPipe.step s .writerReadEnd = some { s with writer := .close } := by
            simp [FifoPipe.step, writerReadEnd, here, input]
          exact Or.inr ⟨_, _, taken⟩
      | cons piece rest =>
          have taken : FifoPipe.step s .writerRead = some { s with
              input := rest
              buffer := overwrite s.buffer piece.bytes
              writer := .store piece.bytes.length } := by
            simp [FifoPipe.step, writerRead, here, input]
          exact Or.inr ⟨_, _, taken⟩
  | store readNum =>
      have taken : FifoPipe.step s .writerStore = some { s with
          buffer := s.buffer.set readNum 0
          stores := s.stores ++ [readNum]
          writer := .compare readNum } := by
        simp [FifoPipe.step, writerStore, here]
      exact Or.inr ⟨_, _, taken⟩
  | compare readNum =>
      have taken : FifoPipe.step s .writerCompare = some { s with
          writer :=
            if s.buffer.take quitLine.length = quitLine then .close else .write readNum } := by
        simp [FifoPipe.step, writerCompare, here]
      exact Or.inr ⟨_, _, taken⟩
  | write readNum =>
      obtain ⟨some, fits⟩ := underway.bounds readNum (by rw [here]; rfl)
      have limits : bufSize ≤ pipeBuf := by decide
      rcases transfers_or_ne_nil s.content some (Nat.le_trans fits limits) with room | more
      · have taken : FifoPipe.step s .writerWrite = Option.some { s with
            content := s.content ++ s.buffer.take readNum
            written := s.written ++ s.buffer.take readNum
            writer := .read } := by
          simp [FifoPipe.step, writerWrite, here, room]
        exact Or.inr ⟨_, _, taken⟩
      · exact Or.inr (underway.reads more)
  | close => exact Or.inr ⟨.writerClose, _, if_pos here⟩
  | ended =>
      by_cases empty : s.content = []
      · cases at_ : s.reader with
        | read => exact Or.inr ⟨.readerReadEnd, _, if_pos ⟨at_, empty, here⟩⟩
        | ended => exact Or.inl ⟨rfl, rfl⟩
      · exact Or.inr (underway.reads empty)

/-- Whatever the pieces, both programs end. -/
theorem inevitable_ended (memory : Memory) (pieces : List Piece) {goal : State → Prop}
    (arrives : ∀ s, Underway pieces s → s.writer = .ended → s.reader = .ended → goal s)
    : (system memory pieces).Inevitable (fun _ _ => True) goal (start memory pieces) := by
  refine System.Inevitable.of_measure (Underway pieces) State.cost
    (fun s action next underway _ taken => underway.step taken) (fun s underway => ?_)
    (fun s action next _ _ taken => cost_lt_of_step taken) (underway_start memory)
  rcases underway.progress with ⟨closed, ended⟩ | ⟨action, next, taken⟩
  · exact Or.inl (arrives s underway closed ended)
  · exact Or.inr ⟨action, next, trivial, taken⟩

end Step

-----------------------------------------------------------------------------------------
-- The condition
-----------------------------------------------------------------------------------------

section Condition

variable {memory : Memory} {pieces : List Piece}

/-- A state in which all stores are made is reached. -/
theorem exists_ended (memory : Memory) (pieces : List Piece)
    : ∃ s, (system memory pieces).Reachable s ∧ s.stores = handledLengths pieces := by
  have all := inevitable_ended memory pieces fun s underway closed ended =>
    (underway.ended closed ended).2
  obtain ⟨actions, final, run, stores⟩ := all.exists_exec
  have first : (system memory pieces).Reachable (start memory pieces) := .initial rfl
  exact ⟨final, first.exec run, stores⟩

theorem PassesOn.short (passesOn : PassesOn memory pieces)
    : ∀ piece ∈ handled pieces, piece.bytes.length < bufSize := by
  intro piece among
  obtain ⟨s, reached, stores⟩ := exists_ended memory pieces
  refine passesOn.inside s reached _ ?_
  rw [stores]
  exact List.mem_map_of_mem among

theorem PassesOn.passed_eq (passesOn : PassesOn memory pieces)
    : passed pieces = beforeQuit (stream pieces) := by
  obtain ⟨actions, final, run, closed, ended, printed⟩ := passesOn.prints.exists_exec
  have first : (system memory pieces).Reachable (start memory pieces) := .initial rfl
  have underway : Underway pieces final := .of_reachable (first.exec run)
  exact (underway.ended closed ended).1.symm.trans printed

/-- The bytes before the first line `quit` are printed without a store outside the buffer
exactly if no piece that is read fills the buffer and the pieces are aligned with that line.
-/
theorem passesOn_iff_aligned (memory : Memory) (pieces : List Piece)
    : PassesOn memory pieces
      ↔ (∀ piece ∈ handled pieces, piece.bytes.length < bufSize) ∧ Aligned [] pieces := by
  constructor
  · exact fun passesOn => ⟨passesOn.short, (passed_eq_iff pieces).mp passesOn.passed_eq⟩
  · rintro ⟨short, aligned⟩
    have same := (passed_eq_iff pieces).mpr aligned
    refine ⟨fun s reached index among => ?_, same ▸ ?_⟩
    · have stores := (Underway.of_reachable reached).stores
      have member : index ∈ handledLengths pieces := stores ▸ List.mem_append_left _ among
      obtain ⟨piece, there, rfl⟩ := List.mem_map.mp member
      exact short piece there
    · exact inevitable_ended memory pieces fun s underway closed ended =>
        ⟨closed, ended, (underway.ended closed ended).1⟩

/-- "a\nquit\n" in one piece, and "b\n" in another. -/
def lineBeforeQuit : List Piece :=
  [⟨[97, 10, 113, 117, 105, 116, 10], by decide, by decide⟩, ⟨[98, 10], by decide, by decide⟩]

/-- A line `quit` behind another one in the same piece is passed on, and so is what follows. -/
theorem not_passesOn_lineBeforeQuit
    : passed lineBeforeQuit = [97, 10, 113, 117, 105, 116, 10, 98, 10]
      ∧ beforeQuit (stream lineBeforeQuit) = [97, 10]
      ∧ ∀ memory, ¬PassesOn memory lineBeforeQuit :=
  ⟨by decide, by decide, fun _ passesOn => absurd passesOn.passed_eq (by decide)⟩

end Condition

end LinuxStudy.FifoPipe
