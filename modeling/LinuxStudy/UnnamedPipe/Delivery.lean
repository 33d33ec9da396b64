import LinuxStudy.UnnamedPipe.Model

/-! Which arguments of `unnamede_pipe_test.c` reach the child. The parent keeps its end of the
pipe open while it waits, so the one `read` of the child returns only when something has been
written; and a `read` that fills the buffer leaves no room for the terminator.
-/

namespace LinuxStudy.UnnamedPipe

open Transition Posix

/-- Both processes end and the child has printed the whole argument; it stores only into its
buffer, the two never wait for each other, and no broken pipe kills the parent.
-/
structure Delivers (pid : Pid) (memory : Memory) (argument : Argument) : Prop where
  inside
    : ∀ s, (system pid memory argument).Reachable s → ∀ index ∈ s.stores, index < bufSize
  goesOn
    : ∀ s, (system pid memory argument).Reachable s → s.child = .read → s.parent = .waitpid
      → ∃ action next, step pid argument s action = some next
  notKilled : ∀ s, (system pid memory argument).Reachable s → s.parent ≠ .killed
  prints
    : (system pid memory argument).Inevitable (fun _ _ => True)
      (fun s => s.parent = .ended ∧ s.child = .ended
        ∧ s.printed = [some (report pid argument.bytes)])
      (start memory)

-----------------------------------------------------------------------------------------
-- The steps
-----------------------------------------------------------------------------------------

/-- One step of the parent or of the child. -/
inductive Move (pid : Pid) (argument : Argument) (s : State) : Action → State → Prop
  | parentCloseRead (here : s.parent = .closeRead)
    : Move pid argument s .parentCloseRead { s with parent := .write 0 }
  | parentWriteNothing (here : s.parent = .write 0) (empty : argument.bytes = [])
    : Move pid argument s .parentWriteNothing { s with parent := .waitpid }
  | parentWrite {sent n} (here : s.parent = .write sent)
    (transfers : Transfers s.content argument.bytes.length sent n)
    : Move pid argument s (.parentWrite n)
        { s with
          content := s.content ++ (argument.bytes.drop sent).take n
          parent :=
            if sent + n = argument.bytes.length then .waitpid else .write (sent + n) }
  | parentSigpipe {sent} (here : s.parent = .write sent) (broken : s.readable = false)
    : Move pid argument s .parentSigpipe { s with parent := .killed }
  | parentWaitpid (here : s.parent = .waitpid) (ended : s.child = .ended)
    : Move pid argument s .parentWaitpid { s with parent := .closeWrite }
  | parentCloseWrite (here : s.parent = .closeWrite)
    : Move pid argument s .parentCloseWrite { s with parent := .ended }
  | childCloseWrite (here : s.child = .closeWrite)
    : Move pid argument s .childCloseWrite { s with child := .read }
  | childRead (here : s.child = .read) (some : s.content ≠ [])
    : Move pid argument s .childRead
        { s with
          content := s.content.drop bufSize
          buffer := overwrite s.buffer (pipeRead bufSize s.content)
          child := .store (pipeRead bufSize s.content).length }
  | childReadEnd (here : s.child = .read) (closed : s.writable = false)
    : Move pid argument s .childReadEnd { s with child := .store 0 }
  | childStore {bytesRead} (here : s.child = .store bytesRead)
    : Move pid argument s .childStore
        { s with
          buffer := s.buffer.set bytesRead 0
          stores := s.stores ++ [bytesRead]
          child := .print }
  | childPrint (here : s.child = .print)
    : Move pid argument s .childPrint
        { s with
          printed := s.printed ++ [(stringIn s.buffer).map (message pid)]
          child := .closeRead }
  | childCloseRead (here : s.child = .closeRead)
    : Move pid argument s .childCloseRead { s with child := .ended }

/-- Every step is one of these. -/
theorem Move.of_step {pid : Pid} {argument : Argument} {s next : State} {action : Action}
    (taken : step pid argument s action = some next)
    : Move pid argument s action next := by
  cases action with
  | parentCloseRead =>
      obtain ⟨here, same⟩ := Option.ite_none_right_eq_some.mp taken
      exact Option.some.inj same ▸ .parentCloseRead here
  | parentWriteNothing =>
      obtain ⟨⟨here, empty⟩, same⟩ := Option.ite_none_right_eq_some.mp taken
      exact Option.some.inj same ▸ .parentWriteNothing here empty
  | parentWrite n =>
      simp only [step, UnnamedPipe.parentWrite] at taken
      split at taken
      next sent here =>
        obtain ⟨⟨transfers, _⟩, same⟩ := Option.ite_none_right_eq_some.mp taken
        exact Option.some.inj same ▸ .parentWrite here transfers
      next => contradiction
  | parentSigpipe =>
      simp only [step, UnnamedPipe.parentSigpipe] at taken
      split at taken
      next sent here =>
        obtain ⟨⟨_, broken⟩, same⟩ := Option.ite_none_right_eq_some.mp taken
        exact Option.some.inj same ▸ .parentSigpipe here broken
      next => contradiction
  | parentWaitpid =>
      obtain ⟨⟨here, ended⟩, same⟩ := Option.ite_none_right_eq_some.mp taken
      exact Option.some.inj same ▸ .parentWaitpid here ended
  | parentCloseWrite =>
      obtain ⟨here, same⟩ := Option.ite_none_right_eq_some.mp taken
      exact Option.some.inj same ▸ .parentCloseWrite here
  | childCloseWrite =>
      obtain ⟨here, same⟩ := Option.ite_none_right_eq_some.mp taken
      exact Option.some.inj same ▸ .childCloseWrite here
  | childRead =>
      obtain ⟨⟨here, some⟩, same⟩ := Option.ite_none_right_eq_some.mp taken
      exact Option.some.inj same ▸ .childRead here some
  | childReadEnd =>
      obtain ⟨⟨here, _, closed⟩, same⟩ := Option.ite_none_right_eq_some.mp taken
      exact Option.some.inj same ▸ .childReadEnd here closed
  | childStore =>
      simp only [step, UnnamedPipe.childStore] at taken
      split at taken
      next bytesRead here => exact Option.some.inj taken ▸ .childStore here
      next => contradiction
  | childPrint =>
      obtain ⟨here, same⟩ := Option.ite_none_right_eq_some.mp taken
      exact Option.some.inj same ▸ .childPrint here
  | childCloseRead =>
      obtain ⟨here, same⟩ := Option.ite_none_right_eq_some.mp taken
      exact Option.some.inj same ▸ .childCloseRead here

-----------------------------------------------------------------------------------------
-- Arguments that fit
-----------------------------------------------------------------------------------------

/-- The write has returned. -/
def ParentPc.sent : ParentPc → Bool
  | .waitpid | .closeWrite | .ended => true
  | _ => false

/-- The one read has not returned. -/
def ChildPc.unread : ChildPc → Bool
  | .closeWrite | .read => true
  | _ => false

/-- What the parent's program point says. -/
def ParentKnows (s : State) : ParentPc → Prop
  | .closeRead => s.child.unread = true
  | .write sent => sent = 0 ∧ s.child.unread = true
  | .waitpid => True
  | .closeWrite | .ended => s.child = .ended
  | .killed => False

/-- What the child's program point says of the pipe, the buffer and the output. -/
def ChildKnows (pid : Pid) (argument : Argument) (s : State) : ChildPc → Prop
  | .closeWrite | .read =>
      s.content = (if s.parent.sent then argument.bytes else [])
        ∧ s.buffer.length = bufSize ∧ s.stores = [] ∧ s.printed = []
  | .store bytesRead =>
      bytesRead = argument.bytes.length ∧ s.buffer.length = bufSize
        ∧ s.buffer.take bytesRead = argument.bytes ∧ s.stores = [] ∧ s.printed = []
  | .print =>
      stringIn s.buffer = some argument.bytes ∧ s.stores = [argument.bytes.length]
        ∧ s.printed = []
  | .closeRead | .ended =>
      s.stores = [argument.bytes.length] ∧ s.printed = [some (report pid argument.bytes)]

/-- What the parent knows stays true when the child goes on, except that its read returns
before the parent has written.
-/
theorem ParentKnows.childGoes {s next : State} {pc : ParentPc} (knows : ParentKnows s pc)
    (alive : s.child ≠ .ended)
    (reads : pc.sent = true ∨ (s.child.unread = true → next.child.unread = true))
    : ParentKnows next pc := by
  cases pc with
  | closeRead => exact (reads.resolve_left (by simp [ParentPc.sent])) knows
  | write sent => exact ⟨knows.1, (reads.resolve_left (by simp [ParentPc.sent])) knows.2⟩
  | waitpid => trivial
  | closeWrite | ended => exact absurd knows alive
  | killed => exact knows

/-- Before the child has read, the pipe has what the parent has written. -/
theorem childKnows_of_unread {pid : Pid} {argument : Argument} {s : State} {pc : ChildPc}
    (unread : pc.unread = true)
    : ChildKnows pid argument s pc
      ↔ s.content = (if s.parent.sent then argument.bytes else [])
        ∧ s.buffer.length = bufSize ∧ s.stores = [] ∧ s.printed = [] := by
  cases pc with
  | closeWrite | read => exact Iff.rfl
  | store _ | print | closeRead | ended => exact absurd unread (by simp [ChildPc.unread])

/-- The two processes with an argument that fits. -/
structure Underway (pid : Pid) (argument : Argument) (s : State) : Prop where
  parent : ParentKnows s s.parent
  child : ChildKnows pid argument s s.child

/-- The argument has some bytes, and leaves room for a terminator. -/
def Argument.Fits (argument : Argument) : Prop :=
  0 < argument.bytes.length ∧ argument.bytes.length < bufSize

instance (argument : Argument) : Decidable argument.Fits :=
  inferInstanceAs (Decidable (_ ∧ _))

section Fits

variable {pid : Pid} {argument : Argument}

/-- The message holds the whole text. -/
theorem message_eq_report (fits : argument.Fits)
    : message pid argument.bytes = report pid argument.bytes := by
  have label : (utf8 "Child process read from pipe: ").length = 30 := by decide
  have middle : (utf8 ", my pid is ").length = 12 := by decide
  have number : (decimal pid).length ≤ 10 := length_decimal_le (by decide) (by omega)
  have short : argument.bytes.length < 1024 := fits.2
  refine List.take_of_length_le ?_
  simp only [report, List.length_append, label, middle, List.length_singleton, messageSize]
  omega

theorem Argument.Fits.whole (fits : argument.Fits) {content : Bytes} {sent n : Nat}
    (transfers : Transfers content argument.bytes.length sent n)
    : sent = 0 ∧ n = argument.bytes.length := by
  have short : argument.bytes.length ≤ pipeBuf := by
    have room : bufSize ≤ pipeBuf := by decide
    exact fits.2.le.trans room
  exact transfers.eq_total short

/-- The string behind the store of the terminator. -/
theorem stringIn_set {buffer : Bytes} {length : Nat} (bound : length < buffer.length)
    (nulFree : 0 ∉ buffer.take length)
    : stringIn (buffer.set length 0) = some (buffer.take length) := by
  have member : 0 ∈ buffer.set length 0 := List.mem_set bound 0
  rw [stringIn, if_pos member, cString_set_zero bound, cString_of_nulFree nulFree]

theorem underway_start (memory : Memory) : Underway pid argument (start memory) where
  parent := rfl
  child := ⟨rfl, memory.size, rfl, rfl⟩

/-- Every step keeps the two processes under way. -/
theorem Underway.step (fits : argument.Fits) {s next : State} {action : Action}
    (underway : Underway pid argument s) (taken : step pid argument s action = some next)
    : Underway pid argument next := by
  obtain ⟨parent, child⟩ := underway
  cases Move.of_step taken with
  | parentCloseRead here =>
      rw [here] at parent
      have unread : s.child.unread = true := parent
      refine ⟨⟨rfl, unread⟩, ?_⟩
      rw [childKnows_of_unread unread] at child ⊢
      simpa [here, ParentPc.sent] using child
  | parentWriteNothing _ empty =>
      have some := fits.1
      rw [empty] at some
      exact absurd some (Nat.lt_irrefl 0)
  | parentWrite here transfers =>
      obtain ⟨rfl, rfl⟩ := fits.whole transfers
      rw [here] at parent
      have unread : s.child.unread = true := parent.2
      simp only [Nat.zero_add, if_true]
      refine ⟨trivial, ?_⟩
      rw [childKnows_of_unread unread] at child ⊢
      simpa [here, ParentPc.sent] using child
  | parentSigpipe here broken =>
      -- the child has not read yet, so the pipe is open for reading
      rw [here] at parent
      have ended : s.child = .ended := by simpa [State.readable] using broken
      rw [ParentKnows, ended] at parent
      exact absurd parent.2 (by simp [ChildPc.unread])
  | parentWaitpid here ended =>
      refine ⟨ended, ?_⟩
      rw [ended] at child ⊢
      exact child
  | parentCloseWrite here =>
      rw [here] at parent
      have ended : s.child = .ended := parent
      refine ⟨ended, ?_⟩
      rw [ended] at child ⊢
      exact child
  | childCloseWrite here =>
      rw [here] at child
      exact ⟨parent.childGoes (by simp [here]) (Or.inr fun _ => rfl), child⟩
  | childRead here some =>
      rw [here] at child
      obtain ⟨content, size, stores, printed⟩ := child
      have sent : s.parent.sent = true := by
        by_contra unsent
        rw [if_neg unsent] at content
        exact some content
      rw [if_pos sent] at content
      have all : pipeRead bufSize s.content = argument.bytes := by
        rw [pipeRead, content, List.take_of_length_le fits.2.le]
      refine ⟨parent.childGoes (by simp [here]) (Or.inl sent), ?_, ?_, ?_, stores, printed⟩
      · rw [all]
      · rw [all, length_overwrite (size ▸ fits.2.le), size]
      · rw [all, take_overwrite]
  | childReadEnd here closed =>
      cases at_ : s.parent <;> simp_all [ParentKnows, State.writable]
  | childStore here =>
      rw [here] at child
      obtain ⟨rfl, size, text, stores, printed⟩ := child
      have nulFree : 0 ∉ s.buffer.take argument.bytes.length := by
        rw [text]
        exact argument.nulFree
      have string := stringIn_set (size ▸ fits.2) nulFree
      refine ⟨parent.childGoes (by simp [here]) (Or.inr ?_), string.trans (by rw [text]),
        by simp [stores], printed⟩
      simp [here, ChildPc.unread]
  | childPrint here =>
      rw [here] at child
      obtain ⟨string, stores, printed⟩ := child
      refine ⟨parent.childGoes (by simp [here]) (Or.inr ?_), stores, ?_⟩
      · simp [here, ChildPc.unread]
      · simp [string, printed, message_eq_report fits]
  | childCloseRead here =>
      rw [here] at child
      refine ⟨parent.childGoes (by simp [here]) (Or.inr ?_), child⟩
      simp [here, ChildPc.unread]

theorem Underway.of_reachable (fits : argument.Fits) {memory : Memory} {s : State}
    (reached : (system pid memory argument).Reachable s)
    : Underway pid argument s := by
  refine System.Reachable.invariant (fun s first => ?_) (fun s action next => ?_) reached
  · rw [show s = start memory from first]
    exact underway_start memory
  · exact fun underway taken => underway.step fits taken

/-- The calls that are left to the parent and to the child. -/
def ParentPc.left : ParentPc → Nat
  | .closeRead => 4
  | .write _ => 3
  | .waitpid => 2
  | .closeWrite => 1
  | .ended | .killed => 0

def ChildPc.left : ChildPc → Nat
  | .closeWrite => 5
  | .read => 4
  | .store _ => 3
  | .print => 2
  | .closeRead => 1
  | .ended => 0

def State.left (s : State) : Nat := s.parent.left + s.child.left

/-- Every step leaves fewer calls. -/
theorem left_lt_of_step (fits : argument.Fits) {s next : State} {action : Action}
    (taken : step pid argument s action = some next)
    : next.left < s.left := by
  cases Move.of_step taken with
  | parentWrite here transfers =>
      obtain ⟨rfl, rfl⟩ := fits.whole transfers
      simp [State.left, here, ParentPc.left]
  | parentCloseRead here | parentWriteNothing here | parentSigpipe here | parentWaitpid here
  | parentCloseWrite here =>
      simp [State.left, here, ParentPc.left]
  | childCloseWrite here | childRead here | childReadEnd here | childStore here
  | childPrint here | childCloseRead here =>
      simp [State.left, here, ChildPc.left]

/-- Until both have ended, one of them can go on. -/
theorem Underway.progress (fits : argument.Fits) {s : State}
    (underway : Underway pid argument s)
    : (s.parent = .ended ∧ s.child = .ended)
      ∨ ∃ action next, UnnamedPipe.step pid argument s action = some next := by
  obtain ⟨parent, child⟩ := underway
  cases here : s.child with
  | closeWrite => exact Or.inr ⟨.childCloseWrite, _, if_pos here⟩
  | store bytesRead =>
      have stored : UnnamedPipe.step pid argument s .childStore
          = some { s with
            buffer := s.buffer.set bytesRead 0
            stores := s.stores ++ [bytesRead]
            child := .print } := by
        simp [UnnamedPipe.step, childStore, here]
      exact Or.inr ⟨_, _, stored⟩
  | print => exact Or.inr ⟨.childPrint, _, if_pos here⟩
  | closeRead => exact Or.inr ⟨.childCloseRead, _, if_pos here⟩
  | ended =>
      cases at_ : s.parent with
      | closeRead => exact Or.inr ⟨.parentCloseRead, _, if_pos at_⟩
      | waitpid => exact Or.inr ⟨.parentWaitpid, _, if_pos ⟨at_, here⟩⟩
      | closeWrite => exact Or.inr ⟨.parentCloseWrite, _, if_pos at_⟩
      | ended => exact Or.inl ⟨rfl, rfl⟩
      | write sent => simp [at_, ParentKnows, here, ChildPc.unread] at parent
      | killed => simp [at_, ParentKnows] at parent
  | read =>
      rw [here] at child
      cases at_ : s.parent with
      | closeRead => exact Or.inr ⟨.parentCloseRead, _, if_pos at_⟩
      | write sent =>
          simp only [at_, ParentKnows] at parent
          obtain ⟨rfl, _⟩ := parent
          have empty : s.content = [] := by simpa [at_, ParentPc.sent] using child.1
          have short : argument.bytes.length ≤ pipeBuf := by
            have room : bufSize ≤ pipeBuf := by decide
            exact fits.2.le.trans room
          have transfers := transfers_whole fits.1 short
          have written : UnnamedPipe.step pid argument s (.parentWrite argument.bytes.length)
              = some { s with content := argument.bytes, parent := .waitpid } := by
            simp [UnnamedPipe.step, parentWrite, at_, empty, State.readable, here, transfers]
          exact Or.inr ⟨_, _, written⟩
      | waitpid =>
          have some : s.content ≠ [] := by
            have content : s.content = argument.bytes := by simpa [at_, ParentPc.sent] using child.1
            rw [content]
            exact List.ne_nil_of_length_pos fits.1
          exact Or.inr ⟨.childRead, _, if_pos ⟨here, some⟩⟩
      | closeWrite | ended | killed => simp [at_, ParentKnows, here] at parent

/-- An argument that fits is printed as a whole. -/
theorem Argument.Fits.delivers (fits : argument.Fits) (memory : Memory)
    : Delivers pid memory argument where
  inside s reached index among := by
    obtain ⟨_, child⟩ := Underway.of_reachable fits reached
    cases here : s.child <;> simp only [here, ChildKnows] at child
    all_goals simp_all [Argument.Fits]
  goesOn s reached here waits := by
    rcases (Underway.of_reachable fits reached).progress fits with ⟨ended, _⟩ | more
    · rw [ended] at waits
      exact nomatch waits
    · exact more
  notKilled s reached killed := by
    have parent := (Underway.of_reachable fits reached).parent
    rw [killed] at parent
    exact parent
  prints := by
    refine System.Inevitable.of_measure (Underway pid argument) State.left
      (fun s action next underway _ taken => underway.step fits taken) (fun s underway => ?_)
      (fun s action next _ _ taken => left_lt_of_step fits taken)
      (underway_start memory)
    rcases underway.progress fits with ⟨parent, child⟩ | ⟨action, next, taken⟩
    · have printed := underway.child
      rw [child] at printed
      exact Or.inl ⟨parent, child, printed.2⟩
    · exact Or.inr ⟨action, next, trivial, taken⟩

end Fits

-----------------------------------------------------------------------------------------
-- Other arguments
-----------------------------------------------------------------------------------------

section Other

variable {pid : Pid} {memory : Memory} {argument : Argument}

/-- For an empty argument nothing is written: the child stays in `read` and the parent in
`waitpid`.
-/
theorem not_delivers_of_empty (empty : argument.bytes = []) : ¬Delivers pid memory argument := by
  intro delivers
  have first : (system pid memory argument).Reachable (start memory) := .initial rfl
  have closed : (system pid memory argument).step (start memory) .parentCloseRead
      = some { start memory with parent := .write 0 } := rfl
  have written : (system pid memory argument).step { start memory with parent := .write 0 }
        .parentWriteNothing
      = some { start memory with parent := .waitpid } := if_pos ⟨rfl, empty⟩
  have reads : (system pid memory argument).step { start memory with parent := .waitpid }
        .childCloseWrite
      = some { start memory with parent := .waitpid, child := .read } := rfl
  have reached := ((first.next closed).next written).next reads
  obtain ⟨action, next, taken⟩ := delivers.goesOn _ reached rfl rfl
  cases action <;> exact nomatch taken

/-- An argument of the buffer's size or longer fills it, and the terminator is stored behind
its end.
-/
theorem not_delivers_of_full (full : bufSize ≤ argument.bytes.length)
    : ¬Delivers pid memory argument := by
  intro delivers
  have size : bufSize = 1024 := rfl
  have limits : pipeBuf = 4096 ∧ pipeCapacity = 65536 := ⟨rfl, rfl⟩
  -- a long write may be split behind the bytes that fill the buffer
  obtain ⟨n, enough, transfers⟩
      : ∃ n, bufSize ≤ n ∧ Transfers [] argument.bytes.length 0 n := by
    by_cases short : argument.bytes.length ≤ pipeBuf
    · exact ⟨argument.bytes.length, full, transfers_whole (by omega) short⟩
    · have nothing : ([] : Bytes).length = 0 := rfl
      refine ⟨bufSize, Nat.le_refl _, ?_, ?_, ?_, ?_⟩ <;> omega
  have first : (system pid memory argument).Reachable (start memory) := .initial rfl
  have closed : (system pid memory argument).step (start memory) .parentCloseRead
      = some { start memory with parent := .write 0 } := rfl
  let content := argument.bytes.take n
  let parent : ParentPc := if n = argument.bytes.length then .waitpid else .write n
  have written : (system pid memory argument).step { start memory with parent := .write 0 }
        (.parentWrite n)
      = some { start memory with content, parent } := by
    have room : Transfers [] argument.bytes.length 0 n ∧ (start memory).readable = true :=
      ⟨transfers, rfl⟩
    simpa [system, step, parentWrite, start, content, parent, State.readable] using room
  have opens : (system pid memory argument).step { start memory with content, parent }
        .childCloseWrite
      = some { start memory with content, parent, child := .read } := rfl
  have length : content.length = n := by
    rw [List.length_take]
    exact min_eq_left (by simpa using transfers.2.1)
  have chunk : (pipeRead bufSize content).length = bufSize := by
    rw [length_pipeRead, length]
    omega
  have some : content ≠ [] := List.ne_nil_of_length_pos (by omega)
  have reached := ((first.next closed).next written).next opens
  have stored : ∃ next, (system pid memory argument).Reachable next ∧ bufSize ∈ next.stores := by
    have reads : (system pid memory argument).step
          { start memory with content, parent, child := .read } .childRead
        = _ := if_pos ⟨rfl, some⟩
    have stores := reached.next reads
    rw [chunk] at stores
    exact ⟨_, @System.Reachable.next _ _ _ _ _ .childStore stores rfl, List.mem_cons_self⟩
  obtain ⟨next, there, among⟩ := stored
  exact absurd (delivers.inside next there bufSize among) (Nat.lt_irrefl _)

end Other

/-- Exactly the arguments of 1 to 1023 bytes are delivered. -/
theorem delivers_iff_fits (pid : Pid) (memory : Memory) (argument : Argument)
    : Delivers pid memory argument ↔ argument.Fits := by
  refine ⟨fun delivers => ⟨?_, ?_⟩, fun fits => fits.delivers memory⟩
  · by_contra none
    have empty : argument.bytes = [] := List.length_eq_zero_iff.mp (by omega)
    exact not_delivers_of_empty empty delivers
  · by_contra full
    exact not_delivers_of_full (by omega) delivers

/-- 1024 times the letter A -/
def letters : Argument where
  bytes := List.replicate 1024 65
  nulFree member := absurd (List.eq_of_mem_replicate member) (by decide)

/-- The empty argument is not delivered, nor is one of 1024 letters. -/
theorem not_delivers_empty_or_letters
    : (∀ memory, ¬Delivers 1000 memory ⟨[], List.not_mem_nil⟩)
      ∧ ∀ memory, ¬Delivers 1000 memory letters :=
  ⟨fun _ => not_delivers_of_empty rfl,
    fun _ => not_delivers_of_full (Nat.le_of_eq List.length_replicate.symm)⟩

end LinuxStudy.UnnamedPipe
