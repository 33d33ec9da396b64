import LinuxStudy.DaemonServer.WriteLog
import LinuxStudy.Posix.Lines
import Mathlib.Data.List.Forall2

/-! The lines that `write_log` appends while signals arrive. A handler rewrites the date of the
call below it and takes the newline off; only a call that has not yet measured its date goes on
to take off one character more.
-/

namespace LinuxStudy.DaemonServer.WriteLog

open Transition Posix

-----------------------------------------------------------------------------------------
-- Dates
-----------------------------------------------------------------------------------------

theorem digit_ne_zero (n : Nat) : digit n ≠ 0 := by
  have all : ∀ k : Fin 10, UInt8.ofNat (48 + k) ≠ 0 := by decide
  exact all ⟨n % 10, Nat.mod_lt n (by decide)⟩

theorem Date.length_text (date : Date) : date.text.length = 24 := by
  have weekday : ∀ day, (dayName day).length = 3 := by decide
  have month : ∀ month, (monthName month).length = 3 := by decide
  simp [Date.text, weekday, month, dayOfMonth, twoDigits]

/-- A date is a string without a NUL. -/
theorem Date.nulFree_text (date : Date) : 0 ∉ date.text := by
  have weekday : ∀ day, 0 ∉ dayName day := by decide
  have month : ∀ month, 0 ∉ monthName month := by decide
  have two (n : Nat) : 0 ∉ twoDigits n := by
    simp [twoDigits, (digit_ne_zero _).symm]
  have day (n : Nat) : 0 ∉ dayOfMonth n := by
    unfold dayOfMonth
    split <;> simp [(digit_ne_zero _).symm]
  simp [Date.text, weekday, month, two, day]

theorem digit_ne_newline (n : Nat) : digit n ≠ newline := by
  have all : ∀ k : Fin 10, UInt8.ofNat (48 + k) ≠ newline := by decide
  exact all ⟨n % 10, Nat.mod_lt n (by decide)⟩

theorem newline_notMem_date (date : Date) : newline ∉ date.text := by
  have weekday : ∀ day, newline ∉ dayName day := by decide
  have month : ∀ month, newline ∉ monthName month := by decide
  have blank : newline ≠ 32 := by decide
  have colon : newline ≠ 58 := by decide
  have two (n : Nat) : newline ∉ twoDigits n := by
    simp [twoDigits, (digit_ne_newline _).symm]
  have day (n : Nat) : newline ∉ dayOfMonth n := by
    unfold dayOfMonth
    split <;> simp [(digit_ne_newline _).symm, blank]
  simp [Date.text, weekday, month, two, day, blank, colon]

/-- The date as it stands in the buffer when its newline is taken off. -/
def Date.cut (date : Date) : Bytes := date.text ++ [0, 0]

theorem Date.cString_cut (date : Date) : cString date.cut = date.text :=
  cString_append_zero date.nulFree_text

theorem Date.length_cut (date : Date) : date.cut.length = 26 := by
  simp [Date.cut, date.length_text]

theorem Date.length_ctime (date : Date) : date.ctime.length = 26 := by
  simp [Date.ctime, date.length_text]

/-- The newline is the last character of what `ctime` stores. -/
theorem Date.lastIndex_ctime (date : Date) : lastIndex date.ctime = 24 := by
  have string : cString date.ctime = date.text ++ [newline] := by
    rw [Date.ctime, cString_append date.nulFree_text]
    rfl
  simp [lastIndex, string, date.length_text]

/-- Storing a NUL there takes the newline off, and changes nothing when it is off. -/
theorem Date.set_ctime (date : Date) : date.ctime.set 24 0 = date.cut := by
  rw [Date.ctime, ← date.length_text, List.set_append_right _ _ (Nat.le_refl _)]
  simp [Date.cut]

theorem Date.set_cut (date : Date) : date.cut.set 24 0 = date.cut := by
  rw [Date.cut, ← date.length_text, List.set_append_right _ _ (Nat.le_refl _)]
  simp

-----------------------------------------------------------------------------------------
-- Lines
-----------------------------------------------------------------------------------------

/-- `"[date] message"` -/
def logText (date : Date) (message : Bytes) : Bytes := 91 :: date.text ++ [93, 32] ++ message

theorem length_logText (date : Date) (message : Bytes)
    : (logText date message).length = message.length + 27 := by
  simp [logText, date.length_text]
  omega

/-- A line is written with its date in front. -/
theorem newline_mem_logText (date : Date) (message : Bytes)
    : newline ∈ logText date message ↔ newline ∈ message := by
  have bracket : newline ≠ 91 ∧ newline ≠ 93 ∧ newline ≠ 32 := by decide
  simp [logText, newline_notMem_date, bracket]

/-- A line for a message, with a complete date. -/
def LineOf (line message : Bytes) : Prop := ∃ date, line = logText date message

/-- What `fclose` appends is such a line with its newline. -/
def Appends (buffered message : Bytes) : Prop :=
  ∃ line, newline ∉ line ∧ LineOf line message ∧ buffered = line ++ [newline]

/-- The file ends with a newline, and its lines are one for each call that has returned, with a
complete date and the message of the call.
-/
structure LogsAll (s : State) : Prop where
  whole : s.file.flatten = (lines s.file.flatten).flatMap (· ++ [newline])
  each : List.Forall₂ LineOf (lines s.file.flatten) s.returned

/-- What is appended for each message is one line of the file. -/
theorem flatten_of_appends {file messages : List Bytes}
    (appends : List.Forall₂ Appends file messages)
    : ∃ parts, (∀ line ∈ parts, newline ∉ line)
        ∧ List.Forall₂ LineOf parts messages
        ∧ file.flatten = parts.flatMap (· ++ [newline]) := by
  induction appends with
  | nil => exact ⟨[], by simp, .nil, rfl⟩
  | cons first _ ih =>
      obtain ⟨line, lineFree, dated, rfl⟩ := first
      obtain ⟨parts, free, each, file⟩ := ih
      refine ⟨line :: parts, ?_, .cons dated each, by simp [file]⟩
      simpa using ⟨lineFree, free⟩

theorem logsAll_of_appends {s : State} (appends : List.Forall₂ Appends s.file s.returned)
    : LogsAll s := by
  obtain ⟨parts, free, each, file⟩ := flatten_of_appends appends
  have read : lines s.file.flatten = parts := by
    rw [file, lines_flatMap free, List.map_id']
  exact ⟨by rw [read, file], by rwa [read]⟩

-----------------------------------------------------------------------------------------
-- The calls on top of each other
-----------------------------------------------------------------------------------------

/-- The most that fits into `log_msg` behind the date. -/
def maxMessage : Nat := 2020

/-- Between entering `ctime` and evaluating `strlen(time_str)`. -/
def Pc.inWindow : Pc → Bool
  | .ctime _ | .strlen => true
  | _ => false

/-- No handler runs between the call of `ctime` and the evaluation of `strlen(time_str)`, the log
file can be opened, and a message is one line that fits into `log_msg`.
-/
def OutsideWindow (s : State) : Action → Prop
  | .signal _ => ∀ call ∈ s.calls.head?, call.pc.inWindow = false
  | .call message => newline ∉ message ∧ message.length ≤ maxMessage
  | .fopenFails => False
  | .time _ | .statement => True

instance (s : State) (action : Action) : Decidable (OutsideWindow s action) := by
  unfold OutsideWindow
  split <;> infer_instance

/-- The call has a date in the buffer of `ctime`. -/
def Pc.dating : Pc → Prop
  | .strlen | .cut _ | .snprintf => True
  | _ => False

/-- The buffer may still have its newline: the innermost of the calls that use it has not taken
it off.
-/
def pending : List Call → Prop
  | [] => False
  | call :: rest =>
      match call.pc with
      | .strlen | .cut _ => True
      | .snprintf => False
      | _ => pending rest

/-- What a call has made of its message so far. -/
def Pc.Fits (message : Bytes) : Pc → Prop
  | .cut last => last = 24
  | .console logMsg | .fopen logMsg | .fprintf logMsg => ∃ date, logMsg = logText date message
  | .fclose buffered => Appends buffered message
  | .time | .ctime _ | .strlen | .snprintf => True

structure Call.Fine (call : Call) : Prop where
  nulFree : 0 ∉ call.message
  oneLine : newline ∉ call.message
  short : call.message.length ≤ maxMessage
  fits : call.pc.Fits call.message

/-- What is in the buffer of `ctime`, which calls use it, and what has been written. -/
structure Logging (s : State) : Prop where
  buffer
    : s.timeStr = List.replicate 26 0 ∧ (∀ call ∈ s.calls, ¬call.pc.dating)
      ∨ (∃ date : Date, s.timeStr = date.cut)
      ∨ (∃ date : Date, s.timeStr = date.ctime) ∧ pending s.calls
  top : ∀ call ∈ s.calls.head?, call.pc = .strlen → ∃ date : Date, s.timeStr = date.ctime
  below : ∀ call ∈ s.calls.tail, call.pc ≠ .strlen
  calls : ∀ call ∈ s.calls, call.Fine
  lines : List.Forall₂ Appends s.file s.returned

/-- A call that does not use the buffer does not matter for its newline. -/
theorem pending_cons {call : Call} {rest : List Call} (passive : ¬call.pc.dating)
    : pending (call :: rest) ↔ pending rest := by
  cases here : call.pc <;> simp [here, Pc.dating] at passive
  all_goals simp [pending, here]

section Step

variable {s next : State}

theorem Logging.length (logging : Logging s) : s.timeStr.length = 26 := by
  rcases logging.buffer with ⟨unused, _⟩ | ⟨date, cut⟩ | ⟨⟨date, whole⟩, _⟩
  · rw [unused, List.length_replicate]
  · rw [cut, date.length_cut]
  · rw [whole, date.length_ctime]

/-- A new call on top leaves the ones below where they are. -/
theorem Logging.push (logging : Logging s) {call : Call} (fine : call.Fine)
    (here : call.pc = .time) (outside : ∀ call ∈ s.calls.head?, call.pc.inWindow = false)
    : Logging { s with calls := call :: s.calls } := by
  obtain ⟨buffer, _, below, calls, lines⟩ := logging
  refine ⟨?_, ?_, ?_, ?_, lines⟩
  · rcases buffer with ⟨unused, idle⟩ | cut | ⟨whole, later⟩
    · refine Or.inl ⟨unused, fun other member => ?_⟩
      rcases List.mem_cons.mp member with rfl | old
      · simp [here, Pc.dating]
      · exact idle other old
    · exact Or.inr (Or.inl cut)
    · exact Or.inr (Or.inr ⟨whole, by simpa [pending, here] using later⟩)
  · intro other top
    obtain rfl : call = other := by simpa using top
    simp [here]
  · intro other member
    cases stack : s.calls with
    | nil => simp [stack] at member
    | cons first rest =>
        rw [stack] at outside below
        rcases List.mem_cons.mp (stack ▸ member : other ∈ first :: rest) with rfl | old
        · intro there
          simpa [there, Pc.inWindow] using outside other rfl
        · exact below other old
  · intro other member
    rcases List.mem_cons.mp member with rfl | old
    · exact fine
    · exact calls other old

/-- The innermost call goes on, perhaps with another date in the buffer. -/
theorem Logging.goto (logging : Logging s) {call : Call} {rest : List Call} {pc : Pc}
    {timeStr : Bytes}
    {console : List Bytes} (stack : s.calls = call :: rest) (fits : pc.Fits call.message)
    (buffer
      : timeStr = List.replicate 26 0 ∧ ¬pc.dating ∧ (∀ other ∈ rest, ¬other.pc.dating)
        ∨ (∃ date : Date, timeStr = date.cut)
        ∨ (∃ date : Date, timeStr = date.ctime) ∧ pending ({ call with pc } :: rest))
    (top : pc = .strlen → ∃ date : Date, timeStr = date.ctime)
    : Logging { s.goto call rest pc with timeStr := timeStr, console := console } := by
  obtain ⟨_, _, below, calls, lines⟩ := logging
  rw [stack] at below calls
  refine ⟨?_, ?_, below, ?_, lines⟩
  · rcases buffer with ⟨unused, here, idle⟩ | cut | whole
    · refine Or.inl ⟨unused, fun other member => ?_⟩
      rcases List.mem_cons.mp member with rfl | old
      · exact here
      · exact idle other old
    · exact Or.inr (Or.inl cut)
    · exact Or.inr (Or.inr whole)
  · intro other first
    obtain rfl : { call with pc } = other := Option.some.inj first
    exact top
  · intro other member
    rcases List.mem_cons.mp member with rfl | old
    · obtain ⟨nulFree, oneLine, short, _⟩ := calls call List.mem_cons_self
      exact ⟨nulFree, oneLine, short, fits⟩
    · exact calls other (List.mem_cons_of_mem _ old)

/-- The innermost call goes on without using the buffer. -/
theorem Logging.pass (logging : Logging s) {call : Call} {rest : List Call} {pc : Pc}
    {console : List Bytes} (stack : s.calls = call :: rest) (before : ¬call.pc.dating)
    (after : ¬pc.dating) (fits : pc.Fits call.message)
    : Logging { s.goto call rest pc with console := console } := by
  have buffer := logging.buffer
  rw [stack] at buffer
  refine logging.goto stack fits ?_ ?_
  · rcases buffer with ⟨unused, idle⟩ | cut | ⟨whole, later⟩
    · exact Or.inl ⟨unused, after, fun other member => idle other (List.mem_cons_of_mem _ member)⟩
    · exact Or.inr (Or.inl cut)
    · exact Or.inr (Or.inr ⟨whole, (pending_cons after).mpr ((pending_cons before).mp later)⟩)
  · intro here
    simp [here, Pc.dating] at after

/-- The innermost call has appended its line and returns. -/
theorem Logging.return (logging : Logging s) {call : Call} {rest : List Call} {line : Bytes}
    (stack : s.calls = call :: rest) (passive : ¬call.pc.dating) (whole : Appends line call.message)
    : Logging { s.return call rest with file := s.file ++ [line] } := by
  obtain ⟨buffer, _, below, calls, lines⟩ := logging
  rw [stack] at buffer below calls
  refine ⟨?_, ?_, ?_, fun other member => calls other (List.mem_cons_of_mem _ member), ?_⟩
  · rcases buffer with ⟨unused, idle⟩ | cut | ⟨full, later⟩
    · exact Or.inl ⟨unused, fun other member => idle other (List.mem_cons_of_mem _ member)⟩
    · exact Or.inr (Or.inl cut)
    · exact Or.inr (Or.inr ⟨full, (pending_cons passive).mp later⟩)
  · exact fun other first here => absurd here (below other (List.mem_of_mem_head? first))
  · exact fun other member => below other (List.mem_of_mem_tail member)
  · exact List.rel_append lines (.cons whole .nil)

/-- Each statement of a call, by where the call is. -/
theorem Logging.statement (logging : Logging s) (taken : WriteLog.statement s = some next)
    : Logging next := by
  cases stack : s.calls with
  | nil => simp [WriteLog.statement, stack] at taken
  | cons call rest =>
      have fine := logging.calls call (by simp [stack])
      have fits := fine.fits
      have buffer := logging.buffer
      rw [stack] at buffer
      cases here : call.pc
      case time => simp [WriteLog.statement, stack, here] at taken
      all_goals
        simp only [WriteLog.statement, stack, here, Option.some.injEq] at taken
        rw [here] at fits
      case ctime now =>
        subst taken
        have filled : overwrite s.timeStr now.ctime = now.ctime := by
          have all : s.timeStr.length ≤ now.ctime.length :=
            Nat.le_of_eq (logging.length.trans now.length_ctime.symm)
          rw [overwrite, List.drop_eq_nil_of_le all, List.append_nil]
        rw [filled]
        exact logging.goto stack trivial (Or.inr (Or.inr ⟨⟨now, rfl⟩, trivial⟩))
          fun _ => ⟨now, rfl⟩
      case strlen =>
        subst taken
        obtain ⟨date, whole⟩ := logging.top call (by simp [stack]) here
        rw [whole, date.lastIndex_ctime]
        refine logging.goto stack rfl (Or.inr (Or.inr ⟨⟨date, whole⟩, trivial⟩)) ?_
        exact fun _ => ⟨date, whole⟩
      case cut last =>
        subst taken
        obtain rfl : last = 24 := fits
        refine logging.goto stack trivial (Or.inr (Or.inl ?_)) (by simp)
        rcases buffer with ⟨_, idle⟩ | ⟨date, cut⟩ | ⟨⟨date, whole⟩, _⟩
        · exact absurd (by simp [here, Pc.dating]) (idle call List.mem_cons_self)
        · exact ⟨date, by rw [cut, date.set_cut]⟩
        · exact ⟨date, by rw [whole, date.set_ctime]⟩
      case snprintf =>
        -- the newline is off: no call below this one has got further
        obtain ⟨date, cut⟩ : ∃ date : Date, s.timeStr = date.cut := by
          rcases buffer with ⟨_, idle⟩ | cut | ⟨_, later⟩
          · exact absurd (by simp [here, Pc.dating]) (idle call List.mem_cons_self)
          · exact cut
          · simp [pending, here] at later
        have text
            : (91 :: cString s.timeStr ++ [93, 32] ++ cString call.message).take (bufSize - 1)
              = logText date call.message := by
          have short : call.message.length ≤ 2020 := fine.short
          rw [cut, date.cString_cut, cString_of_nulFree fine.nulFree, List.take_of_length_le]
          · rfl
          · simp [date.length_text, bufSize]
            omega
        rw [text] at taken
        subst taken
        refine logging.goto stack ?_ (Or.inr (Or.inl ⟨date, cut⟩)) ?_
        · split <;> exact ⟨date, rfl⟩
        · split <;> simp
      case console logMsg | fopen logMsg =>
        subst taken
        exact logging.pass stack (by simp [here, Pc.dating]) (by simp [Pc.dating]) fits
      case fprintf logMsg =>
        obtain ⟨date, rfl⟩ := fits
        subst taken
        have nulFree : 0 ∉ logText date call.message := by
          simp [logText, date.nulFree_text, fine.nulFree]
        have oneLine := mt (newline_mem_logText date call.message).mp fine.oneLine
        rw [cString_of_nulFree nulFree]
        exact logging.pass stack (by simp [here, Pc.dating]) (by simp [Pc.dating])
          ⟨_, oneLine, ⟨date, rfl⟩, rfl⟩
      case fclose buffered =>
        subst taken
        exact logging.return stack (by simp [here, Pc.dating]) fits

/-- What happens outside the window keeps the books. -/
theorem Logging.step {action : Action} (logging : Logging s) (outside : OutsideWindow s action)
    (taken : WriteLog.step s action = some next)
    : Logging next := by
  cases action with
  | call message =>
      obtain ⟨⟨idle, nulFree⟩, same⟩ := Option.ite_none_right_eq_some.mp taken
      obtain rfl := Option.some.inj same
      rw [← idle]
      exact logging.push ⟨nulFree, outside.1, outside.2, trivial⟩ rfl (by simp [idle])
  | signal signum =>
      obtain ⟨_, same⟩ := Option.ite_none_right_eq_some.mp taken
      obtain rfl := Option.some.inj same
      refine logging.push ⟨?_, ?_, ?_, trivial⟩ rfl outside
      all_goals cases signum <;> decide
  | time now =>
      simp only [WriteLog.step, WriteLog.time] at taken
      split at taken
      next call rest stack =>
        obtain ⟨here, same⟩ := Option.ite_none_right_eq_some.mp taken
        obtain rfl := Option.some.inj same
        exact logging.pass stack (by simp [here, Pc.dating]) (by simp [Pc.dating]) trivial
      next => contradiction
  | statement => exact logging.statement taken
  | fopenFails => exact outside.elim

end Step

theorem logging_of_reachable {daemonMode : Bool} {s : State}
    (reached : (system daemonMode).ReachableBy OutsideWindow s)
    : Logging s := by
  apply reached.invariant
  · intro _ same
    subst same
    refine ⟨Or.inl ⟨rfl, ?_⟩, ?_, ?_, ?_, .nil⟩
    all_goals simp [start]
  · exact fun s action next _ logging outside taken => logging.step outside taken

-----------------------------------------------------------------------------------------
-- The log file
-----------------------------------------------------------------------------------------

/-- Signals outside the window from `ctime` to `strlen` do no harm, however many there are and
however they interrupt each other.
-/
theorem logLines {daemonMode : Bool} {s : State}
    (reached : (system daemonMode).ReachableBy OutsideWindow s)
    : LogsAll s :=
  logsAll_of_appends (logging_of_reachable reached).lines

/-- Monday, January 1, 2024, ten o'clock and this many seconds. -/
def tenOClock (second : Fin 61) : Date := ⟨1, 0, 1, 10, 0, second, 2024⟩

/-- The statements of a daemon's `write_log` behind `time(NULL)`. -/
def behindTime : List Action := List.replicate 7 .statement

/-- `SIGHUP` arrives when the newline of the date has been taken off, and is logged first. -/
def afterCut : List Action :=
  [.call [104, 105], .time (tenOClock 1), .statement, .statement, .statement, .signal .hup,
    .time (tenOClock 2)]
  ++ behindTime
  ++ List.replicate 4 .statement

/-- The line of `main` bears the date of the handler. -/
theorem logLines_afterCut
    : ∃ s : State, s.returned = [signalMessage .hup, [104, 105]]
        ∧ s.file.getLast? = some (logText (tenOClock 2) [104, 105] ++ [newline])
        ∧ LogsAll s := by
  have run : (((system true).restrict OutsideWindow).exec (start true) afterCut).isSome := by
    decide
  have reached : ((system true).restrict OutsideWindow).Reachable _ :=
    System.reachable_of_run (start true) rfl afterCut run
  exact ⟨_, rfl, rfl, logLines (System.reachable_restrict_iff.mp reached)⟩

/-- `SIGTERM` arrives between `ctime` and `strlen`. -/
def inWindow : List Action :=
  [.call [104, 105], .time (tenOClock 1), .statement, .signal .term, .time (tenOClock 2)]
  ++ behindTime
  ++ List.replicate 6 .statement

/-- The handler has taken the newline off already, and the call below it takes the last digit of
the year.
-/
theorem logLines_inWindow
    : ¬∀ (daemonMode : Bool) (s : State), (system daemonMode).Reachable s → LogsAll s := by
  intro always
  have run : ((system true).exec (start true) inWindow).isSome := by decide
  have reached : (system true).Reachable _ :=
    System.reachable_of_run (start true) rfl inWindow run
  obtain ⟨s, reached, file, returned⟩
      : ∃ s, (system true).Reachable s ∧ s.file.flatten.length = 93
          ∧ s.returned = [signalMessage .term, [104, 105]] :=
    ⟨_, reached, rfl, rfl⟩
  obtain ⟨whole, each⟩ := always true s reached
  rw [returned] at each
  rw [whole] at file
  -- two complete lines for these messages have 94 bytes
  obtain ⟨first, others, ⟨date, rfl⟩, each, read⟩ := List.forall₂_cons_right_iff.mp each
  obtain ⟨last, none, ⟨later, rfl⟩, nothing, rfl⟩ := List.forall₂_cons_right_iff.mp each
  obtain rfl := List.forall₂_nil_right_iff.mp nothing
  simp [read, length_logText, signalMessage] at file

end LinuxStudy.DaemonServer.WriteLog
