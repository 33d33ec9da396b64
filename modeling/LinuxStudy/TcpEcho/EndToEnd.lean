import LinuxStudy.TcpEcho.Model
import Mathlib.Data.List.Infix

/-! From the standard input of the client to its output: each of the three loops cuts the
stream anew, and none of them loses, adds or reorders a byte.
-/

namespace LinuxStudy.TcpEcho

open Transition Posix

/-- One step, with the call that makes it and the result the kernel gives. -/
inductive Move (s : State) : Action → State → Prop
  | inputEnds (here : s.sendPc = .fgets) (done : s.stdin = [])
    : Move s .fgets { s with sendPc := .shutdown }
  | fgets (here : s.sendPc = .fgets)
    : Move s .fgets
        { s with
          stdin := s.stdin.drop (fgetsLine bufSize s.stdin).length
          sendBuf := overwrite s.sendBuf (fgetsLine bufSize s.stdin ++ [0])
          sendPc := .measure }
  | measure (here : s.sendPc = .measure)
    : Move s .measure
        { s with sendPc := if (cString s.sendBuf).length = 0 then .fgets else .send }
  | clientSend (here : s.sendPc = .send)
    : Move s .clientSend
        { s with
          uplink := s.uplink ++ cString s.sendBuf
          sent := s.sent ++ cString s.sendBuf
          sendPc := .fgets }
  | clientSendFails (here : s.sendPc = .send)
    : Move s .clientSendFails { s with sendPc := .shutdown, clientFailed := true }
  | shutdownWrite (here : s.sendPc = .shutdown)
    : Move s .shutdownWrite { s with uplinkEnded := true, sendPc := .finished }
  | serverRecv {n} (here : s.serverPc = .recv) (available : n ≤ s.uplink.length)
    : Move s (.serverRecv n)
        { s with
          buffer := overwrite (List.replicate bufSize 0) (s.uplink.take n)
          uplink := s.uplink.drop n
          serverRead := s.serverRead ++ s.uplink.take n
          serverPc := .print n }
  | serverPrint {n} (here : s.serverPc = .print n)
    : Move s .serverPrint
        { s with logged := s.logged ++ [cString s.buffer], serverPc := .send n }
  | serverSend {n} (here : s.serverPc = .send n)
    : Move s .serverSend
        { s with
          downlink := s.downlink ++ s.buffer.take n
          echoed := s.echoed ++ s.buffer.take n
          serverPc := .recv }
  | serverSendFails {n} (here : s.serverPc = .send n)
    : Move s .serverSendFails { s with serverPc := .close, serverFailed := true }
  | serverRecvEnd (here : s.serverPc = .recv) (drained : s.uplink = [])
    (ended : s.uplinkEnded = true)
    : Move s .serverRecvEnd { s with serverPc := .close }
  | serverRecvFails (here : s.serverPc = .recv)
    : Move s .serverRecvFails { s with serverPc := .close, serverFailed := true }
  | serverClose (here : s.serverPc = .close)
    : Move s .serverClose { s with downlinkEnded := true, serverPc := .closed }
  | clientRecv {n} (here : s.recvPc = .recv) (available : n ≤ s.downlink.length)
    (fits : n ≤ bufSize - 1)
    : Move s (.clientRecv n)
        { s with
          recvBuf := overwrite (List.replicate bufSize 0) (s.downlink.take n)
          downlink := s.downlink.drop n
          clientRead := s.clientRead ++ s.downlink.take n
          recvPc := .print }
  | clientPrint (here : s.recvPc = .print)
    : Move s .clientPrint
        { s with printed := s.printed ++ cString s.recvBuf, recvPc := .recv }
  | clientRecvEnd (here : s.recvPc = .recv) (drained : s.downlink = [])
    (ended : s.downlinkEnded = true)
    : Move s .clientRecvEnd { s with recvPc := .shutdown }
  | clientRecvFails (here : s.recvPc = .recv)
    : Move s .clientRecvFails { s with recvPc := .shutdown, clientFailed := true }
  | shutdownRead (here : s.recvPc = .shutdown)
    : Move s .shutdownRead { s with recvPc := .finished }

/-- Every successor of the executable step is one of the shapes. -/
theorem Move.of_step {s next : State} {action : Action} (taken : step s action = some next)
    : Move s action next := by
  cases action with
  | fgets =>
      obtain ⟨here, taken⟩ := Option.ite_none_right_eq_some.mp taken
      split at taken
      next none =>
        have done : s.stdin = [] := by
          by_contra more
          exact fgetsLine_ne_nil (by decide) more none
        exact Option.some.inj taken ▸ .inputEnds here done
      next => exact Option.some.inj taken ▸ .fgets here
  | measure =>
      obtain ⟨here, same⟩ := Option.ite_none_right_eq_some.mp taken
      exact Option.some.inj same ▸ .measure here
  | clientSend =>
      obtain ⟨here, same⟩ := Option.ite_none_right_eq_some.mp taken
      rw [take_length_cString] at same
      exact Option.some.inj same ▸ .clientSend here
  | clientSendFails =>
      obtain ⟨here, same⟩ := Option.ite_none_right_eq_some.mp taken
      exact Option.some.inj same ▸ .clientSendFails here
  | shutdownWrite =>
      obtain ⟨here, same⟩ := Option.ite_none_right_eq_some.mp taken
      exact Option.some.inj same ▸ .shutdownWrite here
  | serverRecv n =>
      obtain ⟨⟨here, _, available, _⟩, same⟩ := Option.ite_none_right_eq_some.mp taken
      exact Option.some.inj same ▸ .serverRecv here available
  | serverPrint =>
      simp only [step, TcpEcho.serverPrint] at taken
      split at taken
      next n here => exact Option.some.inj taken ▸ .serverPrint here
      next => contradiction
  | serverSend =>
      simp only [step, TcpEcho.serverSend] at taken
      split at taken
      next n here => exact Option.some.inj taken ▸ .serverSend here
      next => contradiction
  | serverSendFails =>
      simp only [step, TcpEcho.serverSendFails] at taken
      split at taken
      next n here => exact Option.some.inj taken ▸ .serverSendFails here
      next => contradiction
  | serverRecvEnd =>
      obtain ⟨⟨here, drained, ended⟩, same⟩ := Option.ite_none_right_eq_some.mp taken
      exact Option.some.inj same ▸ .serverRecvEnd here drained ended
  | serverRecvFails =>
      obtain ⟨here, same⟩ := Option.ite_none_right_eq_some.mp taken
      exact Option.some.inj same ▸ .serverRecvFails here
  | serverClose =>
      obtain ⟨here, same⟩ := Option.ite_none_right_eq_some.mp taken
      exact Option.some.inj same ▸ .serverClose here
  | clientRecv n =>
      obtain ⟨⟨here, _, available, fits⟩, same⟩ := Option.ite_none_right_eq_some.mp taken
      exact Option.some.inj same ▸ .clientRecv here available fits
  | clientPrint =>
      obtain ⟨here, same⟩ := Option.ite_none_right_eq_some.mp taken
      exact Option.some.inj same ▸ .clientPrint here
  | clientRecvEnd =>
      obtain ⟨⟨here, drained, ended⟩, same⟩ := Option.ite_none_right_eq_some.mp taken
      exact Option.some.inj same ▸ .clientRecvEnd here drained ended
  | clientRecvFails =>
      obtain ⟨here, same⟩ := Option.ite_none_right_eq_some.mp taken
      exact Option.some.inj same ▸ .clientRecvFails here
  | shutdownRead =>
      obtain ⟨here, same⟩ := Option.ite_none_right_eq_some.mp taken
      exact Option.some.inj same ▸ .shutdownRead here

-----------------------------------------------------------------------------------------
-- The bytes between two loops
-----------------------------------------------------------------------------------------

/-- The line that `send_thread` has read but not sent. -/
def State.toSend (s : State) : Bytes :=
  match s.sendPc with
  | .measure | .send => cString s.sendBuf
  | _ => []

/-- The chunk that the server has read but not echoed. -/
def State.held (s : State) : Bytes :=
  match s.serverPc with
  | .print n | .send n => s.buffer.take n
  | _ => []

/-- The chunk that `recv_thread` has read but not printed. -/
def State.toPrint (s : State) : Bytes :=
  match s.recvPc with
  | .print => cString s.recvBuf
  | _ => []

/-- Every byte is in exactly one place on its way, unless a failed call has dropped what the
loop before it held.
-/
structure Piped (input : Bytes) (s : State) : Prop where
  typed : s.sent ++ s.toSend ++ s.stdin = input ∨ s.clientFailed = true ∧ s.sent <+: input
    ∧ (s.sendPc = .shutdown ∨ s.sendPc = .finished)
  up : s.serverRead ++ s.uplink = s.sent
  held : s.echoed ++ s.held = s.serverRead ∨ s.serverFailed = true
    ∧ s.echoed <+: s.serverRead ∧ (s.serverPc = .close ∨ s.serverPc = .closed)
  down : s.clientRead ++ s.downlink = s.echoed
  shown : s.printed ++ s.toPrint = s.clientRead

/-- The places of the bytes in the order of the pipe. -/
theorem Piped.chain {input : Bytes} {s : State} (piped : Piped input s)
    : s.printed <+: s.clientRead ∧ s.clientRead <+: s.echoed ∧ s.echoed <+: s.serverRead
      ∧ s.serverRead <+: s.sent ∧ s.sent <+: input := by
  refine ⟨⟨_, piped.shown⟩, ⟨_, piped.down⟩, ?_, ⟨_, piped.up⟩, ?_⟩
  · rcases piped.held with all | ⟨_, part, _⟩
    · exact ⟨_, all⟩
    · exact part
  · rcases piped.typed with all | ⟨_, part, _⟩
    · exact ⟨s.toSend ++ s.stdin, by rw [← List.append_assoc, all]⟩
    · exact part

/-- Without NUL bytes in the input there are none in flight. -/
theorem Piped.downlink_nulFree {input : Bytes} {s : State} (piped : Piped input s)
    (nulFree : 0 ∉ input) (n : Nat)
    : 0 ∉ s.downlink.take n := by
  obtain ⟨_, _, echoed, serverRead, sent⟩ := piped.chain
  intro member
  have inside : 0 ∈ s.echoed := by
    rw [← piped.down]
    exact List.mem_append_right _ (List.mem_of_mem_take member)
  exact nulFree (((echoed.trans serverRead).trans sent).subset inside)

/-- As long as the sending loop runs, nothing of the input is lost. -/
theorem Piped.running {input : Bytes} {s : State} (piped : Piped input s)
    (here : s.sendPc ≠ .shutdown ∧ s.sendPc ≠ .finished)
    : s.sent ++ s.toSend ++ s.stdin = input := by
  rcases piped.typed with all | ⟨_, _, stopped⟩
  · exact all
  · exact absurd stopped (by simp [here.1, here.2])

/-- As long as the server's loop runs, nothing it has read is lost. -/
theorem Piped.serving {input : Bytes} {s : State} (piped : Piped input s)
    (here : s.serverPc ≠ .close ∧ s.serverPc ≠ .closed)
    : s.echoed ++ s.held = s.serverRead := by
  rcases piped.held with all | ⟨_, _, stopped⟩
  · exact all
  · exact absurd stopped (by simp [here.1, here.2])

/-- `fgets` moves a line from the input to the buffer. -/
theorem fgets_line {stdin rest : Bytes} (nulFree : 0 ∉ stdin)
    : cString (overwrite rest (fgetsLine bufSize stdin ++ [0]))
          ++ stdin.drop (fgetsLine bufSize stdin).length
      = stdin := by
  have line := fgetsLine_prefix bufSize stdin
  have string : cString (overwrite rest (fgetsLine bufSize stdin ++ [0]))
      = fgetsLine bufSize stdin := by
    rw [overwrite, List.append_assoc]
    exact cString_append_zero fun member => nulFree (line.subset member)
  rw [string]
  conv_lhs => rw [List.prefix_iff_eq_take.mp line, List.length_take_of_le line.length_le]
  exact List.take_append_drop _ _

/-- Every step of the three loops passes bytes on in order. -/
theorem Piped.move {input : Bytes} {s next : State} {action : Action} (piped : Piped input s)
    (nulFree : 0 ∉ input) (taken : Move s action next)
    : Piped input next := by
  cases taken with
  | inputEnds here done =>
      have all := piped.running (by simp [here])
      refine ⟨Or.inl ?_, piped.up, piped.held, piped.down, piped.shown⟩
      simpa [State.toSend, here] using all
  | fgets here =>
      have all := piped.running (by simp [here])
      refine ⟨Or.inl ?_, piped.up, piped.held, piped.down, piped.shown⟩
      have stdin : s.sent ++ s.stdin = input := by simpa [State.toSend, here] using all
      have free : 0 ∉ s.stdin := fun member => nulFree (stdin ▸ List.mem_append_right _ member)
      rw [← stdin, List.append_assoc]
      exact congrArg (s.sent ++ ·) (fgets_line free)
  | measure here =>
      have all := piped.running (by simp [here])
      refine ⟨Or.inl ?_, piped.up, piped.held, piped.down, piped.shown⟩
      simp only [State.toSend, here] at all
      by_cases empty : (cString s.sendBuf).length = 0
      · have none := List.length_eq_zero_iff.mp empty
        simpa [State.toSend, none] using all
      · simpa [State.toSend, empty] using all
  | clientSend here =>
      have all := piped.running (by simp [here])
      refine ⟨Or.inl ?_, ?_, piped.held, piped.down, piped.shown⟩
      · simpa [State.toSend, here] using all
      · simp only [← List.append_assoc, piped.up]
  | clientSendFails here =>
      have all := piped.running (by simp [here])
      refine ⟨Or.inr ⟨rfl, ?_, Or.inl rfl⟩, piped.up, piped.held, piped.down, piped.shown⟩
      exact ⟨s.toSend ++ s.stdin, by rw [← List.append_assoc, all]⟩
  | shutdownWrite here =>
      refine ⟨?_, piped.up, piped.held, piped.down, piped.shown⟩
      rcases piped.typed with all | ⟨failed, part, _⟩
      · exact Or.inl (by simpa [State.toSend, here] using all)
      · exact Or.inr ⟨failed, part, Or.inr rfl⟩
  | @serverRecv n here available =>
      have all := piped.serving (by simp [here])
      refine ⟨piped.typed, ?_, Or.inl ?_, piped.down, piped.shown⟩
      · simp only [List.append_assoc, List.take_append_drop, piped.up]
      · have read : s.echoed = s.serverRead := by simpa [State.held, here] using all
        have length : (s.uplink.take n).length = n := by simp [available]
        have stored : (overwrite (List.replicate bufSize 0) (s.uplink.take n)).take n
            = s.uplink.take n := by
          simpa only [length] using
            take_overwrite (List.replicate bufSize 0) (s.uplink.take n)
        simp only [State.held, stored, read]
  | serverPrint here =>
      have all := piped.serving (by simp [here])
      refine ⟨piped.typed, piped.up, Or.inl ?_, piped.down, piped.shown⟩
      simpa [State.held, here] using all
  | serverSend here =>
      have all := piped.serving (by simp [here])
      refine ⟨piped.typed, piped.up, Or.inl ?_, ?_, piped.shown⟩
      · simpa [State.held, here] using all
      · simp only [← List.append_assoc, piped.down]
  | serverSendFails here =>
      have all := piped.serving (by simp [here])
      exact ⟨piped.typed, piped.up, Or.inr ⟨rfl, ⟨_, all⟩, Or.inl rfl⟩, piped.down, piped.shown⟩
  | serverRecvEnd here _ _ | serverRecvFails here =>
      have all := piped.serving (by simp [here])
      refine ⟨piped.typed, piped.up, Or.inl ?_, piped.down, piped.shown⟩
      simpa [State.held, here] using all
  | serverClose here =>
      refine ⟨piped.typed, piped.up, ?_, piped.down, piped.shown⟩
      rcases piped.held with all | ⟨failed, part, _⟩
      · exact Or.inl (by simpa [State.held, here] using all)
      · exact Or.inr ⟨failed, part, Or.inr rfl⟩
  | @clientRecv n here available fits =>
      refine ⟨piped.typed, piped.up, piped.held, ?_, ?_⟩
      · simp only [List.append_assoc, List.take_append_drop, piped.down]
      · have printed : s.printed = s.clientRead := by
          simpa [State.toPrint, here] using piped.shown
        have short : (s.downlink.take n).length < bufSize := by
          have small : n < bufSize := Nat.lt_of_le_of_lt fits (by decide)
          simpa [available] using small
        have string := cString_overwrite_zeros (piped.downlink_nulFree nulFree n) short
        simp only [State.toPrint, string, printed]
  | clientPrint here =>
      refine ⟨piped.typed, piped.up, piped.held, piped.down, ?_⟩
      simpa [State.toPrint, here] using piped.shown
  | clientRecvEnd here _ _ | shutdownRead here =>
      refine ⟨piped.typed, piped.up, piped.held, piped.down, ?_⟩
      simpa [State.toPrint, here] using piped.shown
  | clientRecvFails here =>
      refine ⟨?_, piped.up, piped.held, piped.down, ?_⟩
      · exact piped.typed.imp_right fun ⟨_, lost⟩ => ⟨rfl, lost⟩
      · simpa [State.toPrint, here] using piped.shown

-----------------------------------------------------------------------------------------
-- How the loops end
-----------------------------------------------------------------------------------------

/-- A loop that has ended without a failed call has found the end of what it reads. -/
structure Ending (s : State) : Prop where
  input : s.sendPc = .shutdown ∨ s.sendPc = .finished → s.clientFailed = true ∨ s.stdin = []
  uplink : s.uplinkEnded = true → s.sendPc = .finished
  server
    : s.serverPc = .close ∨ s.serverPc = .closed
      → s.serverFailed = true ∨ s.uplink = [] ∧ s.uplinkEnded = true
  downlink : s.downlinkEnded = true → s.serverPc = .closed
  client
    : s.recvPc = .shutdown ∨ s.recvPc = .finished
      → s.clientFailed = true ∨ s.downlink = [] ∧ s.downlinkEnded = true

theorem Ending.move {s next : State} {action : Action} (ending : Ending s)
    (taken : Move s action next)
    : Ending next := by
  obtain ⟨input, uplink, server, downlink, client⟩ := ending
  cases taken
  case measure here =>
    refine ⟨?_, fun ended => ?_, server, downlink, client⟩
    · split <;> simp
    · simp [uplink ended] at here
  case clientSend here =>
    have open_ : s.uplinkEnded ≠ true := fun ended => by simp [uplink ended] at here
    exact ⟨by simp, fun ended => absurd ended open_,
      fun closed => (server closed).imp_right fun ended => absurd ended.2 open_, downlink, client⟩
  case serverSend here =>
    have open_ : s.downlinkEnded ≠ true := fun ended => by simp [downlink ended] at here
    exact ⟨input, uplink, by simp, fun ended => absurd ended open_,
      fun closed => (client closed).imp_right fun ended => absurd ended.2 open_⟩
  all_goals
    constructor <;> simp_all

/-- The pipe and the ends of its loops in every reachable state. -/
theorem piped_of_reachable {input : Bytes} (nulFree : 0 ∉ input) {s : State}
    (reached : (system input).Reachable s)
    : Piped input s ∧ Ending s := by
  apply reached.invariant
  · intro s same
    subst same
    exact ⟨⟨Or.inl rfl, rfl, Or.inl rfl, rfl, rfl⟩, by constructor <;> simp [start]⟩
  · intro s action next ⟨piped, ending⟩ taken
    exact ⟨piped.move nulFree (.of_step taken), ending.move (.of_step taken)⟩

-----------------------------------------------------------------------------------------
-- End to end
-----------------------------------------------------------------------------------------

/-- What the client prints is a prefix of its standard input at all times. When both threads
have ended without a failed `send` or `recv`, they have sent the whole input and printed the
whole echo, and what is printed is the whole input, provided that no `send` or `recv` of the
server has failed either.
-/
theorem echoEndToEnd {input : Bytes} (nulFree : 0 ∉ input) {s : State}
    (reached : (system input).Reachable s)
    : s.printed <+: input
      ∧ (s.sendPc = .finished
          → s.recvPc = .finished
          → s.clientFailed = false
          → s.sent = input
            ∧ s.printed = s.echoed
            ∧ (s.serverFailed = false → s.printed = input)) := by
  obtain ⟨piped, ending⟩ := piped_of_reachable nulFree reached
  obtain ⟨printed, clientRead, echoed, serverRead, sent⟩ := piped.chain
  refine ⟨(((printed.trans clientRead).trans echoed).trans serverRead).trans sent, ?_⟩
  intro sendDone recvDone whole
  have none : s.clientFailed ≠ true := by simp [whole]
  have stdin := (ending.input (Or.inr sendDone)).resolve_left none
  have typed : s.sent = input := by
    simpa [State.toSend, sendDone, stdin] using piped.typed.resolve_right fun lost => none lost.1
  -- The loops have ended one after the other, from the sending thread to the receiving one.
  obtain ⟨downlink, downlinkEnded⟩ := (ending.client (Or.inr recvDone)).resolve_left none
  have shown : s.printed = s.clientRead := by simpa [State.toPrint, recvDone] using piped.shown
  have down : s.clientRead = s.echoed := by simpa [downlink] using piped.down
  refine ⟨typed, shown.trans down, fun serverWhole => ?_⟩
  have served : s.serverFailed ≠ true := by simp [serverWhole]
  have closed := ending.downlink downlinkEnded
  obtain ⟨uplink, _⟩ := (ending.server (Or.inr closed)).resolve_left served
  have held : s.echoed = s.serverRead := by
    simpa [State.held, closed] using piped.held.resolve_right fun lost => served lost.1
  have up : s.serverRead = s.sent := by simpa [uplink] using piped.up
  rw [shown, down, held, up, typed]

/-- Two lines are typed; the server reads both in one piece, and the client reads the echo in
two pieces that end elsewhere.
-/
def twoLines : List Action :=
  [.fgets, .measure, .clientSend, .fgets, .measure, .clientSend, .serverRecv 4, .fgets,
    .shutdownWrite, .serverPrint, .serverSend, .clientRecv 3, .clientPrint, .serverRecvEnd,
    .serverClose, .clientRecv 1, .clientPrint, .clientRecvEnd, .shutdownRead]

/-- The client prints "a\nb\n" again. -/
theorem echoEndToEnd_twoLines
    : ∃ s, (system [97, 10, 98, 10]).Reachable s ∧ s.recvPc = .finished
        ∧ s.printed = [97, 10, 98, 10] := by
  have run : ((system [97, 10, 98, 10]).exec (start [97, 10, 98, 10]) twoLines).isSome := by
    decide
  have reached := System.reachable_of_run (start [97, 10, 98, 10]) rfl twoLines run
  exact ⟨_, reached, rfl, ((echoEndToEnd (by decide) reached).2 rfl rfl rfl).2.2 rfl⟩

/-- A line is typed and read by the server, whose `send` fails; the client finds the end of
the stream without an error of its own.
-/
def unansweredLine : List Action :=
  [.fgets, .measure, .clientSend, .serverRecv 2, .fgets, .shutdownWrite, .serverPrint,
    .serverSendFails, .serverClose, .clientRecvEnd, .shutdownRead]

/-- A client without errors need not have printed its input: the server may have failed. -/
theorem echo_cutByServer
    : ¬ ∀ input s, 0 ∉ input → (system input).Reachable s → s.sendPc = .finished
        → s.recvPc = .finished → s.clientFailed = false → s.printed = input := by
  intro whole
  have run : ((system [97, 10]).exec (start [97, 10]) unansweredLine).isSome := by decide
  have reached := System.reachable_of_run (start [97, 10]) rfl unansweredLine run
  have printed : ([] : Bytes) = [97, 10] := whole [97, 10] _ (by decide) reached rfl rfl rfl
  exact absurd printed (by decide)

end LinuxStudy.TcpEcho
