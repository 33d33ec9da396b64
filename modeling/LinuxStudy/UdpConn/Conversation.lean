import LinuxStudy.Posix.Lines
import LinuxStudy.Transition.Progress
import LinuxStudy.UdpConn.Client
import LinuxStudy.UdpConn.OneReplyEach
import Mathlib.Data.List.Infix

/-! What becomes of the lines typed into `udp_conn_client.c`. Client and server take turns: as
long as every `read` returns one line, no line is empty and none is the end mark, each line is
sent once and answered before the next one is read.
-/

namespace LinuxStudy.UdpConn

open Transition Posix

/-- The lines before the first line `EOF`. -/
def wanted (input : Bytes) : List Bytes := (lines input).takeWhile fun line => line ≠ eof

/-- Each `read` returns exactly the next line, with its newline unless the input ends without
one; the line leaves room for the terminator, is not empty and is not the end mark.
-/
def LineAtATime (s : State) : Action → Prop
  | .read n =>
      n = min ((firstLine s.stdin).length + 1) s.stdin.length
      ∧ (firstLine s.stdin).length < bufSize
      ∧ firstLine s.stdin ≠ []
      ∧ firstLine s.stdin ≠ eof
  | _ => True

instance (s : State) (action : Action) : Decidable (LineAtATime s action) := by
  unfold LineAtATime
  split <;> infer_instance

/-- A line that client and server handle as one of many. -/
structure PlainLine (line : Bytes) : Prop where
  nonempty : line ≠ []
  room : line.length < bufSize
  nulFree : 0 ∉ line
  noMark : line ≠ eof

/-- The datagram that carries a line. -/
def request (line : Bytes) (fits : line.length ≤ maxPayload) : Request Unit :=
  ⟨⟨(), line, fits⟩, false⟩

theorem PlainLine.plain {line : Bytes} (plain : PlainLine line)
    (fits : line.length ≤ maxPayload)
    : (request line fits).Plain where
  nonempty := plain.nonempty
  room := plain.room
  noMark := by
    change cString line ≠ eof
    rw [cString_of_nulFree plain.nulFree]
    exact plain.noMark
  granted := rfl

-----------------------------------------------------------------------------------------
-- Whose turn it is
-----------------------------------------------------------------------------------------

/-- Which line the client has in hand, and how many datagrams beyond the replies it has got it
has sent, the server has received and the server has answered.
-/
structure Books (input : Bytes) (s : State) (inHand : List Bytes)
    (sent received answered : Nat) : Prop where
  todo : lines input = s.sent ++ inHand ++ lines s.stdin
  plain : ∀ line ∈ s.sent, PlainLine line
  nulFree : 0 ∉ s.stdin
  sent : s.sent.length = s.replies.length + sent
  received : s.server.received = s.replies.length + received
  answered : s.server.sent = List.replicate (s.replies.length + answered) ((), ok)
  replies : s.replies = List.replicate s.replies.length ok
  size : s.buffer.length = bufSize
  inside : s.outside = false
  noEof : s.sawEof = false

/-- The rounds of the conversation. -/
inductive Phase (input : Bytes) (s : State) : Prop
  | reading (here : s.client = .read) (idle : s.server.pc = .recvfrom)
    (books : Books input s [] 0 0 0)
  | finished (here : s.client = .left) (empty : s.stdin = []) (idle : s.server.pc = .recvfrom)
    (books : Books input s [] 0 0 0)
  | typed {line buflen} (here : s.client = .strip buflen) (idle : s.server.pc = .recvfrom)
    (plain : PlainLine line) (free : newline ∉ line)
    (holds : s.buffer.take buflen = line ++ [newline] ∨ s.buffer.take buflen = line)
    (length : buflen = (s.buffer.take buflen).length) (books : Books input s [line] 0 0 0)
  | stripped {line} (here : s.client = .sendto line.length) (idle : s.server.pc = .recvfrom)
    (plain : PlainLine line) (holds : s.buffer.take line.length = line)
    (books : Books input s [line] 0 0 0)
  | underWay (here : s.client = .recvfrom) (idle : s.server.pc = .recvfrom)
    (books : Books input s [] 1 0 0)
  | tested {before : Server Unit} {line fits} (here : s.client = .recvfrom)
    (took : s.server = before.receive (request line fits).toDatagram) (plain : PlainLine line)
    (books : Books input s [] 1 1 0)
  | answered (here : s.client = .recvfrom) (idle : s.server.pc = .recvfrom)
    (books : Books input s [] 1 1 1)

section Step

variable {input : Bytes} {s next : State}

/-- `read` takes the next line into the hand. -/
theorem Phase.read {n : Nat} (phase : Phase input s) (allowed : LineAtATime s (.read n))
    (taken : UdpConn.read s n = some next)
    : Phase input next := by
  obtain ⟨⟨here, positive, part, fits⟩, same⟩ := Option.ite_none_right_eq_some.mp taken
  obtain rfl := Option.some.inj same
  obtain ⟨whole, room, nonempty, noMark⟩ := allowed
  cases phase with
  | reading _ idle books =>
      have nulFree : 0 ∉ firstLine s.stdin :=
        fun member => books.nulFree ((List.takeWhile_prefix _).subset member)
      have free := newline_notMem_firstLine s.stdin
      have stored : (overwrite s.buffer (s.stdin.take n)).take n = s.stdin.take n := by
        have length : (s.stdin.take n).length = n := by simp [part]
        simpa only [length] using take_overwrite s.buffer (s.stdin.take n)
      have size : (overwrite s.buffer (s.stdin.take n)).length = bufSize := by
        rw [length_overwrite, books.size]
        rw [books.size, List.length_take]
        omega
      have rest : 0 ∉ s.stdin.drop n := fun member => books.nulFree (List.mem_of_mem_drop member)
      obtain ⟨piece, others⟩ := lines_eq_cons nonempty whole
      refine .typed rfl idle ⟨nonempty, room, nulFree, noMark⟩ free ?_
        (by simp [stored, part]) ⟨?_, books.plain, rest, books.sent, books.received,
          books.answered, books.replies, size, books.inside, books.noEof⟩
      · simpa only [stored] using piece
      · have todo := books.todo
        rw [others] at todo
        simpa using todo
  | finished there _ _ _ | typed there _ _ _ _ _ _ | stripped there _ _ _ _ | underWay there _ _
  | tested there _ _ _ | answered there _ _ =>
      exact absurd (here.symm.trans there) (by simp)

/-- At the end of the input everything is sent and answered. -/
theorem Phase.readEnd (phase : Phase input s) (taken : UdpConn.readEnd s = some next)
    : Phase input next := by
  obtain ⟨⟨here, empty⟩, same⟩ := Option.ite_none_right_eq_some.mp taken
  obtain rfl := Option.some.inj same
  cases phase with
  | reading _ idle books =>
      obtain ⟨todo, plain, nulFree, sent, received, answered, replies, size, inside, noEof⟩ := books
      exact .finished rfl empty idle
        ⟨todo, plain, nulFree, sent, received, answered, replies, size, inside, noEof⟩
  | finished there _ _ _ | typed there _ _ _ _ _ _ | stripped there _ _ _ _ | underWay there _ _
  | tested there _ _ _ | answered there _ _ =>
      exact absurd (here.symm.trans there) (by simp)

/-- A buffer that holds a line, with or without its newline, holds the line at its start. -/
theorem take_line {buffer line : Bytes} {buflen : Nat}
    (holds : buffer.take buflen = line ++ [newline] ∨ buffer.take buflen = line)
    (length : buflen = (buffer.take buflen).length)
    : buffer.take line.length = line := by
  rcases holds with whole | whole
  · have more : line.length ≤ buflen := by
      rw [length, whole]
      simp
    have part : buffer.take line.length = (buffer.take buflen).take line.length := by
      rw [List.take_take, Nat.min_eq_left more]
    rw [part, whole, List.take_left]
  · have all : line.length = buflen := by rw [length, whole]
    rw [all, whole]

/-- The newline is taken off, if there is one, and the terminator is stored behind the line. -/
theorem strip_eq {line : Bytes} {buflen : Nat} (here : s.client = .strip buflen)
    (plain : PlainLine line) (free : newline ∉ line)
    (holds : s.buffer.take buflen = line ++ [newline] ∨ s.buffer.take buflen = line)
    (length : buflen = (s.buffer.take buflen).length) (size : s.buffer.length = bufSize)
    : UdpConn.strip s
      = some { s with
          buffer := s.buffer.set line.length 0
          client := .sendto line.length } := by
  have room : line.length < s.buffer.length := size ▸ plain.room
  have string : cString (s.buffer.set line.length 0) = line := by
    rw [cString_set_zero room, take_line holds length, cString_of_nulFree plain.nulFree]
  have inside : (s.outside || decide (bufSize ≤ line.length)) = s.outside := by
    simp [Nat.not_le.mpr plain.room]
  rcases holds with whole | whole
  · have behind : buflen = line.length + 1 := by
      rw [length, whole]
      simp
    have last : s.buffer[line.length]? = some newline := by
      rw [← List.getElem?_take_of_lt (j := buflen) (by omega), whole]
      simp
    simp [UdpConn.strip, here, behind, last, State.store, string, plain.noMark, inside]
  · have behind : buflen = line.length := by rw [length, whole]
    have last : s.buffer[line.length - 1]? ≠ some newline := by
      have some := List.length_pos_iff.mpr plain.nonempty
      intro same
      rw [← List.getElem?_take_of_lt (j := buflen) (by omega), whole] at same
      exact free (List.mem_of_getElem? same)
    simp [UdpConn.strip, here, behind, last, State.store, string, plain.noMark, inside]

/-- The line is ready to be sent. -/
theorem Phase.strip (phase : Phase input s) (taken : UdpConn.strip s = some next)
    : Phase input next := by
  cases phase with
  | @typed line buflen here idle plain free holds length books =>
      have result := strip_eq here plain free holds length books.size
      obtain rfl := Option.some.inj (result.symm.trans taken)
      obtain ⟨todo, plainSent, nulFree, sent, received, answered, replies, size, inside, noEof⟩ :=
        books
      exact .stripped rfl idle plain (by rw [take_set_self, take_line holds length])
        ⟨todo, plainSent, nulFree, sent, received, answered, replies, by simpa using size, inside,
          noEof⟩
  | reading there _ _ | finished there _ _ _ | stripped there _ _ _ _ | underWay there _ _
  | tested there _ _ _ | answered there _ _ =>
      simp [UdpConn.strip, there] at taken

/-- The line goes on its way. -/
theorem Phase.sendto (phase : Phase input s) (taken : UdpConn.sendto s = some next)
    : Phase input next := by
  cases phase with
  | @stripped line here idle plain holds books =>
      simp only [UdpConn.sendto, here, holds, Option.some.injEq] at taken
      subst taken
      refine .underWay rfl idle ⟨?_, ?_, books.nulFree, ?_, books.received, books.answered,
        books.replies, List.length_replicate, books.inside, books.noEof⟩
      · simpa using books.todo
      · intro other member
        rcases List.mem_append.mp member with old | new
        · exact books.plain other old
        · exact List.mem_singleton.mp new ▸ plain
      · simpa using books.sent
  | reading there _ _ | finished there _ _ _ | typed there _ _ _ _ _ _ | underWay there _ _
  | tested there _ _ _ | answered there _ _ =>
      simp [UdpConn.sendto, there] at taken

/-- Only a line under way can be received. -/
theorem Phase.of_serverReceive (phase : Phase input s)
    (taken : UdpConn.serverReceive s = some next)
    : ∃ (line : Bytes) (fits : line.length ≤ maxPayload),
      s.client = .recvfrom ∧ s.server.pc = .recvfrom ∧ PlainLine line ∧ Books input s [] 1 0 0
      ∧ next = { s with server := s.server.receive (request line fits).toDatagram } := by
  obtain ⟨idle, taken⟩ := Option.ite_none_right_eq_some.mp taken
  obtain ⟨payload, found, taken⟩ := Option.bind_eq_some_iff.mp taken
  split at taken
  next fits =>
    obtain rfl := Option.some.inj taken
    have member := List.mem_of_getElem? found
    obtain ⟨bound, _⟩ := List.getElem?_eq_some_iff.mp found
    cases phase with
    | reading _ _ books | finished _ _ _ books | typed _ _ _ _ _ _ books | stripped _ _ _ _ books
    | answered _ _ books =>
        have sent := books.sent
        have received := books.received
        omega
    | underWay here _ books =>
        exact ⟨payload, fits, here, idle, books.plain payload member, books, rfl⟩
    | tested _ took _ _ => simp [took, Server.receive] at idle
  next => contradiction

/-- The server receives the line under way. -/
theorem Phase.serverReceive (phase : Phase input s)
    (taken : UdpConn.serverReceive s = some next)
    : Phase input next := by
  obtain ⟨line, fits, here, -, plain, books, rfl⟩ := phase.of_serverReceive taken
  obtain ⟨todo, plainSent, nulFree, sent, received, answered, replies, size, inside, noEof⟩ :=
    books
  exact @Phase.tested input _ s.server line fits here rfl plain
    ⟨todo, plainSent, nulFree, sent, congrArg Nat.succ received, answered, replies, size,
      inside, noEof⟩

/-- What the server has received it handles in one round of its loop. -/
theorem serverRespond_eq {before : Server Unit} {line : Bytes} {fits : line.length ≤ maxPayload}
    (took : s.server = before.receive (request line fits).toDatagram)
    : UdpConn.serverRespond s = some { s with server := before.round (request line fits) } := by
  simp [UdpConn.serverRespond, took, Server.receive, Server.round, request]

/-- Only a line that has been received can be answered. -/
theorem Phase.of_serverRespond (phase : Phase input s)
    (taken : UdpConn.serverRespond s = some next)
    : ∃ (before : Server Unit) (line : Bytes) (fits : line.length ≤ maxPayload),
      s.client = .recvfrom ∧ s.server = before.receive (request line fits).toDatagram
      ∧ PlainLine line ∧ Books input s [] 1 1 0
      ∧ next = { s with server := before.round (request line fits) } := by
  cases phase with
  | @tested before line fits here took plain books =>
      obtain rfl := Option.some.inj ((serverRespond_eq took).symm.trans taken)
      exact ⟨before, line, fits, here, took, plain, books, rfl⟩
  | reading _ idle _ | finished _ _ idle _ | typed _ idle _ _ _ _ _ | stripped _ idle _ _ _
  | underWay _ idle _ | answered _ idle _ =>
      simp [UdpConn.serverRespond, idle] at taken

/-- The server answers it. -/
theorem Phase.serverRespond (phase : Phase input s)
    (taken : UdpConn.serverRespond s = some next)
    : Phase input next := by
  obtain ⟨before, line, fits, here, took, plain, books, rfl⟩ := phase.of_serverRespond taken
  obtain ⟨oneMore, idle, same, -⟩ := before.round_plain (plain.plain fits)
  obtain ⟨todo, plainSent, nulFree, sent, received, answered, replies, size, inside, noEof⟩ :=
    books
  rw [took] at received answered
  refine .answered here idle
    ⟨todo, plainSent, nulFree, sent, same.trans received, ?_, replies, size, inside, noEof⟩
  change before.sent = _ at answered
  rw [oneMore, answered]
  exact List.replicate_succ'.symm

/-- The client gets the answer and goes back to its prompt. -/
theorem Phase.recvfrom (phase : Phase input s) (taken : UdpConn.recvfrom s = some next)
    : Phase input next := by
  obtain ⟨here, taken⟩ := Option.ite_none_right_eq_some.mp taken
  obtain ⟨message, found, same⟩ := Option.map_eq_some_iff.mp taken
  obtain ⟨bound, value⟩ := List.getElem?_eq_some_iff.mp found
  cases phase with
  | answered _ idle books =>
      have text : message = ((), ok) := by
        have member := List.mem_of_getElem? found
        rw [books.answered] at member
        exact List.eq_of_mem_replicate member
      subst text
      have length : (overwrite s.buffer ok).length = bufSize := by
        rw [length_overwrite (by rw [books.size]; decide), books.size]
      have string : cString ((overwrite s.buffer ok).set ok.length 0) = ok := by
        rw [cString_set_zero (by rw [length]; decide), take_overwrite]
        decide
      have whole : ok.take bufSize = ok := by decide
      have temp : min ok.length bufSize = ok.length := by decide
      have result
          : next
            = { s with
                buffer := (overwrite s.buffer ok).set ok.length 0
                replies := s.replies ++ [ok]
                printed := s.printed ++ [ok]
                client := .read } := by
        have some : 0 < ok.length := by decide
        have other : ok ≠ eof := by decide
        have fits : ¬bufSize ≤ ok.length := by decide
        rw [← same]
        simp [whole, temp, State.store, string, books.inside, some, other, fits]
      subst result
      obtain ⟨todo, plain, nulFree, sent, received, answered, replies, size, inside, noEof⟩ := books
      refine .reading rfl idle ⟨todo, plain, nulFree, ?_, ?_, ?_, ?_, ?_, inside, noEof⟩
      · simpa using sent
      · simpa using received
      · simpa using answered
      · have more : (s.replies ++ [ok]).length = s.replies.length + 1 := List.length_append
        change s.replies ++ [ok] = List.replicate (s.replies ++ [ok]).length ok
        rw [more, List.replicate_succ', ← replies]
      · simpa using length
  | underWay _ _ books | tested _ _ _ books =>
      simp [books.answered] at bound
  | reading there _ _ | finished there _ _ _ | typed there _ _ _ _ _ _ | stripped there _ _ _ _ =>
      exact absurd (here.symm.trans there) (by simp)

/-- Every step that reads a line at a time leads from one phase to the next. -/
theorem Phase.step {action : Action} (phase : Phase input s) (allowed : LineAtATime s action)
    (taken : UdpConn.step s action = some next)
    : Phase input next := by
  cases action with
  | read n => exact phase.read allowed taken
  | readEnd => exact phase.readEnd taken
  | strip => exact phase.strip taken
  | sendto => exact phase.sendto taken
  | recvfrom => exact phase.recvfrom taken
  | serverReceive => exact phase.serverReceive taken
  | serverRespond => exact phase.serverRespond taken

end Step

theorem phase_of_reachable {input : Bytes} (nulFree : 0 ∉ input) {s : State}
    (reached : (system input).ReachableBy LineAtATime s)
    : Phase input s := by
  apply reached.invariant
  · rintro _ ⟨memory, serverMemory, size, _, rfl⟩
    refine .reading rfl rfl ⟨rfl, ?_, nulFree, rfl, rfl, rfl, rfl, size, rfl, rfl⟩
    exact fun line member => absurd member List.not_mem_nil
  · exact fun s action next _ phase allowed taken => phase.step allowed taken

-----------------------------------------------------------------------------------------
-- Every line is answered
-----------------------------------------------------------------------------------------

/-- The steps until the client has the answer to the line it is at. -/
def State.distance (s : State) : Nat :=
  match s.client with
  | .read | .left => 0
  | .strip _ => 5
  | .sendto _ => 4
  | .recvfrom =>
      match s.server.pc with
      | .test _ _ => 2
      | _ => if s.server.sent.length ≤ s.replies.length then 3 else 1

/-- A step that is not a `read` of the client. -/
def Answering (_ : State) (action : Action) : Prop := ∀ n, action ≠ .read n ∧ action ≠ .readEnd

/-- The client has the answer to everything it has sent and is at its prompt, or done. -/
def State.Answered (s : State) : Prop :=
  (s.client = .read ∨ s.client = .left) ∧ s.replies = List.replicate s.sent.length ok

section Progress

variable {input : Bytes} {s next : State} {action : Action}

/-- A line in hand goes on its way to the server and back. -/
theorem Phase.enabled (phase : Phase input s)
    : s.Answered ∨ ∃ action next, Answering s action ∧ UdpConn.step s action = some next := by
  have can {action : Action} (answering : Answering s action)
      (possible : (UdpConn.step s action).isSome)
      : s.Answered ∨ ∃ action next, Answering s action ∧ UdpConn.step s action = some next :=
    Or.inr ⟨action, _, answering, (Option.some_get possible).symm⟩
  cases phase with
  | reading here _ books => exact Or.inl ⟨Or.inl here, by rw [books.sent]; exact books.replies⟩
  | finished here _ _ books => exact Or.inl ⟨Or.inr here, by rw [books.sent]; exact books.replies⟩
  | typed here _ plain free holds length books =>
      refine @can .strip (by simp [Answering]) ?_
      simp [UdpConn.step, strip_eq here plain free holds length books.size]
  | stripped here _ _ _ _ =>
      exact @can .sendto (by simp [Answering]) (by simp [UdpConn.step, UdpConn.sendto, here])
  | underWay here idle books =>
      have sent := books.sent
      have received := books.received
      have bound : s.server.received < s.sent.length := by omega
      have room := (books.plain _ (List.getElem_mem bound)).room
      have fits : s.sent[s.server.received].length ≤ maxPayload :=
        Nat.le_trans (Nat.le_of_lt room) (by decide)
      refine @can .serverReceive (by simp [Answering]) ?_
      simp [UdpConn.step, UdpConn.serverReceive, idle, bound, fits]
  | tested here took _ _ =>
      refine @can .serverRespond (by simp [Answering]) ?_
      simp [UdpConn.step, serverRespond_eq took]
  | answered here _ books =>
      have bound : s.replies.length < s.server.sent.length := by simp [books.answered]
      refine @can .recvfrom (by simp [Answering]) ?_
      simp [UdpConn.step, UdpConn.recvfrom, here, bound]

/-- And each step brings it nearer to its answer. -/
theorem Phase.lowers (phase : Phase input s) (answering : Answering s action)
    (taken : UdpConn.step s action = some next)
    : next.distance < s.distance := by
  cases action with
  | read n => exact absurd rfl (answering n).1
  | readEnd => exact absurd rfl (answering 0).2
  | strip =>
      cases phase with
      | typed here _ plain free holds length books =>
          have result := strip_eq here plain free holds length books.size
          obtain rfl := Option.some.inj (result.symm.trans taken)
          simp [State.distance, here]
      | reading there _ _ | finished there _ _ _ | stripped there _ _ _ _ | underWay there _ _
      | tested there _ _ _ | answered there _ _ =>
          simp [UdpConn.step, UdpConn.strip, there] at taken
  | sendto =>
      simp only [UdpConn.step, UdpConn.sendto] at taken
      split at taken
      next buflen here =>
        obtain rfl := Option.some.inj taken
        simp only [State.distance, here]
        split
        · decide
        · split <;> decide
      next => contradiction
  | serverReceive =>
      obtain ⟨line, fits, here, idle, -, books, rfl⟩ := phase.of_serverReceive taken
      simp [State.distance, here, idle, Server.receive, books.answered]
  | serverRespond =>
      obtain ⟨before, line, fits, here, took, plain, books, rfl⟩ :=
        phase.of_serverRespond taken
      obtain ⟨oneMore, idle, -, -⟩ := before.round_plain (plain.plain fits)
      have answered := books.answered
      rw [took] at answered
      change before.sent = _ at answered
      have later : ¬(before.round (request line fits)).sent.length ≤ s.replies.length := by
        simp [oneMore, answered]
      have now : s.distance = 2 := by simp [State.distance, here, took, Server.receive]
      rw [now]
      simp [State.distance, here, idle, later]
  | recvfrom =>
      have back : next.client = .read ∨ next.client = .left := by
        obtain ⟨_, taken⟩ := Option.ite_none_right_eq_some.mp taken
        obtain ⟨_, _, same⟩ := Option.map_eq_some_iff.mp taken
        rw [← same]
        dsimp only
        split
        · split <;> simp
        · simp
      have arrived : next.distance = 0 := by
        rcases back with here | here <;> simp [State.distance, here]
      have waiting := (Option.ite_none_right_eq_some.mp taken).1
      have started : 0 < s.distance := by
        simp only [State.distance, waiting]
        split
        · decide
        · split <;> decide
      omega

end Progress

/-- Whatever the client has in hand is answered without another `read`. -/
theorem Phase.inevitable {input : Bytes} {s : State} (phase : Phase input s)
    : (system input).Inevitable Answering State.Answered s := by
  refine .of_measure (Phase input) State.distance ?_ ?_ ?_ phase
  · intro s action next phase answering taken
    refine phase.step ?_ taken
    cases action with
    | read n => exact absurd rfl (answering n).1
    | _ => trivial
  · exact fun s phase => phase.enabled
  · exact fun s action next phase answering taken => phase.lowers answering taken

-----------------------------------------------------------------------------------------
-- The conversation
-----------------------------------------------------------------------------------------

/-- The client sends the lines before the first line `EOF` one by one, gets `"OK"` for each of
them before it reads on, and does so while the server runs; the line `EOF` ends both; and the
client stores nothing outside its buffer.
-/
structure Converses (input : Bytes) (s : State) : Prop where
  sent : s.sent <+: wanted input
  all : s.client = .left → s.sent = wanted input
  answered
    : s.client = .read ∨ s.client = .left → s.replies = List.replicate s.sent.length ok
  obtains : (system input).Inevitable Answering State.Answered s
  running : s.sawEof = false → s.server.pc ≠ .left ∧ s.server.pc ≠ .failed
  ends
    : s.sawEof = true
      → (system input).Inevitable Answering (fun final => final.server.pc = .left) s
  inside : s.outside = false

/-- What is sent are the first of the wanted lines. -/
theorem Books.wanted_eq {input : Bytes} {s : State} {inHand : List Bytes}
    {sent received answered : Nat} (books : Books input s inHand sent received answered)
    : wanted input
      = s.sent ++ (inHand ++ lines s.stdin).takeWhile fun line => line ≠ eof := by
  have noMark : ∀ line ∈ s.sent, line ≠ eof := fun line member => (books.plain line member).noMark
  rw [wanted, books.todo, List.append_assoc, List.takeWhile_append_of_pos (by simpa using noMark)]

/-- In every phase the books are kept and the server runs. -/
theorem Phase.books {input : Bytes} {s : State} (phase : Phase input s)
    : (∃ inHand sent received answered, Books input s inHand sent received answered)
      ∧ s.server.pc ≠ .left ∧ s.server.pc ≠ .failed := by
  cases phase with
  | reading _ idle books | finished _ _ idle books | typed _ idle _ _ _ _ books
  | stripped _ idle _ _ books | underWay _ idle books | answered _ idle books =>
      exact ⟨⟨_, _, _, _, books⟩, by simp [idle], by simp [idle]⟩
  | tested _ took _ books =>
      exact ⟨⟨_, _, _, _, books⟩, by simp [took, Server.receive], by simp [took, Server.receive]⟩

/-- Between two lines everything sent is answered; at the end that is all that was wanted. -/
theorem Phase.between {input : Bytes} {s : State} (phase : Phase input s)
    (here : s.client = .read ∨ s.client = .left)
    : s.replies = List.replicate s.sent.length ok
      ∧ (s.client = .left → s.sent = wanted input) := by
  cases phase with
  | reading there _ books =>
      refine ⟨?_, fun left => absurd (there.symm.trans left) (by simp)⟩
      rw [books.sent]
      exact books.replies
  | finished there empty _ books =>
      refine ⟨?_, fun _ => ?_⟩
      · rw [books.sent]
        exact books.replies
      · rw [books.wanted_eq, empty]
        simp
  | typed there _ _ _ _ _ _ | stripped there _ _ _ _ | underWay there _ _ | tested there _ _ _
  | answered there _ _ =>
      simp [there] at here

/-- As long as each `read` returns one line that is neither empty nor the end mark, the
conversation is right.
-/
theorem converses {input : Bytes} (nulFree : 0 ∉ input) {s : State}
    (reached : (system input).ReachableBy LineAtATime s)
    : Converses input s := by
  have phase := phase_of_reachable nulFree reached
  obtain ⟨⟨inHand, sent, received, answered, books⟩, running⟩ := phase.books
  constructor
  · exact ⟨_, books.wanted_eq.symm⟩
  · exact fun left => (phase.between (Or.inr left)).2 left
  · exact fun here => (phase.between here).1
  · exact phase.inevitable
  · exact fun _ => running
  · intro sawEof
    simp [books.noEof] at sawEof
  · exact books.inside

/-- The memory of both programs is clear. -/
def cleared (input : Bytes) : State :=
  start input (List.replicate bufSize 0) (List.replicate bufSize 0)

theorem initial_cleared (input : Bytes) : (system input).Initial (cleared input) :=
  ⟨_, _, List.length_replicate, List.length_replicate, rfl⟩

/-- "hi" and "you" -/
def hiYou : Bytes := [104, 105, 10, 121, 111, 117, 10]

/-- Two lines are typed, sent and answered. -/
def twoLines : List Action :=
  [.read 3, .strip, .sendto, .serverReceive, .serverRespond, .recvfrom, .read 4, .strip, .sendto,
    .serverReceive, .serverRespond, .recvfrom, .readEnd]

/-- Both lines get their answers. -/
theorem converses_twoLines
    : ∃ s,
        s.sent = [[104, 105], [121, 111, 117]]
        ∧ s.replies = [ok, ok]
        ∧ s.client = .left
        ∧ Converses hiYou s := by
  have run : (((system hiYou).restrict LineAtATime).exec (cleared hiYou) twoLines).isSome := by
    decide
  have initially : ((system hiYou).restrict LineAtATime).Initial _ := initial_cleared hiYou
  have reached := System.reachable_of_run _ initially twoLines run
  exact ⟨_, rfl, rfl, rfl, converses (by decide) (System.reachable_restrict_iff.mp reached)⟩

/-- The line `EOF` alone is typed. -/
def onlyEof : List Action := [.read 4, .strip]

/-- The client leaves its loop without a word to the server, which waits for ever. -/
theorem converses_onlyEof
    : ¬∀ input, 0 ∉ input → ∀ s, (system input).Reachable s → Converses input s := by
  intro always
  have run : ((system [69, 79, 70, 10]).exec (cleared [69, 79, 70, 10]) onlyEof).isSome := by
    decide
  have reached : (system [69, 79, 70, 10]).Reachable _ :=
    System.reachable_of_run (cleared [69, 79, 70, 10]) (initial_cleared _) onlyEof run
  have sure := (always _ (by decide) _ reached).ends rfl
  cases sure with
  | now arrived => cases arrived
  | later possible _ =>
      obtain ⟨action, next, answering, taken⟩ := possible
      cases action with
      | read n => exact (answering n).1 rfl
      | readEnd => exact (answering 0).2 rfl
      | strip | sendto | recvfrom | serverReceive | serverRespond => cases taken

end LinuxStudy.UdpConn
