import LinuxStudy.SocketIpc.Exchange

/-! How the conversation of `client_func` and `server_func` ends. The stream has no message
boundaries: only a client whose `EOF` comes as a result of its own is told from one that leaves.
-/

namespace LinuxStudy.SocketIpc.WithClient

open Transition Posix

variable {memory own : Memory} {s next : State} {action : Action}

/-- The client is gone and the server has left its loop. -/
def Over (s : State) : Prop := s.client.pc = .gone ∧ s.server.pc.left = true

instance (s : State) : Decidable (Over s) := inferInstanceAs (Decidable (_ ∧ _))

-----------------------------------------------------------------------------------------
-- Progress
-----------------------------------------------------------------------------------------

/-- Some step is possible that leaves nothing unread. -/
def Possible (s : State) : Prop :=
  ∃ action next, WholeReads s action ∧ step s action = some next

theorem countP_isData_pos {log : List Entry} (some : received log ≠ [])
    : 0 < log.countP Entry.isData := by
  induction log with
  | nil => exact absurd rfl some
  | cons entry log ih =>
      cases entry with
      | result bytes =>
          cases bytes with
          | nil => simpa [Entry.isData] using ih some
          | cons byte bytes => simp [Entry.isData]
      | ok => simpa [Entry.isData] using ih some

/-- While the server waits for more, a client that waits has answers to read. -/
theorem Kept.of_waiting (kept : Kept s) (here : s.server.pc = .recv)
    (empty : s.server.unread = []) (place : s.client.pc.receives = true)
    : s.client.unread ≠ [] := by
  have up := kept.up
  have down := congrArg List.length kept.down
  have quiet : s.client.held = [] := by
    cases there : s.client.pc <;> simp_all [ClientPc.receives, Client.held, ClientPc.prints]
  rw [empty, List.append_nil] at up
  simp only [quiet, List.length_append, length_answers, List.length_nil] at down
  intro none
  rw [none, List.length_nil] at down
  cases there : s.client.pc <;> simp only [there, ClientPc.receives] at place <;>
    try contradiction
  case recvReply =>
    -- the message has been received, so some result has been answered
    obtain ⟨front, last, log, served, at_⟩ := kept.underway.log
    rw [here] at at_
    rw [at_.1, List.append_nil] at log
    have some : received s.server.log ≠ [] := by
      rw [up, there]
      decide
    have answered := countP_isData_pos some
    rw [log, ← served.count_eq, ← log] at answered
    have shown := kept.shown
    rw [there] at shown
    rw [List.eq_nil_of_length_eq_zero shown, List.flatten_nil, List.length_nil] at down
    omega
  case recvEnd =>
    have long : helloText.length < (received s.server.log).length := by
      rw [up, there]
      decide
    have owing := kept.answered long (by rw [here]; rfl) there
    simp only [here, owed] at owing
    omega

theorem possible_of_server (action : ServerAction) {server : SocketIpc.State}
    (there : action ≠ .recvError) (whole : WholeReads s (.server action))
    (taken : SocketIpc.step s.server action.alone = some server)
    : Possible s := by
  have possible : ∃ next, step s (.server action) = some next := by
    simp [step, serverFunc, there, taken]
  obtain ⟨next, taken⟩ := possible
  exact ⟨.server action, next, whole, taken⟩

/-- The server can go on unless it has left or waits for the client. -/
theorem Kept.server_possible (kept : Kept s) (stays : s.server.pc.left = false)
    (busy : s.server.pc = .recv → s.server.unread ≠ [] ∨ s.server.eof = true)
    : Possible s := by
  cases here : s.server.pc with
  | memset =>
      have taken : SocketIpc.step s.server ServerAction.memset.alone = some _ := if_pos here
      exact possible_of_server .memset (by simp) trivial taken
  | recv =>
      by_cases empty : s.server.unread = []
      · have eof := (busy here).resolve_left (not_not_intro empty)
        have taken : SocketIpc.step s.server ServerAction.recvEnd.alone = some _ :=
          if_pos ⟨here, empty, eof⟩
        exact possible_of_server .recvEnd (by simp) trivial taken
      · have some := List.length_pos_of_ne_nil empty
        have fits : s.server.unread.length ≤ bufferSize := by
          have up := congrArg List.length kept.up
          have sent := s.client.pc.length_sent
          simp only [List.length_append, bufferSize] at up ⊢
          omega
        have taken : SocketIpc.step s.server
            (ServerAction.recvData s.server.unread.length).alone = Option.some _ :=
          if_pos ⟨here, some, Nat.le_refl _, fits⟩
        exact possible_of_server (.recvData _) (by simp) rfl taken
  | strcmp =>
      have taken : ∃ server, SocketIpc.step s.server ServerAction.strcmp.alone = some server := by
        simp only [SocketIpc.step, ServerAction.alone, strcmp, here, if_true]
        split <;> exact ⟨_, rfl⟩
      obtain ⟨server, taken⟩ := taken
      exact possible_of_server .strcmp (by simp) trivial taken
  | print =>
      have taken : SocketIpc.step s.server ServerAction.print.alone = some _ := if_pos here
      exact possible_of_server .print (by simp) trivial taken
  | send =>
      have taken : ∃ server, SocketIpc.step s.server ServerAction.send.alone = some server := by
        simp only [SocketIpc.step, ServerAction.alone, SocketIpc.send, here, if_true]
        split <;> exact ⟨_, rfl⟩
      obtain ⟨server, taken⟩ := taken
      exact possible_of_server .send (by simp) trivial taken
  | ended | dead => simp [here, Pc.left] at stays

/-- A client that receives has something to read, or the server has left. -/
theorem Kept.recv_possible (kept : Kept s) (here : s.client.pc.receives = true)
    (some : s.client.unread ≠ [] ∨ s.server.pc.left = true)
    : Possible s := by
  by_cases empty : s.client.unread = []
  · have left := some.resolve_left (not_not_intro empty)
    exact ⟨.client .recvNothing, _, trivial, if_pos ⟨here, empty, left⟩⟩
  · have some := List.length_pos_of_ne_nil empty
    have fits := Nat.le_of_lt kept.short_unread
    exact ⟨.client (.recv s.client.unread.length), _, rfl,
      if_pos ⟨here, some, Nat.le_refl _, fits⟩⟩

theorem Kept.close_possible (kept : Kept s) (here : s.client.pc = .close) : Possible s := by
  have there := kept.there (by simp [here])
  have possible : ∃ next, clientFunc s .close = some next := by
    simp [clientFunc, here, SocketIpc.close, there]
  obtain ⟨next, taken⟩ := possible
  exact ⟨.client .close, next, trivial, taken⟩

theorem Kept.send_possible (kept : Kept s)
    (here : s.client.pc = .sendHello ∨ s.client.pc = .sendEof)
    : Possible s := by
  have eof : s.server.eof = false := by
    rw [kept.eof]
    exact kept.there (by rcases here with here | here <;> simp [here])
  have arrived (text : Bytes) (some : text ≠ [])
      : arrive s.server text = Option.some { s.server with unread := s.server.unread ++ text } :=
    if_pos ⟨eof, some⟩
  have taken : ∃ next, clientFunc s .send = some next := by
    rcases here with here | here <;>
      (simp only [clientFunc, here, WithClient.send]; split)
    · exact ⟨_, rfl⟩
    · exact ⟨_, by rw [arrived _ (by decide)]; rfl⟩
    · exact ⟨_, rfl⟩
    · exact ⟨_, by rw [arrived _ (by decide)]; rfl⟩
  obtain ⟨next, taken⟩ := taken
  exact ⟨.client .send, next, trivial, taken⟩

/-- Until both sides have left, some step is possible. -/
theorem Kept.progress (kept : Kept s) : Over s ∨ Possible s := by
  by_cases left : s.server.pc.left = true
  · have sent := (kept.of_left left).1
    cases here : s.client.pc with
    | sendHello | recvReply | printReply | sendEof =>
        rw [here] at sent
        exact absurd sent (by decide)
    | recvEnd => exact .inr (kept.recv_possible (by rw [here]; rfl) (.inr left))
    | printEnd => exact .inr ⟨.client .print, _, trivial, if_pos (by rw [here]; rfl)⟩
    | close => exact .inr (kept.close_possible here)
    | gone => exact .inl ⟨here, left⟩
    | dead => exact absurd here kept.alive
  · have stays : s.server.pc.left = false := by simpa using left
    by_cases busy : s.server.pc = .recv → s.server.unread ≠ [] ∨ s.server.eof = true
    · exact .inr (kept.server_possible stays busy)
    · simp only [Classical.not_imp, not_or, not_not] at busy
      obtain ⟨waits, empty, open_⟩ := busy
      cases here : s.client.pc with
      | sendHello => exact .inr (kept.send_possible (.inl here))
      | sendEof => exact .inr (kept.send_possible (.inr here))
      | recvReply | recvEnd =>
          have place : s.client.pc.receives = true := by rw [here]; rfl
          exact .inr (kept.recv_possible place (.inl (kept.of_waiting waits empty place)))
      | printReply | printEnd =>
          exact .inr ⟨.client .print, _, trivial, if_pos (by rw [here]; rfl)⟩
      | close => exact .inr (kept.close_possible here)
      | gone =>
          rw [kept.eof] at open_
          exact absurd (kept.gone.mpr here) open_
      | dead => exact absurd here kept.alive

-----------------------------------------------------------------------------------------
-- The steps that are left
-----------------------------------------------------------------------------------------

/-- How far the client is from its end. -/
def ClientPc.rank : ClientPc → Nat
  | .sendHello => 8
  | .recvReply => 7
  | .printReply => 6
  | .sendEof => 5
  | .recvEnd => 4
  | .printEnd => 3
  | .close => 2
  | .gone => 1
  | .dead => 0

/-- A text that the client sends costs the server less than the client comes nearer. -/
def State.cost (s : State) : Nat := 100 * s.client.pc.rank + s.server.cost

/-- The loop makes no difference of a stream that has come to its end. -/
theorem step_of_eof {server next : SocketIpc.State} {action : ServerAction}
    (taken : SocketIpc.step server action.alone = some next)
    : SocketIpc.step { server with eof := true } action.alone = some { next with eof := true } := by
  cases action with
  | memset | recvData n | recvError | print =>
      obtain ⟨here, same⟩ := Option.ite_none_right_eq_some.mp taken
      exact Option.some.inj same ▸ if_pos here
  | recvEnd =>
      obtain ⟨⟨here, empty, _⟩, same⟩ := Option.ite_none_right_eq_some.mp taken
      exact Option.some.inj same ▸ if_pos ⟨here, empty, rfl⟩
  | strcmp =>
      cases SocketIpc.Move.of_step taken with
      | strcmpSame here compared | strcmpOther here compared | strcmpBeyond here compared =>
          simp [SocketIpc.step, ServerAction.alone, strcmp, here, compared]
  | send =>
      cases SocketIpc.Move.of_step taken with
      | sendFails here there | send here there =>
          simp [SocketIpc.step, ServerAction.alone, SocketIpc.send, here, there]

/-- Every step of the two lowers the cost. -/
theorem Kept.cost_lt (kept : Kept s) (taken : WithClient.step s action = some next)
    : next.cost < s.cost := by
  cases Move.of_step taken with
  | sendHello here there arrived | sendEof here there arrived =>
      obtain ⟨_, same⟩ := Option.ite_none_right_eq_some.mp arrived
      obtain rfl := Option.some.inj same
      simp only [State.cost, SocketIpc.State.cost, here, ClientPc.rank, List.length_append,
        helloText, eofText, List.length_cons, List.length_nil]
      omega
  | sendDies here left => exact absurd left (kept.stays_of_sends here)
  | recvDies here left unread => exact absurd (kept.read_of_receives here left) unread
  | recv here | recvNothing here | print here =>
      cases place : s.client.pc <;>
        simp_all [State.cost, ClientPc.receives, ClientPc.prints, ClientPc.next, ClientPc.rank]
  | close here closed =>
      obtain ⟨there, same⟩ := Option.ite_none_right_eq_some.mp closed
      obtain rfl := Option.some.inj same
      simp [State.cost, SocketIpc.State.cost, here, there, ClientPc.rank]
      omega
  | @server action server reset ran =>
      have permitted : Meets { s.server with eof := true } action.alone := by
        have meets := kept.meets ran
        cases action <;> exact meets
      have lower := @cost_lt_of_step { s.server with eof := true } _ _ rfl permitted
        (step_of_eof ran)
      have falls : server.cost < s.server.cost := lower
      simp only [State.cost]
      split <;> exact Nat.add_lt_add_left falls _

-----------------------------------------------------------------------------------------
-- Every conversation
-----------------------------------------------------------------------------------------

/-- When both sides have left, the server has either found `EOF` or been killed. -/
theorem Kept.ended_iff (kept : Kept s) (finished : Over s)
    : s.server.pc = if .result eofText ∈ s.server.log then .ended else .dead := by
  split
  next member =>
    rcases kept.atEof member with ended | ⟨here, _⟩
    · exact ended
    · have left := finished.2
      simp [here, Pc.left] at left
  next absent =>
    cases here : s.server.pc with
    | dead => rfl
    | ended =>
        obtain ⟨log, last⟩ := kept.ended here
        rw [last] at absent
        exact absurd (List.mem_append_right _ List.mem_cons_self) absent
    | memset | recv | strcmp | print | send =>
        have left := finished.2
        simp [here, Pc.left] at left

/-- Whatever the results are, neither side reads behind its buffer, the client is never killed,
what it has shown, holds and has not read is together what it is answered, both sides leave, and
the server leaves through `break` exactly if some result is `EOF` alone; otherwise it is killed
by a `recv` or a `send` that fails.
-/
theorem conversation_ends (reached : (system memory own).Reachable s)
    : s.server.beyond = false
      ∧ s.client.beyond = false
      ∧ s.client.pc ≠ .dead
      ∧ received s.server.log <+: helloText ++ eofText
      ∧ s.client.printed.flatten ++ s.client.held ++ s.client.unread = answers s.server.log
      ∧ (Over s
        → s.client.printed.length = 2
          ∧ s.server.pc = if .result eofText ∈ s.server.log then .ended else .dead)
      ∧ (system memory own).Inevitable (fun _ _ => True) Over s := by
  have kept := Kept.of_reachable reached
  refine ⟨kept.underway.inside, kept.inside, kept.alive, ?_, kept.down,
    fun finished => ⟨?_, ?_⟩, ?_⟩
  · have sent : s.client.pc.sent <+: helloText ++ eofText := by
      cases s.client.pc <;> decide
    exact List.IsPrefix.trans ⟨_, kept.up⟩ sent
  · rw [kept.shown, finished.1]
    rfl
  · exact kept.ended_iff finished
  · refine System.Inevitable.of_measure Kept State.cost ?_ ?_ ?_ kept
    · exact fun s action next kept _ taken => kept.step taken
    · intro s kept
      rcases kept.progress with finished | ⟨action, next, _, taken⟩
      · exact .inl finished
      · exact .inr ⟨action, next, trivial, taken⟩
    · exact fun s action next kept _ taken => kept.cost_lt taken

/-- A conversation that is cut wrongly: the rest of the message comes together with `EOF`. -/
theorem conversation_ends_dead
    : ∃ s, (system cleared cleared).Reachable s
      ∧ Over s
      ∧ s.client.printed.length = 2
      ∧ s.server.pc = .dead := by
  have first : (system cleared cleared).Reachable (start cleared cleared) := .initial rfl
  obtain ⟨final, run, finished, log⟩
      : ∃ final, (system cleared cleared).exec (start cleared cleared)
          [.client .send, .server .memset, .server (.recvData 5), .server .strcmp, .server .print,
            .server .send, .client (.recv 2), .client .print, .client .send, .server .memset,
            .server (.recvData 11), .server .strcmp, .server .print, .server .send,
            .client (.recv 2), .client .print, .client .close, .server .memset, .server .recvEnd,
            .server .strcmp, .server .print, .server .send] = some final
        ∧ Over final
        ∧ .result eofText ∉ final.server.log := ⟨_, rfl, by decide, by decide⟩
  have reached := first.exec run
  obtain ⟨_, _, _, _, _, ends, _⟩ := conversation_ends reached
  obtain ⟨shown, left⟩ := ends finished
  exact ⟨final, reached, finished, shown, left.trans (if_neg log)⟩

-----------------------------------------------------------------------------------------
-- Conversations without leftovers
-----------------------------------------------------------------------------------------

/-- The message with its answer, and `EOF`. -/
def wholeLog : List Entry := [.result helloText, .ok, .result eofText]

/-- What the client has shown and what it is about to show. -/
def ClientPc.told : ClientPc → List Bytes × Bytes
  | .sendHello | .recvReply => ([], [])
  | .printReply => ([], okText)
  | .sendEof | .recvEnd | .printEnd => ([okText], [])
  | .close | .gone | .dead => ([okText, []], [])

structure Whole (s : State) : Prop where
  log : s.server.log <+: wholeLog
  told : (s.client.printed, s.client.held) = s.client.pc.told
  ended
    : s.client.pc = .printEnd ∨ s.client.pc = .close ∨ s.client.pc = .gone → s.server.pc = .ended

theorem prefix_wholeLog {log : List Entry} (front : log <+: wholeLog)
    : log = []
      ∨ log = [.result helloText]
      ∨ log = [.result helloText, .ok]
      ∨ log = wholeLog := by
  obtain rfl | ⟨rest, rfl, rfl | ⟨more, rfl, rfl | rfl⟩⟩
      : log = []
        ∨ ∃ rest, log = .result helloText :: rest
          ∧ (rest = []
            ∨ ∃ more, rest = .ok :: more ∧ (more = [] ∨ more = [.result eofText])) := by
    simpa [wholeLog, List.prefix_cons_iff] using front
  · exact .inl rfl
  · exact .inr (.inl rfl)
  · exact .inr (.inr (.inl rfl))
  · exact .inr (.inr (.inr rfl))

theorem Whole.answers_eq (whole : Whole s)
    : answers s.server.log = [] ∨ answers s.server.log = okText := by
  rcases prefix_wholeLog whole.log with log | log | log | log <;> rw [log]
  · exact .inl rfl
  · exact .inl rfl
  · exact .inr rfl
  · exact .inr rfl

/-- A server that has left the loop takes no step. -/
theorem stays_of_step {server next : SocketIpc.State} {action : ServerAction}
    (taken : SocketIpc.step server action.alone = some next)
    : server.pc ≠ .ended := by
  intro ended
  cases action <;>
    simp [SocketIpc.step, ServerAction.alone, memset, recvData, recvEnd, recvError, strcmp,
      SocketIpc.print, SocketIpc.send, ended] at taken

/-- Before the first answer the client has sent its message at most. -/
theorem Whole.sent_of_unanswered (whole : Whole s) (kept : Kept s)
    (unanswered : answers s.server.log = [])
    : s.client.pc.sent = [] ∨ s.client.pc.sent = helloText := by
  have down := kept.down
  have told := whole.told
  rw [unanswered] at down
  simp only [List.append_eq_nil_iff] at down
  obtain ⟨⟨printed, held⟩, _⟩ := down
  obtain ⟨shown, holds⟩ := Prod.mk.inj told
  rw [shown] at printed
  cases here : s.client.pc with
  | sendHello => exact .inl rfl
  | recvReply | printReply | sendEof => exact .inr rfl
  | recvEnd | printEnd | close | gone | dead =>
      rw [here] at printed
      exact absurd printed (by decide)

/-- What is received behind the message is `EOF`. -/
theorem Whole.log_of_recv (whole : Whole s) (kept : Kept s) (here : s.server.pc = .recv)
    (some : s.server.unread ≠ [])
    : s.server.log ++ [.result s.server.unread] <+: wholeLog := by
  obtain ⟨front, last, log, served, at_⟩ := kept.underway.log
  rw [here] at at_
  rw [at_.1, List.append_nil] at log
  have count := served.count_eq
  rw [← log] at count
  have up := kept.up
  rcases prefix_wholeLog whole.log with log | log | log | log
  · have sent := whole.sent_of_unanswered kept (by rw [log]; rfl)
    rw [← up, log] at sent
    rcases sent with none | hello
    · exact absurd none some
    · have message : s.server.unread = helloText := hello
      rw [log, message]
      decide
  · rw [log] at count
    exact absurd count (by decide)
  · have sent : s.client.pc.sent = [] ∨ s.client.pc.sent = helloText
        ∨ s.client.pc.sent = helloText ++ eofText := by
      cases s.client.pc <;> simp [ClientPc.sent]
    have hello : received s.server.log = helloText := by
      rw [log]
      decide
    rw [← up, hello] at sent
    rcases sent with none | message | both
    · exact absurd none (by simp [helloText])
    · exact absurd (by simpa using message) some
    · rw [log, List.append_cancel_left both]
      decide
  · rw [log] at count
    exact absurd count (by decide)

/-- The message is answered, and `EOF` is not. -/
theorem Whole.log_of_send (whole : Whole s) (kept : Kept s) (here : s.server.pc = .send)
    : s.server.log ++ [.ok] <+: wholeLog := by
  obtain ⟨front, last, log, served, at_⟩ := kept.underway.log
  rw [here] at at_
  obtain ⟨bytes, rfl, _⟩ := at_
  have free := kept.eof_notMem (by simp [here]) (by simp [here])
  rcases prefix_wholeLog whole.log with whole | whole | whole | whole
  · rw [whole] at log
    simp at log
  · rw [whole]
    decide
  · have last : (front ++ [Entry.result bytes]).getLast? = some .ok := by
      rw [← log, whole]
      rfl
    simp at last
  · rw [whole] at free
    exact absurd (by decide) free

theorem Whole.server {action : ServerAction} (whole : Whole s) (kept : Kept s)
    (permitted : WholeReads s (.server action)) (move : Move s (.server action) next)
    : Whole next := by
  cases move with
  | @server _ server reset taken =>
      have stays := stays_of_step taken
      have log : server.log <+: wholeLog := by
        cases action with
        | recvData n =>
            cases SocketIpc.Move.of_step taken with
            | recvData here some available =>
                have all : n = s.server.unread.length := permitted
                have arrived : s.server.unread ≠ [] :=
                  List.ne_nil_of_length_pos (Nat.lt_of_lt_of_le some available)
                rw [all, List.take_length]
                exact whole.log_of_recv kept here arrived
        | recvEnd =>
            cases SocketIpc.Move.of_step taken with
            | recvEnd here empty ended =>
                have gone := kept.gone.mp (kept.eof ▸ ended)
                exact absurd (whole.ended (.inr (.inr gone))) stays
        | send =>
            cases SocketIpc.Move.of_step taken with
            | sendFails => exact whole.log
            | send here => exact whole.log_of_send kept here
        | memset | recvError | strcmp | print =>
            cases SocketIpc.Move.of_step taken <;> exact whole.log
      refine ⟨log, ?_, ?_⟩
      · have told := whole.told
        split <;> exact told
      · intro place
        refine absurd (whole.ended ?_) stays
        split at place <;> exact place

/-- The only answer is shown before `EOF` is sent. -/
theorem Whole.unread_eq (whole : Whole s) (kept : Kept s) (some : s.client.unread ≠ [])
    (here : s.client.pc.receives = true)
    : s.client.pc = .recvReply ∧ s.client.unread = okText := by
  have down := kept.down
  obtain ⟨printed, held⟩ := Prod.mk.inj whole.told
  rw [printed, held] at down
  cases place : s.client.pc <;> simp only [place, ClientPc.receives] at here <;>
    try contradiction
  case recvReply =>
    rw [place] at down
    have unread : s.client.unread = answers s.server.log := down
    rcases whole.answers_eq with none | ok
    · exact absurd (unread.trans none) some
    · exact ⟨rfl, unread.trans ok⟩
  case recvEnd =>
    rw [place] at down
    have unread : okText ++ s.client.unread = answers s.server.log := down
    rcases whole.answers_eq with none | ok
    · rw [none] at unread
      exact absurd unread (by simp [okText])
    · rw [ok] at unread
      exact absurd (by simpa using unread) some

theorem Whole.client {action : ClientAction} (whole : Whole s) (kept : Kept s)
    (permitted : WholeReads s (.client action)) (move : Move s (.client action) next)
    : Whole next := by
  have told := whole.told
  cases move with
  | sendHello here there arrived =>
      obtain ⟨_, same⟩ := Option.ite_none_right_eq_some.mp arrived
      obtain rfl := Option.some.inj same
      rw [here] at told
      refine ⟨whole.log, ?_, by simp⟩
      simpa [Client.held, here, ClientPc.prints, ClientPc.told] using told
  | sendEof here there arrived =>
      obtain ⟨_, same⟩ := Option.ite_none_right_eq_some.mp arrived
      obtain rfl := Option.some.inj same
      rw [here] at told
      refine ⟨whole.log, ?_, by simp⟩
      simpa [Client.held, here, ClientPc.prints, ClientPc.told] using told
  | sendDies here left => exact absurd left (kept.stays_of_sends here)
  | recvDies here left unread => exact absurd (kept.read_of_receives here left) unread
  | @recv n here some available fits =>
      have all : n = s.client.unread.length := permitted
      have arrived : s.client.unread ≠ [] :=
        List.ne_nil_of_length_pos (Nat.lt_of_lt_of_le some available)
      obtain ⟨place, ok⟩ := whole.unread_eq kept arrived here
      have string := @cString_overwrite_zeros okText bufferSize (by decide) (by decide)
      rw [place] at told
      refine ⟨whole.log, ?_, by simp [place, ClientPc.next]⟩
      rw [all, List.take_length, ok]
      simp [Client.held, place, ClientPc.next, ClientPc.prints, ClientPc.told, string]
      exact (Prod.mk.inj told).1
  | recvNothing here empty left =>
      have sent := (kept.of_left left).1
      cases place : s.client.pc <;> simp only [place, ClientPc.receives] at here <;>
        try contradiction
      case recvReply =>
        rw [place] at sent
        exact absurd sent (by decide)
      case recvEnd =>
        have ended : s.server.pc = .ended := by
          cases stands : s.server.pc <;> simp only [stands, Pc.left] at left <;> try contradiction
          case ended => rfl
          case dead =>
            have gone := kept.gone.mp (kept.killed stands)
            simp [place] at gone
        rw [place] at told
        refine ⟨whole.log, ?_, fun _ => ended⟩
        simp [Client.held, ClientPc.next, ClientPc.prints, ClientPc.told, cString, bufferSize]
        exact (Prod.mk.inj told).1
  | print here =>
      have terminated := kept.terminated here
      have read : stringIn s.client.buffer = some (cString s.client.buffer) := if_pos terminated
      obtain ⟨printed, held⟩ := Prod.mk.inj told
      rw [Client.held, if_pos here] at held
      cases place : s.client.pc <;> simp only [place, ClientPc.prints] at here <;>
        try contradiction
      case printReply =>
        rw [place] at printed held
        refine ⟨whole.log, ?_, by simp [ClientPc.next]⟩
        simp [Client.held, ClientPc.next, ClientPc.prints, ClientPc.told, read, printed, held]
      case printEnd =>
        rw [place] at printed held
        refine ⟨whole.log, ?_, fun _ => whole.ended (.inl place)⟩
        simp [Client.held, ClientPc.next, ClientPc.prints, ClientPc.told, read, printed, held]
  | close here closed =>
      obtain ⟨_, same⟩ := Option.ite_none_right_eq_some.mp closed
      obtain rfl := Option.some.inj same
      rw [here] at told
      refine ⟨whole.log, ?_, fun _ => whole.ended (.inr (.inl here))⟩
      simpa [Client.held, here, ClientPc.prints, ClientPc.told] using told

theorem whole_start (memory own : Memory) : Whole (start memory own) where
  log := List.nil_prefix
  told := rfl
  ended := by simp [start]

theorem Whole.of_reachable (reached : (system memory own).ReachableBy WholeReads s)
    : Whole s := by
  refine System.ReachableBy.invariant (fun s first => ?_)
    (fun s action next before whole permitted taken => ?_) reached
  · rw [show s = start memory own from first]
    exact whole_start memory own
  · have kept := Kept.of_reachable before.reachable
    have move := Move.of_step taken
    cases action with
    | client action => exact whole.client kept permitted move
    | server action => exact whole.server kept permitted move

/-- If every `recv` gets all that has arrived, the server answers the message, finds `EOF` and
does not answer it, and the client shows the answer and an empty text.
-/
theorem whole_conversation (reached : (system memory own).ReachableBy WholeReads s)
    : s.server.log <+: wholeLog
      ∧ (Over s
        → s.server.pc = .ended
          ∧ s.server.log = wholeLog
          ∧ s.client.printed = [okText, []])
      ∧ (system memory own).Inevitable WholeReads Over s := by
  have whole := Whole.of_reachable reached
  have kept := Kept.of_reachable reached.reachable
  refine ⟨whole.log, fun finished => ?_, ?_⟩
  · have ended := whole.ended (.inr (.inr finished.1))
    have told := whole.told
    rw [finished.1] at told
    refine ⟨ended, ?_, (Prod.mk.inj told).1⟩
    obtain ⟨log, last⟩ := kept.ended ended
    have member : .result eofText ∈ s.server.log := by
      rw [last]
      exact List.mem_append_right _ List.mem_cons_self
    rcases prefix_wholeLog whole.log with log | log | log | log
    · rw [log] at member
      exact absurd member (by decide)
    · rw [log] at member
      exact absurd member (by decide)
    · rw [log] at member
      exact absurd member (by decide)
    · exact log
  · refine System.Inevitable.of_measure Kept State.cost ?_ ?_ ?_ kept
    · exact fun s action next kept _ taken => kept.step taken
    · exact fun s kept => kept.progress
    · exact fun s action next kept _ taken => kept.cost_lt taken

/-- The conversation from its start. -/
theorem whole_conversation_cleared
    : (system cleared cleared).Inevitable WholeReads Over (start cleared cleared) := by
  have first : (system cleared cleared).ReachableBy WholeReads (start cleared cleared) :=
    .initial rfl
  exact (whole_conversation first).2.2

end LinuxStudy.SocketIpc.WithClient
