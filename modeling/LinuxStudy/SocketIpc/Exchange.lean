import LinuxStudy.SocketIpc.WithClient

/-! What both sides of the conversation of `client_func` and `server_func` can rely on, however
the stream between them is cut into results.
-/

namespace LinuxStudy.SocketIpc

open Transition Posix

/-- A string without NULs is found in front of zeros only if it stands there. -/
theorem eq_of_strcmpIs {chunk string : Bytes} {n : Nat} (nulFree : 0 ∉ chunk)
    (plain : 0 ∉ string) (same : strcmpIs (chunk ++ List.replicate n 0) string = some true)
    : chunk = string := by
  induction chunk generalizing string with
  | nil =>
      cases string with
      | nil => rfl
      | cons char string =>
          have other : 0 ≠ char := fun zero => plain (zero ▸ List.mem_cons_self)
          cases n with
          | zero => simp [strcmpIs] at same
          | succ n => simp [List.replicate_succ, strcmpIs, other] at same
  | cons byte chunk ih =>
      cases string with
      | nil =>
          have other : byte ≠ 0 := fun zero => nulFree (zero ▸ List.mem_cons_self)
          simp [strcmpIs, other] at same
      | cons char string =>
          rw [List.cons_append, strcmpIs] at same
          split at same
          next equal =>
            rw [equal, ih (fun member => nulFree (List.mem_cons_of_mem _ member))
              (fun member => plain (List.mem_cons_of_mem _ member)) same]
          next => simp at same

namespace WithClient

variable {memory own : Memory} {s next : State}

-----------------------------------------------------------------------------------------
-- The steps
-----------------------------------------------------------------------------------------

inductive Move (s : State) : Action → State → Prop
  | sendHello {server} (here : s.client.pc = .sendHello) (there : s.server.pc.left = false)
    (arrived : arrive s.server helloText = some server)
    : Move s (.client .send)
        { server
          client := { s.client with
            buffer := overwrite s.client.buffer (helloText ++ [0])
            pc := .recvReply } }
  | sendEof {server} (here : s.client.pc = .sendEof) (there : s.server.pc.left = false)
    (arrived : arrive s.server eofText = some server)
    : Move s (.client .send)
        { server
          client := { s.client with
            buffer := overwrite s.client.buffer (eofText ++ [0])
            pc := .recvEnd } }
  | sendDies {buffer} (here : s.client.pc = .sendHello ∨ s.client.pc = .sendEof)
    (left : s.server.pc.left = true)
    : Move s (.client .send) (die { s with client := { s.client with buffer } })
  | recv {n} (here : s.client.pc.receives = true) (some : 0 < n)
    (available : n ≤ s.client.unread.length) (fits : n ≤ bufferSize)
    : Move s (.client (.recv n))
        { s with
          client := { s.client with
            buffer := overwrite (List.replicate bufferSize 0) (s.client.unread.take n)
            unread := s.client.unread.drop n
            pc := s.client.pc.next } }
  | recvNothing (here : s.client.pc.receives = true) (empty : s.client.unread = [])
    (left : s.server.pc.left = true)
    : Move s (.client .recvNothing)
        { s with
          client := { s.client with
            buffer := List.replicate bufferSize 0
            pc := s.client.pc.next } }
  | recvDies (here : s.client.pc.receives = true) (left : s.server.pc.left = true)
    (unread : s.server.unread ≠ [])
    : Move s (.client .recvFails) (die s)
  | print (here : s.client.pc.prints = true)
    : Move s (.client .print)
        { s with
          client := { s.client with
            printed := s.client.printed ++ (stringIn s.client.buffer).toList
            beyond := s.client.beyond || (stringIn s.client.buffer).isNone
            pc := s.client.pc.next } }
  | close {server} (here : s.client.pc = .close)
    (closed : SocketIpc.close s.server = some server)
    : Move s (.client .close) { server, client := { s.client with pc := .gone } }
  | server {action server} (reset : action = .recvError → s.client.unread ≠ [])
    (taken : SocketIpc.step s.server action.alone = some server)
    : Move s (.server action)
        { server
          client :=
            if action = .send ∧ s.server.gone = false then
              { s.client with unread := s.client.unread ++ okText }
            else s.client }

theorem Move.of_step {action : Action} (taken : step s action = some next)
    : Move s action next := by
  cases action with
  | client action =>
      cases action with
      | send =>
          simp only [step, clientFunc] at taken
          split at taken
          next here =>
            simp only [WithClient.send] at taken
            split at taken
            next left => exact Option.some.inj taken ▸ .sendDies (.inl here) left
            next there =>
              obtain ⟨server, arrived, rfl⟩ := Option.map_eq_some_iff.mp taken
              exact .sendHello here (by simpa using there) arrived
          next here =>
            simp only [WithClient.send] at taken
            split at taken
            next left => exact Option.some.inj taken ▸ .sendDies (.inr here) left
            next there =>
              obtain ⟨server, arrived, rfl⟩ := Option.map_eq_some_iff.mp taken
              exact .sendEof here (by simpa using there) arrived
          next => contradiction
      | recv n =>
          obtain ⟨⟨here, some, available, fits⟩, same⟩ := Option.ite_none_right_eq_some.mp taken
          exact Option.some.inj same ▸ .recv here some available fits
      | recvNothing =>
          obtain ⟨⟨here, empty, left⟩, same⟩ := Option.ite_none_right_eq_some.mp taken
          exact Option.some.inj same ▸ .recvNothing here empty left
      | recvFails =>
          obtain ⟨⟨here, left, unread⟩, same⟩ := Option.ite_none_right_eq_some.mp taken
          exact Option.some.inj same ▸ .recvDies here left unread
      | print =>
          obtain ⟨here, same⟩ := Option.ite_none_right_eq_some.mp taken
          exact Option.some.inj same ▸ .print here
      | close =>
          obtain ⟨here, taken⟩ := Option.ite_none_right_eq_some.mp taken
          obtain ⟨server, closed, rfl⟩ := Option.map_eq_some_iff.mp taken
          exact .close here closed
  | server action =>
      obtain ⟨reset, taken⟩ := Option.ite_none_left_eq_some.mp taken
      obtain ⟨server, ran, rfl⟩ := Option.map_eq_some_iff.mp taken
      exact .server (fun fails empty => reset ⟨fails, empty⟩) ran

-----------------------------------------------------------------------------------------
-- What is known of the conversation
-----------------------------------------------------------------------------------------

/-- What the client has sent. -/
def ClientPc.sent : ClientPc → Bytes
  | .sendHello => []
  | .recvReply | .printReply | .sendEof => helloText
  | .recvEnd | .printEnd | .close | .gone | .dead => helloText ++ eofText

/-- How many texts the client has shown. -/
def ClientPc.shown : ClientPc → Nat
  | .sendHello | .recvReply | .printReply => 0
  | .sendEof | .recvEnd | .printEnd => 1
  | .close | .gone | .dead => 2

/-- Received and about to be shown. -/
def Client.held (client : Client) : Bytes :=
  if client.pc.prints then cString client.buffer else []

/-- The answers that a log lists. -/
def answers (log : List Entry) : Bytes := (List.replicate (log.count .ok) okText).flatten

/-- A result that is not answered yet. -/
def owed : Pc → Nat
  | .strcmp | .print | .send => 1
  | _ => 0

structure Kept (s : State) : Prop where
  underway : Underway s.server
  up : received s.server.log ++ s.server.unread = s.client.pc.sent
  down : s.client.printed.flatten ++ s.client.held ++ s.client.unread = answers s.server.log
  alive : s.client.pc ≠ .dead
  gone : s.server.gone = true ↔ s.client.pc = .gone
  eof : s.server.eof = s.server.gone
  shown : s.client.printed.length = s.client.pc.shown
  inside : s.client.beyond = false
  terminated : s.client.pc.prints = true → 0 ∈ s.client.buffer
  silent : .result [] ∈ s.server.log → s.server.gone = true
  compared
    : s.server.pc = .strcmp
      → ∃ log chunk,
          s.server.log = log ++ [.result chunk]
          ∧ s.server.buffer = overwrite (List.replicate bufferSize 0) chunk
  ended : s.server.pc = .ended → ∃ log, s.server.log = log ++ [.result eofText]
  atEof
    : .result eofText ∈ s.server.log
      → s.server.pc = .ended
        ∨ s.server.pc = .strcmp ∧ ∃ log, s.server.log = log ++ [.result eofText]
  killed : s.server.pc = .dead → s.server.gone = true
  answered
    : helloText.length < (received s.server.log).length
      → s.server.pc.left = false
      → s.client.pc = .recvEnd
      → s.client.printed.flatten.length < 2 * (s.server.log.count .ok + owed s.server.pc)

-----------------------------------------------------------------------------------------
-- Streams and answers
-----------------------------------------------------------------------------------------

theorem received_append (front rest : List Entry)
    : received (front ++ rest) = received front ++ received rest := by
  induction front with
  | nil => rfl
  | cons entry front ih => cases entry <;> simp [received, ih]

theorem countP_isData_le (log : List Entry) : log.countP Entry.isData ≤ (received log).length := by
  induction log with
  | nil => exact Nat.le_refl 0
  | cons entry log ih =>
      cases entry with
      | result bytes =>
          cases bytes with
          | nil => simpa [received, Entry.isData] using ih
          | cons byte bytes =>
              simp only [received, Entry.isData, List.countP_cons, List.length_append,
                List.length_cons]
              simp
              omega
      | ok => simpa [received, Entry.isData] using ih

theorem length_answers (log : List Entry) : (answers log).length = 2 * log.count .ok := by
  simp [answers, okText, Nat.mul_comm]

theorem answers_nulFree (log : List Entry) : 0 ∉ answers log := by
  intro member
  obtain ⟨piece, listed, inside⟩ := List.mem_flatten.mp member
  obtain rfl := List.eq_of_mem_replicate listed
  exact absurd inside (by decide)

theorem ClientPc.length_sent (pc : ClientPc) : pc.sent.length ≤ 16 := by
  cases pc <;> decide

/-- `EOF` stands at the end of what the client sends and nowhere else. -/
theorem rest_of_eof {front rest : Bytes} {pc : ClientPc}
    (split : front ++ eofText ++ rest = pc.sent)
    : rest = [] ∧ pc.sent = helloText ++ eofText := by
  cases pc with
  | sendHello => simp [ClientPc.sent, eofText] at split
  | recvReply | printReply | sendEof =>
      have inside : eofText <:+: helloText := ⟨front, rest, split⟩
      exact absurd inside (by decide)
  | recvEnd | printEnd | close | gone | dead =>
      refine ⟨?_, rfl⟩
      have length := congrArg List.length split
      simp only [ClientPc.sent, List.length_append] at length
      have others : ∀ n < 13, ¬ eofText <+: (helloText ++ eofText).drop n := by decide
      by_contra more
      have positive := List.length_pos_of_ne_nil more
      refine others front.length (by simp [eofText, helloText] at length; omega) ⟨rest, ?_⟩
      change front ++ eofText ++ rest = helloText ++ eofText at split
      rw [← split, List.append_assoc, List.drop_left]

-----------------------------------------------------------------------------------------
-- The client's statements
-----------------------------------------------------------------------------------------

/-- When the server has left, the client has sent all it has to say, and the server has read
it or the client is gone.
-/
theorem Kept.of_left (kept : Kept s) (left : s.server.pc.left = true)
    : s.client.pc.sent = helloText ++ eofText
      ∧ (s.server.unread = [] ∨ s.client.pc = .gone) := by
  cases here : s.server.pc with
  | ended =>
      obtain ⟨log, last⟩ := kept.ended here
      have split := kept.up
      rw [last, received_append, show received [.result eofText] = eofText from rfl] at split
      obtain ⟨empty, sent⟩ := rest_of_eof split
      exact ⟨sent, .inl empty⟩
  | dead =>
      have gone := kept.gone.mp (kept.killed here)
      exact ⟨by rw [gone]; rfl, .inr gone⟩
  | memset | recv | strcmp | print | send => simp [here, Pc.left] at left

/-- The server is there as long as the client has something to send. -/
theorem Kept.stays_of_sends (kept : Kept s)
    (here : s.client.pc = .sendHello ∨ s.client.pc = .sendEof)
    : ¬s.server.pc.left = true := by
  intro left
  have sent := (kept.of_left left).1
  rcases here with here | here <;> rw [here] at sent <;> exact absurd sent (by decide)

/-- A server that has left while the client receives has read everything. -/
theorem Kept.read_of_receives (kept : Kept s) (here : s.client.pc.receives = true)
    (left : s.server.pc.left = true)
    : s.server.unread = [] := by
  refine (kept.of_left left).2.resolve_right fun gone => ?_
  simp [gone, ClientPc.receives] at here

/-- As long as the client is there, its socket is open. -/
theorem Kept.there (kept : Kept s) (here : s.client.pc ≠ .gone) : s.server.gone = false := by
  simpa using kept.gone.not.mpr here

/-- The client receives or prints. -/
theorem Kept.of_client (kept : Kept s) {client : Client}
    (place : s.client.pc ≠ .gone ∧ client.pc ≠ .gone ∧ client.pc ≠ .dead ∧ client.pc ≠ .recvEnd)
    (sent : client.pc.sent = s.client.pc.sent)
    (stream
      : client.printed.flatten ++ client.held ++ client.unread
        = s.client.printed.flatten ++ s.client.held ++ s.client.unread)
    (shown : client.printed.length = client.pc.shown) (inside : client.beyond = false)
    (terminated : client.pc.prints = true → 0 ∈ client.buffer)
    : Kept { s with client } where
  underway := kept.underway
  up := kept.up.trans sent.symm
  down := stream.trans kept.down
  alive := place.2.2.1
  gone := by simp [kept.there place.1, place.2.1]
  eof := kept.eof
  shown := shown
  inside := inside
  terminated := terminated
  silent := kept.silent
  compared := kept.compared
  ended := kept.ended
  atEof := kept.atEof
  killed := kept.killed
  answered _ _ here := absurd here place.2.2.2

/-- The client sends the next of its two texts. -/
theorem Kept.of_send (kept : Kept s) {server : SocketIpc.State} {text buffer : Bytes}
    {behind : ClientPc} (arrived : arrive s.server text = some server)
    (place
      : s.client.pc = .sendHello ∧ behind = .recvReply
        ∨ s.client.pc = .sendEof ∧ behind = .recvEnd)
    (sent : s.client.pc.sent ++ text = behind.sent)
    : Kept { server, client := { s.client with buffer, pc := behind } } := by
  have permitted : Meets s.server (.arrive text) := trivial
  have underway := kept.underway.step permitted arrived
  obtain ⟨_, same⟩ := Option.ite_none_right_eq_some.mp arrived
  obtain rfl := Option.some.inj same
  have short : (received s.server.log).length ≤ helloText.length := by
    have front := congrArg List.length kept.up
    rw [List.length_append] at front
    rcases place with ⟨here, _⟩ | ⟨here, _⟩ <;>
      rw [here] at front <;> simp only [ClientPc.sent, List.length_nil] at front <;> omega
  have there : s.server.gone = false := kept.there (by rcases place with h | h <;> simp [h.1])
  have down := kept.down
  have shown := kept.shown
  have quiet : s.client.held = [] := by
    rcases place with h | h <;> simp [Client.held, h.1, ClientPc.prints]
  rw [quiet] at down
  refine ⟨underway, ?_, ?_, ?_, ?_, kept.eof, ?_, kept.inside, ?_, kept.silent, kept.compared,
    kept.ended, kept.atEof, kept.killed, fun long => absurd short (Nat.not_le.mpr long)⟩
  · simp only [← sent, ← kept.up, List.append_assoc]
  · rcases place with ⟨_, rfl⟩ | ⟨_, rfl⟩ <;> exact down
  · rcases place with ⟨_, rfl⟩ | ⟨_, rfl⟩ <;> simp
  · rcases place with ⟨_, rfl⟩ | ⟨_, rfl⟩ <;> simp [there]
  · rcases place with ⟨here, rfl⟩ | ⟨here, rfl⟩ <;> rw [here] at shown <;> exact shown
  · rcases place with ⟨_, rfl⟩ | ⟨_, rfl⟩ <;> simp [ClientPc.prints]

/-- The answers that have arrived fit into the buffer with a NUL behind them. -/
theorem Kept.short_unread (kept : Kept s) : s.client.unread.length < bufferSize := by
  have once := Nat.le_trans kept.underway.proper.once (countP_isData_le s.server.log)
  have up := congrArg List.length kept.up
  have down := congrArg List.length kept.down
  have sent := s.client.pc.length_sent
  simp only [List.length_append, length_answers] at up down
  simp only [bufferSize]
  omega

theorem Kept.client {action : ClientAction} (kept : Kept s) (move : Move s (.client action) next)
    : Kept next := by
  cases move with
  | sendHello here _ arrived =>
      exact kept.of_send arrived (.inl ⟨here, rfl⟩) (by simp [here, ClientPc.sent])
  | sendEof here _ arrived =>
      exact kept.of_send arrived (.inr ⟨here, rfl⟩) (by simp [here, ClientPc.sent])
  | sendDies here left => exact absurd left (kept.stays_of_sends here)
  | recvDies here left unread => exact absurd (kept.read_of_receives here left) unread
  | @recv n here some available fits =>
      have length : (s.client.unread.take n).length = n := List.length_take_of_le available
      have free : 0 ∉ s.client.unread.take n := fun member => answers_nulFree s.server.log <|
        kept.down ▸ List.mem_append_right _ (List.mem_of_mem_take member)
      have short : (s.client.unread.take n).length < bufferSize := by
        have bound := kept.short_unread
        omega
      have string := cString_overwrite_zeros free short
      have shown := kept.shown
      have terminated : 0 ∈ overwrite (List.replicate bufferSize 0) (s.client.unread.take n) :=
        zero_mem_overwrite (Nat.le_of_lt short) fun full => absurd full (Nat.ne_of_lt short)
      cases place : s.client.pc <;> simp only [place, ClientPc.receives] at here <;>
        try contradiction
      case recvReply | recvEnd =>
        refine kept.of_client (by simp [place, ClientPc.next])
          (by simp [place, ClientPc.next, ClientPc.sent]) ?_ ?_ kept.inside fun _ => terminated
        · simp [Client.held, place, ClientPc.next, ClientPc.prints, string]
        · simpa [place, ClientPc.next, ClientPc.shown] using shown
  | recvNothing here empty left =>
      have shown := kept.shown
      cases place : s.client.pc <;> simp only [place, ClientPc.receives] at here <;>
        try contradiction
      case recvReply | recvEnd =>
        refine kept.of_client (by simp [place, ClientPc.next])
          (by simp [place, ClientPc.next, ClientPc.sent]) ?_ ?_ kept.inside
          fun _ => List.mem_replicate.mpr ⟨by decide, rfl⟩
        · simp [Client.held, place, ClientPc.next, ClientPc.prints, cString, bufferSize]
        · simpa [place, ClientPc.next, ClientPc.shown] using shown
  | print here =>
      have terminated := kept.terminated here
      have shown := kept.shown
      cases place : s.client.pc <;> simp only [place, ClientPc.prints] at here <;>
        try contradiction
      case printReply | printEnd =>
        refine kept.of_client (by simp [place, ClientPc.next])
          (by simp [place, ClientPc.next, ClientPc.sent]) ?_ ?_ ?_ ?_
        · simp [Client.held, place, ClientPc.next, ClientPc.prints, stringIn, terminated]
        · simpa [place, ClientPc.next, ClientPc.shown, stringIn, terminated] using shown
        · simp [kept.inside, stringIn, terminated]
        · simp [ClientPc.next, ClientPc.prints]
  | close here closed =>
      have permitted : Meets s.server .close := trivial
      have underway := kept.underway.step permitted closed
      obtain ⟨_, same⟩ := Option.ite_none_right_eq_some.mp closed
      obtain rfl := Option.some.inj same
      have up := kept.up
      have down := kept.down
      have shown := kept.shown
      rw [here] at up shown
      simp only [Client.held, here, ClientPc.prints] at down
      exact
        { underway
          up
          down
          alive := by simp
          gone := by simp
          eof := rfl
          shown
          inside := kept.inside
          terminated := by simp [ClientPc.prints]
          silent := fun _ => rfl
          compared := kept.compared
          ended := kept.ended
          atEof := kept.atEof
          killed := fun _ => rfl
          answered := fun _ _ there => by simp at there }

-----------------------------------------------------------------------------------------
-- The server's statements
-----------------------------------------------------------------------------------------

theorem answers_append (log : List Entry) (entry : Entry)
    : answers (log ++ [entry]) = answers log ++ if entry = .ok then okText else [] := by
  cases entry with
  | result bytes => simp [answers, List.count_append]
  | ok => simp [answers, List.count_append, List.replicate_add]

/-- `strcmp` finds `EOF` in front of zeros. -/
theorem strcmpIs_eofText
    : strcmpIs (overwrite (List.replicate bufferSize 0) eofText) eofText = some true := by
  decide

theorem Kept.nulFree (kept : Kept s) : 0 ∉ received s.server.log := by
  intro member
  have sent : 0 ∈ s.client.pc.sent := kept.up ▸ List.mem_append_left _ member
  cases here : s.client.pc <;> rw [here] at sent <;> exact absurd sent (by decide)

/-- `EOF` is no result as long as the loop goes on, except when it is about to be compared. -/
theorem Kept.eof_notMem (kept : Kept s) (here : s.server.pc ≠ .ended)
    (place : s.server.pc ≠ .strcmp)
    : Entry.result eofText ∉ s.server.log := by
  intro member
  rcases kept.atEof member with ended | ⟨there, _⟩
  · exact here ended
  · exact place there

/-- What the server does meets the condition on its steps. -/
theorem Kept.meets (kept : Kept s) {action : ServerAction} {server : SocketIpc.State}
    (taken : SocketIpc.step s.server action.alone = some server)
    : Meets s.server action.alone := by
  cases action with
  | recvData n =>
      obtain ⟨⟨_, _, available, _⟩, _⟩ := Option.ite_none_right_eq_some.mp taken
      have up := congrArg List.length kept.up
      have sent := s.client.pc.length_sent
      rw [List.length_append] at up
      intro full
      simp only [bufferSize] at full
      omega
  | send =>
      obtain ⟨here, _⟩ := Option.ite_none_right_eq_some.mp taken
      obtain ⟨front, last, log, _, at_⟩ := kept.underway.log
      rw [here] at at_
      obtain ⟨bytes, rfl, length⟩ := at_
      intro none
      have empty : bytes = [] := List.eq_nil_of_length_eq_zero (length.trans none)
      refine kept.silent ?_
      rw [log, empty]
      exact List.mem_append_right _ List.mem_cons_self
  | memset | recvEnd | recvError | strcmp | print => trivial

/-- The server neither receives nor sends. -/
theorem Kept.of_server (kept : Kept s) {server : SocketIpc.State} (underway : Underway server)
    (same
      : server.unread = s.server.unread ∧ server.log = s.server.log
        ∧ server.gone = s.server.gone ∧ server.eof = s.server.eof)
    (place : server.pc ≠ .strcmp)
    (ended : server.pc = .ended → ∃ log, server.log = log ++ [.result eofText])
    (atEof : .result eofText ∈ server.log → server.pc = .ended)
    (killed : server.pc = .dead → server.gone = true)
    (goes : server.pc.left = false → s.server.pc.left = false ∧ owed server.pc = owed s.server.pc)
    : Kept { s with server } := by
  obtain ⟨unread, log, gone, eof⟩ := same
  exact
    { underway
      up := by rw [unread, log]; exact kept.up
      down := by rw [log]; exact kept.down
      alive := kept.alive
      gone := by rw [gone]; exact kept.gone
      eof := by rw [gone, eof]; exact kept.eof
      shown := kept.shown
      inside := kept.inside
      terminated := kept.terminated
      silent := by rw [gone, log]; exact kept.silent
      compared := fun here => absurd here place
      ended
      atEof := fun member => .inl (atEof member)
      killed
      answered := fun long left here => by
        rw [log] at long ⊢
        rw [(goes left).2]
        exact kept.answered long (goes left).1 here }

/-- `recv` gets a chunk of what has arrived, or it finds the end of the stream. -/
theorem Kept.of_result (kept : Kept s) {chunk rest buffer : Bytes} {result : Nat}
    (underway
      : Underway
          { s.server with
            unread := rest
            buffer
            result
            log := s.server.log ++ [.result chunk]
            pc := .strcmp })
    (here : s.server.pc = .recv) (stored : buffer = overwrite s.server.buffer chunk)
    (split : chunk ++ rest = s.server.unread) (silent : chunk = [] → s.server.gone = true)
    : Kept
        { s with
          server :=
            { s.server with
              unread := rest
              buffer
              result
              log := s.server.log ++ [.result chunk]
              pc := .strcmp } } := by
  have free := kept.eof_notMem (by simp [here]) (by simp [here])
  have same : answers (s.server.log ++ [.result chunk]) = answers s.server.log := by
    simp [answers_append]
  obtain ⟨_, last, _, _, at_⟩ := kept.underway.log
  rw [here] at at_
  refine ⟨underway, ?_, ?_, kept.alive, kept.gone, kept.eof, kept.shown, kept.inside,
    kept.terminated, ?_, ?_, ?_, ?_, ?_, ?_⟩
  · rw [received_append, ← kept.up, ← split]
    simp [received]
  · rw [same]
    exact kept.down
  · intro member
    rcases List.mem_append.mp member with before | now
    · exact kept.silent before
    · exact silent (by simpa using Eq.symm (List.mem_singleton.mp now))
  · exact fun _ => ⟨_, chunk, rfl, at_.2 ▸ stored⟩
  · simp
  · intro member
    rcases List.mem_append.mp member with before | now
    · exact absurd before free
    · exact .inr ⟨rfl, _, by rw [List.mem_singleton.mp now]⟩
  · simp
  · intro _ _ _
    have down := congrArg List.length kept.down
    simp only [List.length_append, length_answers] at down
    simp only [owed, List.count_append]
    omega

/-- The answer arrives at a client that is there. -/
theorem Kept.of_answer (kept : Kept s) {buffer : Bytes}
    (underway
      : Underway { s.server with buffer, log := s.server.log ++ [.ok], pc := .memset })
    (here : s.server.pc = .send)
    : Kept
        { s with
          server := { s.server with buffer, log := s.server.log ++ [.ok], pc := .memset }
          client := { s.client with unread := s.client.unread ++ okText } } := by
  have free := kept.eof_notMem (by simp [here]) (by simp [here])
  have same : received (s.server.log ++ [.ok]) = received s.server.log := by
    simp [received_append, received]
  refine ⟨underway, ?_, ?_, kept.alive, kept.gone, kept.eof, kept.shown, kept.inside,
    kept.terminated, ?_, ?_, ?_, ?_, ?_, ?_⟩
  · rw [same]
    exact kept.up
  · rw [answers_append, ← kept.down]
    simp [Client.held]
  · intro member
    exact kept.silent (by simpa using member)
  · simp
  · simp
  · intro member
    exact absurd (by simpa using member) free
  · simp
  · intro long left place
    rw [same] at long
    have before := kept.answered long (by rw [here]; rfl) place
    simp only [here, owed, List.count_append] at before ⊢
    simpa using before

theorem Kept.server {action : ServerAction} (kept : Kept s) (move : Move s (.server action) next)
    : Kept next := by
  cases move with
  | @server _ server reset taken =>
      have underway := kept.underway.step (kept.meets taken) taken
      cases action with
      | memset =>
          cases SocketIpc.Move.of_step taken with
          | memset here =>
              have free := kept.eof_notMem (by simp [here]) (by simp [here])
              refine kept.of_server underway ⟨rfl, rfl, rfl, rfl⟩ ?_ ?_ ?_ ?_ ?_
              · simp
              · simp
              · exact fun member => absurd member free
              · simp
              · simp [here, Pc.left, owed]
      | recvError =>
          cases SocketIpc.Move.of_step taken with
          | recvError here gone =>
              have free := kept.eof_notMem (by simp [here]) (by simp [here])
              refine kept.of_server underway ⟨rfl, rfl, rfl, rfl⟩ ?_ ?_ ?_ ?_ ?_
              · simp
              · simp
              · exact fun member => absurd member free
              · exact fun _ => gone
              · simp [Pc.left]
      | strcmp =>
          cases SocketIpc.Move.of_step taken with
          | strcmpSame here same =>
              obtain ⟨log, chunk, last, buffer⟩ := kept.compared here
              have free : 0 ∉ chunk := fun member => kept.nulFree <| by
                rw [last, received_append]
                simp [received, member]
              rw [buffer, overwrite] at same
              rw [List.drop_replicate] at same
              obtain rfl := eq_of_strcmpIs free (by decide) same
              refine kept.of_server underway ⟨rfl, rfl, rfl, rfl⟩ ?_ ?_ ?_ ?_ ?_
              · simp
              · exact fun _ => ⟨log, last⟩
              · exact fun _ => rfl
              · simp
              · simp [Pc.left]
          | strcmpOther here other =>
              have free : Entry.result eofText ∉ s.server.log := by
                intro member
                rcases kept.atEof member with ended | ⟨_, log, last⟩
                · simp [here] at ended
                · obtain ⟨log', chunk, last', buffer⟩ := kept.compared here
                  have same := (List.append_inj' (last.symm.trans last') rfl).2
                  obtain rfl : eofText = chunk := by simpa using same
                  rw [buffer, strcmpIs_eofText] at other
                  simp at other
              refine kept.of_server underway ⟨rfl, rfl, rfl, rfl⟩ ?_ ?_ ?_ ?_ ?_
              · simp
              · simp
              · exact fun member => absurd member free
              · simp
              · simp [here, Pc.left, owed]
          | strcmpBeyond here beyond =>
              have inside := underway.inside
              simp at inside
      | print =>
          cases SocketIpc.Move.of_step taken with
          | print here =>
              have free := kept.eof_notMem (by simp [here]) (by simp [here])
              refine kept.of_server underway ⟨rfl, rfl, rfl, rfl⟩ ?_ ?_ ?_ ?_ ?_
              · simp
              · simp
              · exact fun member => absurd member free
              · simp
              · simp [here, Pc.left, owed]
      | send =>
          cases SocketIpc.Move.of_step taken with
          | sendFails here gone =>
              have free := kept.eof_notMem (by simp [here]) (by simp [here])
              rw [if_neg (by simp [gone])]
              refine kept.of_server underway ⟨rfl, rfl, rfl, rfl⟩ ?_ ?_ ?_ ?_ ?_
              · simp
              · simp
              · exact fun member => absurd member free
              · exact fun _ => gone
              · simp [Pc.left]
          | send here there =>
              rw [if_pos (by simpa using there)]
              exact kept.of_answer underway here
      | recvData n =>
          cases SocketIpc.Move.of_step taken with
          | recvData here some available fits =>
              have arrived : s.server.unread ≠ [] :=
                List.ne_nil_of_length_pos (Nat.lt_of_lt_of_le some available)
              rw [if_neg (by simp)]
              refine kept.of_result underway here rfl (List.take_append_drop n _) ?_
              simp [Nat.ne_of_gt some, arrived]
      | recvEnd =>
          cases SocketIpc.Move.of_step taken with
          | recvEnd here empty ended =>
              rw [if_neg (by simp)]
              refine kept.of_result underway here ?_ (by simp [empty]) ?_
              · simp [overwrite]
              · exact fun _ => kept.eof ▸ ended

theorem Kept.step {action : Action} (kept : Kept s) (taken : step s action = some next)
    : Kept next := by
  have move := Move.of_step taken
  cases action with
  | client action => exact kept.client move
  | server action => exact kept.server move

theorem kept_start (memory own : Memory) : Kept (start memory own) where
  underway := underway_start memory
  up := rfl
  down := rfl
  alive := by simp [start]
  gone := by simp [start, SocketIpc.start]
  eof := rfl
  shown := rfl
  inside := rfl
  terminated := by simp [start, ClientPc.prints]
  silent := by simp [start, SocketIpc.start]
  compared := by simp [start, SocketIpc.start]
  ended := by simp [start, SocketIpc.start]
  atEof := by simp [start, SocketIpc.start]
  killed := by simp [start, SocketIpc.start]
  answered long := by simp [start, SocketIpc.start, received] at long

theorem Kept.of_reachable (reached : (system memory own).Reachable s) : Kept s := by
  refine System.Reachable.invariant (fun s first => ?_) (fun s action next => ?_) reached
  · rw [show s = start memory own from first]
    exact kept_start memory own
  · exact Kept.step

end WithClient

end LinuxStudy.SocketIpc
