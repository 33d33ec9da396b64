import LinuxStudy.UdpConn.Server

/-! Which datagrams `udp_conn_server.c` answers. Its loop cannot tell an empty datagram from
an error nor `"EOF"` with more bytes behind a NUL from the end mark, and a datagram that fills
the buffer leaves no room for the terminator.
-/

namespace LinuxStudy.UdpConn

open Posix

variable {Address : Type}

/-- The requests before the first one that is exactly the end mark. -/
def beforeEof (requests : List (Request Address)) : List (Request Address) :=
  requests.takeWhile fun request => request.payload ≠ eof

/-- A datagram that the loop handles as one of many. -/
structure Request.Plain (request : Request Address) : Prop where
  nonempty : request.payload ≠ []
  room : request.payload.length < bufSize
  noMark : cString request.payload ≠ eof
  granted : request.refused = false

/-- One `"OK"` for each datagram before the end mark, to its sender and in order; the loop
ends at the end mark and nowhere else; and no byte is stored outside the buffer.
-/
structure Server.Answers (s final : Server Address) (requests : List (Request Address)) : Prop where
  sent : final.sent = s.sent ++ (beforeEof requests).map fun request => (request.sender, ok)
  loop
    : if ∃ request ∈ requests, request.payload = eof then
        final.pc = .left ∧ final.received = s.received + (beforeEof requests).length + 1
      else final.pc = .recvfrom ∧ final.received = s.received + requests.length
  inside : final.outside = false

section Round

variable {s : Server Address} {request : Request Address}

/-- The buffer behind `recvfrom` of a datagram that fits, and its terminator. -/
def filled (payload : Bytes) : Bytes :=
  (overwrite (List.replicate bufSize 0) payload).set payload.length 0

/-- It holds the payload as a string. -/
theorem cString_filled {payload : Bytes} (room : payload.length < bufSize)
    : cString (filled payload) = cString payload := by
  have size : (overwrite (List.replicate bufSize 0) payload).length = bufSize := by
    rw [length_overwrite (by simpa using Nat.le_of_lt room), List.length_replicate]
  rw [filled, cString_set_zero (by rwa [size]), take_overwrite]

/-- `strcpy` leaves `"OK"` in the buffer, whatever was in it. -/
theorem cString_ok (buffer : Bytes) : cString (overwrite buffer (ok ++ [0])) = ok := by
  rw [overwrite, List.append_assoc]
  exact cString_append_zero (by decide)

/-- A round with a datagram that fits and is not empty. -/
theorem Server.round_eq (nonempty : request.payload ≠ [])
    (room : request.payload.length < bufSize)
    : s.round request
      = let terminated : Server Address :=
          { s with
            buffer := filled request.payload
            received := s.received + 1
            pc := .test request.payload.length request.sender }
        if cString request.payload ≠ eof then terminated.reply request.sender request.refused
        else { terminated with pc := .left } := by
  have whole : request.payload.take bufSize = request.payload :=
    List.take_of_length_le (Nat.le_of_lt room)
  have length : min request.payload.length bufSize = request.payload.length :=
    Nat.min_eq_left (Nat.le_of_lt room)
  have some : 0 < request.payload.length := List.length_pos_iff.mpr nonempty
  have inside : (s.outside || decide (bufSize ≤ request.payload.length)) = s.outside := by
    simp [Nat.not_le.mpr room]
  have string := cString_filled room
  rw [filled] at string
  simp only [Server.round, Server.receive, Server.respond, Server.store, whole, length, some,
    if_true, inside, string, filled]

/-- A plain datagram is answered. -/
theorem Server.round_plain (plain : request.Plain)
    : (s.round request).sent = s.sent ++ [(request.sender, ok)]
      ∧ (s.round request).pc = .recvfrom
      ∧ (s.round request).received = s.received + 1
      ∧ (s.round request).outside = s.outside := by
  rw [Server.round_eq plain.nonempty plain.room]
  simp [plain.noMark, Server.reply, plain.granted, cString_ok]

/-- The end mark ends the loop. -/
theorem Server.round_eof (mark : request.payload = eof)
    : (s.round request).sent = s.sent
      ∧ (s.round request).pc = .left
      ∧ (s.round request).received = s.received + 1
      ∧ (s.round request).outside = s.outside := by
  rw [Server.round_eq (by simp [mark, eof]) (by simp [mark, eof, bufSize])]
  have same : cString request.payload = eof := by
    rw [mark]
    decide
  simp [same]

/-- Any other datagram goes unanswered and ends the loop, or a byte is stored outside. -/
theorem Server.round_other (other : ¬request.Plain)
    : (s.round request).outside = true
      ∨ (s.round request).sent = s.sent ∧ (s.round request).pc ≠ .recvfrom := by
  by_cases empty : request.payload = []
  · refine Or.inr ?_
    simp [Server.round, Server.receive, Server.respond, empty]
  by_cases room : request.payload.length < bufSize
  · refine Or.inr ?_
    rw [Server.round_eq empty room]
    by_cases mark : cString request.payload = eof
    · simp [mark]
    · have refused : request.refused = true := by
        by_contra granted
        exact other ⟨empty, room, mark, by simpa using granted⟩
      simp [mark, Server.reply, refused]
  · refine Or.inl ?_
    have long : min request.payload.length bufSize = bufSize :=
      Nat.min_eq_right (Nat.not_lt.mp room)
    simp only [Server.round, Server.receive, Server.respond, long]
    rw [if_pos (by decide)]
    split <;> simp [Server.store, Server.reply]

end Round

section Loop

variable {s : Server Address} {requests : List (Request Address)}

/-- A store outside the buffer stays one. -/
theorem Server.outside_round (outside : s.outside = true) (request : Request Address)
    : (s.round request).outside = true := by
  unfold Server.round Server.receive Server.respond
  dsimp only
  split
  · split <;> simp [Server.store, Server.reply, outside]
  · exact outside

theorem Server.outside_serve (outside : s.outside = true)
    : (s.serve requests).outside = true := by
  induction requests generalizing s with
  | nil => exact outside
  | cons request rest ih =>
      rw [Server.serve]
      split
      · exact ih (Server.outside_round outside request)
      · exact outside

/-- Behind its loop the server receives nothing. -/
theorem Server.serve_of_left (left : s.pc ≠ .recvfrom) : s.serve requests = s := by
  cases requests with
  | nil => rfl
  | cons request rest =>
      rw [Server.serve]
      split
      next here => exact absurd here left
      next => rfl

/-- Behind the answer to the first datagram, the others are left to answer. -/
theorem Server.answers_cons {next final : Server Address} {request : Request Address}
    {rest : List (Request Address)} (other : request.payload ≠ eof)
    (sent : next.sent = s.sent ++ [(request.sender, ok)])
    (received : next.received = s.received + 1)
    : s.Answers final (request :: rest) ↔ next.Answers final rest := by
  have more : beforeEof (request :: rest) = request :: beforeEof rest := by
    simp [beforeEof, other]
  have answered
      : s.sent ++ (beforeEof (request :: rest)).map (fun request => (request.sender, ok))
        = next.sent ++ (beforeEof rest).map fun request => (request.sender, ok) := by
    rw [more, sent, List.map_cons, List.append_assoc, List.singleton_append]
  have found : (∃ other ∈ request :: rest, other.payload = eof)
      ↔ ∃ other ∈ rest, other.payload = eof := by
    simp [other]
  have last : s.received + (beforeEof (request :: rest)).length + 1
      = next.received + (beforeEof rest).length + 1 := by
    rw [more, received, List.length_cons]
    omega
  have all : s.received + (request :: rest).length = next.received + rest.length := by
    rw [received, List.length_cons]
    omega
  constructor
  · intro answers
    have loop := answers.loop
    rw [if_congr found rfl rfl, last, all] at loop
    exact ⟨answers.sent.trans answered, loop, answers.inside⟩
  · intro answers
    refine ⟨answers.sent.trans answered.symm, ?_, answers.inside⟩
    rw [if_congr found rfl rfl, last, all]
    exact answers.loop

/-- The answers are right exactly as long as every datagram before the end mark is plain, by
induction on the datagrams.
-/
theorem Server.answers_iff (here : s.pc = .recvfrom) (inside : s.outside = false)
    : s.Answers (s.serve requests) requests
      ↔ ∀ request ∈ beforeEof requests, request.Plain := by
  induction requests generalizing s with
  | nil =>
      refine ⟨fun _ request member => absurd member List.not_mem_nil, fun _ => ?_⟩
      constructor <;> simp [Server.serve, beforeEof, here, inside]
  | cons request rest ih =>
      have first : s.serve (request :: rest) = (s.round request).serve rest := by
        rw [Server.serve, here]
      rw [first]
      by_cases mark : request.payload = eof
      · obtain ⟨sent, left, received, outside⟩ := s.round_eof mark
        have none : beforeEof (request :: rest) = [] := by simp [beforeEof, mark]
        rw [none, Server.serve_of_left (by simp [left])]
        refine ⟨fun _ other member => absurd member List.not_mem_nil, fun _ => ?_⟩
        constructor
        · simp [sent, none]
        · simp [mark, left, received, none]
        · rw [outside, inside]
      · have more : beforeEof (request :: rest) = request :: beforeEof rest := by
          simp [beforeEof, mark]
        rw [more, List.forall_mem_cons]
        by_cases plain : request.Plain
        · obtain ⟨sent, goesOn, received, outside⟩ := s.round_plain plain
          have later := ih goesOn (outside.trans inside)
          rw [and_iff_right plain, ← later]
          exact Server.answers_cons mark sent received
        · refine ⟨fun answers => ?_, fun all => absurd all.1 plain⟩
          rcases s.round_other plain with outside | ⟨sent, left⟩
          · have wrong := @Server.outside_serve _ _ rest outside
            simp [answers.inside] at wrong
          · have answered := answers.sent
            rw [Server.serve_of_left left, sent, more] at answered
            simp at answered

end Loop

/-- For any datagrams from anybody: one `"OK"` goes to the sender of each datagram before the
end mark, the loop ends at that mark only and no store is outside the buffer, if and only if
none of these datagrams is empty, fills the buffer, hides the end mark before a NUL, or has a
sender to whom the kernel refuses to send.
-/
theorem oneReplyEach (memory : Bytes) (requests : List (Request Address))
    : (Server.start memory).Answers ((Server.start memory).serve requests) requests
      ↔ ∀ request ∈ beforeEof requests, request.Plain :=
  Server.answers_iff rfl rfl

/-- One empty datagram ends the loop as if it were the end mark. -/
theorem oneReplyEach_empty
    : ¬∀ (memory : Bytes) (requests : List (Request Nat)),
        (∀ request ∈ requests, request.refused = false)
        → (Server.start memory).Answers ((Server.start memory).serve requests) requests := by
  intro always
  have answers := always [] [⟨⟨0, [], Nat.zero_le _⟩, false⟩] (by simp)
  exact absurd answers.loop (by decide)

end LinuxStudy.UdpConn
