import LinuxStudy.SocketIpc.Model

/-! What the loop of `server_func` answers, and when it ends. A `recv` of 0 is handled like a
message: as long as the client only listens the loop goes round for ever.
-/

namespace LinuxStudy.SocketIpc

open Transition Posix

/-- The result brought some bytes. -/
def Entry.isData : Entry → Bool
  | .result bytes => !bytes.isEmpty
  | .ok => false

/-- At most one answer for each result that is not empty, none behind the end of the stream,
and no read behind the end of the buffer.
-/
structure Proper (s : State) : Prop where
  once : s.log.count .ok ≤ s.log.countP Entry.isData
  silent : ∀ before after, s.log = before ++ .result [] :: after → Entry.ok ∉ after
  inside : s.beyond = false

/-- The loop has been left. -/
def Pc.left : Pc → Bool
  | .ended | .dead => true
  | _ => false

/-- Every state is proper, and once the stream has ended the loop is left by some number of
steps, whatever they are.
-/
def ServesProperly (memory : Memory) : Prop :=
  ∀ s, (system memory).Reachable s
    → Proper s
      ∧ (s.eof = true
        → (system memory).Inevitable (fun _ _ => True) (fun s => s.pc.left = true) s)

/-- The condition on the steps: a `recv` that fills the buffer brings a NUL, and a client whose
stream has come to its end has closed its socket when it would be answered.
-/
def Meets (s : State) : Action → Prop
  | .recvData n => n = bufferSize → 0 ∈ s.unread.take n
  | .send => s.result = 0 → s.gone = true
  | _ => True

instance (s : State) (action : Action) : Decidable (Meets s action) := by
  unfold Meets
  split <;> infer_instance

-----------------------------------------------------------------------------------------
-- The steps
-----------------------------------------------------------------------------------------

/-- One step of the client or of the loop, with what its call gets. -/
inductive Move (s : State) : Action → State → Prop
  | arrive {bytes} (open_ : s.eof = false)
    : Move s (.arrive bytes) { s with unread := s.unread ++ bytes }
  | halfClose (open_ : s.eof = false) : Move s .halfClose { s with eof := true }
  | close (open_ : s.gone = false) : Move s .close { s with eof := true, gone := true }
  | memset (here : s.pc = .memset)
    : Move s .memset { s with buffer := List.replicate bufferSize 0, pc := .recv }
  | recvData {n} (here : s.pc = .recv) (some : 0 < n) (arrived : n ≤ s.unread.length)
    (fits : n ≤ bufferSize)
    : Move s (.recvData n)
        { s with
          unread := s.unread.drop n
          buffer := overwrite s.buffer (s.unread.take n)
          result := n
          log := s.log ++ [.result (s.unread.take n)]
          pc := .strcmp }
  | recvEnd (here : s.pc = .recv) (empty : s.unread = []) (ended : s.eof = true)
    : Move s .recvEnd { s with result := 0, log := s.log ++ [.result []], pc := .strcmp }
  | recvError (here : s.pc = .recv) (gone : s.gone = true)
    : Move s .recvError { s with pc := .dead }
  | strcmpSame (here : s.pc = .strcmp) (compared : strcmpIs s.buffer eofText = some true)
    : Move s .strcmp { s with pc := .ended }
  | strcmpOther (here : s.pc = .strcmp) (compared : strcmpIs s.buffer eofText = some false)
    : Move s .strcmp { s with pc := .print }
  | strcmpBeyond (here : s.pc = .strcmp) (compared : strcmpIs s.buffer eofText = none)
    : Move s .strcmp { s with beyond := true, pc := .print }
  | print (here : s.pc = .print)
    : Move s .print
        { s with
          printed := s.printed ++ (stringIn s.buffer).toList
          beyond := s.beyond || (stringIn s.buffer).isNone
          pc := .send }
  | sendFails (here : s.pc = .send) (gone : s.gone = true)
    : Move s .send { s with buffer := overwrite s.buffer (okText ++ [0]), pc := .dead }
  | send (here : s.pc = .send) (there : ¬s.gone = true)
    : Move s .send
        { s with
          buffer := overwrite s.buffer (okText ++ [0])
          log := s.log ++ [.ok]
          pc := .memset }

/-- Every step is one of these. -/
theorem Move.of_step {s next : State} {action : Action} (taken : step s action = some next)
    : Move s action next := by
  cases action with
  | arrive bytes =>
      obtain ⟨⟨open_, _⟩, same⟩ := Option.ite_none_right_eq_some.mp taken
      exact Option.some.inj same ▸ .arrive open_
  | halfClose =>
      obtain ⟨open_, same⟩ := Option.ite_none_right_eq_some.mp taken
      exact Option.some.inj same ▸ .halfClose open_
  | close =>
      obtain ⟨open_, same⟩ := Option.ite_none_right_eq_some.mp taken
      exact Option.some.inj same ▸ .close open_
  | memset =>
      obtain ⟨here, same⟩ := Option.ite_none_right_eq_some.mp taken
      exact Option.some.inj same ▸ .memset here
  | recvData n =>
      obtain ⟨⟨here, some, arrived, fits⟩, same⟩ := Option.ite_none_right_eq_some.mp taken
      exact Option.some.inj same ▸ .recvData here some arrived fits
  | recvEnd =>
      obtain ⟨⟨here, empty, ended⟩, same⟩ := Option.ite_none_right_eq_some.mp taken
      exact Option.some.inj same ▸ .recvEnd here empty ended
  | recvError =>
      obtain ⟨⟨here, gone⟩, same⟩ := Option.ite_none_right_eq_some.mp taken
      exact Option.some.inj same ▸ .recvError here gone
  | strcmp =>
      obtain ⟨here, taken⟩ := Option.ite_none_right_eq_some.mp taken
      split at taken
      next compared => exact Option.some.inj taken ▸ .strcmpSame here compared
      next compared => exact Option.some.inj taken ▸ .strcmpOther here compared
      next compared => exact Option.some.inj taken ▸ .strcmpBeyond here compared
  | print =>
      obtain ⟨here, same⟩ := Option.ite_none_right_eq_some.mp taken
      exact Option.some.inj same ▸ .print here
  | send =>
      obtain ⟨here, taken⟩ := Option.ite_none_right_eq_some.mp taken
      simp only at taken
      split at taken
      next gone => exact Option.some.inj taken ▸ .sendFails here gone
      next there => exact Option.some.inj taken ▸ .send here there

-----------------------------------------------------------------------------------------
-- Answered results
-----------------------------------------------------------------------------------------

/-- Results that brought bytes, each with its answer. -/
inductive Served : List Entry → Prop
  | nil : Served []
  | answer {log bytes} (served : Served log) (some : bytes ≠ [])
    : Served (log ++ [.result bytes] ++ [.ok])

namespace Served

variable {log : List Entry}

theorem count_eq (served : Served log) : log.count .ok = log.countP Entry.isData := by
  induction served with
  | nil => rfl
  | answer served some ih =>
      simp [List.count_append, List.countP_append, List.countP_cons, ih, Entry.isData, some]

theorem end_notMem (served : Served log) : Entry.result [] ∉ log := by
  induction served with
  | nil => exact List.not_mem_nil
  | answer served some ih => simp [ih, Ne.symm some]

/-- A result whose answer is still to come leaves the log proper. -/
theorem proper_append (served : Served log) {last : List Entry}
    (open_ : last = [] ∨ ∃ bytes, last = [.result bytes])
    : (log ++ last).count .ok ≤ (log ++ last).countP Entry.isData
      ∧ ∀ before after, log ++ last = before ++ .result [] :: after → Entry.ok ∉ after := by
  have count := served.count_eq
  have free := served.end_notMem
  rcases open_ with rfl | ⟨bytes, rfl⟩
  · rw [List.append_nil]
    refine ⟨Nat.le_of_eq count, fun before after split => absurd ?_ free⟩
    rw [split]
    exact List.mem_append_right _ List.mem_cons_self
  · constructor
    · rw [List.count_append, List.countP_append, count]
      exact Nat.add_le_add_left (Nat.zero_le _) _
    · intro before after split
      rcases List.eq_nil_or_concat after with rfl | ⟨more, entry, rfl⟩
      · exact List.not_mem_nil
      · -- then the end of the stream would be an earlier entry
        have whole : log ++ [.result bytes] = (before ++ .result [] :: more) ++ [entry] := by
          simpa using split
        have earlier := (List.append_inj' whole rfl).1
        refine absurd ?_ free
        rw [earlier]
        exact List.mem_append_right _ List.mem_cons_self

end Served

-----------------------------------------------------------------------------------------
-- The loop under the condition
-----------------------------------------------------------------------------------------

/-- What the log has behind the answered results, and what is in the buffer. -/
def LogAt (s : State) (last : List Entry) : Pc → Prop
  | .memset => last = []
  | .recv => last = [] ∧ s.buffer = List.replicate bufferSize 0
  | .strcmp | .print =>
      (∃ bytes, last = [.result bytes] ∧ bytes.length = s.result) ∧ 0 ∈ s.buffer
  | .send => ∃ bytes, last = [.result bytes] ∧ bytes.length = s.result
  | .ended | .dead => last = [] ∨ ∃ bytes, last = [.result bytes]

/-- The loop on its way. -/
structure Underway (s : State) : Prop where
  size : s.buffer.length = bufferSize
  inside : s.beyond = false
  closed : s.gone = true → s.eof = true
  log : ∃ front last, s.log = front ++ last ∧ Served front ∧ LogAt s last s.pc

section Step

variable {s next : State} {action : Action}

theorem underway_start (memory : Memory) : Underway (start memory) where
  size := memory.size
  inside := rfl
  closed gone := nomatch gone
  log := ⟨[], [], rfl, .nil, rfl⟩

/-- Whatever the program point, at most one result waits for its answer. -/
theorem LogAt.open_ {last : List Entry} {pc : Pc} (at_ : LogAt s last pc)
    : last = [] ∨ ∃ bytes, last = [.result bytes] := by
  cases pc with
  | memset => exact Or.inl at_
  | recv => exact Or.inl at_.1
  | strcmp | print =>
      obtain ⟨⟨bytes, last, _⟩, _⟩ := at_
      exact Or.inr ⟨bytes, last⟩
  | send =>
      obtain ⟨bytes, last, _⟩ := at_
      exact Or.inr ⟨bytes, last⟩
  | ended | dead => exact at_

theorem Underway.proper (underway : Underway s) : Proper s := by
  obtain ⟨front, last, log, served, at_⟩ := underway.log
  have proper := served.proper_append at_.open_
  rw [← log] at proper
  exact ⟨proper.1, proper.2, underway.inside⟩

/-- A result that does not fill the buffer is stored in front of a NUL. -/
theorem zero_mem_overwrite {chunk : Bytes} (fits : chunk.length ≤ bufferSize)
    (nul : chunk.length = bufferSize → 0 ∈ chunk)
    : 0 ∈ overwrite (List.replicate bufferSize 0) chunk := by
  by_cases full : chunk.length = bufferSize
  · exact List.mem_append_left _ (nul full)
  · refine List.mem_append_right _ ?_
    rw [List.drop_replicate]
    exact List.mem_replicate.mpr ⟨by omega, rfl⟩

/-- Every step that meets the condition keeps the loop on its way. -/
theorem Underway.step (underway : Underway s) (permitted : Meets s action)
    (taken : step s action = some next)
    : Underway next := by
  obtain ⟨size, inside, closed, front, last, log, served, at_⟩ := underway
  cases Move.of_step taken with
  | arrive open_ => exact ⟨size, inside, closed, front, last, log, served, at_⟩
  | halfClose open_ => exact ⟨size, inside, fun _ => rfl, front, last, log, served, at_⟩
  | close open_ => exact ⟨size, inside, fun _ => rfl, front, last, log, served, at_⟩
  | memset here =>
      rw [here] at at_
      exact ⟨List.length_replicate, inside, closed, front, last, log, served, at_, rfl⟩
  | @recvData n here _ arrived fits =>
      rw [here] at at_
      obtain ⟨rfl, zeros⟩ := at_
      have length : (s.unread.take n).length = n := List.length_take_of_le arrived
      have stored : (s.unread.take n).length ≤ s.buffer.length := by
        rw [length, size]
        exact fits
      refine ⟨by rw [length_overwrite stored, size], inside, closed, front, [.result _], ?_,
        served, ⟨_, rfl, length⟩, ?_⟩
      · rw [log, List.append_nil]
      · rw [zeros]
        exact zero_mem_overwrite (by rw [length]; exact fits) fun full =>
          permitted (length.symm.trans full)
  | recvEnd here =>
      rw [here] at at_
      obtain ⟨rfl, zeros⟩ := at_
      refine ⟨size, inside, closed, front, [.result []], ?_, served, ⟨[], rfl, rfl⟩, ?_⟩
      · rw [log, List.append_nil]
      · rw [zeros]
        exact List.mem_replicate.mpr ⟨by decide, rfl⟩
  | recvError => exact ⟨size, inside, closed, front, last, log, served, at_.open_⟩
  | strcmpSame =>
      have open_ := at_.open_
      exact ⟨size, inside, closed, front, last, log, served, open_⟩
  | strcmpOther here =>
      rw [here] at at_
      exact ⟨size, inside, closed, front, last, log, served, at_⟩
  | strcmpBeyond here compared =>
      -- the buffer is longer than the text, so the comparison ends inside it
      have longer : eofText.length < s.buffer.length := by
        rw [size]
        decide
      exact absurd compared (strcmpIs_ne_none longer)
  | print here =>
      rw [here] at at_
      have read : (stringIn s.buffer).isNone = false := by simp [stringIn, at_.2]
      refine ⟨size, ?_, closed, front, last, log, served, at_.1⟩
      simp [inside, read]
  | sendFails =>
      have copied : (overwrite s.buffer (okText ++ [0])).length = bufferSize := by
        rw [length_overwrite (by rw [size]; decide), size]
      exact ⟨copied, inside, closed, front, last, log, served, at_.open_⟩
  | send here there =>
      rw [here] at at_
      have copied : (overwrite s.buffer (okText ++ [0])).length = bufferSize := by
        rw [length_overwrite (by rw [size]; decide), size]
      obtain ⟨bytes, rfl, result⟩ := at_
      have some : bytes ≠ [] := by
        rintro rfl
        exact there (permitted result.symm)
      refine ⟨copied, inside, closed, _, [], ?_, served.answer some, rfl⟩
      rw [log, List.append_nil]

theorem Underway.of_reachable {memory : Memory}
    (reached : (system memory).ReachableBy Meets s)
    : Underway s := by
  refine System.ReachableBy.invariant (fun s first => ?_) (fun s action next _ => ?_) reached
  · rw [show s = start memory from first]
    exact underway_start memory
  · exact fun underway permitted taken => underway.step permitted taken

-----------------------------------------------------------------------------------------
-- The end of the stream
-----------------------------------------------------------------------------------------

/-- Steps that are left of the iteration, more of them when the result is answered. -/
def Pc.cost (result : Nat) : Pc → Nat
  | .memset => 5
  | .recv => 4
  | .strcmp => if result = 0 then 3 else 8
  | .print => if result = 0 then 2 else 7
  | .send => if result = 0 then 1 else 6
  | .ended | .dead => 0

/-- Steps that are left once the stream has ended. -/
def State.cost (s : State) : Nat :=
  5 * s.unread.length + s.pc.cost s.result + if s.gone then 0 else 1

/-- An iteration that is not answered comes nearer to its end. -/
theorem Pc.cost_falls (result : Nat)
    : Pc.cost result .print < Pc.cost result .strcmp
      ∧ Pc.cost result .send < Pc.cost result .print ∧ 0 < Pc.cost result .send := by
  by_cases none : result = 0 <;> simp [Pc.cost, none]

/-- Behind the end of the stream every step that meets the condition lowers the cost. -/
theorem cost_lt_of_step (eof : s.eof = true) (permitted : Meets s action)
    (taken : SocketIpc.step s action = some next)
    : next.cost < s.cost := by
  have falling := Pc.cost_falls s.result
  have nothing : Pc.cost s.result .ended = 0 ∧ Pc.cost s.result .dead = 0 := ⟨rfl, rfl⟩
  cases Move.of_step taken with
  | arrive open_ => exact absurd (eof.symm.trans open_) (by decide)
  | halfClose open_ => exact absurd (eof.symm.trans open_) (by decide)
  | close open_ => simp [State.cost, Pc.cost, open_]
  | memset here => simp [State.cost, Pc.cost, here]
  | recvData here some arrived =>
      have positive := Nat.ne_of_gt some
      simp only [State.cost, Pc.cost, here, positive, if_false, List.length_drop]
      omega
  | recvEnd here => simp [State.cost, Pc.cost, here]
  | recvError here => simp [State.cost, Pc.cost, here]
  | strcmpSame here | strcmpOther here | strcmpBeyond here | print here | sendFails here =>
      simp only [State.cost, here]
      omega
  | send here there =>
      have some : s.result ≠ 0 := fun none => there (permitted none)
      simp only [State.cost, Pc.cost, here, some, if_false]
      omega

/-- Behind the end of the stream the loop is left, or some step that meets the condition is
possible; the client's closing is one of them.
-/
theorem progress_of_eof (eof : s.eof = true)
    : s.pc.left = true
      ∨ ∃ action next, Meets s action ∧ SocketIpc.step s action = some next := by
  cases here : s.pc with
  | memset => exact Or.inr ⟨.memset, _, trivial, if_pos here⟩
  | recv =>
      by_cases empty : s.unread = []
      · exact Or.inr ⟨.recvEnd, _, trivial, if_pos ⟨here, empty, eof⟩⟩
      · have some : 0 < s.unread.length := List.length_pos_of_ne_nil empty
        have one : Meets s (.recvData 1) := fun full => absurd full (by decide)
        exact Or.inr ⟨.recvData 1, _, one, if_pos ⟨here, Nat.one_pos, some, by decide⟩⟩
  | strcmp =>
      cases compared : strcmpIs s.buffer eofText with
      | none =>
          have taken : SocketIpc.step s .strcmp = some { s with beyond := true, pc := .print } := by
            simp [SocketIpc.step, strcmp, here, compared]
          exact Or.inr ⟨.strcmp, _, trivial, taken⟩
      | some same =>
          have taken : SocketIpc.step s .strcmp
              = some { s with pc := if same then .ended else .print } := by
            cases same <;> simp [SocketIpc.step, strcmp, here, compared]
          exact Or.inr ⟨.strcmp, _, trivial, taken⟩
  | print => exact Or.inr ⟨.print, _, trivial, if_pos here⟩
  | send =>
      by_cases gone : s.gone = true
      · have taken : SocketIpc.step s .send = some { s with
            buffer := overwrite s.buffer (okText ++ [0])
            pc := .dead } := by
          simp [SocketIpc.step, send, here, gone]
        exact Or.inr ⟨.send, _, fun _ => gone, taken⟩
      · exact Or.inr ⟨.close, _, trivial, if_pos (by simpa using gone)⟩
  | ended | dead => exact Or.inl rfl

/-- Nothing takes the end of the stream back. -/
theorem eof_of_step (eof : s.eof = true) (taken : SocketIpc.step s action = some next)
    : next.eof = true := by
  cases Move.of_step taken with
  | halfClose | close => rfl
  | arrive | memset | recvData | recvEnd | recvError | strcmpSame | strcmpOther | strcmpBeyond
  | print | sendFails | send => exact eof

/-- Once the stream has ended, the loop is left whatever steps are taken that meet the
condition.
-/
theorem Underway.inevitable_left (memory : Memory) (underway : Underway s) (eof : s.eof = true)
    : (system memory).Inevitable Meets (fun s => s.pc.left = true) s := by
  refine System.Inevitable.of_measure (fun s => Underway s ∧ s.eof = true) State.cost ?_ ?_ ?_
    ⟨underway, eof⟩
  · exact fun s action next held permitted taken =>
      ⟨held.1.step permitted taken, eof_of_step held.2 taken⟩
  · exact fun s held => progress_of_eof held.2
  · exact fun s action next held permitted taken => cost_lt_of_step held.2 permitted taken

end Step

-----------------------------------------------------------------------------------------
-- The steps outside the condition
-----------------------------------------------------------------------------------------

section Outside

variable {memory : Memory} {s next : State} {action : Action}

/-- A full buffer without a NUL is read behind its end by `printf`. -/
theorem not_proper_of_full {n : Nat} (underway : Underway s)
    (outside : ¬Meets s (.recvData n)) (taken : step s (.recvData n) = some next)
    : ∃ actions final, (system memory).exec next actions = some final ∧ ¬Proper final := by
  simp only [step, recvData, Option.ite_none_right_eq_some, Option.some.injEq] at taken
  obtain ⟨⟨_, _, arrived, _⟩, rfl⟩ := taken
  simp only [Meets, Classical.not_imp] at outside
  obtain ⟨full, nulFree⟩ := outside
  have length : (s.unread.take n).length = s.buffer.length := by
    rw [List.length_take_of_le arrived, full, underway.size]
  have buffer : overwrite s.buffer (s.unread.take n) = s.unread.take n := by
    rw [overwrite, length, List.drop_length, List.append_nil]
  have longer : eofText.length < (s.unread.take n).length := by
    rw [length, underway.size]
    decide
  have compared : strcmpIs (s.unread.take n) eofText = some false := by
    cases found : strcmpIs (s.unread.take n) eofText with
    | none => exact absurd found (strcmpIs_ne_none longer)
    | some same =>
        cases same with
        | false => rfl
        | true => exact absurd found (strcmpIs_ne_true nulFree _)
  let final : State :=
    { s with
      unread := s.unread.drop n
      buffer := s.unread.take n
      result := n
      log := s.log ++ [.result (s.unread.take n)]
      beyond := true
      pc := .send }
  refine ⟨[.strcmp, .print], final, ?_, fun proper => absurd proper.inside (by simp [final])⟩
  simp [final, System.exec, system, step, strcmp, print, buffer, compared, stringIn, nulFree]

/-- An answer behind the end of the stream. -/
theorem not_proper_of_answer (underway : Underway s) (outside : ¬Meets s .send)
    (taken : step s .send = some next)
    : ¬Proper next := by
  simp only [Meets, Classical.not_imp] at outside
  obtain ⟨none, there⟩ := outside
  simp only [step, send, Option.ite_none_right_eq_some] at taken
  obtain ⟨here, taken⟩ := taken
  rw [if_neg there] at taken
  obtain rfl := Option.some.inj taken
  obtain ⟨front, last, log, _, at_⟩ := underway.log
  rw [here] at at_
  obtain ⟨bytes, rfl, result⟩ := at_
  have empty : bytes = [] := List.length_eq_zero_iff.mp (result.trans none)
  intro proper
  refine proper.silent front [.ok] ?_ List.mem_cons_self
  simp [log, empty]

/-- From a step outside the condition a state that is not proper is reached. -/
theorem exists_not_proper (reached : (system memory).ReachableBy Meets s)
    (taken : step s action = some next) (outside : ¬Meets s action)
    : ∃ actions final, (system memory).exec next actions = some final ∧ ¬Proper final := by
  have underway := Underway.of_reachable reached
  cases action with
  | recvData n => exact not_proper_of_full underway outside taken
  | send => exact ⟨[], next, rfl, not_proper_of_answer underway outside taken⟩
  | arrive _ | halfClose | close | memset | recvEnd | recvError | strcmp | print =>
      exact absurd trivial outside

end Outside

/-- As long as every step meets the condition, each state is proper and the loop is left once
the stream has ended; the first step that does not meet it leads to a state that is not proper.
-/
theorem proper_of_meets (memory : Memory)
    : (∀ s, (system memory).ReachableBy Meets s
        → Proper s
          ∧ (s.eof = true
            → (system memory).Inevitable Meets (fun s => s.pc.left = true) s))
      ∧ ∀ s action next, (system memory).ReachableBy Meets s
        → step s action = some next
        → ¬Meets s action
        → ∃ actions final, (system memory).exec next actions = some final ∧ ¬Proper final := by
  refine ⟨fun s reached => ?_, fun s action next reached taken outside => ?_⟩
  · have underway := Underway.of_reachable reached
    exact ⟨underway.proper, underway.inevitable_left memory⟩
  · exact exists_not_proper reached taken outside

/-- The buffer as `malloc` may leave it. -/
def cleared : Memory := ⟨List.replicate bufferSize 0, List.length_replicate⟩

/-- Two messages, which one `recv` returns together, and then `EOF` with the end of the stream. -/
def endsByEof : List Action :=
  [.arrive [104, 105], .memset, .arrive [10], .recvData 3, .strcmp, .print, .arrive eofText,
    .halfClose, .send, .memset, .recvData 3, .strcmp]

/-- They are answered once, and the loop is left. -/
theorem proper_of_meets_eof
    : ∃ final,
        (system cleared).ReachableBy Meets final
        ∧ final.pc = .ended
        ∧ final.log = [.result [104, 105, 10], .ok, .result eofText]
        ∧ Proper final := by
  have reached := System.reachable_restrict_iff.mp
    (@System.reachable_of_run _ _ ((system cleared).restrict Meets) _ rfl endsByEof rfl)
  exact ⟨_, reached, rfl, rfl, ((proper_of_meets cleared).1 _ reached).1⟩

/-- A client that ends its stream without `EOF` and goes on listening is answered. -/
theorem not_servesProperly_halfClose : ¬ServesProperly cleared := by
  intro serves
  have first : (system cleared).Reachable (start cleared) := .initial rfl
  obtain ⟨final, run, log⟩
      : ∃ final, (system cleared).exec (start cleared)
          [.halfClose, .memset, .recvEnd, .strcmp, .print, .send] = some final
        ∧ final.log = [.result [], .ok] := ⟨_, rfl, rfl⟩
  have proper := (serves final (first.exec run)).1
  exact proper.silent [] [.ok] log List.mem_cons_self

end LinuxStudy.SocketIpc
