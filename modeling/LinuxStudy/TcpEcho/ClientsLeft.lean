import LinuxStudy.TcpEcho.ServerBooks

/-! Which clients `tcp_echo_server.c` leaves without any act of theirs. As long as a client does
nothing, no step of the server decides that anew.
-/

namespace LinuxStudy.TcpEcho.Server

open Posix

-----------------------------------------------------------------------------------------
-- What a step of the server can touch
-----------------------------------------------------------------------------------------

section Touching

variable {room : Nat → Nat} {s next : State}

/-- A step of the server reads from and answers the client it serves, and moves on in the line
only from a client that it leaves.
-/
structure Frame (s next : State) : Prop where
  received : ∀ c, (next.clients c).received = (s.clients c).received
  fin : ∀ c, (next.clients c).fin = (s.clients c).fin
  open_ : ∀ c, (s.clients c).Open → (next.clients c).Open
  echoed : ∀ c, (s.clients c).echoed <+: (next.clients c).echoed
  others : ∀ c, s.pc.served ≠ some c → next.clients c = s.clients c
  line
    : next.line = s.line
      ∨ (∃ c, s.pc = .close c ∧ s.line = c :: next.line)
      ∨ next.pc = .dead ∧ next.line = []

/-- Only the program point and the queue change. -/
theorem Frame.of_clients (same : next.clients = s.clients)
    (line
      : next.line = s.line
        ∨ (∃ c, s.pc = .close c ∧ s.line = c :: next.line)
        ∨ next.pc = .dead ∧ next.line = [])
    : Frame s next := by
  refine ⟨?_, ?_, ?_, ?_, ?_, line⟩ <;> intro c
  all_goals simp [same]

/-- Only the record of the client served changes. -/
theorem Frame.of_set {c : Nat} {client : Client} (served : s.pc.served = some c)
    (same : next.clients = (s.set c client).clients)
    (received : client.received = (s.clients c).received)
    (fin : client.fin = (s.clients c).fin) (open_ : (s.clients c).Open → client.Open)
    (echoed : (s.clients c).echoed <+: client.echoed) (line : next.line = s.line)
    : Frame s next := by
  refine ⟨?_, ?_, ?_, ?_, ?_, Or.inl line⟩ <;> intro other
  case refine_5 =>
    intro away
    have different : other ≠ c := fun mine => away (mine ▸ served)
    rw [same, State.clients_set_of_ne different]
  all_goals
    rw [same]
    by_cases mine : other = c
  case pos => rw [mine, State.clients_set_self, received]
  case pos => rw [mine, State.clients_set_self, fin]
  case pos => rw [mine, State.clients_set_self]; exact open_
  case pos => rw [mine, State.clients_set_self]; exact echoed
  all_goals simp [State.clients_set_of_ne mine]

/-- The steps of the server, by the call it is at. -/
theorem ServerMove.frame {action : Action} (move : ServerMove room s action next)
    : Frame s next := by
  cases move with
  | accept here queue =>
      exact .of_clients rfl (Or.inl (by simp [State.line, here, queue, Pc.served]))
  | acceptFails | sendKills => exact .of_clients rfl (Or.inr (Or.inr ⟨rfl, rfl⟩))
  | recv here =>
      refine .of_set (by rw [here]; rfl) rfl rfl rfl id List.prefix_rfl ?_
      simp [State.line, here, Pc.served, State.set]
  | recvEnd here | recvFails here | sendCut here | sendFails here =>
      exact .of_clients rfl (Or.inl (by simp [State.line, here, Pc.served]))
  | sendRest here | sendPart here =>
      refine .of_set (by rw [here]; rfl) rfl rfl rfl id (List.prefix_append _ _) ?_
      simp [State.line, here, Pc.served, State.set]
  | sendAnswered here closed =>
      refine .of_set (by rw [here]; rfl) rfl rfl rfl ?_ List.prefix_rfl ?_
      · intro open_
        simp [open_.1] at closed
      · simp [State.line, here, Pc.served, State.set]
  | close here =>
      exact .of_clients rfl (Or.inr (Or.inl ⟨_, here, by simp [State.line, here, Pc.served]⟩))

end Touching

-----------------------------------------------------------------------------------------
-- Which clients are left
-----------------------------------------------------------------------------------------

/-- `send` is called for this client and has not passed anything on. -/
def State.AtSend (s : State) (c : Nat) : Prop := ∃ recvLen, s.pc = .send c recvLen 0

/-- All bytes of this client that are not read by it yet. -/
def State.owed (s : State) (c : Nat) : Nat :=
  (s.inHand c).length + (s.clients c).unread.length + (s.clients c).pending.length

/-- The server leaves this client without any act of the client's. From one that is reset, the
first `send` kills the server if the client had ended its side. One that is closed resets the
connection at the first `send`, so there must not be a second. One that has shut down its side
must not have to read for the rest of its echo to be passed on.
-/
def State.Leaves (room : Nat → Nat) (s : State) (c : Nat) : Prop :=
  s.pc = .close c
  ∨ if (s.clients c).reset = true then
      (s.clients c).fin = false ∨ (s.clients c).unread = [] ∧ ¬s.AtSend c
    else if (s.clients c).closed = true then
      (s.clients c).unread.length ≤ bufSize - 1
      ∧ (s.inHand c = [] ∨ (s.clients c).unread = [])
    else (s.clients c).fin = true ∧ s.owed c ≤ room c

section Leaving

variable {room : Nat → Nat} {s next : State} {action : Action} {c d : Nat}

/-- What is left to do for a client is in its record and in the call for it. -/
theorem State.leaves_congr (same : next.clients d = s.clients d) (hand : next.inHand d = s.inHand d)
    (sending : next.AtSend d ↔ s.AtSend d) (closing : next.pc = .close d ↔ s.pc = .close d)
    : next.Leaves room d ↔ s.Leaves room d := by
  simp only [State.Leaves, State.owed, same, hand, sending, closing]

/-- A client that is not served waits for all of its calls. -/
theorem State.not_atSend (away : s.pc.served ≠ some d) : ¬s.AtSend d := by
  rintro ⟨recvLen, here⟩
  exact away (by rw [here]; rfl)

theorem State.not_close (away : s.pc.served ≠ some d) : s.pc ≠ .close d := by
  intro here
  exact away (by rw [here]; rfl)

/-- A step for one client says nothing about another that is in line and not served. -/
theorem State.leaves_iff_of_away (frame : Frame s next) (before : s.pc.served ≠ some d)
    (hand : next.inHand d = []) (sending : ¬next.AtSend d) (closing : next.pc ≠ .close d)
    : next.Leaves room d ↔ s.Leaves room d :=
  leaves_congr (frame.others d before) (by rw [hand, s.inHand_eq_nil before])
    (iff_of_false sending (s.not_atSend before)) (iff_of_false closing (s.not_close before))

/-- One that is open is left if it has ended its side and there is room for all of its echo. -/
theorem State.leaves_of_open (open_ : (s.clients c).Open) (going : s.pc ≠ .close c)
    : s.Leaves room c ↔ (s.clients c).fin = true ∧ s.owed c ≤ room c := by
  simp [State.Leaves, going, open_.1, open_.2]

theorem State.leaves_of_reset (reset : (s.clients c).reset = true) (going : s.pc ≠ .close c)
    : s.Leaves room c
      ↔ (s.clients c).fin = false ∨ (s.clients c).unread = [] ∧ ¬s.AtSend c := by
  simp [State.Leaves, going, reset]

theorem State.leaves_of_closed (closed : (s.clients c).closed = true)
    (whole : (s.clients c).reset = false) (going : s.pc ≠ .close c)
    : s.Leaves room c
      ↔ (s.clients c).unread.length ≤ bufSize - 1
        ∧ (s.inHand c = [] ∨ (s.clients c).unread = []) := by
  simp [State.Leaves, going, closed, whole]

/-- For an open client, what is still to be passed on or read stays the same. -/
theorem ServerMove.owed_eq (books : Books room s) (move : ServerMove room s action next)
    (open_ : (s.clients c).Open)
    : next.owed c = s.owed c := by
  by_cases away : s.pc.served ≠ some c
  · have same := move.frame.others c away
    have nothing : next.inHand c = [] := by
      cases move with
      | recv here | sendPart here =>
          refine State.inHand_eq_nil fun served => away ?_
          rw [here]
          exact served
      | _ => rfl
    rw [State.owed, State.owed, same, nothing, s.inHand_eq_nil away]
  · have served := not_not.mp away
    cases move with
    | accept here | acceptFails here => simp [here, Pc.served] at served
    | @recv d n here some most =>
        obtain rfl : d = c := by simpa [here, Pc.served] using served
        have enough : n ≤ (s.clients d).unread.length := most ▸ Nat.min_le_left _ _
        simp only [State.owed, State.inHand, here, if_true, List.drop_zero, take_recv enough,
          State.clients_set_self, List.length_take_of_le enough, List.length_drop, List.length_nil]
        omega
    | recvEnd here | recvFails here => simp [State.owed, State.inHand, here]
    | @sendRest d recvLen passed k here _ all =>
        obtain rfl : d = c := by simpa [here, Pc.served] using served
        obtain ⟨less, inside⟩ := books.stored d recvLen passed here
        simp only [State.owed, State.inHand, here, if_true, State.clients_set_self,
          List.length_append, List.length_take, List.length_drop, List.length_nil]
        omega
    | @sendPart d recvLen passed k here _ positive less =>
        obtain rfl : d = c := by simpa [here, Pc.served] using served
        obtain ⟨-, inside⟩ := books.stored d recvLen passed here
        simp only [State.owed, State.inHand, here, if_true, State.clients_set_self,
          State.buffer_set, List.length_append, List.length_take, List.length_drop]
        omega
    | @sendAnswered d _ _ here closed =>
        obtain rfl : d = c := by simpa [here, Pc.served] using served
        simp [open_.1] at closed
    | @sendCut d _ _ here reset | @sendKills d _ here reset | @sendFails d _ here reset =>
        obtain rfl : d = c := by simpa [here, Pc.served] using served
        simp [open_.2] at reset
    | close here => simp [State.owed, State.inHand, here]

theorem ServerMove.leaves_iff_of_open (books : Books room s)
    (move : ServerMove room s action next) (open_ : (s.clients c).Open) (before : s.pc ≠ .close c)
    (after : next.pc ≠ .close c)
    : next.Leaves room c ↔ s.Leaves room c := by
  rw [State.leaves_of_open open_ before, State.leaves_of_open (move.frame.open_ c open_) after,
    move.frame.fin c, move.owed_eq books open_]

/-- Whether a client is left is decided as long as it does nothing. -/
theorem ServerMove.leaves_next (books : Books room s) (move : ServerMove room s action next)
    (member : d ∈ next.line)
    : next.Leaves room d ↔ s.Leaves room d := by
  by_cases away : s.pc.served ≠ some d
  · have still (same : next.pc.served = s.pc.served) : next.pc.served ≠ some d := same ▸ away
    refine State.leaves_iff_of_away move.frame away ?_ ?_ ?_
    all_goals
      cases move with
      | accept | acceptFails | sendKills | close =>
          simp [State.inHand, State.AtSend]
      | recv here | recvEnd here | recvFails here | sendRest here | sendPart here
      | sendAnswered here | sendCut here | sendFails here =>
          have after := still (by rw [here]; rfl)
          first
          | exact State.inHand_eq_nil after
          | exact State.not_atSend after
          | exact State.not_close after
  · have served := not_not.mp away
    have other {c : Nat} (its : s.pc.served = some c) : c = d := Option.some.inj (its ▸ served)
    have openly := @ServerMove.leaves_iff_of_open _ _ _ _ d books move
    cases move with
    | accept here => simp [here, Pc.served] at served
    | acceptFails | sendKills => simp [State.line, Pc.served] at member
    | @recv c n here some most =>
        obtain rfl := other (by rw [here]; rfl)
        have positive := List.length_pos_of_ne_nil some
        cases reset : (s.clients c).reset
        case true =>
          rw [State.leaves_of_reset reset (by simp [here]), State.leaves_of_reset]
          · simp [State.AtSend, some]
          · simpa using reset
          · simp
        cases closed : (s.clients c).closed
        case true =>
          rw [State.leaves_of_closed closed reset (by simp [here]), State.leaves_of_closed]
          · -- what one `recv` does not take has to be sent a second time
            have enough : n ≤ (s.clients c).unread.length := most ▸ Nat.min_le_left _ _
            simp only [State.inHand, here, if_true, List.drop_zero, take_recv enough,
              State.clients_set_self, List.length_drop, List.take_eq_nil_iff,
              List.drop_eq_nil_iff, some, and_true, or_false]
            omega
          · simpa using closed
          · simpa using reset
          · simp
        exact openly ⟨closed, reset⟩ (by simp [here]) (by simp)
    | @recvEnd c here empty ended =>
        obtain rfl := other (by rw [here]; rfl)
        refine iff_of_true (Or.inl rfl) (Or.inr ?_)
        have room := books.bounded c
        simp [State.owed, State.inHand, State.AtSend, here, empty, ended, room]
    | @recvFails c here empty unended reset =>
        obtain rfl := other (by rw [here]; rfl)
        refine iff_of_true (Or.inl rfl) (Or.inr ?_)
        simp [reset, unended]
    | sendRest here open_ | sendPart here open_ =>
        obtain rfl := other (by rw [here]; rfl)
        exact openly open_ (by simp [here]) (by simp)
    | @sendAnswered c recvLen passed here closed whole =>
        obtain rfl := other (by rw [here]; rfl)
        have ended := books.ended c closed
        obtain ⟨less, inside⟩ := books.stored c recvLen passed here
        have some : s.inHand c ≠ [] := by
          simp only [State.inHand, here, if_true]
          exact List.ne_nil_of_length_pos (by simp; omega)
        rw [State.leaves_of_closed closed whole (by simp [here]), State.leaves_of_reset]
        · simp +contextual [ended, State.AtSend, some]
        · simp
        · simp
    | @sendCut c recvLen passed here reset some =>
        obtain rfl := other (by rw [here]; rfl)
        have late : passed ≠ 0 := by omega
        rw [State.leaves_of_reset reset (by simp [here]), State.leaves_of_reset]
        · simp [State.AtSend, here, late]
        · exact reset
        · simp
    | @sendFails c recvLen here reset unended =>
        obtain rfl := other (by rw [here]; rfl)
        refine iff_of_true (Or.inl rfl) (Or.inr ?_)
        simp [reset, unended]
    | @close c here =>
        obtain rfl := other (by rw [here]; rfl)
        have nodup := books.nodup
        rw [State.line_of_served served] at nodup
        exact absurd member (List.nodup_cons.mp nodup).1

end Leaving

end LinuxStudy.TcpEcho.Server
