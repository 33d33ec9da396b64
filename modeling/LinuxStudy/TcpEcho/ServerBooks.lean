import LinuxStudy.TcpEcho.ServerSteps
import LinuxStudy.Transition.Runs
import Mathlib.Algebra.GroupWithZero.Nat

/-! The books of `tcp_echo_server.c`: who is in line, and where the bytes of each client are. -/

namespace LinuxStudy.TcpEcho.Server

open Transition Posix

/-- The bytes of this client that are read and not yet sent back. -/
def State.inHand (s : State) (c : Nat) : Bytes :=
  match s.pc with
  | .send d recvLen passed => if d = c then (s.buffer.take recvLen).drop passed else []
  | .accept | .recv _ | .close _ | .dead => []

/-- What has arrived from a client that is not reset is echoed, in hand or unread, not more waits
for it than there is room, and only a client that has ended is left.
-/
structure Client.Kept (room : Nat) (hand : Bytes) (leaving : Prop) (client : Client) : Prop where
  conserved : client.reset = false → client.received = client.echoed ++ hand ++ client.unread
  bounded : client.pending.length ≤ room
  ended : client.closed = true → client.fin = true
  closing : leaving → client.reset = true ∨ client.fin = true ∧ client.unread = []

/-- Every client is in line once and its record is kept, and what is stored for `send` is in the
buffer.
-/
structure Books (room : Nat → Nat) (s : State) : Prop where
  nodup : s.line.Nodup
  numbered : ∀ c ∈ s.line, c < s.arrived
  kept : ∀ c, (s.clients c).Kept (room c) (s.inHand c) (s.pc = .close c)
  stored
    : ∀ c recvLen passed,
        s.pc = .send c recvLen passed → passed < recvLen ∧ recvLen ≤ s.buffer.length
  dead : s.pc = .dead → s.waiting = []

section Records

variable {s : State} {c other : Nat} {client : Client}

@[simp] theorem State.clients_set_self : (s.set c client).clients c = client := by
  simp [State.set]

@[simp] theorem State.clients_set_of_ne (different : other ≠ c)
    : (s.set c client).clients other = s.clients other := by
  simp [State.set, different]

@[simp] theorem State.line_set : (s.set c client).line = s.line := rfl

@[simp] theorem State.buffer_set : (s.set c client).buffer = s.buffer := rfl

@[simp] theorem State.inHand_set : (s.set c client).inHand other = s.inHand other := rfl

/-- Nothing but the program point changes. -/
theorem State.clients_set_eq (s : State) (c : Nat)
    : s.clients = (s.set c (s.clients c)).clients := by
  simp [State.set]

/-- Only the client served can have bytes in hand. -/
theorem State.inHand_eq_nil (away : s.pc.served ≠ some c) : s.inHand c = [] := by
  unfold State.inHand
  split
  next d _ _ here => exact if_neg fun same => away (by rw [here, same]; rfl)
  all_goals rfl

theorem State.line_of_served (served : s.pc.served = some c) : s.line = c :: s.waiting := by
  simp [State.line, served]

/-- What `recv` has stored is what `send` passes on. -/
theorem take_recv {unread : Bytes} {n : Nat} (enough : n ≤ unread.length)
    : (overwrite (List.replicate bufSize 0) (unread.take n)).take n = unread.take n := by
  have whole := take_overwrite (List.replicate bufSize 0) (unread.take n)
  rwa [List.length_take_of_le enough] at whole

end Records

section Step

variable {room : Nat → Nat} {s next : State}

theorem Books.conserved (books : Books room s) (c : Nat) : (s.clients c).reset = false
    → (s.clients c).received = (s.clients c).echoed ++ s.inHand c ++ (s.clients c).unread :=
  (books.kept c).conserved

theorem Books.bounded (books : Books room s) (c : Nat) : (s.clients c).pending.length ≤ room c :=
  (books.kept c).bounded

theorem Books.ended (books : Books room s) (c : Nat)
    : (s.clients c).closed = true → (s.clients c).fin = true :=
  (books.kept c).ended

/-- A step of a client, which only touches its own record. -/
theorem Books.set {c : Nat} {client : Client} (books : Books room s)
    (kept : client.Kept (room c) (s.inHand c) (s.pc = .close c))
    : Books room (s.set c client) := by
  refine ⟨books.nodup, books.numbered, fun other => ?_, books.stored, books.dead⟩
  by_cases mine : other = c
  · rw [mine, State.clients_set_self]
    exact kept
  · rw [State.clients_set_of_ne mine]
    exact books.kept other

/-- The steps of the clients. -/
theorem Books.client {action : Action} (books : Books room s) (theirs : action.isServer = false)
    (taken : step room s action = some next)
    : Books room next := by
  cases action
  case connect =>
    obtain ⟨alive, same⟩ := Option.ite_none_left_eq_some.mp taken
    obtain rfl := Option.some.inj same
    have line : State.line { s with waiting := s.waiting ++ [s.arrived], arrived := s.arrived + 1 }
        = s.line ++ [s.arrived] := by simp [State.line]
    refine ⟨?_, ?_, books.kept, books.stored, fun dead => absurd dead alive⟩
    · rw [line, List.nodup_append]
      refine ⟨books.nodup, by simp, fun c known fresh new => ?_⟩
      have bound := books.numbered c known
      rw [List.mem_singleton.mp new]
      omega
    · intro c known
      rw [line] at known
      rcases List.mem_append.mp known with old | new
      · exact Nat.lt_succ_of_lt (books.numbered c old)
      · exact List.mem_singleton.mp new ▸ Nat.lt_succ_self _
  case arrive c bytes =>
    obtain ⟨⟨-, going, whole⟩, same⟩ := Option.ite_none_right_eq_some.mp taken
    obtain rfl := Option.some.inj same
    obtain ⟨conserved, bounded, ended, closing⟩ := books.kept c
    refine books.set ⟨fun _ => ?_, bounded, ended, fun there => ?_⟩
    · simp [conserved whole]
    · have left_ := closing there
      simp [going, whole] at left_
  case read c n =>
    obtain ⟨-, same⟩ := Option.ite_none_right_eq_some.mp taken
    obtain rfl := Option.some.inj same
    obtain ⟨conserved, bounded, ended, closing⟩ := books.kept c
    exact books.set
      ⟨conserved, Nat.le_trans (List.drop_sublist n _).length_le bounded, ended, closing⟩
  case shutdown c =>
    obtain ⟨-, same⟩ := Option.ite_none_right_eq_some.mp taken
    obtain rfl := Option.some.inj same
    obtain ⟨conserved, bounded, ended, closing⟩ := books.kept c
    exact books.set ⟨conserved, bounded, fun _ => rfl,
      fun there => (closing there).imp_right fun left_ => ⟨rfl, left_.2⟩⟩
  case leave c =>
    obtain ⟨⟨-, -, whole⟩, same⟩ := Option.ite_none_right_eq_some.mp taken
    obtain rfl := Option.some.inj same
    obtain ⟨conserved, bounded, ended, closing⟩ := books.kept c
    split
    · exact books.set ⟨conserved, bounded, fun _ => rfl,
        fun there => (closing there).imp_right fun left_ => ⟨rfl, left_.2⟩⟩
    · exact books.set ⟨fun open_ => by simp at open_, bounded, fun _ => rfl, fun _ => Or.inl rfl⟩
  case abort c =>
    obtain ⟨-, same⟩ := Option.ite_none_right_eq_some.mp taken
    obtain rfl := Option.some.inj same
    obtain ⟨-, bounded, ended, -⟩ := books.kept c
    exact books.set ⟨fun open_ => by simp at open_, bounded, ended, fun _ => Or.inl rfl⟩
  all_goals contradiction

/-- A step of the server for the client that it serves and goes on to serve. -/
theorem Books.serve {c : Nat} {client : Client} (books : Books room s)
    (served : s.pc.served = some c) (still : next.pc.served = some c)
    (waiting : next.waiting = s.waiting) (arrived : next.arrived = s.arrived)
    (same : next.clients = (s.set c client).clients)
    (kept : client.Kept (room c) (next.inHand c) (next.pc = .close c))
    (stored
      : ∀ recvLen passed,
          next.pc = .send c recvLen passed → passed < recvLen ∧ recvLen ≤ next.buffer.length)
    : Books room next := by
  have line : next.line = s.line := by simp [State.line, served, still, waiting]
  have only {d : Nat} (its : next.pc.served = some d) : d = c :=
    Option.some.inj (its.symm.trans still)
  refine ⟨line ▸ books.nodup, ?_, fun other => ?_, fun other recvLen passed there => ?_,
    fun there => ?_⟩
  · rw [line, arrived]
    exact books.numbered
  · by_cases mine : other = c
    · rw [mine, same, State.clients_set_self]
      exact kept
    · have away : next.pc.served ≠ some other := fun its => mine (only its)
      have before : s.pc.served ≠ some other := by rwa [served, ← still]
      obtain ⟨conserved, bounded, ended, -⟩ := books.kept other
      rw [same, State.clients_set_of_ne mine, State.inHand_eq_nil away]
      rw [State.inHand_eq_nil before] at conserved
      exact ⟨conserved, bounded, ended, fun there => absurd (by rw [there]; rfl) away⟩
  · obtain rfl := only (by rw [there]; rfl)
    exact stored recvLen passed there
  · rw [there] at still
    contradiction

/-- A step by which the server comes to another client, or ends. -/
theorem Books.moves_on (books : Books room s) (idle : s.pc.served = none ∨ ∃ c, s.pc = .close c)
    (line : next.line.Sublist s.line) (arrived : next.arrived = s.arrived)
    (clients : next.clients = s.clients) (nothing : ∀ c, next.inHand c = [])
    (closing : ∀ c, next.pc ≠ .close c) (sending : ∀ c n p, next.pc ≠ .send c n p)
    (dead : next.pc = .dead → next.waiting = [])
    : Books room next := by
  have before (c : Nat) : s.inHand c = [] := by
    unfold State.inHand
    split
    next here => rcases idle with away | ⟨d, there⟩ <;> simp_all [Pc.served]
    all_goals rfl
  refine ⟨books.nodup.sublist line, ?_, fun c => ?_,
    fun c n p there => absurd there (sending c n p), dead⟩
  · rw [arrived]
    exact fun c known => books.numbered c (line.subset known)
  · obtain ⟨conserved, bounded, ended, -⟩ := books.kept c
    rw [clients, nothing, ← before c]
    exact ⟨conserved, bounded, ended, fun there => absurd there (closing c)⟩

/-- The steps of the server, by the call it is at. -/
theorem Books.server {action : Action} (books : Books room s) (its : action.isServer = true)
    (taken : step room s action = some next)
    : Books room next := by
  cases ServerMove.of_step its taken with
  | @accept c waiting here queue =>
      refine books.moves_on (Or.inl (by rw [here]; rfl)) ?_ rfl rfl (fun _ => rfl) (by simp)
        (by simp) (by simp)
      simp [State.line, here, queue, Pc.served]
  | acceptFails here =>
      exact books.moves_on (Or.inl (by rw [here]; rfl)) (List.nil_sublist _) rfl rfl
        (fun _ => rfl) (by simp) (by simp) fun _ => rfl
  | @recv c n here some most =>
      have enough : n ≤ (s.clients c).unread.length := most ▸ Nat.min_le_left _ _
      have fits : n ≤ bufSize - 1 := most ▸ Nat.min_le_right _ _
      have positive := List.length_pos_of_ne_nil some
      have served : s.pc.served = Option.some c := by rw [here]; rfl
      refine books.serve served rfl rfl rfl rfl
        ⟨fun whole => ?_, books.bounded c, books.ended c, by simp⟩ ?_
      · have before := books.conserved c whole
        simpa [State.inHand, here, take_recv enough] using before
      · rintro recvLen passed there
        obtain ⟨-, rfl, rfl⟩ := Pc.send.inj there
        have length : (overwrite (List.replicate bufSize 0) ((s.clients c).unread.take n)).length
            = bufSize := by
          rw [length_overwrite, List.length_replicate]
          rw [List.length_take, List.length_replicate]
          omega
        have size : bufSize = 1024 := rfl
        simp only [length]
        omega
  | @recvEnd c here empty ended =>
      refine books.serve (by rw [here]; rfl) rfl rfl rfl (s.clients_set_eq c)
        ⟨fun whole => ?_, books.bounded c, books.ended c, fun _ => Or.inr ⟨ended, empty⟩⟩ (by simp)
      simpa [State.inHand, here] using books.conserved c whole
  | @recvFails c here _ _ reset =>
      refine books.serve (by rw [here]; rfl) rfl rfl rfl (s.clients_set_eq c)
        ⟨fun whole => ?_, books.bounded c, books.ended c, fun _ => Or.inl reset⟩ (by simp)
      simp [reset] at whole
  | @sendRest c recvLen passed k here open_ all fits =>
      obtain ⟨less, inside⟩ := books.stored c recvLen passed here
      have chunk : ((s.buffer.take recvLen).drop passed).take k
          = (s.buffer.take recvLen).drop passed := by
        apply List.take_of_length_le
        rw [List.length_drop, List.length_take_of_le inside]
        omega
      refine books.serve (by rw [here]; rfl) rfl rfl rfl rfl
        ⟨fun whole => ?_, ?_, books.ended c, by simp⟩ (by simp)
      · have before := books.conserved c whole
        simp only [State.inHand, here, if_true] at before ⊢
        rw [before, chunk, List.append_nil]
      · rw [List.length_append, List.length_take, List.length_drop,
          List.length_take_of_le inside]
        omega
  | @sendPart c recvLen passed k here open_ positive less fits =>
      obtain ⟨-, inside⟩ := books.stored c recvLen passed here
      refine books.serve (by rw [here]; rfl) rfl rfl rfl rfl
        ⟨fun whole => ?_, ?_, books.ended c, by simp⟩ ?_
      · have before := books.conserved c whole
        have halves := List.take_append_drop k ((s.buffer.take recvLen).drop passed)
        rw [List.drop_drop] at halves
        simp only [State.inHand, here, if_true] at before ⊢
        conv_lhs => rw [before, ← halves]
        simp [State.set]
      · rw [List.length_append, List.length_take, List.length_drop,
          List.length_take_of_le inside]
        omega
      · intro recvLen' passed' there
        obtain ⟨-, rfl, rfl⟩ := Pc.send.inj there
        exact ⟨less, inside⟩
  | @sendAnswered c recvLen passed here closed =>
      exact books.serve (by rw [here]; rfl) rfl rfl rfl rfl
        ⟨fun whole => by simp at whole, books.bounded c, books.ended c, by simp⟩ (by simp)
  | @sendCut c recvLen passed here reset =>
      exact books.serve (by rw [here]; rfl) rfl rfl rfl (s.clients_set_eq c)
        ⟨fun whole => by simp [reset] at whole, books.bounded c, books.ended c, by simp⟩ (by simp)
  | @sendFails c recvLen here reset =>
      exact books.serve (by rw [here]; rfl) rfl rfl rfl (s.clients_set_eq c)
        ⟨fun whole => by simp [reset] at whole, books.bounded c, books.ended c,
          fun _ => Or.inl reset⟩ (by simp)
  | @sendKills c recvLen here reset =>
      refine ⟨by simp [State.line, Pc.served], by simp [State.line, Pc.served],
        fun other => ⟨fun whole => ?_, books.bounded other, books.ended other, by simp⟩, by simp,
        fun _ => rfl⟩
      have away : c ≠ other := fun same => by simp [← same, reset] at whole
      simpa [State.inHand, here, away] using books.conserved other whole
  | @close c here =>
      refine books.moves_on (Or.inr ⟨c, here⟩) ?_ rfl rfl (fun _ => rfl) (by simp) (by simp)
        (by simp)
      simp [State.line, here, Pc.served]

theorem books_of_reachable (reached : (system room).Reachable s) : Books room s := by
  apply reached.invariant
  · intro _ same
    subst same
    exact ⟨by simp [start, State.line, Pc.served], by simp [start, State.line, Pc.served],
      fun _ => ⟨fun _ => rfl, Nat.zero_le _, by simp [start], by simp [start]⟩, by simp [start],
      fun _ => rfl⟩
  · intro s action next books taken
    cases whose : action.isServer
    · exact books.client whose taken
    · exact books.server whose taken

end Step

end LinuxStudy.TcpEcho.Server
