import LinuxStudy.TcpEcho.ClientsLeft
import LinuxStudy.Transition.Progress
import Mathlib.Algebra.Order.BigOperators.Group.List
import Mathlib.Algebra.Order.Group.Nat

/-! Which clients of `tcp_echo_server.c` are served. The server stays with one client until its
connection loop for that one is left, so a client gets its echo without the help of the others
exactly if the server leaves all those that it comes to before.
-/

namespace LinuxStudy.TcpEcho.Server

open Transition Posix

-----------------------------------------------------------------------------------------
-- Behind a client that is not left
-----------------------------------------------------------------------------------------

/-- The server comes to the first client before the second. -/
def State.Ahead (s : State) (d c : Nat) : Prop :=
  ∃ before after, s.line = before ++ c :: after ∧ d ∈ before

/-- The server is alive, the client has its socket open, and the connection is not reset. -/
def State.Connected (s : State) (c : Nat) : Prop := c ∈ s.line ∧ (s.clients c).Open

/-- The steps of the server and, if wanted, those by which this client reads its echo. -/
def Action.helps (reads : Bool) (c : Nat) : Action → Bool
  | .read d _ => reads && d == c
  | action => action.isServer

/-- Some of these steps alone send back all that has arrived from this client. -/
def State.CanBeEchoed (room : Nat → Nat) (reads : Bool) (s : State) (c : Nat) : Prop :=
  ∃ actions final,
    ((system room).restrict fun _ action => action.helps reads c = true).exec s actions = some final
    ∧ (final.clients c).echoed = (s.clients c).received

section Helping

variable {room : Nat → Nat} {reads : Bool} {s next : State} {action : Action} {c d : Nat}

theorem Action.helps_cases (helps : action.helps reads c = true)
    : action.isServer = true ∨ reads = true ∧ ∃ n, action = .read c n := by
  cases action
  case read d n =>
    obtain ⟨some, same⟩ := Bool.and_eq_true_iff.mp helps
    exact Or.inr ⟨some, n, by rw [eq_of_beq same]⟩
  all_goals exact Or.inl helps

/-- A read makes room for the echo. -/
theorem read_eq_some {n : Nat}
    : read s c n = some next
      ↔ (c ∈ s.line ∧ (s.clients c).Open ∧ 0 < n ∧ n ≤ (s.clients c).pending.length)
        ∧ s.set c { s.clients c with pending := (s.clients c).pending.drop n } = next := by
  rw [read, Option.ite_none_right_eq_some, Option.some.injEq]

theorem State.leaves_set {client : Client} (different : d ≠ c)
    : (s.set c client).Leaves room d ↔ s.Leaves room d :=
  leaves_congr (State.clients_set_of_ne different) rfl Iff.rfl Iff.rfl

theorem State.Ahead.mem (ahead : s.Ahead d c) : d ∈ s.line := by
  obtain ⟨before, after, split, member⟩ := ahead
  rw [split]
  exact List.mem_append_left _ member

/-- Nobody is ahead of himself. -/
theorem State.Ahead.ne (books : Books room s) (ahead : s.Ahead d c) : d ≠ c := by
  obtain ⟨before, after, split, member⟩ := ahead
  have nodup := books.nodup
  rw [split] at nodup
  exact (List.nodup_append.mp nodup).2.2 d member c (.head _)

theorem State.Ahead.mem_takeWhile (books : Books room s) (ahead : s.Ahead d c)
    : d ∈ s.line.takeWhile (· != c) := by
  obtain ⟨before, after, split, member⟩ := ahead
  have nodup := books.nodup
  rw [split] at nodup ⊢
  have others : ∀ other ∈ before, (other != c) = true := fun other known =>
    bne_iff_ne.mpr ((List.nodup_append.mp nodup).2.2 other known c (.head _))
  rw [List.takeWhile_append_of_pos others]
  exact List.mem_append_left _ member

/-- Whoever is behind somebody is not served. -/
theorem State.Ahead.away (books : Books room s) (ahead : s.Ahead d c)
    : s.pc.served ≠ some c := by
  intro served
  obtain ⟨before, after, split, member⟩ := ahead
  obtain ⟨first, rest, rfl⟩ := List.exists_cons_of_ne_nil (List.ne_nil_of_mem member)
  rw [State.line_of_served served, List.cons_append] at split
  obtain ⟨-, again⟩ := List.cons.inj split
  have nodup := books.nodup
  rw [State.line_of_served served, again] at nodup
  simp at nodup

/-- When the first one in line is left, the others stay in their order. -/
theorem State.Ahead.tail {first : Nat} (line : s.line = first :: next.line) (different : d ≠ first)
    (ahead : s.Ahead d c)
    : next.Ahead d c := by
  obtain ⟨before, after, split, member⟩ := ahead
  obtain ⟨head, rest, rfl⟩ := List.exists_cons_of_ne_nil (List.ne_nil_of_mem member)
  rw [line, List.cons_append] at split
  obtain ⟨rfl, rest_⟩ := List.cons.inj split
  exact ⟨rest, after, rest_, (List.mem_cons.mp member).resolve_left different⟩

theorem State.Ahead.cons {first : Nat} (line : s.line = first :: next.line)
    (ahead : next.Ahead d c)
    : s.Ahead d c := by
  obtain ⟨before, after, split, member⟩ := ahead
  exact ⟨first :: before, after, by rw [line, split]; rfl, .tail _ member⟩

end Helping

/-- What a client waits behind: one that the server does not leave, or nothing any more,
because the server is dead.
-/
structure Blocked (room : Nat → Nat) (d c : Nat) (bytes : Bytes) (s : State) : Prop where
  books : Books room s
  behind : s.Ahead d c ∧ ¬s.Leaves room d ∨ s.line = []
  open_ : (s.clients c).Open
  received : (s.clients c).received = bytes
  unread : (s.clients c).unread ≠ []

section Waiting

variable {room : Nat → Nat} {reads : Bool} {s next : State} {action : Action} {c d : Nat}
  {bytes : Bytes}

theorem Blocked.away (blocked : Blocked room d c bytes s) : s.pc.served ≠ some c := by
  rcases blocked.behind with ⟨ahead, -⟩ | empty
  · exact ahead.away blocked.books
  · intro served
    rw [State.line_of_served served] at empty
    contradiction

theorem Blocked.kept (blocked : Blocked room d c bytes s) (helps : action.helps reads c = true)
    (taken : step room s action = some next)
    : Blocked room d c bytes next := by
  have away := blocked.away
  obtain ⟨books, behind, open_, received, unread⟩ := blocked
  rcases Action.helps_cases helps with its | ⟨-, n, rfl⟩
  · have move := ServerMove.of_step its taken
    have same := move.frame.others c away
    refine ⟨books.server its taken, ?_, same ▸ open_, same ▸ received, same ▸ unread⟩
    rcases behind with ⟨ahead, stays⟩ | empty
    · rcases move.frame.line with line | ⟨first, closing, line⟩ | ⟨-, empty⟩
      · left
        have ahead' : next.Ahead d c := by rwa [State.Ahead, line]
        exact ⟨ahead', fun leaves => stays ((move.leaves_next books ahead'.mem).mp leaves)⟩
      · left
        have different : d ≠ first := by
          rintro rfl
          exact stays (Or.inl closing)
        have ahead' := ahead.tail line different
        exact ⟨ahead', fun leaves => stays ((move.leaves_next books ahead'.mem).mp leaves)⟩
      · exact Or.inr empty
    · right
      rcases move.frame.line with line | ⟨first, -, line⟩ | ⟨-, empty'⟩
      · exact line.trans empty
      · rw [empty] at line
        contradiction
      · exact empty'
  · obtain ⟨-, rfl⟩ := read_eq_some.mp taken
    refine ⟨books.client rfl taken, ?_, by rwa [State.clients_set_self], by simpa using received,
      by simpa using unread⟩
    rcases behind with ⟨ahead, stays⟩ | empty
    · exact Or.inl ⟨ahead, fun leaves => stays ((State.leaves_set (ahead.ne books)).mp leaves)⟩
    · exact Or.inr empty

theorem not_canBeEchoed_of_ahead (books : Books room s) (connected : s.Connected c)
    (unread : (s.clients c).unread ≠ []) (ahead : s.Ahead d c) (stays : ¬s.Leaves room d)
    : ¬s.CanBeEchoed room reads c := by
  rintro ⟨actions, final, run, echoed⟩
  have start : Blocked room d c (s.clients c).received s :=
    ⟨books, Or.inl ⟨ahead, stays⟩, connected.2, rfl, unread⟩
  have blocked : Blocked room d c (s.clients c).received final := by
    refine System.exec_invariant (fun s action next blocked taken => ?_) start run
    obtain ⟨helps, taken⟩ := Option.ite_none_right_eq_some.mp taken
    exact blocked.kept helps taken
  have conserved := blocked.books.conserved c blocked.open_.2
  rw [blocked.received, ← echoed, List.append_assoc, List.self_eq_append_right] at conserved
  exact blocked.unread (List.append_eq_nil_iff.mp conserved).2

/-- Without reads of the client's, what is owed to it does not get less. -/
structure Overfull (room : Nat → Nat) (c : Nat) (bytes : Bytes) (s : State) : Prop where
  books : Books room s
  open_ : (s.clients c).Open
  received : (s.clients c).received = bytes
  more : room c < s.owed c

theorem Overfull.kept (full : Overfull room c bytes s) (its : action.isServer = true)
    (taken : step room s action = some next)
    : Overfull room c bytes next := by
  obtain ⟨books, open_, received, more⟩ := full
  have move := ServerMove.of_step its taken
  exact ⟨books.server its taken, move.frame.open_ c open_, (move.frame.received c).trans received,
    move.owed_eq books open_ ▸ more⟩

theorem not_canBeEchoed_of_full (books : Books room s) (connected : s.Connected c)
    (more : room c < s.owed c)
    : ¬s.CanBeEchoed room false c := by
  rintro ⟨actions, final, run, echoed⟩
  have start : Overfull room c (s.clients c).received s := ⟨books, connected.2, rfl, more⟩
  have full : Overfull room c (s.clients c).received final := by
    refine System.exec_invariant (fun s action next full taken => ?_) start run
    obtain ⟨helps, taken⟩ := Option.ite_none_right_eq_some.mp taken
    exact full.kept ((Action.helps_cases helps).resolve_right (by simp)) taken
  have conserved := full.books.conserved c full.open_.2
  rw [full.received, ← echoed, List.append_assoc, List.self_eq_append_right] at conserved
  obtain ⟨hand, unread⟩ := List.append_eq_nil_iff.mp conserved
  have more := full.more
  have bounded := full.books.bounded c
  simp only [State.owed, hand, unread, List.length_nil] at more
  omega

end Waiting

-----------------------------------------------------------------------------------------
-- Behind clients that are all left
-----------------------------------------------------------------------------------------

/-- A client that has its echo or whose turn comes, and that reads or need not read. -/
structure Coming (room : Nat → Nat) (reads : Bool) (c : Nat) (bytes : Bytes) (s : State) : Prop
  where
  books : Books room s
  open_ : (s.clients c).Open
  received : (s.clients c).received = bytes
  fits : reads = true ∨ s.owed c ≤ room c
  turn : (s.clients c).echoed = bytes ∨ c ∈ s.line ∧ ∀ d, s.Ahead d c → s.Leaves room d

/-- How far the server is from the next client. -/
def Pc.weight : Pc → Nat
  | .accept => 3
  | .recv _ => 2
  | .send _ recvLen passed => 2 * (recvLen - passed) + 3
  | .close _ => 1
  | .dead => 0

/-- What is to be done for one client. -/
def Client.work (client : Client) : Nat := 4 * client.unread.length + client.pending.length + 3

/-- What is to be done for everybody in line. -/
def lineWork (clients : Nat → Client) (line : List Nat) : Nat :=
  (line.map fun c => (clients c).work).sum

def State.work (s : State) : Nat := s.pc.weight + lineWork s.clients s.line

section Serving

variable {room : Nat → Nat} {reads : Bool} {c : Nat} {bytes : Bytes} {s next : State}
  {action : Action}

/-- Everything is echoed when nothing is in hand or unread. -/
theorem Coming.echoed (coming : Coming room reads c bytes s) (hand : s.inHand c = [])
    (unread : (s.clients c).unread = [])
    : (s.clients c).echoed = bytes := by
  have whole := coming.books.conserved c coming.open_.2
  rw [hand, unread, coming.received, List.append_nil, List.append_nil] at whole
  exact whole.symm

/-- A client that is left has ended its side, or the connection is reset. -/
theorem State.Leaves.ends {d : Nat} (leaves : s.Leaves room d) (books : Books room s)
    (going : s.pc ≠ .close d)
    : (s.clients d).fin = true ∨ (s.clients d).fin = false ∧ (s.clients d).reset = true := by
  cases fin : (s.clients d).fin
  case true => exact Or.inl rfl
  cases reset : (s.clients d).reset
  case true => exact Or.inr ⟨rfl, rfl⟩
  have closed : (s.clients d).closed = false :=
    Bool.eq_false_iff.mpr fun closed => by simp [books.ended d closed] at fin
  rw [State.leaves_of_open ⟨closed, reset⟩ going, fin] at leaves
  exact absurd leaves.1 Bool.false_ne_true

/-- Somebody who waits is ahead of everybody else in line behind him. -/
theorem State.ahead_of_served {d : Nat} (served : s.pc.served = some d) (member : c ∈ s.line)
    (different : d ≠ c)
    : s.Ahead d c := by
  rw [State.line_of_served served] at member
  obtain ⟨before, after, split⟩ :=
    List.append_of_mem ((List.mem_cons.mp member).resolve_left different.symm)
  exact ⟨d :: before, after, by rw [State.line_of_served served, split]; rfl, .head _⟩

/-- A server that leaves all clients ahead is not killed by one of them. -/
theorem ServerMove.alive (move : ServerMove room s action next) (open_ : (s.clients c).Open)
    (member : c ∈ s.line) (leaves : ∀ d, s.Ahead d c → s.Leaves room d)
    (accepts : action ≠ .acceptFails)
    : next.pc ≠ .dead := by
  cases move with
  | acceptFails => exact absurd rfl accepts
  | @sendKills d recvLen here reset ended =>
      have different : d ≠ c := by
        rintro rfl
        simp [open_.2] at reset
      have left_ := leaves d (State.ahead_of_served (by rw [here]; rfl) member different)
      rw [State.leaves_of_reset reset (by simp [here])] at left_
      simp [ended, State.AtSend, here] at left_
  | accept | recv | recvEnd | recvFails | sendRest | sendPart | sendAnswered | sendCut
  | sendFails | close => simp

theorem Coming.kept (coming : Coming room reads c bytes s) (helps : action.helps reads c = true)
    (alive : action ≠ .acceptFails) (taken : step room s action = some next)
    : Coming room reads c bytes next := by
  have done := coming.echoed
  obtain ⟨books, open_, received, fits, turn⟩ := coming
  rcases Action.helps_cases helps with its | ⟨reading, n, rfl⟩
  · have move := ServerMove.of_step its taken
    have books' := books.server its taken
    have open' := move.frame.open_ c open_
    have received' := (move.frame.received c).trans received
    have stays (done : (s.clients c).echoed = bytes) : (next.clients c).echoed = bytes := by
      -- the echo cannot grow beyond what has arrived
      have whole := books'.conserved c open'.2
      rw [received', List.append_assoc] at whole
      have grown := move.frame.echoed c
      rw [done] at grown
      refine (grown.eq_of_length_le ?_).symm
      rw [whole]
      simp
    refine ⟨books', open', received', ?_, ?_⟩
    · rwa [move.owed_eq books open_]
    rcases turn with done | ⟨member, leaves⟩
    · exact Or.inl (stays done)
    rcases move.frame.line with same | ⟨first, there, line⟩ | ⟨dead, -⟩
    · right
      refine ⟨same ▸ member, fun d ahead => ?_⟩
      refine (move.leaves_next books ahead.mem).mpr (leaves d ?_)
      rwa [State.Ahead, ← same]
    · by_cases mine : c = first
      · left
        subst mine
        have read := ((books.kept c).closing there).resolve_left (by simp [open_.2])
        exact stays (done (by simp [State.inHand, there]) read.2)
      · right
        rw [line] at member
        refine ⟨(List.mem_cons.mp member).resolve_left mine, fun d ahead => ?_⟩
        exact (move.leaves_next books ahead.mem).mpr (leaves d (ahead.cons line))
    · exact absurd dead (move.alive open_ member leaves alive)
  · obtain ⟨-, rfl⟩ := read_eq_some.mp taken
    refine ⟨books.client rfl taken, by rwa [State.clients_set_self], by simpa using received,
      Or.inl reading, ?_⟩
    rcases turn with done | ⟨member, leaves⟩
    · exact Or.inl (by simpa using done)
    · refine Or.inr ⟨member, fun d ahead => ?_⟩
      exact (State.leaves_set (State.Ahead.ne books ahead)).mpr (leaves d ahead)

/-- A step for the client served that does some of the work on it. -/
theorem work_lt_of_served {client : Client} (books : Books room s) (served : s.pc.served = some c)
    (still : next.pc.served = some c) (waiting : next.waiting = s.waiting)
    (same : next.clients = (s.set c client).clients)
    (lower : next.pc.weight + client.work < s.pc.weight + (s.clients c).work)
    : next.work < s.work := by
  have away : c ∉ s.waiting := by
    have nodup := books.nodup
    rw [State.line_of_served served] at nodup
    exact (List.nodup_cons.mp nodup).1
  have others : lineWork (s.set c client).clients s.waiting = lineWork s.clients s.waiting := by
    refine congrArg List.sum (List.map_congr_left fun d member => ?_)
    have different : d ≠ c := fun same => away (same ▸ member)
    rw [State.clients_set_of_ne different]
  rw [State.work, State.work, State.line_of_served served, State.line_of_served still, same,
    waiting]
  simp only [lineWork, List.map_cons, List.sum_cons, State.clients_set_self] at others ⊢
  omega

/-- Every step that serves does some of the work. -/
theorem ServerMove.work_lt (books : Books room s) (move : ServerMove room s action next)
    : next.work < s.work := by
  cases move with
  | acceptFails here | sendKills here =>
      simp only [State.work, lineWork, State.line, here, Pc.served, Pc.weight, Option.toList_none,
        List.nil_append, List.map_nil, List.sum_nil]
      omega
  | accept here queue => simp [State.work, State.line, here, queue, Pc.served, Pc.weight]
  | @recv c n here some most =>
      refine work_lt_of_served books (by rw [here]; rfl) rfl rfl rfl ?_
      have positive := List.length_pos_of_ne_nil some
      have size : bufSize = 1024 := rfl
      simp only [here, Pc.weight, Client.work, List.length_drop]
      omega
  | recvEnd here | recvFails here | sendCut here | sendFails here =>
      refine work_lt_of_served books (by rw [here]; rfl) rfl rfl (s.clients_set_eq _) ?_
      simp only [here, Pc.weight]
      omega
  | @sendRest c recvLen passed k here _ all =>
      have less := (books.stored c recvLen passed here).1
      refine work_lt_of_served books (by rw [here]; rfl) rfl rfl rfl ?_
      simp only [here, Pc.weight, Client.work, List.length_append, List.length_take]
      omega
  | sendPart here _ positive less =>
      refine work_lt_of_served books (by rw [here]; rfl) rfl rfl rfl ?_
      simp only [here, Pc.weight, Client.work, List.length_append, List.length_take]
      omega
  | sendAnswered here =>
      refine work_lt_of_served books (by rw [here]; rfl) rfl rfl rfl ?_
      simp only [here, Pc.weight, Client.work]
      omega
  | close here =>
      simp only [State.work, lineWork, State.line, here, Pc.served, Pc.weight, Client.work,
        Option.toList_some, Option.toList_none, List.singleton_append, List.nil_append,
        List.map_cons, List.sum_cons]
      omega

theorem Coming.work_lt (coming : Coming room reads c bytes s)
    (helps : action.helps reads c = true) (taken : step room s action = some next)
    : next.work < s.work := by
  rcases Action.helps_cases helps with its | ⟨-, n, rfl⟩
  · exact (ServerMove.of_step its taken).work_lt coming.books
  · obtain ⟨⟨member, -, positive, enough⟩, rfl⟩ := read_eq_some.mp taken
    refine Nat.add_lt_add_left ?_ _
    refine List.sum_lt_sum _ _ (fun d _ => ?_) ⟨c, member, ?_⟩
    · by_cases mine : d = c
      · rw [mine, State.clients_set_self]
        simp [Client.work]
      · rw [State.clients_set_of_ne mine]
    · rw [State.clients_set_self]
      simp only [Client.work, List.length_drop]
      omega

/-- Until a client whose turn comes has its echo, the server can serve or the client read. -/
theorem Coming.progress (positive : 0 < room c) (coming : Coming room reads c bytes s)
    : (s.clients c).echoed = bytes
      ∨ ∃ action next,
          (action.helps reads c = true ∧ action ≠ .acceptFails)
          ∧ step room s action = some next := by
  have done := coming.echoed
  obtain ⟨books, open_, received, fits, turn⟩ := coming
  rcases turn with echoed | ⟨member, leaves⟩
  · exact Or.inl echoed
  have possible (action : Action) (helps : action.helps reads c = true)
      (alive : action ≠ .acceptFails) (enabled : (step room s action).isSome = true)
      : (s.clients c).echoed = bytes
        ∨ ∃ action next,
            (action.helps reads c = true ∧ action ≠ .acceptFails)
            ∧ step room s action = some next := by
    obtain ⟨next, taken⟩ := Option.isSome_iff_exists.mp enabled
    exact Or.inr ⟨action, next, ⟨helps, alive⟩, taken⟩
  cases here : s.pc
  case accept =>
    have queued : c ∈ s.waiting := by simpa [State.line, here, Pc.served] using member
    obtain ⟨first, rest, queue⟩ := List.exists_cons_of_ne_nil (List.ne_nil_of_mem queued)
    exact possible .accept rfl (by simp) (by simp [step, accept, here, queue])
  case recv d =>
    by_cases empty : (s.clients d).unread = []
    · by_cases mine : d = c
      · subst mine
        exact Or.inl (done (by simp [State.inHand, here]) empty)
      have left_ := leaves d (State.ahead_of_served (by rw [here]; rfl) member mine)
      rcases left_.ends books (by simp [here]) with ended | ⟨unended, reset⟩
      · exact possible .recvEnd rfl (by simp) (by simp [step, recvEnd, here, empty, ended])
      · exact possible .recvFails rfl (by simp)
          (by simp [step, recvFails, here, empty, unended, reset])
    · exact possible .recv rfl (by simp) (by simp [step, recv, here, empty])
  case send d n p =>
    cases reset : (s.clients d).reset
    case true =>
      refine possible .sendBroken rfl (by simp) ?_
      simp only [step, sendBroken, here, reset, if_true]
      split
      · rfl
      · split <;> rfl
    cases closed : (s.clients d).closed
    case true =>
      exact possible .sendAnswered rfl (by simp)
        (by simp [step, sendAnswered, here, closed, reset])
    obtain ⟨less, inside⟩ := books.stored d n p here
    by_cases place : (s.clients d).pending.length < room d
    · refine possible (.send 1) rfl (by simp) ?_
      have fits : (s.clients d).Open ∧ 0 < 1 ∧ 1 ≤ n - p
          ∧ (s.clients d).pending.length + 1 ≤ room d :=
        ⟨⟨closed, reset⟩, by decide, by omega, place⟩
      simp only [step, send, here, if_pos fits]
      rfl
    -- there is no room, so this is the client itself and it reads
    have hand : (s.inHand d).length = n - p := by
      simp only [State.inHand, here, if_true, List.length_drop, List.length_take_of_le inside]
    have owed : ¬s.owed d ≤ room d := by
      rw [State.owed, hand]
      omega
    obtain rfl : d = c := by
      by_contra mine
      have left_ := leaves d (State.ahead_of_served (by rw [here]; rfl) member mine)
      rw [State.leaves_of_open ⟨closed, reset⟩ (by simp [here])] at left_
      exact owed left_.2
    have reading := fits.resolve_right owed
    have some : 1 ≤ (s.clients d).pending.length := by omega
    refine possible (.read d 1) (by simp [Action.helps, reading]) (by simp) ?_
    simp [step, read, member, open_, some]
  case close d => exact possible .close rfl (by simp) (by simp [step, close, here])
  case dead => simp [State.line, here, Pc.served, books.dead here] at member

/-- As long as the server only serves and a client reads its echo, or need not, it gets the
echo.
-/
theorem Coming.inevitable (positive : 0 < room c) (coming : Coming room reads c bytes s)
    : (system room).Inevitable
        (fun _ action => action.helps reads c = true ∧ action ≠ .acceptFails)
        (fun s => (s.clients c).echoed = bytes) s :=
  .of_measure (Coming room reads c bytes) State.work
    (fun _ _ _ coming may taken => coming.kept may.1 may.2 taken)
    (fun _ coming => coming.progress positive)
    (fun _ _ _ coming may taken => coming.work_lt may.1 taken) coming

end Serving

/-- A client gets its echo from the server alone exactly if the server leaves all the clients that
it comes to before and there is room for the echo. If the client reads, no room is needed.
-/
theorem echoedAlone {room : Nat → Nat} {reads : Bool} {s : State} {c : Nat}
    (positive : 0 < room c) (reached : (system room).Reachable s) (connected : s.Connected c)
    (unread : (s.clients c).unread ≠ [])
    : s.CanBeEchoed room reads c
      ↔ (∀ d, s.Ahead d c → s.Leaves room d) ∧ (reads = true ∨ s.owed c ≤ room c) := by
  have books := books_of_reachable reached
  constructor
  · intro can
    constructor
    · intro d ahead
      by_contra stays
      exact not_canBeEchoed_of_ahead books connected unread ahead stays can
    · cases reads
      case true => exact Or.inl rfl
      right
      by_contra full
      exact not_canBeEchoed_of_full books connected (Nat.lt_of_not_le full) can
  · rintro ⟨leaves, fits⟩
    have coming : Coming room reads c (s.clients c).received s :=
      ⟨books, connected.2, rfl, fits, Or.inr ⟨connected.1, leaves⟩⟩
    obtain ⟨actions, final, run, echoed⟩ := (coming.inevitable positive).exists_restrict_exec
    exact ⟨actions, final, System.exec_restrict_mono (fun _ _ may => may.1) run, echoed⟩

/-- The first client is served, has sent two bytes and shut down its side; the second one has
sent one and closed its socket; the third one sends two.
-/
def twoEnded : List Action :=
  [.connect, .connect, .connect, .accept, .arrive 0 [97, 98], .shutdown 0, .arrive 1 [99], .leave 1,
    .arrive 2 [104, 105]]

/-- Where there is room for one byte of its echo only, the third client has to read. -/
theorem echoedAlone_twoEnded
    : ∃ s,
        (system fun c => if c = 2 then 1 else 1024).Reachable s
        ∧ (s.clients 2).received = [104, 105]
        ∧ ¬s.CanBeEchoed (fun c => if c = 2 then 1 else 1024) false 2
        ∧ s.CanBeEchoed (fun c => if c = 2 then 1 else 1024) true 2 := by
  have reached := @System.reachable_of_run _ _ (system fun c => if c = 2 then 1 else 1024) start
    rfl twoEnded rfl
  have alone {reads : Bool} :=
    @echoedAlone _ reads _ 2 (by decide) reached ⟨by decide, by decide⟩ (by decide)
  refine ⟨_, reached, rfl, fun can => ?_, alone.mpr ⟨fun d ahead => ?_, Or.inl rfl⟩⟩
  · rcases (alone.mp can).2 with reads | fits
    · contradiction
    · exact absurd fits (by decide)
  · have inFront : d ∈ [0, 1] := ahead.mem_takeWhile (books_of_reachable reached)
    obtain rfl | rfl : d = 0 ∨ d = 1 := by simpa using inFront
    · exact (State.leaves_of_open (by decide) (by decide)).mpr (by decide)
    · exact (State.leaves_of_closed (by decide) (by decide) (by decide)).mpr (by decide)

/-- The first client is served and stays silent, the second one sends two bytes. -/
def silentFirst : List Action := [.connect, .connect, .accept, .arrive 1 [104, 105]]

/-- While the first client stays silent, the second one gets nothing. -/
theorem echoedAlone_firstSilent
    : ∃ s,
        (system fun _ => 1024).Reachable s
        ∧ s.Connected 1
        ∧ (s.clients 1).unread = [104, 105]
        ∧ ∀ reads, ¬s.CanBeEchoed (fun _ => 1024) reads 1 := by
  have reached := @System.reachable_of_run _ _ (system fun _ => 1024) start rfl silentFirst rfl
  refine ⟨_, reached, ⟨by decide, by decide⟩, rfl, fun reads => ?_⟩
  refine @not_canBeEchoed_of_ahead _ reads _ 1 0 (books_of_reachable reached)
    ⟨by decide, by decide⟩ (by decide) ⟨[0], [], rfl, .head _⟩ ?_
  rw [State.leaves_of_open (by decide) (by decide)]
  decide

end LinuxStudy.TcpEcho.Server
