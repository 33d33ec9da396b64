import LinuxStudy.EpollTest.Descriptors

/-! What `epoll_test.c` sends back. Every received byte is offered to `send` once and in
order; the result of `send` is not looked at, so the echo is complete exactly as long as every
call accepts its whole buffer.
-/

namespace LinuxStudy.EpollTest

open Transition Posix

/-- The descriptor and the length of the chunk that is received but not yet offered. -/
def Pc.chunk? : Pc → Option (Nat × Nat)
  | .serve fd (.print len) | .serve fd (.echo len) => some (fd, len)
  | _ => none

/-- The bytes of a connection that the server holds in `buf`. -/
def State.held (s : State) (c : Nat) : Bytes :=
  match s.pc.chunk? with
  | some (fd, len) => if s.table.lookup fd = some (.client c) then s.buf.take len else []
  | none => []

/-- The inner loop that reads the connection has not been left. -/
def State.Draining (s : State) (c : Nat) : Prop :=
  ∃ fd stage,
    s.pc = .serve fd stage
    ∧ stage ≠ .closing
    ∧ stage ≠ .deleting
    ∧ s.table.lookup fd = some (.client c)

theorem State.held_eq_nil {s : State} (none : s.pc.chunk? = none) (c : Nat) : s.held c = [] := by
  simp [State.held, none]

theorem State.held_eq {s : State} {fd len : Nat} (here : s.pc.chunk? = some (fd, len)) (c : Nat)
    : s.held c = if s.table.lookup fd = some (.client c) then s.buf.take len else [] := by
  simp [State.held, here]

/-- Outside its inner loop the server holds nothing of a connection. -/
theorem State.held_of_not_draining {s : State} {c : Nat} (ended : ¬ s.Draining c)
    : s.held c = [] := by
  cases here : s.pc.chunk? with
  | none => exact State.held_eq_nil here c
  | some chunk =>
      obtain ⟨fd, len⟩ := chunk
      have inside : ∃ stage, s.pc = .serve fd stage ∧ stage ≠ .closing ∧ stage ≠ .deleting := by
        unfold Pc.chunk? at here
        split at here
        case h_1 point | h_2 point =>
          obtain ⟨rfl, rfl⟩ := Prod.mk.inj (Option.some.inj here)
          exact ⟨_, point, by simp, by simp⟩
        case h_3 => contradiction
      obtain ⟨stage, point, reading⟩ := inside
      rw [State.held_eq here, if_neg]
      exact fun found => ended ⟨fd, stage, point, reading.1, reading.2, found⟩

-----------------------------------------------------------------------------------------
-- Every received byte is offered once and in order
-----------------------------------------------------------------------------------------

/-- The buffers given to `send`, with what is still held, make up the received bytes. -/
def Offered (s : State) : Prop :=
  ∀ c, (s.connections c).received = (s.connections c).offered.flatten ++ s.held c

/-- Steps outside the inner loop touch neither side. -/
theorem Offered.of_eq {s next : State} (offered : Offered s)
    (received : ∀ c, (next.connections c).received = (s.connections c).received)
    (same : ∀ c, (next.connections c).offered = (s.connections c).offered)
    (held : ∀ c, next.held c = s.held c)
    : Offered next := by
  intro c
  rw [received, same, held]
  exact offered c

/-- Steps that change one connection, but none of its received or offered bytes. -/
theorem Offered.setConnection {s next : State} (offered : Offered s) {c : Nat}
    {connection : Connection}
    (connections : next.connections = (s.setConnection c connection).connections)
    (received : connection.received = (s.connections c).received)
    (same : connection.offered = (s.connections c).offered)
    (held : ∀ c, next.held c = s.held c)
    : Offered next := by
  refine offered.of_eq ?_ ?_ held
  all_goals
    intro other
    rw [connections]
    by_cases mine : other = c
    · subst mine
      simp [State.setConnection, received, same]
    · simp [State.setConnection, mine]

/-- Handing the held chunk to `send` moves it from held to offered. -/
theorem Offered.send {s next : State} (offered : Offered s) {fd len c k : Nat}
    (here : s.pc = .serve fd (.echo len)) (found : s.table.lookup fd = some (.client c))
    (connections
      : next.connections
        = (s.setConnection c ((s.connections c).accepts (s.buf.take len) k)).connections)
    (ended : next.pc.chunk? = none)
    : Offered next := by
  intro other
  have chunk : s.pc.chunk? = some (fd, len) := by simp [here, Pc.chunk?]
  have before := offered other
  rw [State.held_eq chunk, found] at before
  rw [State.held_eq_nil ended, connections]
  by_cases mine : other = c
  · subst mine
    simpa [State.setConnection, Connection.accepts] using before
  · simpa [State.setConnection, mine, Ne.symm mine] using before

theorem Offered.move {s next : State} {action : Action} (offered : Offered s)
    (books : Books s) (taken : Move s action next)
    : Offered next := by
  cases taken with
  | connect =>
      intro c
      by_cases mine : c = s.connected
      · have unopened (fd : Nat) : s.table.lookup fd ≠ some (.client c) := by
          intro found
          exact absurd (books.wired.known found).1 (by simp [mine])
        have empty : (connect s).held c = [] := by
          unfold State.held
          simp only [connect, unopened, if_false]
          split <;> rfl
        rw [empty]
        simp [connect, mine]
      · have held : (connect s).held c = s.held c := rfl
        rw [held]
        simpa [connect, mine] using offered c
  | arrive _ _ | endStream _ | resetPeer _ _ =>
      exact offered.setConnection rfl rfl rfl fun _ => rfl
  | @setNonblock fd c here found =>
      refine offered.setConnection rfl rfl rfl fun c' => ?_
      rw [State.held_eq_nil (by simp [Pc.chunk?]), State.held_eq_nil (by simp [here, Pc.chunk?])]
  | @recvData fd c n here found positive available fits =>
      intro other
      have before := offered other
      rw [State.held_eq_nil (by simp [here, Pc.chunk?]), List.append_nil] at before
      rw [@State.held_eq _ fd n (by simp [Pc.chunk?])]
      have chunk : (overwrite s.buf ((s.connections c).unread.take n)).take n
          = (s.connections c).unread.take n := by
        have length : ((s.connections c).unread.take n).length = n := by simp [available]
        simpa only [length] using take_overwrite s.buf ((s.connections c).unread.take n)
      by_cases mine : other = c
      · subst mine
        simp [State.setConnection, Connection.takes, found, chunk, before]
      · simp [State.setConnection, mine, found, Ne.symm mine, before]
  | @printChunk fd len here =>
      refine offered.of_eq (fun _ => rfl) (fun _ => rfl) fun c => ?_
      rw [@State.held_eq _ fd len (by simp [Pc.chunk?]),
        @State.held_eq _ fd len (by simp [here, Pc.chunk?])]
      simp
  | sendChunk here found _ _ _ | sendRefused here found _ | sendKills here found _ =>
      exact offered.send here found rfl rfl
  | epollWait here _ _ _ _ _ | epollWaitFails here _ | nextListening here _ _
  | nextClient here _ _ | acceptClient here _ | acceptFails here | registerClient here _
  | registerFails here | closeRejected here | recvEnd here _ _ _ | recvAgain here _ _ _
  | recvError here | closeClient here | deleteClosed here _ | deleteOpen here _ =>
      refine offered.of_eq (fun _ => rfl) (fun _ => rfl) fun c => ?_
      rw [State.held_eq_nil (by simp [here, Pc.chunk?]),
        State.held_eq_nil (by simp [here, Pc.chunk?])]

-----------------------------------------------------------------------------------------
-- What the kernel accepts
-----------------------------------------------------------------------------------------

/-- A chunk on its way to `send` is not empty and lies within the buffer. -/
def Chunked (s : State) : Prop :=
  s.buf.length = bufSize
  ∧ ∀ fd len, s.pc.chunk? = some (fd, len) → 0 < len ∧ len ≤ bufSize - 1

theorem Chunked.move {s next : State} {action : Action} (chunked : Chunked s)
    (taken : Move s action next)
    : Chunked next := by
  obtain ⟨size, fits⟩ := chunked
  cases taken
  case connect | arrive | endStream | resetPeer => exact ⟨size, fits⟩
  case recvData fd c n here found positive available inside =>
    have length : ((s.connections c).unread.take n).length = n := by simp [available]
    have room : ((s.connections c).unread.take n).length ≤ s.buf.length := by
      rw [length, size]
      exact Nat.le_trans inside (Nat.sub_le _ _)
    refine ⟨by simp only [length_overwrite room, size], fun fd' len there => ?_⟩
    obtain ⟨rfl, rfl⟩ : fd = fd' ∧ n = len := by simpa [Pc.chunk?] using there
    exact ⟨positive, inside⟩
  case printChunk fd len here =>
    refine ⟨by simp [size], fun fd' len' there => fits fd' len' ?_⟩
    simpa [here, Pc.chunk?] using there
  case epollWait here _ _ _ _ _ => exact ⟨size, by simp [here, Pc.chunk?]⟩
  all_goals exact ⟨size, by simp [Pc.chunk?]⟩

/-- The chunk that `send` is called with, if this is the connection behind the descriptor. -/
def State.sending? (s : State) (c : Nat) : Option Nat :=
  match s.pc with
  | .serve fd (.echo len) => if s.table.lookup fd = some (.client c) then some len else none
  | _ => none

/-- If this step is a `send` to the connection, it accepts its whole buffer. -/
def WholeSend (c : Nat) (s : State) : Action → Prop
  | .sendChunk k => ∀ len ∈ s.sending? c, k = len
  | .sendBroken _ => s.sending? c = none
  | _ => True

instance (c : Nat) (s : State) (action : Action) : Decidable (WholeSend c s action) := by
  unfold WholeSend
  split <;> infer_instance

/-- What is offered and accepted on this connection grew together. -/
def Connection.EchoesAll (before after : Connection) : Prop :=
  ∃ chunks,
    after.offered = before.offered ++ chunks ∧ after.echoed = before.echoed ++ chunks.flatten

/-- A chunk was offered on this connection and only a part of it was accepted. -/
def Connection.EchoesPart (before after : Connection) : Prop :=
  ∃ chunk k,
    k < chunk.length
    ∧ after.offered = before.offered ++ [chunk]
    ∧ after.echoed = before.echoed ++ chunk.take k

theorem Connection.EchoesAll.of_eq {before after : Connection}
    (offered : after.offered = before.offered) (echoed : after.echoed = before.echoed)
    : before.EchoesAll after :=
  ⟨[], by simp [offered], by simp [echoed]⟩

section Sending
variable {s : State} {fd len c : Nat} (here : s.pc = .serve fd (.echo len))
  (found : s.table.lookup fd = some (.client c))
include here found

/-- A `send` concerns the connection behind the served descriptor only. -/
theorem sending_eq (other : Nat) : s.sending? other = if other = c then some len else none := by
  simp [State.sending?, here, found, eq_comm]

theorem wholeSend_sendChunk (k other : Nat)
    : WholeSend other s (.sendChunk k) ↔ (other = c → k = len) := by
  by_cases mine : other = c <;> simp [WholeSend, sending_eq here found, mine]

theorem wholeSend_sendBroken (signalled : Bool) (positive : 0 < len) (other : Nat)
    : WholeSend other s (.sendBroken signalled) ↔ (other = c → 0 = len) := by
  have nonzero : 0 ≠ len := Nat.ne_of_lt positive
  by_cases mine : other = c <;> simp [WholeSend, sending_eq here found, mine, nonzero]

/-- Whether a `send` echoes all or a part of its buffer is a matter of the accepted count. -/
theorem Chunked.send_echoes {next : State} {action : Action} {k : Nat} (chunked : Chunked s)
    (part : k ≤ len)
    (connections
      : next.connections
        = (s.setConnection c ((s.connections c).accepts (s.buf.take len) k)).connections)
    (whole : ∀ other, WholeSend other s action ↔ (other = c → k = len)) (other : Nat)
    : (WholeSend other s action → (s.connections other).EchoesAll (next.connections other))
      ∧ (¬ WholeSend other s action
          → (s.connections other).EchoesPart (next.connections other)) := by
  have inside : len ≤ s.buf.length := by
    rw [chunked.1]
    exact Nat.le_trans (chunked.2 fd len (by simp [here, Pc.chunk?])).2 (Nat.sub_le _ _)
  have length : (s.buf.take len).length = len := by simp [inside]
  rw [connections, whole]
  by_cases mine : other = c
  · subst mine
    have after
        : (s.setConnection other ((s.connections other).accepts (s.buf.take len) k)).connections
            other
          = (s.connections other).accepts (s.buf.take len) k := by
      simp [State.setConnection]
    rw [after]
    refine ⟨fun all => ⟨[s.buf.take len], rfl, ?_⟩, fun short => ⟨s.buf.take len, k, ?_, rfl, rfl⟩⟩
    · simp [Connection.accepts, all rfl, List.take_take]
    · rw [length]
      exact Nat.lt_of_le_of_ne part fun same => short fun _ => same
  · refine ⟨fun _ => .of_eq ?_ ?_, fun short => absurd (fun same => absurd same mine) short⟩
    all_goals simp [State.setConnection, mine]

end Sending

/-- A step echoes on every connection all it offers there, unless it is a `send` to that
connection which does not accept its whole buffer.
-/
theorem Move.echoes {s next : State} {action : Action} (taken : Move s action next)
    (chunked : Chunked s) {c : Nat} (known : c < s.connected)
    : (WholeSend c s action → (s.connections c).EchoesAll (next.connections c))
      ∧ (¬ WholeSend c s action → (s.connections c).EchoesPart (next.connections c)) := by
  cases taken
  case sendChunk fd len c' k here found part blocks whole =>
    exact chunked.send_echoes here found part rfl (wholeSend_sendChunk here found k) c
  case sendRefused fd len c' here found broken | sendKills fd len c' here found broken =>
    have positive := (chunked.2 fd len (by simp [here, Pc.chunk?])).1
    exact chunked.send_echoes here found (Nat.zero_le len) rfl
      (wholeSend_sendBroken here found _ positive) c
  case connect =>
    refine ⟨fun _ => .of_eq ?_ ?_, fun broken => absurd trivial broken⟩
    all_goals simp [EpollTest.connect, Nat.ne_of_lt known]
  case arrive c' _ _ _ | endStream c' _ | resetPeer c' _ _ | setNonblock _ c' _ _
      | recvData _ c' _ _ _ _ _ _ =>
    refine ⟨fun _ => .of_eq ?_ ?_, fun broken => absurd trivial broken⟩
    all_goals
      by_cases mine : c = c' <;> simp [deliver, State.setConnection, Connection.takes, mine]
  all_goals exact ⟨fun _ => .of_eq rfl rfl, fun broken => absurd trivial broken⟩

/-- Everything offered so far was accepted. -/
def Connection.Complete (connection : Connection) : Prop :=
  connection.echoed = connection.offered.flatten

/-- Less was accepted than offered. -/
def Connection.Short (connection : Connection) : Prop :=
  connection.echoed.length < connection.offered.flatten.length

theorem Connection.EchoesAll.complete {before after : Connection}
    (all : before.EchoesAll after) (complete : before.Complete)
    : after.Complete := by
  obtain ⟨chunks, offered, echoed⟩ := all
  rw [Connection.Complete, offered, echoed, complete, List.flatten_append]

theorem Connection.EchoesAll.short {before after : Connection} (all : before.EchoesAll after)
    (short : before.Short)
    : after.Short := by
  obtain ⟨chunks, offered, echoed⟩ := all
  rw [Connection.Short] at short ⊢
  rw [offered, echoed, List.flatten_append, List.length_append, List.length_append]
  omega

/-- A part of a chunk leaves the echo short, whatever was accepted before. -/
theorem Connection.EchoesPart.short {before after : Connection}
    (part : before.EchoesPart after)
    (most : before.echoed.length ≤ before.offered.flatten.length)
    : after.Short := by
  obtain ⟨chunk, k, less, offered, echoed⟩ := part
  rw [Connection.Short, offered, echoed, List.flatten_append, List.length_append,
    List.length_append, List.length_take]
  simp only [List.flatten_cons, List.flatten_nil, List.append_nil]
  omega

-----------------------------------------------------------------------------------------
-- Runs
-----------------------------------------------------------------------------------------

/-- The facts about chunks and echoes that hold whatever `send` answers. -/
structure Echoing (s : State) : Prop where
  books : Books s
  offered : Offered s
  chunked : Chunked s
  most
    : ∀ c < s.connected,
        (s.connections c).echoed.length ≤ (s.connections c).offered.flatten.length

/-- Only a client that connects is new, and nothing has happened on its connection. -/
theorem Move.connected {s next : State} {action : Action} (taken : Move s action next)
    : s.connected ≤ next.connected
      ∧ ∀ c < next.connected, c < s.connected ∨ next.connections c = {} := by
  cases taken
  case connect =>
    refine ⟨Nat.le_succ _, fun c bound => ?_⟩
    rcases Nat.lt_succ_iff_lt_or_eq.mp bound with old | rfl
    · exact Or.inl old
    · exact Or.inr (by simp [EpollTest.connect])
  all_goals exact ⟨Nat.le_refl _, fun _ => Or.inl⟩

theorem Echoing.move {s next : State} {action : Action} (echoing : Echoing s)
    (taken : Move s action next)
    : Echoing next := by
  obtain ⟨books, offered, chunked, most⟩ := echoing
  refine ⟨books.move taken, offered.move books taken, chunked.move taken, fun c bound => ?_⟩
  rcases taken.connected.2 c bound with known | new
  · obtain ⟨whole, broken⟩ := taken.echoes chunked known
    by_cases all : WholeSend c s action
    · obtain ⟨chunks, offered, echoed⟩ := whole all
      rw [offered, echoed, List.flatten_append, List.length_append, List.length_append]
      exact Nat.add_le_add_right (most c known) _
    · exact Nat.le_of_lt ((broken all).short (most c known))
  · simp [new]

theorem Started.echoing {s : State} (started : Started s) : Echoing s := by
  refine ⟨started.books, fun c => ?_, ⟨started.buf, ?_⟩, ?_⟩
  · rw [State.held_eq_nil (by simp [started.pc, Pc.chunk?])]
    simp [started.connections c]
  · simp [started.pc, Pc.chunk?]
  · simp [started.connected]

theorem echoing_of_reachable {s : State} (reached : system.Reachable s) : Echoing s := by
  apply reached.invariant
  · exact fun _ started => started.echoing
  · intro s action next echoing taken
    exact echoing.move (.of_step taken)

/-- As long as every `send` to a connection accepts its whole buffer, its echo is complete. -/
theorem complete_of_reachableBy {c : Nat} {s : State}
    (reached : system.ReachableBy (WholeSend c) s) (known : c < s.connected)
    : (s.connections c).Complete := by
  have complete : c < s.connected → (s.connections c).Complete := by
    apply reached.invariant
    · intro s started bound
      simp [started.connected] at bound
    · intro s action next before complete whole taken bound
      have move := Move.of_step taken
      have chunked := (echoing_of_reachable before.reachable).chunked
      rcases move.connected.2 c bound with old | new
      · exact ((move.echoes chunked old).1 whole).complete (complete old)
      · simp [Connection.Complete, new]
  exact complete known

/-- A short echo stays short, by induction on the rest of the run. -/
theorem short_of_exec {s final : State} {actions : List Action} {c : Nat}
    (reached : system.Reachable s) (known : c < s.connected) (short : (s.connections c).Short)
    (run : system.exec s actions = some final)
    : (final.connections c).Short := by
  induction actions generalizing s with
  | nil =>
      obtain rfl : s = final := Option.some.inj run
      exact short
  | cons action rest ih =>
      obtain ⟨next, taken, later⟩ := System.exec_cons_eq_some.mp run
      have move := Move.of_step taken
      have echoing := echoing_of_reachable reached
      have stays : (next.connections c).Short := by
        obtain ⟨whole, broken⟩ := move.echoes echoing.chunked known
        by_cases all : WholeSend c s action
        · exact (whole all).short short
        · exact (broken all).short (echoing.most c known)
      exact ih (reached.next taken) (Nat.lt_of_lt_of_le known move.connected.1) stays later

/-- The echo of a connection has no hole, and it is complete whenever the inner loop for the
connection has been left.
-/
def EchoIntegrity (s : State) (c : Nat) : Prop :=
  (s.connections c).echoed <+: (s.connections c).received
  ∧ (¬ s.Draining c → (s.connections c).echoed = (s.connections c).received)

/-- Echo integrity holds for a client in every run in which each `send` to it accepts its
whole buffer. After one `send` that does not, the echo is never complete again at the end of
the inner loop.
-/
theorem echoIntegrity (c : Nat)
    : (∀ s, system.ReachableBy (WholeSend c) s → c < s.connected → EchoIntegrity s c)
      ∧ ∀ s action next actions final,
          system.Reachable s
          → c < s.connected
          → ¬ WholeSend c s action
          → system.step s action = some next
          → system.exec next actions = some final
          → ¬ final.Draining c
          → (final.connections c).echoed ≠ (final.connections c).received := by
  constructor
  · intro s reached known
    have complete := complete_of_reachableBy reached known
    have received := (echoing_of_reachable reached.reachable).offered c
    rw [← complete] at received
    refine ⟨⟨s.held c, received.symm⟩, fun ended => ?_⟩
    rw [received, State.held_of_not_draining ended, List.append_nil]
  · intro s action next actions final reached known broken taken run ended same
    have move := Move.of_step taken
    have echoing := echoing_of_reachable reached
    have short := ((move.echoes echoing.chunked known).2 broken).short (echoing.most c known)
    have stays := short_of_exec (reached.next taken)
      (Nat.lt_of_lt_of_le known move.connected.1) short run
    have received := (echoing_of_reachable ((reached.next taken).exec run)).offered c
    rw [State.held_of_not_draining ended, List.append_nil, ← same] at received
    rw [Connection.Short, ← received] at stays
    exact Nat.lt_irrefl _ stays

/-- Of a client whose byte was accepted whole, the echo is complete in the end. -/
theorem echoIntegrity_oneClient
    : ∃ s : State, (s.connections 0).received = [104] ∧ s.pc = .loop ∧ EchoIntegrity s 0 := by
  have run : ((system.restrict (WholeSend 0)).exec start oneClient).isSome := by decide
  have reached : (system.restrict (WholeSend 0)).Reachable _ :=
    System.reachable_of_run start start_started oneClient run
  exact ⟨_, rfl, rfl, (echoIntegrity 0).1 _ (System.reachable_restrict_iff.mp reached)
    Nat.one_pos⟩

/-- A `send` answers with a count or with `EAGAIN`. -/
def SendAnswers (_ : State) (action : Action) : Prop :=
  ∀ signalled, action ≠ .sendBroken signalled

instance (s : State) (action : Action) : Decidable (SendAnswers s action) := by
  unfold SendAnswers
  infer_instance

/-- `send` accepts one of two bytes; the client's next byte is then echoed whole. -/
def shortSend : List Action :=
  [.connect, .epollWait [.listening], .nextEvent, .acceptClient, .setNonblock,
    .registerClient, .arrive 0 [97, 98], .epollWait [.client 0], .nextEvent, .recvData 2,
    .printChunk, .sendChunk 1, .arrive 0 [99], .recvData 1, .printChunk, .sendChunk 1,
    .recvAgain]

/-- After the short `send` the echo "ac" of "abc" has a hole. -/
theorem echoIntegrity_shortSend
    : ¬ ∀ s, system.ReachableBy SendAnswers s → ∀ c < s.connected, EchoIntegrity s c := by
  intro always
  have run : ((system.restrict SendAnswers).exec start shortSend).isSome := by decide
  have reached : (system.restrict SendAnswers).Reachable _ :=
    System.reachable_of_run start start_started shortSend run
  obtain ⟨s, reached, known, echoed, received⟩
      : ∃ s, (system.restrict SendAnswers).Reachable s ∧ s.connected = 1
          ∧ (s.connections 0).echoed = [97, 99] ∧ (s.connections 0).received = [97, 98, 99] :=
    ⟨_, reached, rfl, rfl, rfl⟩
  have integrity := always s (System.reachable_restrict_iff.mp reached) 0 (by simp [known])
  rw [EchoIntegrity, echoed, received] at integrity
  exact absurd integrity.1 (by decide)

end LinuxStudy.EpollTest
