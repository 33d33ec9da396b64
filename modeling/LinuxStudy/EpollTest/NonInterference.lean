import LinuxStudy.EpollTest.EchoIntegrity
import LinuxStudy.Transition.Observation

/-! The one buffer of `epoll_test.c` leaks nothing from one client to another. It is never
cleared, but each chunk is printed and sent with the length it was received with, so two runs
that differ in what the other clients send look the same to a client.
-/

namespace LinuxStudy.EpollTest

open Transition Posix

/-- The same action, or bytes that another client sends instead of others. -/
inductive Twin (k : Nat) : Action → Action → Prop
  | same (action : Action) : Twin k action action
  | arrive {c : Nat} (different : c ≠ k) (bytes bytes' : Bytes)
    : Twin k (.arrive c bytes) (.arrive c bytes')

/-- The texts that a step prints for a descriptor of connection `k`. -/
def shownFor (k : Nat) (s next : State) : List (Nat × Bytes) :=
  (next.printed.drop s.printed.length).filter fun text => s.table.lookup text.1 = some (.client k)

/-- What the server has given back for connection `k` is the same, and so is everything its
next step for it depends on. The bytes of the other connections may differ.
-/
structure Alike (k : Nat) (s t : State) : Prop where
  serverFd : s.serverFd = t.serverFd
  pc : s.pc = t.pc
  batch : s.batch = t.batch
  table : s.table = t.table
  interest : s.epoll.interest = t.epoll.interest
  backlog : s.backlog = t.backlog
  connected : s.connected = t.connected
  connection : s.connections k = t.connections k
  held : s.held k = t.held k
  inside : Chunked s
  inside' : Chunked t

-----------------------------------------------------------------------------------------
-- Printing a chunk
-----------------------------------------------------------------------------------------

/-- A step that prints nothing shows nothing. -/
theorem shownFor_eq_nil {k : Nat} {s next : State} (quiet : next.printed = s.printed)
    : shownFor k s next = [] := by
  simp [shownFor, quiet]

/-- The terminator cuts the buffer behind the chunk, whatever is left of earlier ones. -/
theorem Chunked.cString_set {s : State} {fd len : Nat} (chunked : Chunked s)
    (here : s.pc = .serve fd (.print len))
    : len < s.buf.length ∧ cString (s.buf.set len 0) = cString (s.buf.take len) := by
  obtain ⟨size, fits⟩ := chunked
  have few := (fits fd len (by simp [here, Pc.chunk?])).2
  have bound : len < s.buf.length := by
    rw [size]
    exact Nat.lt_of_le_of_lt few (by decide)
  exact ⟨bound, cString_set_zero bound⟩

-----------------------------------------------------------------------------------------
-- Steps of two runs
-----------------------------------------------------------------------------------------

section Step

variable {k : Nat} {s t next other : State} {action action' : Action}

/-- Outside the handling of a chunk neither holds one. -/
theorem held_eq_of_idle (free : next.pc.chunk? = none) (free' : other.pc.chunk? = none)
    : next.held k = other.held k := by
  rw [State.held_eq_nil free, State.held_eq_nil free']

/-- What the network does leaves the chunk in work alone. -/
theorem Alike.deliver (alike : Alike k s t) {c : Nat} {connection connection' : Connection}
    (same : c = k → connection = connection')
    : Alike k (deliver s c connection) (deliver t c connection') :=
  { alike with
    connection := by
      by_cases mine : k = c
      · subst mine
        simp [EpollTest.deliver, State.setConnection, same rfl]
      · simp [EpollTest.deliver, State.setConnection, mine, alike.connection]
    interest := alike.interest
    held := alike.held
    inside := alike.inside
    inside' := alike.inside' }

/-- Both servers look up the same connection. -/
theorem Alike.found_eq (alike : Alike k s t) {fd c c' : Nat}
    (found : s.table.lookup fd = some (.client c))
    (found' : t.table.lookup fd = some (.client c'))
    : c = c' := by
  rw [alike.table, found'] at found
  exact (File.client.inj (Option.some.inj found)).symm

/-- Replacing the records of one connection, unless it is `k` by equal ones. -/
theorem Alike.connection_eq (alike : Alike k s t) {c : Nat} {connection connection' : Connection}
    (same : c = k → connection = connection')
    : (s.setConnection c connection).connections k
      = (t.setConnection c connection').connections k := by
  by_cases mine : k = c
  · subst mine
    simp [State.setConnection, same rfl]
  · simp [State.setConnection, mine, alike.connection]

/-- Both wait for the same events. -/
theorem Alike.entries_eq (alike : Alike k s t) (files : List File)
    : s.entries files = t.entries files := by
  simp [State.entries, alike.interest]

/-- The chunk that `recv` has just stored is held for the connection it came from. -/
theorem held_recvData {fd c n : Nat} (found : s.table.lookup fd = some (.client c))
    (available : n ≤ (s.connections c).unread.length)
    : ({ s.setConnection c ((s.connections c).takes n) with
          buf := overwrite s.buf ((s.connections c).unread.take n)
          pc := .serve fd (.print n) } : State).held k
      = if c = k then (s.connections c).unread.take n else [] := by
  have chunk : (overwrite s.buf ((s.connections c).unread.take n)).take n
      = (s.connections c).unread.take n := by
    have length : ((s.connections c).unread.take n).length = n := by simp [available]
    simpa only [length] using take_overwrite s.buf ((s.connections c).unread.take n)
  rw [@State.held_eq _ fd n (by simp [Pc.chunk?])]
  simp [State.setConnection, found, chunk]

/-- The terminator lies behind the chunk. -/
theorem held_printChunk {fd len : Nat} (here : s.pc = .serve fd (.print len))
    : ({ s with
          buf := s.buf.set len 0
          printed := s.printed ++ [(fd, cString (s.buf.set len 0))]
          pc := .serve fd (.echo len) } : State).held k
      = s.held k := by
  rw [@State.held_eq _ fd len (by simp [Pc.chunk?]),
    @State.held_eq _ fd len (by simp [here, Pc.chunk?])]
  simp

/-- Both hand the same chunk of connection `k` to `send`, and go on at the same point. -/
theorem Alike.send (alike : Alike k s t) {fd fd' len len' c c' n : Nat} {pc pc' : Pc}
    (here : s.pc = .serve fd (.echo len)) (here' : t.pc = .serve fd' (.echo len'))
    (found : s.table.lookup fd = some (.client c))
    (found' : t.table.lookup fd' = some (.client c')) (after : fd = fd' → pc = pc')
    (free : pc.chunk? = none ∧ pc'.chunk? = none)
    (inside
      : Chunked
          { s.setConnection c ((s.connections c).accepts (s.buf.take len) n) with pc := pc })
    (inside'
      : Chunked
          { t.setConnection c' ((t.connections c').accepts (t.buf.take len') n) with pc := pc' })
    : Alike k { s.setConnection c ((s.connections c).accepts (s.buf.take len) n) with pc := pc }
        { t.setConnection c' ((t.connections c').accepts (t.buf.take len') n) with
          pc := pc' } := by
  obtain ⟨rfl, same⟩ := Pc.serve.inj (here.symm.trans (alike.pc.trans here'))
  obtain rfl := Stage.echo.inj same
  obtain rfl := alike.found_eq found found'
  have accepts (mine : c = k)
      : (s.connections c).accepts (s.buf.take len) n
        = (t.connections c).accepts (t.buf.take len) n := by
    have held := alike.held
    rw [@State.held_eq _ fd len (by simp [here, Pc.chunk?]),
      @State.held_eq _ fd len (by simp [here', Pc.chunk?]), if_pos (mine ▸ found),
      if_pos (mine ▸ found')] at held
    rw [mine, held, alike.connection]
  exact { alike with
    pc := after rfl, held := held_eq_of_idle free.1 free.2, inside := inside
    inside' := inside', connection := alike.connection_eq accepts }

/-- The same action keeps the two servers alike. -/
theorem Alike.move_same (alike : Alike k s t) (taken : Move s action next)
    (taken' : Move t action other)
    : Alike k next other := by
  have inside := alike.inside.move taken
  have inside' := alike.inside'.move taken'
  cases taken with
  | connect =>
      cases taken' with
      | connect =>
          refine { alike with
            backlog := ?_, connected := ?_, connection := ?_, inside := inside
            inside' := inside' }
          · simp [EpollTest.connect, alike.backlog, alike.connected]
          · simp [EpollTest.connect, alike.connected]
          · by_cases mine : k = t.connected
            · simp [EpollTest.connect, alike.connected, mine]
            · simp [EpollTest.connect, alike.connected, mine, alike.connection]
  | arrive _ _ =>
      cases taken' with
      | arrive _ _ => exact alike.deliver fun mine => by rw [mine, alike.connection]
  | endStream _ =>
      cases taken' with
      | endStream _ => exact alike.deliver fun mine => by rw [mine, alike.connection]
  | resetPeer _ _ =>
      cases taken' with
      | resetPeer _ _ => exact alike.deliver fun mine => by rw [mine, alike.connection]
  | epollWait here _ _ _ _ _ =>
      cases taken' with
      | epollWait here' _ _ _ _ _ =>
          exact { alike with
            batch := by rw [alike.entries_eq]
            held := held_eq_of_idle (by simp [here, Pc.chunk?]) (by simp [here', Pc.chunk?])
            inside := inside
            inside' := inside' }
  | epollWaitFails _ _ | acceptFails _ =>
      cases taken'
      exact { alike with
        pc := rfl, held := held_eq_of_idle rfl rfl, inside := inside, inside' := inside' }
  | nextListening here first mine =>
      rw [alike.batch] at first
      rw [alike.serverFd] at mine
      cases taken' with
      | nextListening here' first' mine' =>
          obtain ⟨rfl, rfl⟩ := List.cons.inj (first.symm.trans first')
          exact { alike with
            pc := rfl, batch := rfl, held := held_eq_of_idle rfl rfl, inside := inside
            inside' := inside' }
      | nextClient here' first' other' =>
          obtain ⟨rfl, rfl⟩ := List.cons.inj (first.symm.trans first')
          exact absurd mine other'
  | nextClient here first different =>
      rw [alike.batch] at first
      rw [alike.serverFd] at different
      cases taken' with
      | nextListening here' first' mine' =>
          obtain ⟨rfl, rfl⟩ := List.cons.inj (first.symm.trans first')
          exact absurd mine' different
      | nextClient here' first' other' =>
          obtain ⟨rfl, rfl⟩ := List.cons.inj (first.symm.trans first')
          exact { alike with
            pc := rfl, batch := rfl, held := held_eq_of_idle rfl rfl, inside := inside
            inside' := inside' }
  | acceptClient here waiting =>
      rw [alike.backlog] at waiting
      cases taken' with
      | acceptClient here' waiting' =>
          obtain ⟨rfl, rfl⟩ := List.cons.inj (waiting.symm.trans waiting')
          exact { alike with
            pc := by rw [alike.table], backlog := rfl, table := by rw [alike.table]
            held := held_eq_of_idle rfl rfl, inside := inside, inside' := inside' }
  | setNonblock here found =>
      rw [alike.pc] at here
      cases taken' with
      | setNonblock here' found' =>
          obtain rfl := Pc.setNonblock.inj (here.symm.trans here')
          obtain rfl := alike.found_eq found found'
          exact { alike with
            pc := rfl, held := held_eq_of_idle rfl rfl, inside := inside, inside' := inside'
            connection := alike.connection_eq fun mine => by rw [mine, alike.connection] }
  | registerClient here found =>
      rw [alike.pc] at here
      cases taken' with
      | registerClient here' found' =>
          obtain rfl := Pc.register.inj (here.symm.trans here')
          obtain rfl := alike.found_eq found found'
          exact { alike with
            pc := rfl, held := held_eq_of_idle rfl rfl, inside := inside, inside' := inside'
            interest := by simp [EpollInstance.add, alike.interest] }
  | registerFails here =>
      rw [alike.pc] at here
      cases taken' with
      | registerFails here' =>
          obtain rfl := Pc.register.inj (here.symm.trans here')
          exact { alike with
            pc := rfl, held := held_eq_of_idle rfl rfl, inside := inside, inside' := inside' }
  | closeRejected here =>
      rw [alike.pc] at here
      cases taken' with
      | closeRejected here' =>
          obtain rfl := Pc.closeRejected.inj (here.symm.trans here')
          exact { alike with
            pc := rfl, held := held_eq_of_idle rfl rfl, inside := inside, inside' := inside'
            table := by simp [State.closeFd, alike.table]
            interest := by simp [State.closeFd, EpollInstance.remove, alike.interest] }
  | recvData here found _ available _ =>
      rw [alike.pc] at here
      cases taken' with
      | recvData here' found' _ available' _ =>
          obtain ⟨rfl, -⟩ := Pc.serve.inj (here.symm.trans here')
          obtain rfl := alike.found_eq found found'
          refine { alike with
            pc := rfl, inside := inside, inside' := inside', connection := ?_, held := ?_ }
          · exact alike.connection_eq fun mine => by rw [mine, alike.connection]
          · rw [held_recvData found available, held_recvData found' available']
            split
            next mine => rw [mine, alike.connection]
            next => rfl
  | recvEnd here _ _ _ =>
      rw [alike.pc] at here
      cases taken' with
      | recvEnd here' _ _ _ =>
          obtain ⟨rfl, -⟩ := Pc.serve.inj (here.symm.trans here')
          exact { alike with
            pc := rfl, held := held_eq_of_idle rfl rfl, inside := inside, inside' := inside' }
  | recvError here =>
      rw [alike.pc] at here
      cases taken' with
      | recvError here' =>
          obtain ⟨rfl, -⟩ := Pc.serve.inj (here.symm.trans here')
          exact { alike with
            pc := rfl, held := held_eq_of_idle rfl rfl, inside := inside, inside' := inside' }
  | recvAgain here _ _ _ =>
      cases taken' with
      | recvAgain here' _ _ _ =>
          exact { alike with
            pc := rfl, held := held_eq_of_idle rfl rfl, inside := inside, inside' := inside' }
  | printChunk here =>
      cases taken' with
      | printChunk here' =>
          obtain ⟨rfl, same⟩ := Pc.serve.inj (here.symm.trans (alike.pc.trans here'))
          obtain rfl := Stage.print.inj same
          exact { alike with
            pc := rfl, inside := inside, inside' := inside'
            held := by rw [held_printChunk here, held_printChunk here', alike.held] }
  | sendChunk here found _ _ _ =>
      cases taken' with
      | sendChunk here' found' _ _ _ =>
          exact alike.send here here' found found' (fun same => by rw [same]) ⟨rfl, rfl⟩ inside
            inside'
  | sendRefused here found _ =>
      cases taken' with
      | sendRefused here' found' _ =>
          exact alike.send here here' found found' (fun same => by rw [same]) ⟨rfl, rfl⟩ inside
            inside'
  | sendKills here found _ =>
      cases taken' with
      | sendKills here' found' _ =>
          exact alike.send here here' found found' (fun _ => rfl) ⟨rfl, rfl⟩ inside inside'
  | closeClient here =>
      cases taken' with
      | closeClient here' =>
          obtain ⟨rfl, -⟩ := Pc.serve.inj (here.symm.trans (alike.pc.trans here'))
          exact { alike with
            pc := rfl, held := held_eq_of_idle rfl rfl, inside := inside, inside' := inside'
            table := by simp [State.closeFd, alike.table]
            interest := by simp [State.closeFd, EpollInstance.remove, alike.interest] }
  | deleteClosed here free =>
      cases taken' with
      | deleteClosed _ _ =>
          exact { alike with
            pc := rfl, held := held_eq_of_idle rfl rfl, inside := inside, inside' := inside' }
      | deleteOpen here' used' =>
          obtain ⟨rfl, -⟩ := Pc.serve.inj (here.symm.trans (alike.pc.trans here'))
          exact absurd (alike.table ▸ free) used'
  | deleteOpen here used =>
      cases taken' with
      | deleteClosed here' free' =>
          obtain ⟨rfl, -⟩ := Pc.serve.inj (here.symm.trans (alike.pc.trans here'))
          exact absurd free' (alike.table ▸ used)
      | deleteOpen here' _ =>
          obtain ⟨rfl, -⟩ := Pc.serve.inj (here.symm.trans (alike.pc.trans here'))
          exact { alike with
            pc := rfl, held := held_eq_of_idle rfl rfl, inside := inside, inside' := inside'
            interest := by simp [EpollInstance.remove, alike.interest] }

/-- Twin actions keep the two servers alike. -/
theorem Alike.move (alike : Alike k s t) (twin : Twin k action action')
    (taken : Move s action next) (taken' : Move t action' other)
    : Alike k next other := by
  cases twin with
  | same _ => exact alike.move_same taken taken'
  | arrive different _ _ =>
      cases taken
      cases taken'
      exact alike.deliver fun mine => absurd mine different

/-- Only `printf` prints. -/
theorem Move.printed (taken : Move s action next) (other : action ≠ .printChunk)
    : next.printed = s.printed := by
  cases taken
  case printChunk => exact absurd rfl other
  all_goals rfl

/-- What a step prints for connection `k` is the chunk it holds for it, as a string. -/
theorem Chunked.shownFor_print {fd len : Nat} (chunked : Chunked s)
    (here : s.pc = .serve fd (.print len))
    (text : next.printed = s.printed ++ [(fd, cString (s.buf.set len 0))])
    : shownFor k s next
      = if s.table.lookup fd = some (.client k) then [(fd, cString (s.held k))] else [] := by
  have chunk : s.pc.chunk? = some (fd, len) := by simp [here, Pc.chunk?]
  rw [State.held_eq chunk]
  simp only [shownFor, text, List.drop_left, (chunked.cString_set here).2]
  by_cases found : s.table.lookup fd = some (.client k)
  · simp [found]
  · simp [found]

/-- Both servers show client `k` the same. -/
theorem Alike.shownFor_eq (alike : Alike k s t) (twin : Twin k action action')
    (taken : Move s action next) (taken' : Move t action' other)
    : shownFor k s next = shownFor k t other := by
  by_cases print : action = .printChunk
  · subst print
    cases twin
    cases taken with
    | printChunk here =>
        cases taken' with
        | printChunk here' =>
            obtain ⟨rfl, same⟩ := Pc.serve.inj (here.symm.trans (alike.pc.trans here'))
            obtain rfl := Stage.print.inj same
            rw [alike.inside.shownFor_print here rfl, alike.inside'.shownFor_print here' rfl,
              alike.table, alike.held]
  · have print' : action' ≠ .printChunk := by
      cases twin with
      | same _ => exact print
      | arrive _ _ _ => simp
    rw [shownFor_eq_nil (taken.printed print), shownFor_eq_nil (taken'.printed print')]

end Step

-----------------------------------------------------------------------------------------
-- Whole runs
-----------------------------------------------------------------------------------------

theorem Started.alike {s : State} (started : Started s) (k : Nat) : Alike k s s where
  serverFd := rfl
  pc := rfl
  batch := rfl
  table := rfl
  interest := rfl
  backlog := rfl
  connected := rfl
  connection := rfl
  held := rfl
  inside := started.echoing.chunked
  inside' := started.echoing.chunked

/-- A chunk is about to be printed: it is what `recv` returned last for this connection, there
is room for the terminator behind it, and the text shown is the chunk as a string.
-/
def ShowsChunk (s : State) (fd len : Nat) : Prop :=
  len < s.buf.length
  ∧ ∃ c chunk,
      s.table.lookup fd = some (.client c)
      ∧ chunk.length = len
      ∧ chunk <:+ (s.connections c).received
      ∧ ∃ next,
          system.step s .printChunk = some next
          ∧ next.buf = s.buf.set len 0
          ∧ next.printed = s.printed ++ [(fd, cString chunk)]

/-- Every chunk is shown as it was received. -/
theorem Echoing.showsChunk {s : State} (echoing : Echoing s) {fd len : Nat}
    (here : s.pc = .serve fd (.print len))
    : ShowsChunk s fd len := by
  obtain ⟨bound, text⟩ := echoing.chunked.cString_set here
  obtain ⟨c, found, -⟩ := echoing.books.batched.target here (by simp)
  have received := echoing.offered c
  rw [@State.held_eq _ fd len (by simp [here, Pc.chunk?]), if_pos found] at received
  refine ⟨bound, c, s.buf.take len, found, ?_, ?_, ?_⟩
  · exact List.length_take_of_le (Nat.le_of_lt bound)
  · exact received ▸ List.suffix_append _ _
  · have taken : system.step s .printChunk
        = some { s with
            buf := s.buf.set len 0
            printed := s.printed ++ [(fd, cString (s.buf.set len 0))]
            pc := .serve fd (.echo len) } := by
      simp [system, step, printChunk, here]
    exact ⟨_, taken, rfl, by rw [← text]⟩

/-- Two runs that differ only in what the other clients send look the same to client `k`, and
every chunk is shown up to its first NUL with the terminator inside the buffer.
-/
theorem noLeak (k : Nat)
    : (∀ start actions actions' s t,
        Started start
        → List.Forall₂ (Twin k) actions actions'
        → system.exec start actions = some s
        → system.exec start actions' = some t
        → (s.connections k).offered = (t.connections k).offered
          ∧ system.observe (shownFor k) start actions
            = system.observe (shownFor k) start actions')
      ∧ ∀ s fd len, system.Reachable s → s.pc = .serve fd (.print len) → ShowsChunk s fd len := by
  refine ⟨fun start actions actions' s t started twins run run' => ?_, ?_⟩
  · obtain ⟨alike, shown⟩ := System.observe_eq
      (fun _ _ _ _ _ _ alike twin taken taken' =>
        have move := Move.of_step taken
        have move' := Move.of_step taken'
        ⟨alike.move twin move move', alike.shownFor_eq twin move move'⟩)
      (started.alike k) twins run run'
    exact ⟨by rw [alike.connection], shown⟩
  · exact fun s fd len reached here => (echoing_of_reachable reached).showsChunk here

/-- Client 1 sends these bytes and then client 0 a single one; both are echoed. -/
def twoClients (bytes : Bytes) : List Action :=
  [.connect, .connect, .epollWait [.listening], .nextEvent, .acceptClient, .setNonblock,
    .registerClient, .epollWait [.listening], .nextEvent, .acceptClient, .setNonblock,
    .registerClient]
  ++ .arrive 1 bytes
  :: [.arrive 0 [97], .epollWait [.client 1, .client 0], .nextEvent, .recvData 2, .printChunk,
    .sendChunk 2, .recvAgain, .nextEvent, .recvData 1, .printChunk, .sendChunk 1, .recvAgain]

/-- What is left of the chunk of client 1 in the buffer is not shown to client 0. -/
theorem noLeak_twoClients
    : system.observe (shownFor 0) start (twoClients [98, 99]) = [(5, [97])]
      ∧ system.observe (shownFor 0) start (twoClients [98, 99])
        = system.observe (shownFor 0) start (twoClients [0, 100]) := by
  have twins : List.Forall₂ (Twin 0) (twoClients [98, 99]) (twoClients [0, 100]) :=
    List.rel_append (List.forall₂_same.mpr fun action _ => .same action)
      (.cons (.arrive Nat.one_ne_zero _ _) (List.forall₂_same.mpr fun action _ => .same action))
  have run : (system.exec start (twoClients [98, 99])).isSome := by decide +kernel
  have run' : (system.exec start (twoClients [0, 100])).isSome := by decide +kernel
  exact ⟨by decide +kernel, ((noLeak 0).1 start _ _ _ _ start_started twins
    (Option.some_get run).symm (Option.some_get run').symm).2⟩

end LinuxStudy.EpollTest
