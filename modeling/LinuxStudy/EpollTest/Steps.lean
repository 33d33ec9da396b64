import LinuxStudy.EpollTest.Model

/-! The steps of `epoll_test.c` read as a relation, one shape for each call and result, with
the facts that make the step possible.
-/

namespace LinuxStudy.EpollTest

open Transition Posix

/-- Looking up a connection is looking up a descriptor that refers to it. -/
theorem State.connection?_eq_some {s : State} {fd c : Nat}
    : s.connection? fd = some c ↔ s.table.lookup fd = some (.client c) := by
  unfold State.connection?
  split
  next found => simp [found]
  next other =>
    constructor
    · simp
    · intro found
      exact absurd found (other c)

/-- What the server's end of connection `c` looks like after `recv` of `n` bytes. -/
def Connection.takes (connection : Connection) (n : Nat) : Connection :=
  { connection with
    unread := connection.unread.drop n
    received := connection.received ++ connection.unread.take n }

/-- The connection after `send` was offered `chunk` and accepted its first `k` bytes. -/
def Connection.accepts (connection : Connection) (chunk : Bytes) (k : Nat) : Connection :=
  { connection with
    offered := connection.offered ++ [chunk]
    echoed := connection.echoed ++ chunk.take k }

/-- One step, with the call that makes it and the result the kernel gives. -/
inductive Move (s : State) : Action → State → Prop
  | connect : Move s .connect (connect s)
  | arrive {c bytes} (streaming : s.streaming c) (nonempty : bytes ≠ [])
    : Move s (.arrive c bytes)
        (deliver s c { s.connections c with unread := (s.connections c).unread ++ bytes })
  | endStream {c} (streaming : s.streaming c)
    : Move s (.endStream c) (deliver s c { s.connections c with eof := true })
  | resetPeer {c} (known : c < s.connected) (whole : (s.connections c).reset = false)
    : Move s (.resetPeer c) (deliver s c { s.connections c with reset := true })
  | epollWait {files} (here : s.pc = .loop) (used : s.batch = []) (distinct : files.Nodup)
    (some : s.entries files ≠ []) (few : (s.entries files).length ≤ maxEvents)
    (ready : ∀ entry ∈ s.entries files, s.epoll.reports s.levelReady entry = true)
    : Move s (.epollWait files)
        { s with
          batch := (s.entries files).map fun entry => ⟨entry.data, entry.file⟩
          epoll := s.epoll.deliver (s.entries files) }
  | epollWaitFails (here : s.pc = .loop) (used : s.batch = [])
    : Move s .epollWaitFails { s with pc := .dead }
  | nextListening {event rest} (here : s.pc = .loop) (first : s.batch = event :: rest)
    (mine : event.data = s.serverFd)
    : Move s .nextEvent { s with batch := rest, source := event.source, pc := .accept }
  | nextClient {event rest} (here : s.pc = .loop) (first : s.batch = event :: rest)
    (other : event.data ≠ s.serverFd)
    : Move s .nextEvent
        { s with
          batch := rest
          source := event.source
          pc := .serve event.data .recv }
  | acceptClient {c rest} (here : s.pc = .accept) (waiting : s.backlog = c :: rest)
    : Move s .acceptClient
        { s with
          backlog := rest
          table := s.table.allocate (.client c)
          pc := .setNonblock s.table.lowestFree }
  | acceptFails (here : s.pc = .accept) : Move s .acceptFails { s with pc := .loop }
  | setNonblock {fd c} (here : s.pc = .setNonblock fd)
    (found : s.table.lookup fd = some (.client c))
    : Move s .setNonblock
        { s.setConnection c { s.connections c with nonblock := true } with
          pc := .register fd }
  | registerClient {fd c} (here : s.pc = .register fd)
    (found : s.table.lookup fd = some (.client c))
    : Move s .registerClient
        { s with
          epoll := s.epoll.add ⟨fd, .client c, fd, true⟩ (s.connections c).readable
          pc := .loop }
  | registerFails {fd} (here : s.pc = .register fd)
    : Move s .registerFails { s.finish fd with pc := .closeRejected fd }
  | closeRejected {fd} (here : s.pc = .closeRejected fd)
    : Move s .closeRejected { s.closeFd fd with pc := .loop }
  | recvData {fd c n} (here : s.pc = .serve fd .recv)
    (found : s.table.lookup fd = some (.client c)) (positive : 0 < n)
    (available : n ≤ (s.connections c).unread.length) (fits : n ≤ bufSize - 1)
    : Move s (.recvData n)
        { s.setConnection c ((s.connections c).takes n) with
          buf := overwrite s.buf ((s.connections c).unread.take n)
          pc := .serve fd (.print n) }
  | recvEnd {fd c} (here : s.pc = .serve fd .recv)
    (found : s.table.lookup fd = some (.client c))
    (drained : (s.connections c).unread = []) (eof : (s.connections c).eof = true)
    : Move s .recvEnd { s.finish fd with pc := .serve fd .closing }
  | recvAgain {fd c} (here : s.pc = .serve fd .recv)
    (found : s.table.lookup fd = some (.client c))
    (idle : (s.connections c).readable = false) (nonblock : (s.connections c).nonblock = true)
    : Move s .recvAgain { s with pc := .loop }
  | recvError {fd} (here : s.pc = .serve fd .recv)
    : Move s .recvError { s.finish fd with pc := .serve fd .closing }
  | printChunk {fd len} (here : s.pc = .serve fd (.print len))
    : Move s .printChunk
        { s with
          buf := s.buf.set len 0
          printed := s.printed ++ [(fd, cString (s.buf.set len 0))]
          pc := .serve fd (.echo len) }
  | sendChunk {fd len c k} (here : s.pc = .serve fd (.echo len))
    (found : s.table.lookup fd = some (.client c)) (part : k ≤ len)
    (blocks : k = 0 → (s.connections c).nonblock = true)
    (whole : (s.connections c).reset = false)
    : Move s (.sendChunk k)
        { s.setConnection c ((s.connections c).accepts (s.buf.take len) k) with
          pc := .serve fd .recv }
  | sendRefused {fd len c} (here : s.pc = .serve fd (.echo len))
    (found : s.table.lookup fd = some (.client c)) (broken : (s.connections c).reset = true)
    : Move s (.sendBroken false)
        { s.setConnection c ((s.connections c).accepts (s.buf.take len) 0) with
          pc := .serve fd .recv }
  | sendKills {fd len c} (here : s.pc = .serve fd (.echo len))
    (found : s.table.lookup fd = some (.client c)) (broken : (s.connections c).reset = true)
    : Move s (.sendBroken true)
        { s.setConnection c ((s.connections c).accepts (s.buf.take len) 0) with pc := .dead }
  | closeClient {fd} (here : s.pc = .serve fd .closing)
    : Move s .closeClient { s.closeFd fd with pc := .serve fd .deleting }
  | deleteClosed {fd} (here : s.pc = .serve fd .deleting) (free : s.table.lookup fd = none)
    : Move s .deleteClient { s with pc := .loop }
  | deleteOpen {fd} (here : s.pc = .serve fd .deleting) (used : s.table.lookup fd ≠ none)
    : Move s .deleteClient { s with epoll := s.epoll.remove fd, pc := .loop }

-----------------------------------------------------------------------------------------
-- Inversion of the executable step
-----------------------------------------------------------------------------------------

/-- A call made at a program point that does not make it has no result. -/
theorem serve_inversion {s : State} {fd : Nat} {α : Type} {result : Nat → Option α} {value : α}
    (found : (s.connection? fd).bind result = some value)
    : ∃ c, s.table.lookup fd = some (.client c) ∧ result c = some value := by
  obtain ⟨c, here, value⟩ := Option.bind_eq_some_iff.mp found
  exact ⟨c, State.connection?_eq_some.mp here, value⟩

/-- Every successor of the executable step is one of the shapes. -/
theorem Move.of_step {s next : State} {action : Action} (taken : step s action = some next)
    : Move s action next := by
  cases action with
  | connect => exact Option.some.inj taken ▸ .connect
  | arrive c bytes =>
      obtain ⟨⟨streaming, nonempty⟩, same⟩ := Option.ite_none_right_eq_some.mp taken
      exact Option.some.inj same ▸ .arrive streaming nonempty
  | endStream c =>
      obtain ⟨streaming, same⟩ := Option.ite_none_right_eq_some.mp taken
      exact Option.some.inj same ▸ .endStream streaming
  | resetPeer c =>
      obtain ⟨⟨known, whole⟩, same⟩ := Option.ite_none_right_eq_some.mp taken
      exact Option.some.inj same ▸ .resetPeer known whole
  | epollWait files =>
      obtain ⟨⟨here, used, distinct, some, few, ready⟩, same⟩ :=
        Option.ite_none_right_eq_some.mp taken
      exact Option.some.inj same ▸ .epollWait here used distinct some few ready
  | epollWaitFails =>
      obtain ⟨⟨here, used⟩, same⟩ := Option.ite_none_right_eq_some.mp taken
      exact Option.some.inj same ▸ .epollWaitFails here used
  | nextEvent =>
      simp only [step, EpollTest.nextEvent] at taken
      split at taken
      next event rest here first =>
        obtain rfl := Option.some.inj taken
        by_cases mine : event.data = s.serverFd
        · simpa only [mine, if_true] using .nextListening here first mine
        · simpa only [mine, if_false] using .nextClient here first mine
      next => contradiction
  | acceptClient =>
      simp only [step, EpollTest.acceptClient] at taken
      split at taken
      next c rest here waiting => exact Option.some.inj taken ▸ .acceptClient here waiting
      next => contradiction
  | acceptFails =>
      obtain ⟨here, same⟩ := Option.ite_none_right_eq_some.mp taken
      exact Option.some.inj same ▸ .acceptFails here
  | setNonblock =>
      simp only [step, EpollTest.setNonblock] at taken
      split at taken
      next fd here =>
        obtain ⟨c, found, same⟩ := Option.map_eq_some_iff.mp taken
        exact same ▸ .setNonblock here (State.connection?_eq_some.mp found)
      next => contradiction
  | registerClient =>
      simp only [step, EpollTest.registerClient] at taken
      split at taken
      next fd here =>
        obtain ⟨c, found, same⟩ := Option.map_eq_some_iff.mp taken
        exact same ▸ .registerClient here (State.connection?_eq_some.mp found)
      next => contradiction
  | registerFails =>
      simp only [step, EpollTest.registerFails] at taken
      split at taken
      next fd here => exact Option.some.inj taken ▸ .registerFails here
      next => contradiction
  | closeRejected =>
      simp only [step, EpollTest.closeRejected] at taken
      split at taken
      next fd here => exact Option.some.inj taken ▸ .closeRejected here
      next => contradiction
  | recvData n =>
      simp only [step, EpollTest.recvData] at taken
      split at taken
      next fd here =>
        obtain ⟨c, found, taken⟩ := serve_inversion taken
        obtain ⟨⟨positive, available, fits⟩, same⟩ := Option.ite_none_right_eq_some.mp taken
        exact Option.some.inj same ▸ .recvData here found positive available fits
      next => contradiction
  | recvEnd =>
      simp only [step, EpollTest.recvEnd] at taken
      split at taken
      next fd here =>
        obtain ⟨c, found, taken⟩ := serve_inversion taken
        obtain ⟨⟨drained, eof⟩, same⟩ := Option.ite_none_right_eq_some.mp taken
        exact Option.some.inj same ▸ .recvEnd here found drained eof
      next => contradiction
  | recvAgain =>
      simp only [step, EpollTest.recvAgain] at taken
      split at taken
      next fd here =>
        obtain ⟨c, found, taken⟩ := serve_inversion taken
        obtain ⟨⟨idle, nonblock⟩, same⟩ := Option.ite_none_right_eq_some.mp taken
        exact Option.some.inj same ▸ .recvAgain here found idle nonblock
      next => contradiction
  | recvError =>
      simp only [step, EpollTest.recvError] at taken
      split at taken
      next fd here => exact Option.some.inj taken ▸ .recvError here
      next => contradiction
  | printChunk =>
      simp only [step, EpollTest.printChunk] at taken
      split at taken
      next fd len here => exact Option.some.inj taken ▸ .printChunk here
      next => contradiction
  | sendChunk k =>
      simp only [step, EpollTest.sendChunk] at taken
      split at taken
      next fd len here =>
        obtain ⟨c, found, taken⟩ := serve_inversion taken
        obtain ⟨⟨part, blocks, whole⟩, same⟩ := Option.ite_none_right_eq_some.mp taken
        exact Option.some.inj same ▸ .sendChunk here found part blocks whole
      next => contradiction
  | sendBroken signalled =>
      simp only [step, EpollTest.sendBroken] at taken
      split at taken
      next fd len here =>
        obtain ⟨c, found, taken⟩ := serve_inversion taken
        obtain ⟨broken, same⟩ := Option.ite_none_right_eq_some.mp taken
        have unsent : (s.connections c).accepts (s.buf.take len) 0
            = { s.connections c with
                offered := (s.connections c).offered ++ [s.buf.take len] } := by
          simp [Connection.accepts]
        cases signalled with
        | false => exact Option.some.inj same ▸ unsent ▸ .sendRefused here found broken
        | true => exact Option.some.inj same ▸ unsent ▸ .sendKills here found broken
      next => contradiction
  | closeClient =>
      simp only [step, EpollTest.closeClient] at taken
      split at taken
      next fd here => exact Option.some.inj taken ▸ .closeClient here
      next => contradiction
  | deleteClient =>
      simp only [step, EpollTest.deleteClient] at taken
      split at taken
      next fd here =>
        obtain rfl := Option.some.inj taken
        by_cases free : s.table.lookup fd = none
        · simpa only [free, if_true] using .deleteClosed here free
        · simpa only [free, if_false] using .deleteOpen here free
      next => contradiction

end LinuxStudy.EpollTest
