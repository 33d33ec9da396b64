import LinuxStudy.MultiConnThreadsServer.Model

/-! The steps of `multi_conn_threads_server.c` read as a relation, one shape for each call and
result, with the facts that make the step possible.
-/

namespace LinuxStudy.MultiConnThreadsServer

open Transition Posix MultiConn

/-- A thread's descriptor leads to a connection when it is open under that number. -/
theorem State.connection?_eq_some {s : State} {clientfd : Option Nat} {c : Nat}
    : s.connection? clientfd = some c
      ↔ ∃ fd, clientfd = some fd ∧ s.table.lookup fd = some (.client c) := by
  unfold State.connection?
  split
  next found =>
    obtain ⟨fd, own, found⟩ := Option.bind_eq_some_iff.mp found
    simp [own, found]
  next other =>
    constructor
    · simp
    · intro open_
      obtain ⟨fd, own, found⟩ := open_
      exact absurd (by simp [own, found]) (other c)

/-- The thread after `recv` has stored a chunk. -/
def Thread.stores (thread : Thread) (chunk : Bytes) : Thread :=
  { thread with readBuf := overwrite thread.readBuf chunk, pc := .send }

/-- One call of thread `i`, with the result the kernel gives. -/
inductive ThreadMove (s : State) (i : Nat) (thread : Thread) : Call → State → Prop
  | readArgument (here : thread.pc = .start)
    : ThreadMove s i thread .readArgument
        (s.setThread i { thread with clientfd := s.clientfd, pc := .allocate })
  | allocate (here : thread.pc = .allocate)
    : ThreadMove s i thread .allocate (s.setThread i { thread with pc := .recv })
  | allocateFails (here : thread.pc = .allocate)
    : ThreadMove s i thread .allocateFails (s.setThread i { thread with pc := .closing })
  | recvData {c n} (here : thread.pc = .recv)
    (open_ : s.connection? thread.clientfd = some c) (offers : (s.connections c).offers n)
    : ThreadMove s i thread (.recvData n)
        { (s.setConnection c ((s.connections c).takes n)).setThread i
            (thread.stores ((s.connections c).unread.take n)) with
          printed :=
            s.printed
            ++ [(thread.clientfd,
                cString (thread.stores ((s.connections c).unread.take n)).readBuf)] }
  | recvEnd {c} (here : thread.pc = .recv) (open_ : s.connection? thread.clientfd = some c)
    (ended : (s.connections c).ended)
    : ThreadMove s i thread .recvEnd (s.setThread i { thread with pc := .closing })
  | recvError (here : thread.pc = .recv)
    : ThreadMove s i thread .recvError (s.setThread i { thread with pc := .closing })
  | sendReply {c k} (here : thread.pc = .send)
    (open_ : s.connection? thread.clientfd = some c) (positive : 0 < k)
    (part : k ≤ reply.length) (whole : (s.connections c).reset = false)
    : ThreadMove s i thread (.sendReply k)
        ((s.setConnection c ((s.connections c).answers k)).setThread i
          { thread with pc := .recv })
  | sendFails (here : thread.pc = .send)
    (broken
      : ∀ c, s.connection? thread.clientfd = some c → (s.connections c).reset = true)
    : ThreadMove s i thread .sendFails { s with main := .dead }
  | close (here : thread.pc = .closing) {table}
    (freed : ∀ fd, thread.clientfd = some fd → table = s.table.close fd)
    (kept : thread.clientfd = none → table = s.table)
    : ThreadMove s i thread .close { s.setThread i { thread with pc := .finished } with table }

/-- One step, with the call that makes it and the result the kernel gives. -/
inductive Move (s : State) : Action → State → Prop
  | connect : Move s .connect (connect s)
  | arrive {c bytes} (known : c < s.connected) (streaming : (s.connections c).streaming)
    (nonempty : bytes ≠ [])
    : Move s (.arrive c bytes)
        (s.setConnection c
          { s.connections c with unread := (s.connections c).unread ++ bytes })
  | endStream {c} (known : c < s.connected) (streaming : (s.connections c).streaming)
    : Move s (.endStream c) (s.setConnection c { s.connections c with eof := true })
  | resetPeer {c} (known : c < s.connected) (whole : (s.connections c).reset = false)
    : Move s (.resetPeer c) (s.setConnection c { s.connections c with reset := true })
  | acceptClient {c rest} (here : s.main = .accept) (waiting : s.backlog = c :: rest)
    : Move s .acceptClient
        { s with
          backlog := rest
          table := s.table.allocate (.client c)
          clientfd := some s.table.lowestFree
          accepted := s.accepted ++ [c]
          main := .check }
  | acceptFails (here : s.main = .accept)
    : Move s .acceptFails { s with clientfd := none, main := .check }
  | checkFailed (here : s.main = .check) (failed : s.clientfd = none)
    : Move s .checkAccept { s with main := .dead }
  | checkAccept (here : s.main = .check) (accepted : s.clientfd ≠ none)
    : Move s .checkAccept { s with main := .create }
  | createThread {c} (here : s.main = .create) (last : s.accepted.getLast? = some c)
    : Move s .createThread
        { s with threads := s.threads ++ [{ connection := c }], main := .accept }
  | createFails (here : s.main = .create) : Move s .createFails { s with main := .accept }
  | thread {i thread call next} (alive : s.main ≠ .dead) (found : s.threads[i]? = some thread)
    (taken : ThreadMove s i thread call next)
    : Move s (.thread i call) next

-----------------------------------------------------------------------------------------
-- Inversion of the executable step
-----------------------------------------------------------------------------------------

/-- Every successor of a thread's call is one of the shapes. -/
theorem ThreadMove.of_call {s next : State} {i : Nat} {thread : Thread} {call : Call}
    (taken : readFromWriteThread s i thread call = some next)
    : ThreadMove s i thread call next := by
  cases call with
  | readArgument =>
      obtain ⟨here, same⟩ := Option.ite_none_right_eq_some.mp taken
      exact Option.some.inj same ▸ .readArgument here
  | allocate =>
      obtain ⟨here, same⟩ := Option.ite_none_right_eq_some.mp taken
      exact Option.some.inj same ▸ .allocate here
  | allocateFails =>
      obtain ⟨here, same⟩ := Option.ite_none_right_eq_some.mp taken
      exact Option.some.inj same ▸ .allocateFails here
  | recvData n =>
      obtain ⟨here, taken⟩ := Option.ite_none_right_eq_some.mp taken
      obtain ⟨c, open_, taken⟩ := Option.bind_eq_some_iff.mp taken
      obtain ⟨offers, same⟩ := Option.ite_none_right_eq_some.mp taken
      exact Option.some.inj same ▸ .recvData here open_ offers
  | recvEnd =>
      obtain ⟨here, taken⟩ := Option.ite_none_right_eq_some.mp taken
      obtain ⟨c, open_, taken⟩ := Option.bind_eq_some_iff.mp taken
      obtain ⟨ended, same⟩ := Option.ite_none_right_eq_some.mp taken
      exact Option.some.inj same ▸ .recvEnd here open_ ended
  | recvError =>
      obtain ⟨here, same⟩ := Option.ite_none_right_eq_some.mp taken
      exact Option.some.inj same ▸ .recvError here
  | sendReply k =>
      obtain ⟨here, taken⟩ := Option.ite_none_right_eq_some.mp taken
      obtain ⟨c, open_, taken⟩ := Option.bind_eq_some_iff.mp taken
      obtain ⟨⟨positive, part, whole⟩, same⟩ := Option.ite_none_right_eq_some.mp taken
      exact Option.some.inj same ▸ .sendReply here open_ positive part whole
  | sendFails =>
      obtain ⟨here, taken⟩ := Option.ite_none_right_eq_some.mp taken
      split at taken
      next c open_ =>
        obtain ⟨broken, same⟩ := Option.ite_none_right_eq_some.mp taken
        refine Option.some.inj same ▸ .sendFails here fun c' also => ?_
        rw [open_] at also
        exact Option.some.inj also ▸ broken
      next closed =>
        refine Option.some.inj taken ▸ .sendFails here fun c' also => ?_
        rw [closed] at also
        contradiction
  | close =>
      obtain ⟨here, same⟩ := Option.ite_none_right_eq_some.mp taken
      refine Option.some.inj same ▸ .close here ?_ ?_
      · intro fd own
        simp [own]
      · intro own
        simp [own]

/-- Every successor of the executable step is one of the shapes. -/
theorem Move.of_step {s next : State} {action : Action} (taken : step s action = some next)
    : Move s action next := by
  cases action with
  | connect => exact Option.some.inj taken ▸ .connect
  | arrive c bytes =>
      obtain ⟨⟨known, streaming, nonempty⟩, same⟩ := Option.ite_none_right_eq_some.mp taken
      exact Option.some.inj same ▸ .arrive known streaming nonempty
  | endStream c =>
      obtain ⟨⟨known, streaming⟩, same⟩ := Option.ite_none_right_eq_some.mp taken
      exact Option.some.inj same ▸ .endStream known streaming
  | resetPeer c =>
      obtain ⟨⟨known, whole⟩, same⟩ := Option.ite_none_right_eq_some.mp taken
      exact Option.some.inj same ▸ .resetPeer known whole
  | acceptClient =>
      simp only [step, MultiConnThreadsServer.acceptClient] at taken
      split at taken
      next c rest here waiting => exact Option.some.inj taken ▸ .acceptClient here waiting
      next => contradiction
  | acceptFails =>
      obtain ⟨here, same⟩ := Option.ite_none_right_eq_some.mp taken
      exact Option.some.inj same ▸ .acceptFails here
  | checkAccept =>
      obtain ⟨here, same⟩ := Option.ite_none_right_eq_some.mp taken
      obtain rfl := Option.some.inj same
      by_cases failed : s.clientfd = none
      · rw [if_pos failed]
        exact .checkFailed here failed
      · rw [if_neg failed]
        exact .checkAccept here failed
  | createThread =>
      obtain ⟨here, taken⟩ := Option.ite_none_right_eq_some.mp taken
      obtain ⟨c, last, same⟩ := Option.map_eq_some_iff.mp taken
      exact same ▸ .createThread here last
  | createFails =>
      obtain ⟨here, same⟩ := Option.ite_none_right_eq_some.mp taken
      exact Option.some.inj same ▸ .createFails here
  | thread i call =>
      obtain ⟨alive, taken⟩ := Option.ite_none_left_eq_some.mp taken
      obtain ⟨thread, found, taken⟩ := Option.bind_eq_some_iff.mp taken
      exact .thread alive found (.of_call taken)

/-- Every shape of a call is what the program does. -/
theorem ThreadMove.to_call {s next : State} {i : Nat} {thread : Thread} {call : Call}
    (taken : ThreadMove s i thread call next)
    : readFromWriteThread s i thread call = some next := by
  cases taken with
  | readArgument here | allocate here | allocateFails here | recvError here => exact if_pos here
  | recvData here open_ offers =>
      simp [readFromWriteThread, MultiConnThreadsServer.recvData, here, open_, offers,
        Thread.stores]
  | recvEnd here open_ ended =>
      simp [readFromWriteThread, MultiConnThreadsServer.recvEnd, here, open_, ended]
  | sendReply here open_ positive part whole =>
      simp [readFromWriteThread, MultiConnThreadsServer.sendReply, here, open_, positive, part,
        whole]
  | sendFails here broken =>
      simp only [readFromWriteThread, MultiConnThreadsServer.sendFails, here, if_true]
      split
      next c open_ => simp [broken c open_]
      next => rfl
  | @close here table freed kept =>
      simp only [readFromWriteThread, MultiConnThreadsServer.close, here, if_true]
      cases own : thread.clientfd with
      | none => rw [kept own]
      | some fd => rw [freed fd own]

/-- Every shape of a step is what the program does. -/
theorem Move.to_step {s next : State} {action : Action} (taken : Move s action next)
    : step s action = some next := by
  cases taken with
  | connect => rfl
  | arrive known streaming nonempty => exact if_pos ⟨known, streaming, nonempty⟩
  | endStream known streaming => exact if_pos ⟨known, streaming⟩
  | resetPeer known whole => exact if_pos ⟨known, whole⟩
  | acceptClient here waiting =>
      simp [step, MultiConnThreadsServer.acceptClient, here, waiting]
  | acceptFails here | createFails here => exact if_pos here
  | checkFailed here failed => simp [step, MultiConnThreadsServer.checkAccept, here, failed]
  | checkAccept here accepted =>
      simp [step, MultiConnThreadsServer.checkAccept, here, accepted]
  | createThread here last => simp [step, MultiConnThreadsServer.createThread, here, last]
  | thread alive found call => simp [step, alive, found, call.to_call]

end LinuxStudy.MultiConnThreadsServer
