import LinuxStudy.MultiConnProcessServer.Model

/-! The steps of `multi_conn_process_server.c` read as a relation, one shape for each call and
result, with the facts that make the step possible.
-/

namespace LinuxStudy.MultiConnProcessServer

open Transition Posix MultiConn

/-- A child that is neither ended nor reaped. -/
def Child.running (child : Child) : Prop := child.unreaped ∧ ¬ child.ended

/-- One call of child `i`, with the result the kernel gives. -/
inductive ChildMove (s : State) (i : Nat) (child : Child) : Call → State → Prop
  | closeListening (here : child.pc = .closeListening)
    : ChildMove s i child .closeListening
        (s.setChild i { child with table := child.table.close s.socketfd, pc := .allocate })
  | allocate (here : child.pc = .allocate)
    : ChildMove s i child .allocate (s.setChild i { child with pc := .recv })
  | allocateFails (here : child.pc = .allocate)
    : ChildMove s i child .allocateFails (s.setChild i { child with pc := .handlerClose })
  | recvData {c n} (here : child.pc = .recv) (open_ : child.connection? = some c)
    (offers : (s.connections c).offers n)
    : ChildMove s i child (.recvData n)
        { (s.setConnection c ((s.connections c).takes n)).setChild i
            { child with
              readBuf := overwrite child.readBuf ((s.connections c).unread.take n)
              pc := .send } with
          printed :=
            s.printed
            ++ [(child.clientfd,
                cString (overwrite child.readBuf ((s.connections c).unread.take n)))] }
  | recvEnd {c} (here : child.pc = .recv) (open_ : child.connection? = some c)
    (ended : (s.connections c).ended)
    : ChildMove s i child .recvEnd (s.setChild i { child with pc := .handlerClose })
  | recvError (here : child.pc = .recv)
    : ChildMove s i child .recvError (s.setChild i { child with pc := .handlerClose })
  | sendReply {c k} (here : child.pc = .send) (open_ : child.connection? = some c)
    (positive : 0 < k) (part : k ≤ reply.length) (whole : (s.connections c).reset = false)
    : ChildMove s i child (.sendReply k)
        ((s.setConnection c ((s.connections c).answers k)).setChild i { child with pc := .recv })
  | sendFails (here : child.pc = .send)
    : ChildMove s i child .sendFails (endChild s i child (.exited 1))
  | handlerClose (here : child.pc = .handlerClose)
    : ChildMove s i child .handlerClose
        (s.setChild i
          { child with table := closeFd child.table child.clientfd, pc := .secondClose })
  | secondClose (here : child.pc = .secondClose)
    : ChildMove s i child .secondClose
        (s.setChild i { child with table := closeFd child.table child.clientfd, pc := .exit })
  | exit (here : child.pc = .exit)
    : ChildMove s i child .exit (endChild s i child (.exited 0))
  | killed {signal} (here : child.running)
    : ChildMove s i child (.killed signal) (endChild s i child (.signaled signal))

/-- One step, with the call that makes it and the result the kernel gives. -/
inductive Move (s : State) : Action → State → Prop
  | connect : Move s .connect (connect s)
  | network {action c connection} (known : c < s.connected)
    : Move s action (s.setConnection c connection)
  | acceptClient {c rest} (here : s.at .accept) (waiting : s.backlog = c :: rest)
    : Move s .acceptClient
        { s with
          backlog := rest
          table := s.table.allocate (.client c)
          clientfd := some s.table.lowestFree
          accepted := s.accepted ++ [c]
          main := .testResult }
  | acceptFails {errno}
    (here : s.at .interrupted ∧ errno = .interrupted ∨ s.at .accept ∧ errno = .other)
    : Move s (.acceptFails errno) { s with clientfd := none, errno, main := .testResult }
  | testFailed (here : s.at .testResult) (failed : s.clientfd = none)
    : Move s .testResult { s with main := .testErrno }
  | testAccepted (here : s.at .testResult) (accepted : s.clientfd ≠ none)
    : Move s .testResult { s with main := .fork }
  | retry (here : s.at .testErrno) (interrupted : s.errno = .interrupted)
    : Move s .testErrno { s with main := .accept }
  | handleError (here : s.at .testErrno) (failed : s.errno ≠ .interrupted)
    : Move s .testErrno
        { s with
          main := .dead
          table := .empty
          children := s.children.map fun child =>
            match child.pc with
            | .zombie _ => { child with pc := .reaped }
            | _ => child }
  | forkChild {c} (here : s.at .fork) (last : s.accepted.getLast? = some c)
    : Move s .forkChild
        { s with
          children :=
            s.children ++ [{ connection := c, clientfd := s.clientfd, table := s.table }]
          main := .closeClient }
  | forkFails (here : s.at .fork) : Move s .forkFails { s with main := .closeClient }
  | closeClient (here : s.at .closeClient)
    : Move s .closeClient
        { s with
          table := closeFd s.table s.clientfd
          released := s.released ++ s.accepted.getLast?.toList
          main := .accept }
  | deliverSignal {interrupts} (raised : s.pending = true) (unblocked : s.handler = .idle)
    (alive : s.main ≠ .dead) (during : interrupts = true → s.main = .accept)
    : Move s (.deliverSignal interrupts)
        { s with
          pending := false
          handler := .waitpid
          main := if interrupts then .interrupted else s.main }
  | waitpidReaps {pid child status} (here : s.handler = .waitpid)
    (found : s.children[pid]? = some child) (ended : child.pc = .zombie status)
    : Move s (.waitpidReaps pid)
        { s.setChild pid { child with pc := .reaped } with
          reaped := s.reaped ++ [pid]
          handler := .report pid status }
  | waitpidDone (here : s.handler = .waitpid) (none : ∀ child ∈ s.children, ¬ child.ended)
    : Move s .waitpidDone
        { s with
          handler := .returning
          errno := if ∃ child ∈ s.children, child.unreaped then s.errno else .noChild }
  | reportChild {pid status} (here : s.handler = .report pid status)
    : Move s .reportChild
        { s with handler := .waitpid, reports := s.reports ++ [(pid, status)] }
  | handlerReturns (here : s.handler = .returning)
    : Move s .handlerReturns { s with handler := .idle }
  | child {i child call next} (found : s.children[i]? = some child)
    (taken : ChildMove s i child call next)
    : Move s (.child i call) next

-----------------------------------------------------------------------------------------
-- Inversion of the executable step
-----------------------------------------------------------------------------------------

/-- Every successor of a child's call is one of the shapes. -/
theorem ChildMove.of_call {s next : State} {i : Nat} {child : Child} {call : Call}
    (taken : childStep s i child call = some next)
    : ChildMove s i child call next := by
  cases call with
  | closeListening =>
      obtain ⟨here, same⟩ := Option.ite_none_right_eq_some.mp taken
      exact Option.some.inj same ▸ .closeListening here
  | allocate =>
      obtain ⟨here, same⟩ := Option.ite_none_right_eq_some.mp taken
      exact Option.some.inj same ▸ .allocate here
  | allocateFails =>
      obtain ⟨here, same⟩ := Option.ite_none_right_eq_some.mp taken
      exact Option.some.inj same ▸ .allocateFails here
  | recvData n =>
      obtain ⟨here, taken⟩ := Option.ite_none_right_eq_some.mp taken
      obtain ⟨c, open_, taken⟩ := Option.bind_eq_some_iff.mp taken
      obtain ⟨offers, same⟩ := Option.ite_none_right_eq_some.mp taken
      exact Option.some.inj same ▸ .recvData here open_ offers
  | recvEnd =>
      obtain ⟨here, taken⟩ := Option.ite_none_right_eq_some.mp taken
      obtain ⟨c, open_, taken⟩ := Option.bind_eq_some_iff.mp taken
      obtain ⟨ended, same⟩ := Option.ite_none_right_eq_some.mp taken
      exact Option.some.inj same ▸ .recvEnd here open_ ended
  | recvError =>
      obtain ⟨here, same⟩ := Option.ite_none_right_eq_some.mp taken
      exact Option.some.inj same ▸ .recvError here
  | sendReply k =>
      obtain ⟨here, taken⟩ := Option.ite_none_right_eq_some.mp taken
      obtain ⟨c, open_, taken⟩ := Option.bind_eq_some_iff.mp taken
      obtain ⟨⟨positive, part, whole⟩, same⟩ := Option.ite_none_right_eq_some.mp taken
      exact Option.some.inj same ▸ .sendReply here open_ positive part whole
  | sendFails =>
      obtain ⟨here, same⟩ := Option.ite_none_right_eq_some.mp taken
      exact Option.some.inj same ▸ .sendFails here
  | handlerClose =>
      obtain ⟨here, same⟩ := Option.ite_none_right_eq_some.mp taken
      exact Option.some.inj same ▸ .handlerClose here
  | secondClose =>
      obtain ⟨here, same⟩ := Option.ite_none_right_eq_some.mp taken
      exact Option.some.inj same ▸ .secondClose here
  | exit =>
      obtain ⟨here, same⟩ := Option.ite_none_right_eq_some.mp taken
      exact Option.some.inj same ▸ .exit here
  | killed signal =>
      obtain ⟨here, same⟩ := Option.ite_none_right_eq_some.mp taken
      exact Option.some.inj same ▸ .killed here

/-- Every successor of the executable step is one of the shapes. -/
theorem Move.of_step {s next : State} {action : Action} (taken : step s action = some next)
    : Move s action next := by
  cases action with
  | connect => exact Option.some.inj taken ▸ .connect
  | arrive c bytes =>
      obtain ⟨⟨known, _⟩, same⟩ := Option.ite_none_right_eq_some.mp taken
      exact Option.some.inj same ▸ .network known
  | endStream c =>
      obtain ⟨⟨known, _⟩, same⟩ := Option.ite_none_right_eq_some.mp taken
      exact Option.some.inj same ▸ .network known
  | resetPeer c =>
      obtain ⟨⟨known, _⟩, same⟩ := Option.ite_none_right_eq_some.mp taken
      exact Option.some.inj same ▸ .network known
  | acceptClient =>
      simp only [step, MultiConnProcessServer.acceptClient] at taken
      split at taken
      next c rest waiting =>
        obtain ⟨here, same⟩ := Option.ite_none_right_eq_some.mp taken
        exact Option.some.inj same ▸ .acceptClient here waiting
      next => contradiction
  | acceptFails errno =>
      obtain ⟨here, same⟩ := Option.ite_none_right_eq_some.mp taken
      exact Option.some.inj same ▸ .acceptFails here
  | testResult =>
      obtain ⟨here, same⟩ := Option.ite_none_right_eq_some.mp taken
      obtain rfl := Option.some.inj same
      by_cases failed : s.clientfd = none
      · rw [if_pos failed]
        exact .testFailed here failed
      · rw [if_neg failed]
        exact .testAccepted here failed
  | testErrno =>
      obtain ⟨here, taken⟩ := Option.ite_none_right_eq_some.mp taken
      split at taken
      next interrupted => exact Option.some.inj taken ▸ .retry here interrupted
      next failed => exact Option.some.inj taken ▸ .handleError here failed
  | forkChild =>
      obtain ⟨here, taken⟩ := Option.ite_none_right_eq_some.mp taken
      obtain ⟨c, last, same⟩ := Option.map_eq_some_iff.mp taken
      exact same ▸ .forkChild here last
  | forkFails =>
      obtain ⟨here, same⟩ := Option.ite_none_right_eq_some.mp taken
      exact Option.some.inj same ▸ .forkFails here
  | closeClient =>
      obtain ⟨here, same⟩ := Option.ite_none_right_eq_some.mp taken
      exact Option.some.inj same ▸ .closeClient here
  | deliverSignal interrupts =>
      obtain ⟨⟨raised, unblocked, alive, during⟩, same⟩ :=
        Option.ite_none_right_eq_some.mp taken
      exact Option.some.inj same ▸ .deliverSignal raised unblocked alive during
  | waitpidReaps pid =>
      obtain ⟨here, taken⟩ := Option.ite_none_right_eq_some.mp taken
      obtain ⟨child, found, taken⟩ := Option.bind_eq_some_iff.mp taken
      split at taken
      next status ended => exact Option.some.inj taken ▸ .waitpidReaps here found ended
      next => contradiction
  | waitpidDone =>
      obtain ⟨⟨here, none⟩, same⟩ := Option.ite_none_right_eq_some.mp taken
      exact Option.some.inj same ▸ .waitpidDone here none
  | reportChild =>
      simp only [step, MultiConnProcessServer.reportChild] at taken
      split at taken
      next pid status here => exact Option.some.inj taken ▸ .reportChild here
      next => contradiction
  | handlerReturns =>
      obtain ⟨here, same⟩ := Option.ite_none_right_eq_some.mp taken
      exact Option.some.inj same ▸ .handlerReturns here
  | child i call =>
      obtain ⟨child, found, taken⟩ := Option.bind_eq_some_iff.mp taken
      exact .child found (.of_call taken)

end LinuxStudy.MultiConnProcessServer
