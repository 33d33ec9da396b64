import LinuxStudy.TcpEcho.Server

/-! The steps of `tcp_echo_server.c` read as a relation, one shape for each call and result. -/

namespace LinuxStudy.TcpEcho.Server

open Posix

/-- One step of the server, with the call that makes it and the result it gets. -/
inductive ServerMove (room : Nat → Nat) (s : State) : Action → State → Prop
  | accept {c waiting} (here : s.pc = .accept) (queue : s.waiting = c :: waiting)
    : ServerMove room s .accept { s with pc := .recv c, waiting }
  | acceptFails (here : s.pc = .accept)
    : ServerMove room s .acceptFails { s with pc := .dead, waiting := [] }
  | recv {c n} (here : s.pc = .recv c) (some : (s.clients c).unread ≠ [])
    (most : n = min (s.clients c).unread.length (bufSize - 1))
    : ServerMove room s .recv
        { s.set c { s.clients c with unread := (s.clients c).unread.drop n } with
          buffer := overwrite (List.replicate bufSize 0) ((s.clients c).unread.take n)
          pc := .send c n 0 }
  | recvEnd {c} (here : s.pc = .recv c) (empty : (s.clients c).unread = [])
    (ended : (s.clients c).fin = true)
    : ServerMove room s .recvEnd { s with pc := .close c }
  | recvFails {c} (here : s.pc = .recv c) (empty : (s.clients c).unread = [])
    (unended : (s.clients c).fin = false) (reset : (s.clients c).reset = true)
    : ServerMove room s .recvFails { s with pc := .close c }
  | sendRest {c recvLen passed k} (here : s.pc = .send c recvLen passed)
    (open_ : (s.clients c).Open) (all : passed + k = recvLen)
    (fits : (s.clients c).pending.length + k ≤ room c)
    : ServerMove room s (.send k)
        { s.set c { s.clients c with
            pending := (s.clients c).pending ++ ((s.buffer.take recvLen).drop passed).take k
            echoed := (s.clients c).echoed ++ ((s.buffer.take recvLen).drop passed).take k } with
          pc := .recv c }
  | sendPart {c recvLen passed k} (here : s.pc = .send c recvLen passed)
    (open_ : (s.clients c).Open) (positive : 0 < k) (less : passed + k < recvLen)
    (fits : (s.clients c).pending.length + k ≤ room c)
    : ServerMove room s (.send k)
        { s.set c { s.clients c with
            pending := (s.clients c).pending ++ ((s.buffer.take recvLen).drop passed).take k
            echoed := (s.clients c).echoed ++ ((s.buffer.take recvLen).drop passed).take k } with
          pc := .send c recvLen (passed + k) }
  | sendAnswered {c recvLen passed} (here : s.pc = .send c recvLen passed)
    (closed : (s.clients c).closed = true) (whole : (s.clients c).reset = false)
    : ServerMove room s .sendAnswered
        { s.set c { s.clients c with reset := true } with pc := .recv c }
  | sendCut {c recvLen passed} (here : s.pc = .send c recvLen passed)
    (reset : (s.clients c).reset = true) (some : 0 < passed)
    : ServerMove room s .sendBroken { s with pc := .recv c }
  | sendKills {c recvLen} (here : s.pc = .send c recvLen 0) (reset : (s.clients c).reset = true)
    (ended : (s.clients c).fin = true)
    : ServerMove room s .sendBroken { s with pc := .dead, waiting := [] }
  | sendFails {c recvLen} (here : s.pc = .send c recvLen 0) (reset : (s.clients c).reset = true)
    (unended : (s.clients c).fin = false)
    : ServerMove room s .sendBroken { s with pc := .close c }
  | close {c} (here : s.pc = .close c) : ServerMove room s .close { s with pc := .accept }

/-- Every successor by a call of the server is one of the shapes. -/
theorem ServerMove.of_step {room : Nat → Nat} {s next : State} {action : Action}
    (its : action.isServer = true) (taken : step room s action = some next)
    : ServerMove room s action next := by
  cases action
  case connect | arrive | read | shutdown | leave | abort => contradiction
  case accept =>
    simp only [step, Server.accept] at taken
    split at taken
    next c waiting here queue => exact Option.some.inj taken ▸ .accept here queue
    next => contradiction
  case acceptFails =>
    obtain ⟨here, same⟩ := Option.ite_none_right_eq_some.mp taken
    exact Option.some.inj same ▸ .acceptFails here
  case recv =>
    simp only [step, Server.recv] at taken
    split at taken
    next c here =>
      obtain ⟨some, same⟩ := Option.ite_none_right_eq_some.mp taken
      exact Option.some.inj same ▸ .recv here some rfl
    next => contradiction
  case recvEnd =>
    simp only [step, Server.recvEnd] at taken
    split at taken
    next c here =>
      obtain ⟨⟨empty, ended⟩, same⟩ := Option.ite_none_right_eq_some.mp taken
      exact Option.some.inj same ▸ .recvEnd here empty ended
    next => contradiction
  case recvFails =>
    simp only [step, Server.recvFails] at taken
    split at taken
    next c here =>
      obtain ⟨⟨empty, unended, reset⟩, same⟩ := Option.ite_none_right_eq_some.mp taken
      exact Option.some.inj same ▸ .recvFails here empty unended reset
    next => contradiction
  case send k =>
    simp only [step, Server.send] at taken
    split at taken
    next c recvLen passed here =>
      obtain ⟨⟨open_, positive, rest, fits⟩, same⟩ := Option.ite_none_right_eq_some.mp taken
      split at same
      next all => exact Option.some.inj same ▸ .sendRest here open_ all fits
      next more => exact Option.some.inj same ▸ .sendPart here open_ positive (by omega) fits
    next => contradiction
  case sendAnswered =>
    simp only [step, Server.sendAnswered] at taken
    split at taken
    next c recvLen passed here =>
      obtain ⟨⟨closed, whole⟩, same⟩ := Option.ite_none_right_eq_some.mp taken
      exact Option.some.inj same ▸ .sendAnswered here closed whole
    next => contradiction
  case sendBroken =>
    simp only [step, Server.sendBroken] at taken
    split at taken
    next c recvLen passed here =>
      obtain ⟨reset, same⟩ := Option.ite_none_right_eq_some.mp taken
      split at same
      next some => exact Option.some.inj same ▸ .sendCut here reset some
      next none =>
        obtain rfl : passed = 0 := by omega
        split at same
        next ended => exact Option.some.inj same ▸ .sendKills here reset ended
        next unended =>
          exact Option.some.inj same ▸ .sendFails here reset (Bool.eq_false_iff.mpr unended)
    next => contradiction
  case close =>
    simp only [step, Server.close] at taken
    split at taken
    next c here => exact Option.some.inj taken ▸ .close here
    next => contradiction

end LinuxStudy.TcpEcho.Server
