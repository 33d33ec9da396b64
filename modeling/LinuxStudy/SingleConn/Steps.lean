import LinuxStudy.SingleConn.Model

/-! The steps of the two processes read as one relation: behind `accept` and `connect` the two
programs do the same.
-/

namespace LinuxStudy.SingleConn

open Posix Transition

/-- What `send` has still to pass on. -/
def Peer.unsent (self : Peer) : Bytes :=
  match self.write with
  | .send rest => rest
  | _ => []

section Print

variable (self : Peer) (texts : List Printed)

@[simp] theorem Peer.print_write : (self.print texts).write = self.write := rfl

@[simp] theorem Peer.print_read : (self.print texts).read = self.read := rfl

@[simp] theorem Peer.print_stdin : (self.print texts).stdin = self.stdin := rfl

@[simp] theorem Peer.print_sent : (self.print texts).sent = self.sent := rfl

@[simp] theorem Peer.print_writeClosed : (self.print texts).writeClosed = self.writeClosed := rfl

@[simp] theorem Peer.print_received : (self.print texts).received = self.received := rfl

@[simp] theorem Peer.print_ended : (self.print texts).ended = self.ended := rfl

end Print

/-- One step of a process, by the call that it makes. -/
inductive PeerMove (capacity : Nat) (self other : Peer) : Call → Peer → Prop
  | mallocRead (here : self.read = .allocate)
    : PeerMove capacity self other (.read .malloc) { self with read := .recv }
  | mallocReadFails (here : self.read = .allocate)
    : PeerMove capacity self other (.read .mallocFails) { self with ended := true }
  | recv {n} (here : self.read = .recv) (some : 0 < n)
    (arrived : n ≤ (self.arriving other).length) (fits : n ≤ bufSize)
    : PeerMove capacity self other (.read (.recv n))
        ({ self with
          readBuf := overwrite self.readBuf ((self.arriving other).take n)
          received := self.received ++ (self.arriving other).take n }.print
            [.received (stringIn (overwrite self.readBuf ((self.arriving other).take n))),
              .puts (stringIn (overwrite self.readBuf ((self.arriving other).take n)))])
  | recvEnd (here : self.read = .recv)
    (closed : other.writeClosed = true ∨ other.ended = true)
    (all : self.arriving other = [])
    : PeerMove capacity self other (.read .recvEnd) { self with read := .returned }
  | recvFails (here : self.read = .recv) (broken : self.isReset other)
    : PeerMove capacity self other (.read .recvFails) { self with ended := true }
  | mallocWrite (here : self.write = .allocate)
    : PeerMove capacity self other (.write .malloc) { self with write := .fgets }
  | mallocWriteFails (here : self.write = .allocate)
    : PeerMove capacity self other (.write .mallocFails) { self with ended := true }
  | fgets (here : self.write = .fgets) (some : fgetsLine bufSize self.stdin ≠ [])
    : PeerMove capacity self other (.write .fgets)
        { self with
          stdin := self.stdin.drop (fgetsLine bufSize self.stdin).length
          writeBuf := overwrite self.writeBuf (fgetsLine bufSize self.stdin ++ [0])
          write := .send
            (cString (overwrite self.writeBuf (fgetsLine bufSize self.stdin ++ [0]))) }
  | fgetsEnd (here : self.write = .fgets) (none : fgetsLine bufSize self.stdin = [])
    : PeerMove capacity self other (.write .fgets)
        ({ self with write := .shutdown }.print [.inputEnded])
  | send {rest n} (here : self.write = .send rest) (some : 0 < n) (enough : n ≤ rest.length)
    (room : other.ended = true ∨ self.sent.length + n ≤ other.received.length + capacity)
    : PeerMove capacity self other (.write (.send n))
        { self with sent := self.sent ++ rest.take n, write := .send (rest.drop n) }
  | sendReturns (here : self.write = .send [])
    : PeerMove capacity self other (.write .sendReturns)
        ({ self with write := .fgets }.print
          [if cString self.writeBuf = [] then .nothingSent else .sent (cString self.writeBuf)])
  | sendFails {rest} (here : self.write = .send rest) (gone : other.ended = true)
    : PeerMove capacity self other (.write .sendFails) { self with ended := true }
  | shutdown (here : self.write = .shutdown)
    : PeerMove capacity self other (.write .shutdown)
        { self with writeClosed := true, write := .returned }
  | close (read : self.read = .returned) (write : self.write = .returned)
    : PeerMove capacity self other .close ({ self with ended := true }.print [.releases])

theorem PeerMove.of_readFrom {capacity : Nat} {self other next : Peer} {call : ReadCall}
    (taken : readFrom self other call = some next)
    : PeerMove capacity self other (.read call) next := by
  cases call with
  | malloc =>
      obtain ⟨here, same⟩ := Option.ite_none_right_eq_some.mp taken
      exact Option.some.inj same ▸ .mallocRead here
  | mallocFails =>
      obtain ⟨here, same⟩ := Option.ite_none_right_eq_some.mp taken
      exact Option.some.inj same ▸ .mallocReadFails here
  | recv n =>
      obtain ⟨⟨here, positive, arrived, fits⟩, same⟩ := Option.ite_none_right_eq_some.mp taken
      exact Option.some.inj same ▸ .recv here positive arrived fits
  | recvEnd =>
      obtain ⟨⟨here, closed, all⟩, same⟩ := Option.ite_none_right_eq_some.mp taken
      exact Option.some.inj same ▸ .recvEnd here closed all
  | recvFails =>
      obtain ⟨⟨here, broken⟩, same⟩ := Option.ite_none_right_eq_some.mp taken
      exact Option.some.inj same ▸ .recvFails here broken

theorem PeerMove.of_writeTo {capacity : Nat} {self other next : Peer} {call : WriteCall}
    (taken : writeTo capacity self other call = some next)
    : PeerMove capacity self other (.write call) next := by
  cases call with
  | malloc =>
      obtain ⟨here, same⟩ := Option.ite_none_right_eq_some.mp taken
      exact Option.some.inj same ▸ .mallocWrite here
  | mallocFails =>
      obtain ⟨here, same⟩ := Option.ite_none_right_eq_some.mp taken
      exact Option.some.inj same ▸ .mallocWriteFails here
  | fgets =>
      obtain ⟨here, same⟩ := Option.ite_none_right_eq_some.mp taken
      by_cases none : fgetsLine bufSize self.stdin = []
      · rw [if_pos none] at same
        exact Option.some.inj same ▸ .fgetsEnd here none
      · rw [if_neg none] at same
        exact Option.some.inj same ▸ .fgets here none
  | send n =>
      simp only [writeTo] at taken
      split at taken
      next rest here =>
        obtain ⟨⟨positive, enough, room⟩, same⟩ := Option.ite_none_right_eq_some.mp taken
        exact Option.some.inj same ▸ .send here positive enough room
      next => contradiction
  | sendReturns =>
      obtain ⟨here, same⟩ := Option.ite_none_right_eq_some.mp taken
      exact Option.some.inj same ▸ .sendReturns here
  | sendFails =>
      simp only [writeTo] at taken
      split at taken
      next rest here =>
        obtain ⟨gone, same⟩ := Option.ite_none_right_eq_some.mp taken
        exact Option.some.inj same ▸ .sendFails here gone
      next => contradiction
  | shutdown =>
      obtain ⟨here, same⟩ := Option.ite_none_right_eq_some.mp taken
      exact Option.some.inj same ▸ .shutdown here

/-- The step of a process, whichever of the two programs it runs. -/
theorem PeerMove.of_server {capacity : Nat} {self other next : Peer} {call : Call}
    (taken : serverStep capacity self other call = some next)
    : PeerMove capacity self other call next := by
  cases call with
  | read call => exact .of_readFrom taken
  | write call => exact .of_writeTo taken
  | close =>
      obtain ⟨⟨read, write⟩, same⟩ := Option.ite_none_right_eq_some.mp taken
      exact Option.some.inj same ▸ .close read write

/-- The two programs take the same steps. -/
theorem clientStep_eq : clientStep = serverStep := by
  funext capacity self other call
  cases call <;> rfl

/-- One step of the two processes: a process that has not ended moves, and the other one
stays as it is.
-/
structure Move (capacity : Nat) (s : State) (action : Action) (next : State) : Prop where
  alive : (s action.side).ended = false
  moves : PeerMove capacity (s action.side) (s action.side.other) action.call (next action.side)
  other : next action.side.other = s action.side.other

theorem Side.other_ne (side : Side) : side.other ≠ side := by
  cases side <;> simp [Side.other]

@[simp] theorem Side.other_other (side : Side) : side.other.other = side := by
  cases side <;> rfl

/-- A side is the one that moves or the other one. -/
theorem Side.eq_or_eq_other (side one : Side) : side = one ∨ side = one.other := by
  cases side <;> cases one <;> simp [Side.other]

/-- A step is one of the calls of the process that moves. -/
theorem step_eq (capacity : Nat) (s : State) (side : Side) (call : Call)
    : step capacity s ⟨side, call⟩
      = if (s side).ended = true then none
        else (serverStep capacity (s side) (s side.other) call).map (Function.update s side) := by
  cases side with
  | server => rfl
  | client => rw [step, clientStep_eq]; rfl

theorem Move.of_step {capacity : Nat} {s next : State} {action : Action}
    (taken : step capacity s action = some next)
    : Move capacity s action next := by
  obtain ⟨side, call⟩ := action
  rw [step_eq] at taken
  obtain ⟨alive, taken⟩ := Option.ite_none_left_eq_some.mp taken
  obtain ⟨peer, moves, rfl⟩ := Option.map_eq_some_iff.mp taken
  constructor
  · simpa using alive
  · rw [Function.update_self]
    exact .of_server moves
  · exact Function.update_of_ne side.other_ne _ _

end LinuxStudy.SingleConn
