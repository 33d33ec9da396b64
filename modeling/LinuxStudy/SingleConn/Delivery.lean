import LinuxStudy.SingleConn.Steps
import LinuxStudy.Transition.Progress

/-! What the two processes of the single connection receive from each other: nothing is lost,
repeated or reordered, no call fails while memory lasts, and no size of the connection's
buffers keeps the two from coming to their ends.
-/

namespace LinuxStudy.SingleConn

open Posix Transition

variable {capacity : Nat} {typed : Side → Bytes} {self other next : Peer} {call : Call}

-----------------------------------------------------------------------------------------
-- What a typed text sends
-----------------------------------------------------------------------------------------

@[simp] theorem spoken_nil : spoken [] = [] := rfl

/-- Of the first piece of the input its string is passed on. -/
theorem spoken_eq_append {stdin : Bytes} (some : fgetsLine bufSize stdin ≠ [])
    : spoken stdin
      = cString (fgetsLine bufSize stdin)
        ++ spoken (stdin.drop (fgetsLine bufSize stdin).length) := by
  rw [spoken, pieces_eq_cons some, List.flatMap_cons]
  rfl

/-- The string that `fgets` leaves in the buffer ends at the first NUL of the line, if the line
has one.
-/
theorem cString_fgets (buffer line : Bytes)
    : cString (overwrite buffer (line ++ [0])) = cString line := by
  rw [overwrite, cString_append_of_mem (by simp)]
  by_cases terminated : 0 ∈ line
  · exact cString_append_of_mem terminated [0]
  · rw [cString_append_zero terminated, cString_of_nulFree terminated]

-----------------------------------------------------------------------------------------
-- Nothing is lost, repeated or reordered
-----------------------------------------------------------------------------------------

/-- The bytes sent, those `send` still holds and those of the input left make up what is
typed. The write half is closed behind the end of the input only.
-/
structure Speaks (typed : Bytes) (peer : Peer) : Prop where
  typing : peer.sent ++ (peer.unsent ++ spoken peer.stdin) = spoken typed
  atEnd : peer.write = .shutdown ∨ peer.write = .returned → peer.stdin = []
  closed : peer.writeClosed = true ↔ peer.write = .returned

/-- What is received is a front of what the other side has sent, and all of it when the
reading thread has returned.
-/
structure Hears (peer other : Peer) : Prop where
  order : peer.received <+: other.sent
  done
    : peer.read = .returned
      → (other.writeClosed = true ∨ other.ended = true) ∧ peer.received = other.sent

theorem Speaks.move {typed : Bytes} (speaks : Speaks typed self)
    (moves : PeerMove capacity self other call next)
    : Speaks typed next := by
  obtain ⟨typing, atEnd, closed⟩ := speaks
  cases moves with
  | mallocRead _ | mallocReadFails _ | recv _ _ _ _ | recvEnd _ _ _ | recvFails _ _
  | mallocWriteFails _ | sendFails _ _ | close _ _ => exact ⟨typing, atEnd, closed⟩
  | mallocWrite here =>
      exact ⟨by simpa [Peer.unsent, here] using typing, by simp, by simpa [here] using closed⟩
  | fgets here some =>
      refine ⟨?_, by simp, by simpa [here] using closed⟩
      simpa [Peer.unsent, here, spoken_eq_append some, cString_fgets] using typing
  | fgetsEnd here none =>
      refine ⟨by simpa [Peer.unsent, here] using typing, fun _ => ?_, by simpa [here] using closed⟩
      by_contra more
      exact fgetsLine_ne_nil (by decide) more none
  | @send rest n here _ _ _ =>
      refine ⟨?_, by simp, by simpa [here] using closed⟩
      have split := List.take_append_drop n rest
      simp only [Peer.unsent, here] at typing
      simp only [Peer.unsent]
      rw [List.append_assoc, ← List.append_assoc (rest.take n), split]
      exact typing
  | sendReturns here =>
      exact ⟨by simpa [Peer.unsent, here] using typing, by simp, by simpa [here] using closed⟩
  | shutdown here =>
      exact ⟨by simpa [Peer.unsent, here] using typing, fun _ => atEnd (Or.inl here), by simp⟩

/-- A process that receives takes the next bytes of the other one. -/
theorem Hears.receive (hears : Hears self other)
    (moves : PeerMove capacity self other call next)
    : Hears next other := by
  obtain ⟨order, done⟩ := hears
  cases moves with
  | recv here _ _ _ =>
      refine ⟨?_, by simp [here]⟩
      have front := List.prefix_iff_eq_take.mp order
      have more := take_append_arriving other.sent self.received.length
      simp only [Peer.print_received, Peer.arriving]
      conv => lhs; arg 1; rw [front]
      rw [more]
      exact List.take_prefix _ _
  | recvEnd here closed all =>
      refine ⟨order, fun _ => ⟨closed, order.eq_of_length_le ?_⟩⟩
      exact List.drop_eq_nil_iff.mp all
  | mallocRead _ => exact ⟨order, by simp⟩
  | _ => exact ⟨order, done⟩

/-- What a process does that has not ended leaves the other one with a front of what it has
sent: behind its `shutdown` it sends no more.
-/
theorem Hears.overhear {typed : Bytes} (hears : Hears other self) (speaks : Speaks typed self)
    (alive : self.ended = false) (moves : PeerMove capacity self other call next)
    : Hears other next := by
  obtain ⟨order, done⟩ := hears
  cases moves with
  | send here _ _ _ =>
      refine ⟨order.trans (List.prefix_append _ _), fun returned => ?_⟩
      have closed := (done returned).1.resolve_right (by simp [alive])
      have behind := speaks.closed.mp closed
      simp [here] at behind
  | shutdown here => exact ⟨order, fun returned => ⟨Or.inl rfl, (done returned).2⟩⟩
  | mallocReadFails _ | recvFails _ _ | mallocWriteFails _ | sendFails _ _ | close _ _ =>
      exact ⟨order, fun returned => ⟨Or.inr rfl, (done returned).2⟩⟩
  | _ => exact ⟨order, done⟩

/-- Both processes are in order. -/
structure InOrder (typed : Side → Bytes) (s : State) : Prop where
  speaks : ∀ side, Speaks (typed side) (s side)
  hears : ∀ side, Hears (s side) (s side.other)

theorem InOrder.initial {s : State} (start : (system capacity typed).Initial s)
    : InOrder typed s := by
  constructor
  · intro side
    obtain ⟨_, _, _, _, same⟩ := start side
    rw [same]
    exact ⟨by simp [Peer.start, Peer.unsent], by simp [Peer.start], by simp [Peer.start]⟩
  · intro side
    obtain ⟨_, _, _, _, same⟩ := start side
    rw [same]
    exact ⟨List.nil_prefix, by simp [Peer.start]⟩

theorem InOrder.move {s next : State} {action : Action} (inOrder : InOrder typed s)
    (moves : Move capacity s action next)
    : InOrder typed next := by
  obtain ⟨alive, moves, other⟩ := moves
  constructor
  · intro side
    rcases side.eq_or_eq_other action.side with rfl | rfl
    · exact (inOrder.speaks _).move moves
    · rw [other]
      exact inOrder.speaks _
  · intro side
    rcases side.eq_or_eq_other action.side with rfl | rfl
    · rw [other]
      exact (inOrder.hears _).receive moves
    · have heard := inOrder.hears action.side.other
      rw [other]
      rw [Side.other_other] at heard ⊢
      exact heard.overhear (inOrder.speaks _) alive moves

theorem inOrder_of_reachable {s : State} (reached : (system capacity typed).Reachable s)
    : InOrder typed s := by
  refine System.Reachable.invariant (fun _ => InOrder.initial) ?_ reached
  exact fun _ _ _ inOrder taken => inOrder.move (.of_step taken)

-----------------------------------------------------------------------------------------
-- No call fails
-----------------------------------------------------------------------------------------

/-- `malloc` does not fail. -/
def Allocates (_ : State) (action : Action) : Prop :=
  action.call ≠ .read .mallocFails ∧ action.call ≠ .write .mallocFails

/-- A process that has ended has come to its `close`. -/
def Closed (s : State) : Prop :=
  ∀ side, (s side).ended = true → (s side).read = .returned ∧ (s side).write = .returned

/-- Neither `recv` nor `send` fails: who closes has read everything, and has seen the other's
`shutdown`.
-/
theorem PeerMove.succeeds {typed : Bytes} (speaks : Speaks typed self) (heard : Hears other self)
    (alive : self.ended = false) (closed : other.ended = true → other.read = .returned)
    (moves : PeerMove capacity self other call next)
    : call ≠ .read .recvFails ∧ call ≠ .write .sendFails := by
  cases moves with
  | recvFails _ broken =>
      have all := (heard.done (closed broken.1)).2
      have less := broken.2
      rw [all] at less
      exact absurd less (Nat.lt_irrefl _)
  | sendFails here gone =>
      have shut := (heard.done (closed gone)).1.resolve_right (by simp [alive])
      have returned := speaks.closed.mp shut
      simp [here] at returned
  | _ => simp

theorem Closed.move {s next : State} {action : Action} (closed : Closed s)
    (inOrder : InOrder typed s) (allocates : Allocates s action)
    (moves : Move capacity s action next)
    : Closed next := by
  obtain ⟨alive, moves, other⟩ := moves
  intro side
  rcases side.eq_or_eq_other action.side with rfl | rfl
  · have heard := inOrder.hears action.side.other
    rw [Side.other_other] at heard
    have succeeds := moves.succeeds (inOrder.speaks _) heard alive fun gone => (closed _ gone).1
    generalize next action.side = after at moves
    have memory := allocates
    unfold Allocates at memory
    generalize action.call = call at *
    cases moves with
    | mallocReadFails _ => exact absurd rfl memory.1
    | mallocWriteFails _ => exact absurd rfl memory.2
    | recvFails _ _ => exact absurd rfl succeeds.1
    | sendFails _ _ => exact absurd rfl succeeds.2
    | close read write => exact fun _ => ⟨read, write⟩
    | _ => simp [alive]
  · rw [other]
    exact closed _

theorem closed_of_reachableBy {s : State}
    (reached : (system capacity typed).ReachableBy Allocates s)
    : Closed s := by
  refine System.ReachableBy.invariant ?_ ?_ reached
  · intro s start side gone
    obtain ⟨_, _, _, _, same⟩ := start side
    simp [same, Peer.start] at gone
  · exact fun s action next before closed allocates taken =>
      closed.move (inOrder_of_reachable before.reachable) allocates (.of_step taken)

/-- Each side receives a front of what the other has passed on of the typed text, and all that
was passed on when its reading thread returns. While no `malloc` fails, no `recv` and no `send`
does.
-/
theorem delivers_inOrder (capacity : Nat) (typed : Side → Bytes)
    : (∀ s,
        (system capacity typed).Reachable s
        → ∀ side,
            (s side).received <+: (s side.other).sent
            ∧ (s side.other).sent <+: spoken (typed side.other)
            ∧ ((s side).read = .returned → (s side).received = (s side.other).sent))
      ∧ ∀ s,
          (system capacity typed).ReachableBy Allocates s
          → ∀ side,
              step capacity s ⟨side, .read .recvFails⟩ = none
              ∧ step capacity s ⟨side, .write .sendFails⟩ = none := by
  constructor
  · intro s reached side
    have inOrder := inOrder_of_reachable reached
    refine ⟨(inOrder.hears side).order, ?_, fun returned => ((inOrder.hears side).done returned).2⟩
    exact ⟨_, (inOrder.speaks side.other).typing⟩
  · intro s reached side
    have inOrder := inOrder_of_reachable reached.reachable
    have closed := closed_of_reachableBy reached
    have heard := inOrder.hears side.other
    rw [Side.other_other] at heard
    have succeeds {call : Call} {next : State} (taken : step capacity s ⟨side, call⟩ = some next)
        : call ≠ .read .recvFails ∧ call ≠ .write .sendFails := by
      obtain ⟨alive, moves, _⟩ := Move.of_step taken
      exact moves.succeeds (inOrder.speaks _) heard alive fun gone => (closed _ gone).1
    constructor
    · refine Option.eq_none_iff_forall_ne_some.mpr fun next taken => ?_
      exact (succeeds taken).1 rfl
    · refine Option.eq_none_iff_forall_ne_some.mpr fun next taken => ?_
      exact (succeeds taken).2 rfl

-----------------------------------------------------------------------------------------
-- Both processes come to their ends
-----------------------------------------------------------------------------------------

/-- How far the writing thread is from its end. A byte of the input is read, sent and counted
off.
-/
def Peer.toWrite (self : Peer) : Nat :=
  3 * self.stdin.length
  + match self.write with
    | .allocate => 4
    | .fgets => 3
    | .send rest => rest.length + 4
    | .shutdown => 2
    | .returned => 1

/-- How far the reading thread is from its end, when this much is still to come. -/
def Peer.toRead (self : Peer) (expected : Nat) : Nat :=
  (expected - self.received.length)
  + match self.read with
    | .allocate => 2
    | .recv => 1
    | .returned => 0

def Peer.work (self : Peer) (expected : Nat) : Nat :=
  self.toWrite + self.toRead expected + if self.ended then 0 else 1

/-- Every call of a process brings it nearer to its end. -/
theorem PeerMove.work_lt {expected : Nat} (alive : self.ended = false)
    (enough : other.sent.length ≤ expected) (order : self.received <+: other.sent)
    (moves : PeerMove capacity self other call next)
    : next.work expected < self.work expected := by
  have below := order.length_le
  cases moves with
  | fgets here some =>
      have positive := List.length_pos_of_ne_nil some
      have front := fgetsLine_prefix bufSize self.stdin
      have inside := front.length_le
      have short := (prefix_cString (fgetsLine bufSize self.stdin)).length_le
      simp only [Peer.work, Peer.toWrite, Peer.toRead, here, cString_fgets, List.length_drop]
      omega
  | recv here some arrived _ =>
      have taken : ((self.arriving other).take _).length = _ := List.length_take_of_le arrived
      have room : (self.arriving other).length = other.sent.length - self.received.length :=
        List.length_drop
      simp only [Peer.work, Peer.toWrite, Peer.toRead, Peer.print, List.length_append, taken, here]
      omega
  | send here some enough room =>
      simp only [Peer.work, Peer.toWrite, Peer.toRead, here, List.length_drop]
      omega
  | mallocRead here | recvEnd here _ _ | mallocWrite here | fgetsEnd here _ | sendReturns here
  | shutdown here =>
      simp only [Peer.work, Peer.toWrite, Peer.toRead, Peer.print, here, alive, List.length_nil,
        Bool.false_eq_true, if_false]
      omega
  | mallocReadFails _ | recvFails _ _ | mallocWriteFails _ | sendFails _ _ | close _ _ =>
      simp [Peer.work, Peer.toWrite, Peer.toRead, alive]

def work (typed : Side → Bytes) (s : State) : Nat :=
  (s .server).work (spoken (typed .client)).length
  + (s .client).work (spoken (typed .server)).length

theorem work_lt {s next : State} {action : Action} (inOrder : InOrder typed s)
    (moves : Move capacity s action next)
    : work typed next < work typed s := by
  obtain ⟨alive, moves, other⟩ := moves
  have sent : (s action.side.other).sent <+: spoken (typed action.side.other) :=
    ⟨_, (inOrder.speaks _).typing⟩
  have less := moves.work_lt alive sent.length_le (inOrder.hears _).order
  obtain ⟨side, call⟩ := action
  cases side <;> simp only [Side.other, work] at * <;> rw [other] <;> omega

/-- Some call of a process is possible, and it is no `malloc` that fails. -/
def CanMove (capacity : Nat) (s : State) : Prop :=
  ∃ action next, Allocates s action ∧ step capacity s action = some next

theorem canMove_of_isSome {s : State} {side : Side} (call : Call)
    (alive : (s side).ended = false)
    (memory : call ≠ .read .mallocFails ∧ call ≠ .write .mallocFails)
    (possible : (serverStep capacity (s side) (s side.other) call).isSome)
    : CanMove capacity s := by
  obtain ⟨peer, taken⟩ := Option.isSome_iff_exists.mp possible
  refine ⟨⟨side, call⟩, Function.update s side peer, memory, ?_⟩
  simp [step_eq, alive, taken]

/-- A reading thread with bytes to come can go on. -/
theorem canMove_of_arriving {s : State} {side : Side} (alive : (s side).ended = false)
    (unread : (s side).read ≠ .returned) (more : (s side).arriving (s side.other) ≠ [])
    : CanMove capacity s := by
  cases here : (s side).read with
  | allocate =>
      exact canMove_of_isSome (.read .malloc) alive (by simp)
        (by simp [serverStep, readFromClient, readFrom, here])
  | recv =>
      have positive := List.length_pos_of_ne_nil more
      have call : (s side).read = .recv ∧ 0 < 1 ∧ 1 ≤ ((s side).arriving (s side.other)).length
          ∧ 1 ≤ bufSize :=
        ⟨here, Nat.one_pos, positive, by decide⟩
      exact canMove_of_isSome (.read (.recv 1)) alive (by simp)
        (by simp only [serverStep, readFromClient, readFrom, if_pos call, Option.isSome_some])
  | returned => contradiction

/-- A process whose reading thread has not returned goes on. -/
theorem alive_of_reading {s : State} (closed : Closed s) {side : Side}
    (unread : (s side).read ≠ .returned)
    : (s side).ended = false := by
  cases gone : (s side).ended with
  | false => rfl
  | true => exact absurd (closed side gone).1 unread

/-- While a writing thread has not returned, it can go on, or the connection is full and the
reading thread of the other side can.
-/
theorem canMove_of_writing {s : State} {side : Side} (room : 0 < capacity)
    (inOrder : InOrder typed s) (closed : Closed s) (writing : (s side).write ≠ .returned)
    : CanMove capacity s := by
  have alive : (s side).ended = false := by
    cases gone : (s side).ended with
    | false => rfl
    | true => exact absurd (closed side gone).2 writing
  have goesOn (call : WriteCall) (memory : call ≠ .mallocFails)
      (possible : (writeTo capacity (s side) (s side.other) call).isSome)
      : CanMove capacity s :=
    canMove_of_isSome (.write call) alive (by simpa using memory) possible
  cases here : (s side).write with
  | allocate => exact goesOn .malloc (by simp) (by simp [writeTo, here])
  | fgets =>
      refine goesOn .fgets (by simp) ?_
      by_cases none : fgetsLine bufSize (s side).stdin = [] <;> simp [writeTo, here, none]
  | send rest =>
      cases rest with
      | nil => exact goesOn .sendReturns (by simp) (by simp [writeTo, here])
      | cons byte rest =>
          by_cases fits : (s side).sent.length + 1 ≤ (s side.other).received.length + capacity
          · exact goesOn (.send 1) (by simp) (by simp [writeTo, here, fits])
          · have heard := inOrder.hears side.other
            rw [Side.other_other] at heard
            have behind : (s side.other).received.length < (s side).sent.length := by omega
            have unread : (s side.other).read ≠ .returned := by
              intro returned
              rw [(heard.done returned).2] at behind
              exact Nat.lt_irrefl _ behind
            refine canMove_of_arriving (alive_of_reading closed unread) unread ?_
            rw [Side.other_other]
            exact fun all => Nat.not_le_of_lt behind (List.drop_eq_nil_iff.mp all)
  | shutdown => exact goesOn .shutdown (by simp) (by simp [writeTo, here])
  | returned => contradiction

/-- When both writing threads have returned, a reading thread can go on to its end. -/
theorem canMove_of_reading {s : State} {side : Side} (inOrder : InOrder typed s)
    (closed : Closed s) (written : ∀ side, (s side).write = .returned)
    (unread : (s side).read ≠ .returned)
    : CanMove capacity s := by
  have alive := alive_of_reading closed unread
  by_cases more : (s side).arriving (s side.other) = []
  · have shut := (inOrder.speaks side.other).closed.mpr (written _)
    cases here : (s side).read with
    | allocate =>
        exact canMove_of_isSome (.read .malloc) alive (by simp)
          (by simp [serverStep, readFromClient, readFrom, here])
    | recv =>
        exact canMove_of_isSome (.read .recvEnd) alive (by simp)
          (by simp [serverStep, readFromClient, readFrom, here, shut, more])
    | returned => contradiction
  · exact canMove_of_arriving alive unread more

/-- Until both processes have ended one of them can go on. -/
theorem exists_canMove {s : State} (room : 0 < capacity) (inOrder : InOrder typed s)
    (closed : Closed s)
    : (∀ side, (s side).ended = true) ∨ CanMove capacity s := by
  by_cases writing : ∃ side, (s side).write ≠ .returned
  · obtain ⟨side, writing⟩ := writing
    exact Or.inr (canMove_of_writing room inOrder closed writing)
  have written : ∀ side, (s side).write = .returned := fun side => by
    by_contra still
    exact writing ⟨side, still⟩
  by_cases reading : ∃ side, (s side).read ≠ .returned
  · obtain ⟨side, reading⟩ := reading
    exact Or.inr (canMove_of_reading inOrder closed written reading)
  by_cases running : ∃ side, (s side).ended = false
  · obtain ⟨side, alive⟩ := running
    have read : (s side).read = .returned := by
      by_contra still
      exact reading ⟨side, still⟩
    exact Or.inr (canMove_of_isSome .close alive (by simp)
      (by simp [serverStep, main, read, written]))
  · left
    intro side
    cases gone : (s side).ended with
    | true => rfl
    | false => exact absurd ⟨side, gone⟩ running

/-- While no `malloc` fails, every schedule ends with both processes closed and each having
received everything the other one was to pass on, however few bytes the connection holds.
-/
theorem inevitable_delivered {s : State} (room : 0 < capacity)
    (reached : (system capacity typed).ReachableBy Allocates s)
    : (system capacity typed).Inevitable Allocates
        (fun s =>
          ∀ side,
            (s side).ended = true
            ∧ (s side).received = spoken (typed side.other)
            ∧ (s side).sent = spoken (typed side))
        s := by
  refine .of_measure (fun s => InOrder typed s ∧ Closed s) (work typed) ?_ ?_ ?_
    ⟨inOrder_of_reachable reached.reachable, closed_of_reachableBy reached⟩
  · intro s action next ⟨inOrder, closed⟩ allocates taken
    have moves := Move.of_step taken
    exact ⟨inOrder.move moves, closed.move inOrder allocates moves⟩
  · intro s ⟨inOrder, closed⟩
    refine (exists_canMove room inOrder closed).imp_left fun ended side => ?_
    have all (side : Side) : (s side).sent = spoken (typed side) := by
      have returned := (closed side (ended side)).2
      have typing := (inOrder.speaks side).typing
      have none := (inOrder.speaks side).atEnd (Or.inr returned)
      simpa [Peer.unsent, returned, none] using typing
    refine ⟨ended side, ?_, all side⟩
    rw [((inOrder.hears side).done (closed side (ended side)).1).2]
    exact all side.other
  · exact fun s action next ⟨inOrder, _⟩ _ taken => work_lt inOrder (.of_step taken)

/-- Both sides connected, with cleared buffers. -/
def connected (typed : Side → Bytes) : State := fun side =>
  .start (typed side) (List.replicate bufSize 0) (List.replicate bufSize 0)

theorem connected_initial (capacity : Nat) (typed : Side → Bytes)
    : (system capacity typed).Initial (connected typed) := fun _ =>
  ⟨_, _, List.length_replicate, List.length_replicate, rfl⟩

/-- `hi` and `!` in two lines, and `bye`. -/
def greetings : Side → Bytes
  | .server => [104, 105, 10, 33, 10]
  | .client => [98, 121, 101, 10]

/-- The greetings pass a connection that holds a single byte at a time. -/
theorem inevitable_delivered_byteByByte
    : (system 1 greetings).Inevitable Allocates
        (fun s =>
          ∀ side,
            (s side).ended = true
            ∧ (s side).received = spoken (greetings side.other)
            ∧ (s side).sent = spoken (greetings side))
        (connected greetings) :=
  inevitable_delivered Nat.one_pos (.initial (connected_initial 1 greetings))

end LinuxStudy.SingleConn
