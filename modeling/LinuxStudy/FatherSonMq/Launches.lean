import LinuxStudy.FatherSonMq.Conservation
import LinuxStudy.Transition.Assured

/-! Launch after launch of `father_son_mq_test.c`. Over all launches together no message is lost
or received twice, whatever is cut off. A run whose predecessors have all come to rest receives
in order, and comes to its end within its timeouts unless it is cut off itself.
-/

namespace LinuxStudy.FatherSonMq

open Transition Posix

section Step

variable {objects : Objects} {run : Run} {next : Objects × Run}

/-- How often a message lies in the queues there are and in those that were destroyed. -/
def queuedCount (message : Bytes) (objects : Objects) : Nat :=
  (objects.contents.map (List.count message)).sum

theorem queuedCount_write {queue : Nat} {before : List Bytes}
    (content : objects.content? queue = some before) (messages : List Bytes) (message : Bytes)
    : queuedCount message (objects.write queue messages) + before.count message
      = queuedCount message objects + messages.count message :=
  sum_map_set content messages (List.count message)

/-- A queue that is opened is empty or has been counted before. -/
theorem queuedCount_openOrCreate (message : Bytes)
    : queuedCount message (objects.openOrCreate mqName []).2 = queuedCount message objects := by
  cases used : objects.names mqName with
  | some queue => rw [NamedObjects.openOrCreate_of_some used]
  | none =>
      obtain ⟨_, contents⟩ := NamedObjects.openOrCreate_of_none used ([] : List Bytes)
      simp [queuedCount, contents]

/-- One step moves a message into a queue or out of one, or moves none. -/
theorem Move.balanced {action : Action} (moves : Move objects run action next) (message : Bytes)
    : next.2.sent.count message + (run.received.count message + queuedCount message objects)
      = run.sent.count message
        + (next.2.received.count message + queuedCount message next.1) := by
  cases moves with
  | mqOpen here => simp only [queuedCount_openOrCreate]
  | @send i queue messages here held content room =>
      have written := queuedCount_write content (messages ++ [greeting run.pid i]) message
      simp only [List.count_append] at written ⊢
      omega
  | @receive i queue first rest here held content =>
      have written := queuedCount_write content rest message
      rw [← List.singleton_append, List.count_append] at written
      simp only [List.count_append]
      omega
  | mqUnlink here => rfl
  | fork here | sendTimesOut here | sleep here | waitpid here _ | mqClose here
    | receiveTimesOut here | childClose here | cutParent | cutChild _ => rfl

/-- Neither process of the run will use the queue any more. -/
def Run.Past (run : Run) : Prop :=
  (run.parentCut = true ∨ run.parent = .exited)
  ∧ (run.childCut = true ∨ run.child = .unborn ∨ run.child = .mqClose ∨ run.child = .exited)

instance (run : Run) : Decidable run.Past := inferInstanceAs (Decidable (_ ∧ _))

/-- A past run changes no queue and no name. -/
theorem Run.Past.stays {action : Action} (past : run.Past)
    (taken : step objects run action = some next)
    : next.2.Past ∧ next.1 = objects := by
  obtain ⟨parentPast, childPast⟩ := past
  cases action <;> obtain ⟨alive, taken⟩ := Option.ite_none_left_eq_some.mp taken
  case mqOpen pid =>
    obtain ⟨here, _⟩ := Option.ite_none_right_eq_some.mp taken
    simp [alive, here] at parentPast
  case send =>
    have left := parentPast.resolve_left alive
    simp [FatherSonMq.send, left] at taken
  case sendTimesOut =>
    have left := parentPast.resolve_left alive
    simp [FatherSonMq.sendTimesOut, left] at taken
  case parent =>
    have left := parentPast.resolve_left alive
    simp [parentProcess, left] at taken
  case receive =>
    rcases childPast.resolve_left alive with here | here | here <;>
      simp [FatherSonMq.receive, here] at taken
  case receiveTimesOut =>
    rcases childPast.resolve_left alive with here | here | here <;>
      simp [FatherSonMq.receiveTimesOut, here] at taken
  case child =>
    rcases childPast.resolve_left alive with here | here | here <;>
      simp only [childProcess, here] at taken
    case inl | inr.inr => contradiction
    case inr.inl =>
      exact Option.some.inj taken ▸ ⟨⟨parentPast, Or.inr (Or.inr (Or.inr rfl))⟩, rfl⟩
  case cutParent => exact Option.some.inj taken ▸ ⟨⟨Or.inl rfl, childPast⟩, rfl⟩
  case cutChild => exact Option.some.inj taken ▸ ⟨⟨parentPast, Or.inl rfl⟩, rfl⟩

theorem turns_fresh : Turns fresh where
  born := by decide
  reaped := by decide
  sends := rfl
  receives := rfl
  sending := by simp [fresh]
  receiving := by simp [fresh]
  greetings := ⟨[], by simp, rfl⟩

/-- The next launch finds the queues as they are. -/
theorem Flows.launched (flows : Flows objects run) : Flows objects FatherSonMq.fresh where
  fits := flows.fits
  named := flows.named
  opened := by simp [FatherSonMq.fresh]
  removed := by simp [FatherSonMq.fresh]
  found := by simp [FatherSonMq.fresh]
  flow held := by simp [FatherSonMq.fresh] at held

theorem flows_start : Flows NamedObjects.empty fresh where
  fits read := by simp [NamedObjects.content?, NamedObjects.empty] at read
  named used := by simp [NamedObjects.empty] at used
  opened := by simp [fresh]
  removed := by simp [fresh]
  found := by simp [fresh]
  flow held := by simp [fresh] at held

end Step

-----------------------------------------------------------------------------------------
-- Queues that are destroyed
-----------------------------------------------------------------------------------------

/-- A queue without a name that a run does not have open. -/
structure Apart (queue : Nat) (objects : Objects) (run : Run) : Prop where
  created : queue < objects.contents.length
  nameless : objects.names mqName ≠ some queue
  closed : run.holds queue = false

section Apart

variable {objects : Objects} {run : Run} {action : Action} {next : Objects × Run} {queue : Nat}

/-- The statements of the parent. -/
def Action.ofParent : Action → Bool
  | .mqOpen _ | .send | .sendTimesOut | .parent => true
  | .receive | .receiveTimesOut | .child | .cutParent | .cutChild => false

/-- The statements of the child. -/
def Action.ofChild : Action → Bool
  | .receive | .receiveTimesOut | .child => true
  | .mqOpen _ | .send | .sendTimesOut | .parent | .cutParent | .cutChild => false

/-- A process that is cut off executes no statement. -/
theorem uncut_of_step (taken : step objects run action = some next)
    : (action.ofParent = true → run.parentCut = false)
      ∧ (action.ofChild = true → run.childCut = false) := by
  cases action <;> obtain ⟨awake, _⟩ := Option.ite_none_left_eq_some.mp taken <;>
    simp_all [Action.ofParent, Action.ofChild]

theorem Run.holds_eq_false
    : run.holds queue = false
      ↔ run.mqdes ≠ some queue ∨ run.parentHolds = false ∧ run.childHolds = false := by
  by_cases own : run.mqdes = some queue <;> simp [Run.holds, own]

/-- A queue that a process has open is not the one that the run does not have open. -/
theorem Apart.ne (apart : Apart queue objects run) {held : Nat} (own : run.mqdes = some held)
    (open_ : run.parentHolds = true ∨ run.childHolds = true)
    : queue ≠ held := by
  rintro rfl
  rcases Run.holds_eq_false.mp apart.closed with other | ⟨parent, child⟩
  · exact other own
  · simp [parent, child] at open_

/-- Where the run does not open or remove anything, its queue stays another one, or its
processes close what they have open.
-/
theorem Apart.of_run (apart : Apart queue objects run) {after : Run}
    (same : after.mqdes = run.mqdes)
    (closes
      : run.parentHolds = true
        ∨ run.childHolds = true
        ∨ after.parentHolds = false ∧ after.childHolds = false)
    : Apart queue objects after := by
  refine ⟨apart.created, apart.nameless, Run.holds_eq_false.mpr ?_⟩
  rw [same]
  rcases Run.holds_eq_false.mp apart.closed with other | ⟨parent, child⟩
  · exact .inl other
  · exact .inr (by simpa [parent, child] using closes)

theorem Apart.write (apart : Apart queue objects run) (held : Nat) (messages : List Bytes)
    : Apart queue (objects.write held messages) run :=
  ⟨by simpa [NamedObjects.write] using apart.created, apart.nameless, apart.closed⟩

/-- A run neither opens a queue without a name nor changes one that it does not have open. -/
theorem Apart.step (apart : Apart queue objects run)
    (taken : FatherSonMq.step objects run action = some next)
    : Apart queue next.1 next.2 ∧ next.1.content? queue = objects.content? queue := by
  obtain ⟨parent, child⟩ := uncut_of_step taken
  cases Move.of_step taken with
  | @mqOpen pid here =>
      have other : queue ≠ (objects.openOrCreate mqName []).1
          ∧ queue < (objects.openOrCreate mqName []).2.contents.length := by
        cases used : objects.names mqName with
        | some named =>
            rw [NamedObjects.openOrCreate_of_some used]
            exact ⟨fun same => apart.nameless (used.trans (congrArg _ same.symm)), apart.created⟩
        | none =>
            obtain ⟨new, contents⟩ := NamedObjects.openOrCreate_of_none used ([] : List Bytes)
            rw [new, contents, List.length_append]
            exact ⟨Nat.ne_of_lt apart.created, Nat.lt_add_right _ apart.created⟩
      have found := List.getElem?_eq_getElem apart.created
      refine ⟨⟨other.2, ?_, Run.holds_eq_false.mpr (.inl ?_)⟩, ?_⟩
      · rw [NamedObjects.names_openOrCreate]
        exact fun same => other.1 (Option.some.inj same).symm
      · exact fun same => other.1 (Option.some.inj same).symm
      · exact (NamedObjects.content_openOrCreate found).trans (Eq.symm found)
  | fork here | sendTimesOut here | sleep here | waitpid here _ | mqClose here =>
      have open_ : run.parentHolds = true := by simp [Run.parentHolds, parent rfl, here]
      exact ⟨apart.of_run rfl (.inl open_), rfl⟩
  | @send i held messages here own content room =>
      have open_ : run.parentHolds = true := by simp [Run.parentHolds, parent rfl, here]
      exact ⟨(apart.write held _).of_run rfl (.inl open_),
        NamedObjects.content_write_of_ne (apart.ne own (.inl open_)) _⟩
  | mqUnlink here =>
      refine ⟨⟨apart.created, by simp [NamedObjects.unlink], ?_⟩, rfl⟩
      have closed := apart.closed
      simpa [Run.holds, Run.parentHolds, here, Run.childHolds] using closed
  | @receive i held message rest here own content =>
      have open_ : run.childHolds = true := by simp [Run.childHolds, child rfl, here]
      exact ⟨(apart.write held _).of_run rfl (.inr (.inl open_)),
        NamedObjects.content_write_of_ne (apart.ne own (.inr open_)) _⟩
  | receiveTimesOut here | childClose here =>
      have open_ : run.childHolds = true := by simp [Run.childHolds, child rfl, here]
      exact ⟨apart.of_run rfl (.inr (.inl open_)), rfl⟩
  | cutParent =>
      refine ⟨apart.of_run rfl ?_, rfl⟩
      cases open_ : run.childHolds with
      | true => exact .inr (.inl rfl)
      | false => exact .inr (.inr ⟨rfl, open_⟩)
  | cutChild _ =>
      refine ⟨apart.of_run rfl ?_, rfl⟩
      cases open_ : run.parentHolds with
      | true => exact .inl rfl
      | false => exact .inr (.inr ⟨open_, rfl⟩)

end Apart

-----------------------------------------------------------------------------------------
-- All launches together
-----------------------------------------------------------------------------------------

/-- How often the queues that meet a condition hold a message. -/
def countIn (message : Bytes) (objects : Objects) (which : Nat → Bool) : Nat :=
  (objects.contents.zipIdx.map fun (messages, queue) =>
    if which queue then messages.count message else 0).sum

/-- How often a message lies in a queue. -/
def heldCount (message : Bytes) (s : Launches Objects Run) : Nat :=
  countIn message s.machine (present s)

/-- How often a message was destroyed together with its queue. -/
def destroyedCount (message : Bytes) (s : Launches Objects Run) : Nat :=
  countIn message s.machine fun queue => !present s queue

/-- Every queue meets a condition or does not. -/
theorem countIn_split (message : Bytes) (objects : Objects) (which : Nat → Bool)
    : queuedCount message objects
      = countIn message objects which + countIn message objects fun queue => !which queue := by
  have split (contents : List (List Bytes)) (first : Nat)
      : (contents.map (List.count message)).sum
        = ((contents.zipIdx first).map fun (messages, queue) =>
            if which queue then messages.count message else 0).sum
          + ((contents.zipIdx first).map fun (messages, queue) =>
            if !which queue then messages.count message else 0).sum := by
    induction contents generalizing first with
    | nil => rfl
    | cons messages rest ih =>
        simp only [List.map_cons, List.sum_cons, List.zipIdx_cons, ih (first + 1)]
        cases which first <;> simp <;> omega
  exact split objects.contents 0

theorem present_eq_false {s : Launches Objects Run} {queue : Nat}
    : present s queue = false
      ↔ s.machine.names mqName ≠ some queue
        ∧ ∀ run ∈ s.current :: s.earlier, run.holds queue = false := by
  simp [present]

/-- A queue that is destroyed stays so, and nobody gets at its messages. -/
theorem Destroyed.step {s next : Launches Objects Run} {action : LaunchAction Action}
    {queue : Nat} (destroyed : Destroyed s queue) (taken : system.step s action = some next)
    : Destroyed next queue
      ∧ next.machine.content? queue = s.machine.content? queue := by
  obtain ⟨created, gone⟩ := destroyed
  obtain ⟨nameless, closed⟩ := present_eq_false.mp gone
  obtain ⟨own, others⟩ := List.forall_mem_cons.mp closed
  cases action with
  | launch =>
      obtain ⟨_, same⟩ := Option.ite_none_right_eq_some.mp taken
      obtain rfl := Option.some.inj same
      refine ⟨⟨created, present_eq_false.mpr ⟨nameless, ?_⟩⟩, rfl⟩
      exact List.forall_mem_cons.mpr ⟨rfl, closed⟩
  | current action =>
      obtain ⟨after, ran, rfl⟩ := Option.map_eq_some_iff.mp taken
      obtain ⟨⟨created, nameless, own⟩, same⟩ := Apart.step ⟨created, nameless, own⟩ ran
      refine ⟨⟨created, present_eq_false.mpr ⟨nameless, ?_⟩⟩, same⟩
      exact List.forall_mem_cons.mpr ⟨own, others⟩
  | earlier i action =>
      obtain ⟨run, found, taken⟩ := Option.bind_eq_some_iff.mp taken
      obtain ⟨after, ran, rfl⟩ := Option.map_eq_some_iff.mp taken
      have its := others run (List.mem_of_getElem? found)
      obtain ⟨⟨created, nameless, its⟩, same⟩ := Apart.step ⟨created, nameless, its⟩ ran
      refine ⟨⟨created, present_eq_false.mpr ⟨nameless, ?_⟩⟩, same⟩
      refine List.forall_mem_cons.mpr ⟨own, fun other member => ?_⟩
      rcases List.mem_or_eq_of_mem_set member with old | replaced
      · exact others other old
      · exact replaced ▸ its

/-- Every message was received by some child as often as it was sent, less what is still in a
queue and what was destroyed with its queue; and a queue that is destroyed stays so, with the
messages in it. This holds with any processes cut off and any left over from earlier launches.
-/
theorem sent_count_eq {s : Launches Objects Run} (reached : system.Reachable s)
    (message : Bytes)
    : s.total (fun run => run.sent.count message)
        = s.total (fun run => run.received.count message)
          + (heldCount message s + destroyedCount message s)
      ∧ ∀ after,
          system.Leads s after
          → ∀ queue,
              Destroyed s queue
              → Destroyed after queue
                ∧ after.machine.content? queue = s.machine.content? queue := by
  refine ⟨?_, fun after run queue destroyed => ?_⟩
  · have balanced
        : s.total (fun run => run.sent.count message)
          = s.total (fun run => run.received.count message) + queuedCount message s.machine := by
      refine Program.balanced _ _ (queuedCount message) rfl ⟨rfl, rfl⟩ ?_ reached
      intro machine run action next taken
      exact (Move.of_step taken).balanced message
    rw [balanced, countIn_split message s.machine (present s)]
    rfl
  · let stays (after : Launches Objects Run) : Prop :=
      Destroyed after queue ∧ after.machine.content? queue = s.machine.content? queue
    suffices kept : stays after from kept
    refine run.kept ?_ ⟨destroyed, rfl⟩
    intro before action next ⟨destroyed, same⟩ taken
    obtain ⟨still, kept⟩ := destroyed.step taken
    exact ⟨still, kept.trans same⟩

/-- The first run is cut off with one greeting in the queue, which the child of the second run
receives.
-/
def leftOver : List (LaunchAction Action) :=
  [.current (.mqOpen 7), .current .parent, .current .send, .current .cutParent,
    .current .cutChild, .launch, .current (.mqOpen 8), .current .parent, .current .receive,
    .current .send]

/-- The machine before the first launch. -/
def start : Launches Objects Run := ⟨NamedObjects.empty, fresh, []⟩

/-- The child is killed in its second round, and the parent goes on to its end. -/
def childKilled : List (LaunchAction Action) :=
  [.current (.mqOpen 7), .current .parent, .current .send, .current .receive,
    .current .cutChild, .current .parent]
  ++ (List.replicate 9 [.current .send, .current .parent]).flatten
  ++ [.current .parent, .current .parent, .current .parent]

theorem sent_count_eq_leftOver
    : ∃ s : Launches Objects Run,
        s.current.pid = 8
        ∧ s.current.received = [greeting 7 0]
        ∧ s.total (fun run => run.sent.count (greeting 7 0))
          = s.total (fun run => run.received.count (greeting 7 0))
            + (heldCount (greeting 7 0) s + destroyedCount (greeting 7 0) s) :=
  ⟨_, rfl, rfl, (sent_count_eq (System.reachable_of_run start rfl leftOver rfl) (greeting 7 0)).1⟩

/-- Nine greetings are destroyed with the queue of a parent whose child was killed. -/
example
    : ∃ s : Launches Objects Run,
        system.Reachable s
        ∧ s.current.parent = .exited
        ∧ Destroyed s 0
        ∧ (s.machine.content? 0).map List.length = some 9 :=
  ⟨_, System.reachable_of_run start rfl childKilled rfl, rfl, ⟨by decide, rfl⟩, rfl⟩

-----------------------------------------------------------------------------------------
-- A launch behind runs that have come to rest
-----------------------------------------------------------------------------------------

/-- Every run before has come to rest when the next one is launched. -/
abbrev Rested : Launches Objects Run → LaunchAction Action → Prop :=
  Program.HandsOn fun _ run => run.Past

theorem inherits : program.Inherits (fun objects run => Flows objects run ∧ Turns run) Run.Past
    (fun _ run => run.Past) where
  kept held taken := by
    have moves := Move.of_step taken
    exact ⟨held.1.move held.2 moves, held.2.move moves⟩
  stays past taken := (past.stays taken).1
  harmless past taken held := by
    rw [(past.stays taken).2]
    exact held
  launched held past := ⟨past, held.1.launched, turns_fresh⟩

/-- What the run launched last has received is the beginning of what it found and has sent, and
the rest is in its queue. It sends greetings of its own, in the order of the rounds.
-/
structure Conserves (objects : Objects) (run : Run) : Prop where
  flow
    : ∀ queue,
        run.mqdes = some queue
        → ∃ messages,
            objects.content? queue = some messages
            ∧ messages.length ≤ maxMsg
            ∧ run.received ++ messages = run.found ++ run.sent
  sends : Greetings run.pid rounds run.sent
  found : ∀ message ∈ run.found, IsGreeting message
  sentOnce : run.sent.length + run.sendTimeouts ≤ rounds
  receivedOnce : run.received.length + run.receiveTimeouts ≤ rounds

theorem ParentPc.passed_le {run : Run} (turns : Turns run) : run.parent.passed ≤ rounds := by
  have sending := turns.sending
  cases here : run.parent with
  | send i => exact (sending i (Or.inl here)).le
  | sleep i => exact sending i (Or.inr here)
  | mqOpen | fork => exact Nat.zero_le _
  | waitpid | mqClose | mqUnlink | exited => exact Nat.le_refl _

theorem ChildPc.passed_le {run : Run} (turns : Turns run) : run.child.passed ≤ rounds := by
  cases here : run.child with
  | receive i => exact (turns.receiving i here).le
  | unborn => exact Nat.zero_le _
  | mqClose | exited => exact Nat.le_refl _

theorem conserves {s : Launches Objects Run} (reached : system.ReachableBy Rested s)
    : Conserves s.machine s.current := by
  obtain ⟨⟨flows, turns⟩, _⟩ := inherits.invariant ⟨flows_start, turns_fresh⟩ reached
  have parentPassed := ParentPc.passed_le turns
  have childPassed := ChildPc.passed_le turns
  obtain ⟨sent, inside, same⟩ := turns.greetings
  refine ⟨fun queue held => ?_, ⟨sent, ?_, same⟩, flows.found, ?_, ?_⟩
  · obtain ⟨messages, content, flow⟩ := flows.flow held
    exact ⟨messages, content, (flows.fits content).1, flow⟩
  · exact inside.trans (List.range_sublist.mpr parentPassed)
  · exact turns.sends.trans_le parentPassed
  · exact turns.receives.trans_le childPassed

theorem conserves_leftOver
    : ∃ s : Launches Objects Run,
        s.current.found = [greeting 7 0]
        ∧ s.current.received = [greeting 7 0]
        ∧ Conserves s.machine s.current :=
  ⟨_, rfl, rfl, conserves (System.reachable_restrict_iff.mp
    (System.reachable_of_run start rfl leftOver rfl))⟩

-----------------------------------------------------------------------------------------
-- Its way to the end
-----------------------------------------------------------------------------------------

/-- The action is a statement of a process, not a cut. -/
def Action.Uncut (action : Action) : Prop := action ≠ .cutParent ∧ action ≠ .cutChild

instance (action : Action) : Decidable action.Uncut := inferInstanceAs (Decidable (_ ∧ _))

/-- A statement of the run launched last. -/
def OwnStep (action : LaunchAction Action) : Prop :=
  ∃ own : Action, action = .current own ∧ own.Uncut

/-- The steps the parent has still to take. -/
def ParentPc.left : ParentPc → Nat
  | .mqOpen => 2 * rounds + 5
  | .fork => 2 * rounds + 4
  | .send i => 2 * (rounds - i) + 3
  | .sleep i => 2 * (rounds - i) + 2
  | .waitpid => 3
  | .mqClose => 2
  | .mqUnlink => 1
  | .exited => 0

/-- The steps the child has still to take. -/
def ChildPc.left : ChildPc → Nat
  | .unborn => rounds + 2
  | .receive i => rounds - i + 1
  | .mqClose => 1
  | .exited => 0

/-- The run is over: both processes have come to their ends, the name of the queue is removed,
and each round of either loop has passed a message or given up. If nothing was found and nothing
gave up, the child has received all greetings in order.
-/
structure Over (objects : Objects) (run : Run) : Prop where
  exited : run.parent = .exited ∧ run.child = .exited
  removed : objects.names mqName = none
  sends : run.sent.length + run.sendTimeouts = rounds
  receives : run.received.length + run.receiveTimeouts = rounds
  flow : ∃ messages, run.received ++ messages = run.found ++ run.sent
  complete
    : run.found = []
      → run.sendTimeouts = 0
      → run.receiveTimeouts = 0
      → run.received = (List.range rounds).map (greeting run.pid)

/-- Nobody has cut off the run. -/
def Run.Whole (run : Run) : Prop := run.parentCut = false ∧ run.childCut = false

theorem ParentPc.left_behind {i : Nat} (inside : i < rounds)
    : (ParentPc.behind i).left < (ParentPc.sleep i).left := by
  rcases ParentPc.behind_cases i with ⟨_, there⟩ | there
  · simp only [there, ParentPc.left]
    omega
  · simp only [there, ParentPc.left]
    omega

theorem ChildPc.left_behind {i : Nat} (inside : i < rounds)
    : (ChildPc.behind i).left < (ChildPc.receive i).left := by
  rcases ChildPc.behind_cases i with ⟨_, there⟩ | there
  · simp only [there, ChildPc.left]
    omega
  · simp only [there, ChildPc.left]
    omega

theorem Move.lowers {objects : Objects} {run : Run} {action : Action} {next : Objects × Run}
    (turns : Turns run) (moves : Move objects run action next)
    (uncut : action.Uncut)
    : next.2.parent.left + next.2.child.left < run.parent.left + run.child.left := by
  cases moves with
  | @sleep i here =>
      have lower := ParentPc.left_behind (turns.sending i (Or.inr here))
      simpa [here] using lower
  | @receive i _ _ _ here _ _ | @receiveTimesOut i here =>
      have lower := ChildPc.left_behind (turns.receiving i here)
      simpa [here] using lower
  | @send i _ _ here _ _ _ | @sendTimesOut i here =>
      simp only [here, ParentPc.left]
      omega
  | fork here =>
      have unborn := turns.born.mpr (Or.inr here)
      simp only [here, unborn, ParentPc.left, ChildPc.left]
      omega
  | mqOpen here | waitpid here _ | mqClose here | mqUnlink here =>
      simp [here, ParentPc.left]
  | childClose here => simp [here, ChildPc.left]
  | cutParent => exact absurd rfl uncut.1
  | cutChild _ => exact absurd rfl uncut.2

/-- As long as its parent has not exited, a whole run can take a step of its own: each call on
the queue succeeds or gives up.
-/
theorem step_isSome {objects : Objects} {run : Run} (flows : Flows objects run)
    (turns : Turns run) (whole : run.Whole) (unfinished : run.parent ≠ .exited)
    : ∃ action : Action, action.Uncut ∧ (step objects run action).isSome := by
  obtain ⟨parentWhole, childWhole⟩ := whole
  have read (away : run.parent ≠ .mqOpen)
      : ∃ queue messages, run.queue? objects = some (queue, messages) := by
    obtain ⟨queue, held⟩ := Option.ne_none_iff_exists'.mp (flows.opened.not.mpr away)
    obtain ⟨messages, content, _⟩ := flows.flow held
    exact ⟨queue, messages, by simp [Run.queue?, held, content]⟩
  cases here : run.parent with
  | exited => exact absurd here unfinished
  | mqOpen => exact ⟨.mqOpen 0, by decide, by simp [step, parentWhole, mqOpen, here]⟩
  | fork | sleep i | mqClose | mqUnlink =>
      exact ⟨.parent, by decide, by simp [step, parentWhole, parentProcess, here]⟩
  | send i =>
      obtain ⟨queue, messages, found⟩ := read (by simp [here])
      by_cases room : messages.length < maxMsg
      · exact ⟨.send, by decide, by simp [step, parentWhole, send, here, found, room]⟩
      · have full := Nat.not_lt.mp room
        exact ⟨.sendTimesOut, by decide,
          by simp [step, parentWhole, sendTimesOut, here, found, full]⟩
  | waitpid =>
      -- The child that the parent waits for is still in its loop or behind it.
      have born := turns.born
      cases there : run.child with
      | unborn => simp [here, there] at born
      | exited =>
          exact ⟨.parent, by decide,
            by simp [step, parentWhole, parentProcess, here, Run.childGone, there]⟩
      | mqClose => exact ⟨.child, by decide, by simp [step, childWhole, childProcess, there]⟩
      | receive i =>
          obtain ⟨queue, messages, found⟩ := read (by simp [here])
          cases messages with
          | nil =>
              exact ⟨.receiveTimesOut, by decide,
                by simp [step, childWhole, receiveTimesOut, there, found]⟩
          | cons message rest =>
              exact ⟨.receive, by decide, by simp [step, childWhole, receive, there, found]⟩

/-- Only a cut cuts off. -/
theorem Move.whole {objects : Objects} {run : Run} {action : Action} {next : Objects × Run}
    (moves : Move objects run action next) (uncut : action.Uncut)
    (whole : run.Whole)
    : next.2.Whole := by
  cases moves with
  | cutParent => exact absurd rfl uncut.1
  | cutChild _ => exact absurd rfl uncut.2
  | mqOpen _ | fork _ | send _ _ _ _ | sendTimesOut _ | sleep _ | waitpid _ _ | mqClose _
    | mqUnlink _ | receive _ _ _ | receiveTimesOut _ | childClose _ => exact whole

/-- If all rounds have sent, the greetings of all rounds were sent. -/
theorem Greetings.eq_of_length {pid limit : Nat} {texts : List Bytes}
    (greetings : Greetings pid limit texts) (all : texts.length = limit)
    : texts = (List.range limit).map (greeting pid) := by
  obtain ⟨sent, inside, rfl⟩ := greetings
  rw [List.length_map] at all
  rw [inside.eq_of_length (by simpa using all)]

/-- A whole run whose parent has exited is over. -/
theorem over_of_exited {objects : Objects} {run : Run} (flows : Flows objects run)
    (turns : Turns run) (whole : run.Whole) (exited : run.parent = .exited)
    : Over objects run := by
  have gone := turns.reaped (by simp [exited, ParentPc.hasReaped])
  have childExited : run.child = .exited := by
    simpa [Run.childGone, whole.2] using gone
  have sends := turns.sends
  have receives := turns.receives
  rw [exited] at sends
  rw [childExited] at receives
  obtain ⟨queue, held⟩ := Option.ne_none_iff_exists'.mp (flows.opened.not.mpr (by simp [exited]))
  obtain ⟨messages, _, flow⟩ := flows.flow held
  refine ⟨⟨exited, childExited⟩, flows.removed exited, sends, receives, ⟨messages, flow⟩,
    fun nothing noSendGaveUp noReceiveGaveUp => ?_⟩
  have greetings := turns.greetings
  simp only [exited, noSendGaveUp, noReceiveGaveUp, nothing, ParentPc.passed, ChildPc.passed,
    List.nil_append, Nat.add_zero] at sends receives flow greetings
  -- As many messages have arrived as were sent, so none is left behind them.
  have front : run.received <+: run.sent := ⟨messages, flow⟩
  rw [front.eq_of_length (receives.trans sends.symm)]
  exact greetings.eq_of_length sends

/-- Behind runs that have come to rest, a run that nobody cuts off ends, whichever of its own
steps come next: full and empty queues delay it and cannot stop it.
-/
theorem inevitable_over {s : Launches Objects Run} (reached : system.ReachableBy Rested s)
    (whole : s.current.Whole)
    : system.Inevitable (fun _ => OwnStep) (fun final => Over final.machine final.current) s := by
  obtain ⟨⟨flows, turns⟩, _⟩ := inherits.invariant ⟨flows_start, turns_fresh⟩ reached
  refine System.Inevitable.of_measure
    (fun s => Flows s.machine s.current ∧ Turns s.current ∧ s.current.Whole)
    (fun s => s.current.parent.left + s.current.child.left) ?_ ?_ ?_ ⟨flows, turns, whole⟩
  · rintro s _ next ⟨flows, turns, whole⟩ ⟨action, rfl, uncut⟩ taken
    obtain ⟨after, ran, rfl⟩ := Option.map_eq_some_iff.mp taken
    have moves := Move.of_step ran
    exact ⟨flows.move turns moves, turns.move moves, moves.whole uncut whole⟩
  · rintro s ⟨flows, turns, whole⟩
    by_cases exited : s.current.parent = .exited
    · exact Or.inl (over_of_exited flows turns whole exited)
    · obtain ⟨action, uncut, possible⟩ := step_isSome flows turns whole exited
      obtain ⟨after, taken⟩ := Option.isSome_iff_exists.mp possible
      exact Or.inr ⟨.current action, { s with machine := after.1, current := after.2 },
        ⟨action, rfl, uncut⟩, Option.map_eq_some_iff.mpr ⟨after, taken, rfl⟩⟩
  · rintro s _ next ⟨_, turns, _⟩ ⟨action, rfl, uncut⟩ taken
    obtain ⟨after, ran, rfl⟩ := Option.map_eq_some_iff.mp taken
    exact (Move.of_step ran).lowers turns uncut

theorem inevitable_over_leftOver
    : ∃ s : Launches Objects Run,
        s.current.found = [greeting 7 0]
        ∧ system.Inevitable (fun _ => OwnStep) (fun final => Over final.machine final.current) s :=
  ⟨_, rfl, inevitable_over (System.reachable_restrict_iff.mp
    (System.reachable_of_run start rfl leftOver rfl)) ⟨rfl, rfl⟩⟩

end LinuxStudy.FatherSonMq
