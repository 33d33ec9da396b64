import LinuxStudy.FatherSonMq.Model
import LinuxStudy.Transition.Progress

/-! What the child of `father_son_mq_test.c` receives, launch after launch: what a cut run has
left in the queue first, then what its own parent sends, each message once and in order. Every
run that nobody cuts off ends, because each call gives up in time.
-/

namespace LinuxStudy.FatherSonMq

open Transition Posix

variable {objects : Objects} {run : Run} {next : Objects × Run}

/-- One step of a run, by the statement or the cut that it is. -/
inductive Move (objects : Objects) (run : Run) : Action → Objects × Run → Prop
  | mqOpen {pid} (here : run.parent = .mqOpen)
    : Move objects run (.mqOpen pid)
        ((objects.openOrCreate mqName []).2, { run with
          pid
          mqdes := some (objects.openOrCreate mqName []).1
          found :=
            ((objects.openOrCreate mqName []).2.content? (objects.openOrCreate mqName []).1).getD []
          parent := .fork })
  | fork (here : run.parent = .fork)
    : Move objects run .parent (objects, { run with parent := .send 0, child := .receive 0 })
  | send {i queue messages} (here : run.parent = .send i) (held : run.mqdes = some queue)
    (content : objects.content? queue = some messages) (room : messages.length < maxMsg)
    : Move objects run .send
        (objects.write queue (messages ++ [greeting run.pid i]), { run with
          sent := run.sent ++ [greeting run.pid i]
          parent := .sleep i })
  | sendTimesOut {i} (here : run.parent = .send i)
    : Move objects run .sendTimesOut
        (objects, { run with sendTimeouts := run.sendTimeouts + 1, parent := .sleep i })
  | sleep {i} (here : run.parent = .sleep i)
    : Move objects run .parent (objects, { run with parent := .behind i })
  | waitpid (here : run.parent = .waitpid) (gone : run.childGone = true)
    : Move objects run .parent (objects, { run with parent := .mqClose })
  | mqClose (here : run.parent = .mqClose)
    : Move objects run .parent (objects, { run with parent := .mqUnlink })
  | mqUnlink (here : run.parent = .mqUnlink)
    : Move objects run .parent (objects.unlink mqName, { run with parent := .exited })
  | receive {i queue message rest} (here : run.child = .receive i)
    (held : run.mqdes = some queue) (content : objects.content? queue = some (message :: rest))
    : Move objects run .receive
        (objects.write queue rest, { run with
          received := run.received ++ [message]
          child := .behind i })
  | receiveTimesOut {i} (here : run.child = .receive i)
    : Move objects run .receiveTimesOut
        (objects, { run with
          receiveTimeouts := run.receiveTimeouts + 1
          child := .behind i })
  | childClose (here : run.child = .mqClose)
    : Move objects run .child (objects, { run with child := .exited })
  | cutParent : Move objects run .cutParent (objects, { run with parentCut := true })
  | cutChild (born : run.child ≠ .unborn)
    : Move objects run .cutChild (objects, { run with childCut := true })

theorem Run.queue?_eq_some {queue : Nat} {messages : List Bytes}
    (found : run.queue? objects = some (queue, messages))
    : run.mqdes = some queue ∧ objects.content? queue = some messages := by
  obtain ⟨held, there, found⟩ := Option.bind_eq_some_iff.mp found
  obtain ⟨content, read, same⟩ := Option.map_eq_some_iff.mp found
  obtain ⟨rfl, rfl⟩ := Prod.mk.inj same
  exact ⟨there, read⟩

theorem Move.of_step {action : Action} (taken : step objects run action = some next)
    : Move objects run action next := by
  cases action <;> obtain ⟨_, taken⟩ := Option.ite_none_left_eq_some.mp taken
  case mqOpen pid =>
    obtain ⟨here, same⟩ := Option.ite_none_right_eq_some.mp taken
    exact Option.some.inj same ▸ .mqOpen here
  case send =>
    simp only [FatherSonMq.send] at taken
    split at taken
    next i queue messages here found =>
      obtain ⟨held, content⟩ := Run.queue?_eq_some found
      obtain ⟨room, same⟩ := Option.ite_none_right_eq_some.mp taken
      exact Option.some.inj same ▸ .send here held content room
    next => contradiction
  case sendTimesOut =>
    simp only [FatherSonMq.sendTimesOut] at taken
    split at taken
    next i queue messages here found =>
      obtain ⟨_, same⟩ := Option.ite_none_right_eq_some.mp taken
      exact Option.some.inj same ▸ .sendTimesOut here
    next => contradiction
  case parent =>
    cases here : run.parent <;> simp only [parentProcess, here] at taken
    case mqOpen | send | exited => contradiction
    case fork => exact Option.some.inj taken ▸ .fork here
    case sleep i => exact Option.some.inj taken ▸ .sleep here
    case waitpid =>
      obtain ⟨gone, same⟩ := Option.ite_none_right_eq_some.mp taken
      exact Option.some.inj same ▸ .waitpid here gone
    case mqClose => exact Option.some.inj taken ▸ .mqClose here
    case mqUnlink => exact Option.some.inj taken ▸ .mqUnlink here
  case receive =>
    simp only [FatherSonMq.receive] at taken
    split at taken
    next i queue message rest here found =>
      obtain ⟨held, content⟩ := Run.queue?_eq_some found
      exact Option.some.inj taken ▸ .receive here held content
    next => contradiction
  case receiveTimesOut =>
    simp only [FatherSonMq.receiveTimesOut] at taken
    split at taken
    next i queue here found => exact Option.some.inj taken ▸ .receiveTimesOut here
    next => contradiction
  case child =>
    cases here : run.child <;> simp only [childProcess, here] at taken
    case unborn | receive | exited => contradiction
    case mqClose => exact Option.some.inj taken ▸ .childClose here
  case cutParent => exact Option.some.inj taken ▸ .cutParent
  case cutChild alive =>
    exact Option.some.inj taken ▸ .cutChild fun unborn => alive (by simp [unborn])

-----------------------------------------------------------------------------------------
-- No message is lost, repeated or reordered
-----------------------------------------------------------------------------------------

/-- The rounds that the parent has passed. -/
def ParentPc.passed : ParentPc → Nat
  | .mqOpen | .fork => 0
  | .send i => i
  | .sleep i => i + 1
  | .waitpid | .mqClose | .mqUnlink | .exited => rounds

/-- The rounds that the child has passed. -/
def ChildPc.passed : ChildPc → Nat
  | .unborn => 0
  | .receive i => i
  | .mqClose | .exited => rounds

/-- The parent is behind its `waitpid`. -/
def ParentPc.hasReaped : ParentPc → Bool
  | .mqClose | .mqUnlink | .exited => true
  | .mqOpen | .fork | .send _ | .sleep _ | .waitpid => false

/-- The greetings of some rounds, in the order of the rounds. -/
def Greetings (pid limit : Nat) (texts : List Bytes) : Prop :=
  ∃ sent : List Nat, sent.Sublist (List.range limit) ∧ texts = sent.map (greeting pid)

/-- Every round of a loop has passed a message or given up, and the child is born by `fork` and
gone behind `waitpid`.
-/
structure Turns (run : Run) : Prop where
  born : run.child = .unborn ↔ run.parent = .mqOpen ∨ run.parent = .fork
  reaped : run.parent.hasReaped = true → run.childGone = true
  sends : run.sent.length + run.sendTimeouts = run.parent.passed
  receives : run.received.length + run.receiveTimeouts = run.child.passed
  sending : ∀ i, run.parent = .send i ∨ run.parent = .sleep i → i < rounds
  receiving : ∀ i, run.child = .receive i → i < rounds
  greetings : Greetings run.pid run.parent.passed run.sent

/-- Where a loop goes on, it has passed one round more. -/
theorem ParentPc.passed_behind {i : Nat} (inside : i < rounds)
    : (ParentPc.behind i).passed = i + 1 := by
  unfold ParentPc.behind
  split
  next => rfl
  next last =>
    simp only [ParentPc.passed]
    omega

theorem ChildPc.passed_behind {i : Nat} (inside : i < rounds)
    : (ChildPc.behind i).passed = i + 1 := by
  unfold ChildPc.behind
  split
  next => rfl
  next last =>
    simp only [ChildPc.passed]
    omega

/-- A loop goes on with a round of its own or behind it. -/
theorem ParentPc.behind_cases (i : Nat)
    : (i + 1 < rounds ∧ ParentPc.behind i = .send (i + 1)) ∨ ParentPc.behind i = .waitpid := by
  unfold ParentPc.behind
  split
  next more => exact Or.inl ⟨more, rfl⟩
  next => exact Or.inr rfl

theorem ChildPc.behind_cases (i : Nat)
    : (i + 1 < rounds ∧ ChildPc.behind i = .receive (i + 1)) ∨ ChildPc.behind i = .mqClose := by
  unfold ChildPc.behind
  split
  next more => exact Or.inl ⟨more, rfl⟩
  next => exact Or.inr rfl

/-- A step of the child to another point of its loop, or out of it. -/
theorem Turns.childBehind (turns : Turns run) {i : Nat} (here : run.child = .receive i)
    {received : List Bytes} {timeouts : Nat}
    (counted : received.length + timeouts = run.received.length + run.receiveTimeouts + 1)
    : Turns { run with
        received, receiveTimeouts := timeouts, child := .behind i } := by
  obtain ⟨born, reaped, sends, receives, sending, receiving, greetings⟩ := turns
  have inside := receiving i here
  refine ⟨?_, fun behind => ?_, sends, ?_, sending, fun j there => ?_, greetings⟩
  · rw [here] at born
    rcases ChildPc.behind_cases i with ⟨_, there⟩ | there <;> simpa [there] using born
  · have cut : run.childCut = true := by simpa [Run.childGone, here] using reaped behind
    simp [Run.childGone, cut]
  · rw [here] at receives
    simp only [ChildPc.passed_behind inside]
    simp only [ChildPc.passed] at receives
    omega
  · rcases ChildPc.behind_cases i with ⟨more, next⟩ | next
    · obtain rfl : i + 1 = j := by simpa [next] using there
      exact more
    · simp [next] at there

theorem Turns.move {action : Action} (turns : Turns run) (moves : Move objects run action next)
    : Turns next.2 := by
  obtain ⟨born, reaped, sends, receives, sending, receiving, greetings⟩ := id turns
  cases moves with
  | mqOpen here =>
      rw [here] at born sends
      have nothing : run.sent = [] := by
        simp only [ParentPc.passed, Nat.add_eq_zero_iff, List.length_eq_zero_iff] at sends
        exact sends.1
      exact ⟨by simpa using born, by simp [ParentPc.hasReaped], sends, receives, by simp, receiving,
        [], by simp, by simp [nothing]⟩
  | fork here =>
      rw [here] at sends greetings
      have unborn := born.mpr (Or.inr here)
      rw [unborn] at receives
      refine ⟨by simp, by simp [ParentPc.hasReaped], sends, receives, ?_, ?_, greetings⟩
      · intro i there
        obtain rfl : 0 = i := by simpa using there
        decide
      · intro i there
        obtain rfl : 0 = i := by simpa using there
        decide
  | @send i _ _ here _ _ _ =>
      rw [here] at born sends greetings
      obtain ⟨sent, inside, same⟩ := greetings
      refine ⟨by simpa using born, by simp [ParentPc.hasReaped], ?_, receives, ?_, receiving,
        sent ++ [i], ?_, by simp [same]⟩
      · simp only [ParentPc.passed, List.length_append, List.length_singleton] at sends ⊢
        omega
      · intro j there
        obtain rfl : i = j := by simpa using there
        exact sending i (Or.inl here)
      · simpa only [ParentPc.passed, List.range_succ] using inside.append_right [i]
  | @sendTimesOut i here =>
      rw [here] at born sends greetings
      obtain ⟨sent, inside, same⟩ := greetings
      refine ⟨by simpa using born, by simp [ParentPc.hasReaped], ?_, receives, ?_, receiving,
        sent, ?_, same⟩
      · simp only [ParentPc.passed] at sends ⊢
        omega
      · intro j there
        obtain rfl : i = j := by simpa using there
        exact sending i (Or.inl here)
      · simp only [ParentPc.passed, List.range_succ]
        exact inside.trans (List.sublist_append_left _ _)
  | @sleep i here =>
      have passed := ParentPc.passed_behind (sending i (Or.inr here))
      rw [here] at born sends greetings
      refine ⟨?_, ?_, passed.symm ▸ sends, receives, ?_, receiving, passed.symm ▸ greetings⟩
      · rcases ParentPc.behind_cases i with ⟨_, there⟩ | there <;> simpa [there] using born
      · rcases ParentPc.behind_cases i with ⟨_, there⟩ | there <;>
          simp [there, ParentPc.hasReaped]
      · intro j there
        rcases ParentPc.behind_cases i with ⟨more, next⟩ | next
        · obtain rfl : i + 1 = j := by simpa [next] using there
          exact more
        · simp [next] at there
  | waitpid here gone =>
      rw [here] at born sends greetings
      exact ⟨by simpa using born, fun _ => gone, sends, receives, by simp, receiving, greetings⟩
  | mqClose here | mqUnlink here =>
      rw [here] at born sends greetings reaped
      exact ⟨by simpa using born, fun _ => reaped rfl, sends, receives, by simp, receiving,
        greetings⟩
  | receive here _ _ =>
      exact turns.childBehind here (by rw [List.length_append, List.length_singleton]; omega)
  | receiveTimesOut here => exact turns.childBehind here (by omega)
  | childClose here =>
      rw [here] at born receives
      exact ⟨by simpa using born, fun _ => by simp [Run.childGone], sends, receives, sending,
        by simp, greetings⟩
  | cutParent => exact ⟨born, reaped, sends, receives, sending, receiving, greetings⟩
  | cutChild _ =>
      exact ⟨born, fun _ => by simp [Run.childGone], sends, receives, sending, receiving,
        greetings⟩

/-- The message is a greeting of some run. -/
def IsGreeting (message : Bytes) : Prop := ∃ pid i, i < rounds ∧ message = greeting pid i

/-- What a queue of this program can hold. -/
def Fits (messages : List Bytes) : Prop :=
  messages.length ≤ maxMsg ∧ ∀ message ∈ messages, IsGreeting message

/-- The received messages and those in the queue are the ones found and the ones sent. -/
structure Flows (objects : Objects) (run : Run) : Prop where
  fits : ∀ {queue messages}, objects.content? queue = some messages → Fits messages
  named : ∀ {queue}, objects.names mqName = some queue → objects.content? queue ≠ none
  opened : run.mqdes = none ↔ run.parent = .mqOpen
  removed : run.parent = .exited → objects.names mqName = none
  found : ∀ message ∈ run.found, IsGreeting message
  flow
    : ∀ {queue},
        run.mqdes = some queue
        → ∃ messages,
            objects.content? queue = some messages
            ∧ run.received ++ messages = run.found ++ run.sent

/-- Writing the queue of the run. -/
theorem Flows.write (flows : Flows objects run) {queue : Nat} {before messages : List Bytes}
    (held : run.mqdes = some queue) (content : objects.content? queue = some before)
    (fits : Fits messages) {after : Run} (same : after.mqdes = run.mqdes)
    (away : after.parent ≠ .mqOpen)
    (removed : after.parent = .exited → objects.names mqName = none)
    (found : after.found = run.found)
    (flow : after.received ++ messages = after.found ++ after.sent)
    : Flows (objects.write queue messages) after := by
  have there := same.trans held
  have written := NamedObjects.content_write content messages
  refine ⟨fun {other texts} read => ?_, fun {other} used => ?_, ?_, removed,
    found.symm ▸ flows.found, fun {other} open_ => ?_⟩
  · by_cases own : other = queue
    · subst own
      obtain rfl := Option.some.inj (written.symm.trans read)
      exact fits
    · rw [NamedObjects.content_write_of_ne own] at read
      exact flows.fits read
  · by_cases own : other = queue
    · rw [own, written]
      exact Option.some_ne_none _
    · rw [NamedObjects.content_write_of_ne own]
      exact flows.named used
  · simp [there, away]
  · obtain rfl := Option.some.inj (there.symm.trans open_)
    exact ⟨messages, written, flow⟩

/-- Opening finds a queue within its capacity. -/
theorem Flows.opens (flows : Flows objects run)
    : ∃ messages,
        (objects.openOrCreate mqName []).2.content? (objects.openOrCreate mqName []).1
          = some messages
        ∧ ∀ {queue texts},
            (objects.openOrCreate mqName []).2.content? queue = some texts
            → Fits texts := by
  cases used : objects.names mqName with
  | some queue =>
      obtain ⟨messages, content⟩ := Option.ne_none_iff_exists'.mp (flows.named used)
      rw [NamedObjects.openOrCreate_of_some used]
      exact ⟨messages, content, flows.fits⟩
  | none =>
      obtain ⟨queue, contents⟩ := NamedObjects.openOrCreate_of_none used ([] : List Bytes)
      refine ⟨[], by simp [NamedObjects.content?, queue, contents], fun {other texts} read => ?_⟩
      rw [NamedObjects.content?, contents] at read
      rcases List.mem_append.mp (List.mem_of_getElem? read) with old | new
      · obtain ⟨place, found⟩ := List.mem_iff_getElem?.mp old
        exact flows.fits found
      · simp [List.mem_singleton.mp new, Fits]

theorem Flows.move {action : Action} (flows : Flows objects run) (turns : Turns run)
    (moves : Move objects run action next)
    : Flows next.1 next.2 := by
  obtain ⟨fits, named, opened, removed, found, flow⟩ := id flows
  cases moves with
  | mqOpen here =>
      -- The child that could have received and the loop that could have sent are still to come.
      obtain ⟨messages, content, fits⟩ := flows.opens
      have unborn := turns.born.mpr (Or.inl here)
      have nothingSent := turns.sends
      have nothingReceived := turns.receives
      simp only [here, ParentPc.passed, Nat.add_eq_zero_iff, List.length_eq_zero_iff]
        at nothingSent
      simp only [unborn, ChildPc.passed, Nat.add_eq_zero_iff, List.length_eq_zero_iff]
        at nothingReceived
      refine ⟨fits, fun {queue} used => ?_, by simp, by simp, ?_, fun {queue} held => ?_⟩
      · obtain rfl := Option.some.inj (NamedObjects.names_openOrCreate.symm.trans used)
        rw [content]
        exact Option.some_ne_none _
      · simpa only [content, Option.getD_some] using (fits content).2
      · obtain rfl := Option.some.inj held
        exact ⟨messages, content, by simp [nothingSent.1, nothingReceived.1, content]⟩
  | send here held content room =>
      obtain ⟨messages, read, flow⟩ := flow held
      obtain rfl := Option.some.inj (read.symm.trans content)
      have inside := turns.sending _ (Or.inl here)
      refine flows.write held content ⟨?_, ?_⟩ rfl (by simp) (by simp) rfl ?_
      · rw [List.length_append, List.length_singleton]
        exact room
      · intro message member
        rcases List.mem_append.mp member with old | new
        · exact (fits content).2 message old
        · exact ⟨_, _, inside, List.mem_singleton.mp new⟩
      · rw [← List.append_assoc, flow, List.append_assoc]
  | mqUnlink here =>
      have names : (objects.unlink mqName).names mqName = none := by
        simp [NamedObjects.unlink]
      refine ⟨fits, fun {queue} used => ?_, by simpa [here] using opened, fun _ => names, found,
        flow⟩
      rw [names] at used
      contradiction
  | receive here held content =>
      obtain ⟨messages, read, flow⟩ := flow held
      obtain rfl := Option.some.inj (read.symm.trans content)
      obtain ⟨short, greetings⟩ := fits content
      obtain ⟨_, rest⟩ := List.forall_mem_cons.mp greetings
      refine flows.write held content ⟨(Nat.le_succ _).trans short, rest⟩ rfl ?_ removed rfl ?_
      · exact opened.not.mp (by simp [held])
      · rw [List.append_assoc, List.singleton_append, flow]
  | receiveTimesOut _ | childClose _ | cutParent | cutChild _ =>
      exact ⟨fits, named, opened, removed, found, flow⟩
  | fork here | sendTimesOut here | waitpid here _ | mqClose here =>
      exact ⟨fits, named, by simpa [here] using opened, by simp, found, flow⟩
  | @sleep i here =>
      rcases ParentPc.behind_cases i with ⟨_, there⟩ | there
      · exact ⟨fits, named, by simpa [there, here] using opened, by simp [there], found, flow⟩
      · exact ⟨fits, named, by simpa [there, here] using opened, by simp [there], found, flow⟩

end LinuxStudy.FatherSonMq
