import LinuxStudy.NamedSemProducerConsumer.Model
import LinuxStudy.UnnamedSemaphore.HandOff

/-! The turns of `named_sem_producer_consumer.c`. As far as the two semaphores and the rounds
go, a run whose semaphores start at 1 and 0 does what the two threads of
`unnamed_sem_count_thread.c` do, whose shared number stands for the value handed over.
-/

namespace LinuxStudy.NamedSemProducerConsumer

open Transition Posix Sync

/-- The program point of the producer thread that the parent mirrors. -/
def ParentPc.producer : ParentPc → UnnamedSemaphore.Pc
  | .semOpenEmpty | .semOpenFull | .fork => .unborn
  | .loop => .loop
  | .semWait => .wait
  | .produce => .access
  | .semPost => .post
  | .waitpid | .semClose | .semUnlinkEmpty | .semUnlinkFull | .exited => .finished

def ChildPc.consumer : ChildPc → UnnamedSemaphore.Pc
  | .unborn => .unborn
  | .loop => .loop
  | .semWait => .wait
  | .consume => .access
  | .semPost => .post
  | .semClose | .exited => .finished

/-- `fork` creates both threads at once. -/
def ChildPc.main : ChildPc → UnnamedSemaphore.MainPc
  | .unborn => .createProducer
  | .loop | .semWait | .consume | .semPost | .semClose | .exited => .joinProducer

/-- A state of the two threads with these values of the semaphores and with the run's rounds.
What the consumer reads may differ.
-/
structure Mirrors (rounds empty full : Nat) (run : Run) (t : UnnamedSemaphore.State)
    : Prop where
  reached : (UnnamedSemaphore.system rounds).Reachable t
  empty : t.empty = empty
  full : t.full = full
  producer : t.producer = run.parent.producer
  producerRound : t.producerRound = run.producerRound
  consumer : t.consumer = run.child.consumer
  consumerRound : t.consumerRound = run.consumerRound
  main : t.main = run.child.main
  stored : t.stored = run.produced
  taken : t.taken.length = run.consumed.length

/-- The parent is behind its `waitpid`. -/
def ParentPc.hasReaped : ParentPc → Bool
  | .semClose | .semUnlinkEmpty | .semUnlinkFull | .exited => true
  | .semOpenEmpty | .semOpenFull | .fork | .loop | .semWait | .produce | .semPost | .waitpid =>
      false

/-- How far the two processes have come, and what they have opened. -/
structure Stage (run : Run) : Prop where
  emptyOpened : run.emptySem = none ↔ run.parent = .semOpenEmpty
  fullOpened : run.fullSem = none ↔ run.parent = .semOpenEmpty ∨ run.parent = .semOpenFull
  born
    : run.child = .unborn
      ↔ run.parent = .semOpenEmpty ∨ run.parent = .semOpenFull ∨ run.parent = .fork
  reaped : run.parent.hasReaped → run.childGone

/-- The two semaphores of a run with their values, mirrored by the two threads. -/
structure Held (rounds : Nat) (objects : Objects) (run : Run) : Prop where
  stage : Stage run
  mirrored
    : ∃ empty full t,
        Semaphore objects emptySemName 1 run.emptySem empty
        ∧ Semaphore objects fullSemName 0 run.fullSem full
        ∧ Mirrors rounds empty full run t
  apart : Apart objects emptySemName fullSemName run.emptySem run.fullSem
  foundEmpty : run.emptySem ≠ none → run.foundEmpty = some 1
  foundFull : run.fullSem ≠ none → run.foundFull = some 0

section Step

variable {rounds random : Nat} {objects : Objects} {run : Run} {next : Objects × Run}

/-- Behind the test of its loop the parent waits or has produced everything. -/
theorem ParentPc.producer_loopTest (more : Prop) [Decidable more]
    : (if more then ParentPc.semWait else .waitpid).producer
      = if more then .wait else .finished := by
  split <;> rfl

theorem ChildPc.consumer_loopTest (more : Prop) [Decidable more]
    : (if more then ChildPc.semWait else .semClose).consumer
      = (if more then .wait else .finished)
      ∧ (if more then ChildPc.semWait else .semClose).main = .joinProducer := by
  split <;> exact ⟨rfl, rfl⟩

/-- The statements of the parent keep the stages, by its program point. -/
theorem Stage.keptByParent (stage : Stage run)
    (taken : parentProcess rounds random objects run = some next)
    : Stage next.2 := by
  obtain ⟨emptyOpened, fullOpened, born, reaped⟩ := stage
  cases here : run.parent <;> simp only [parentProcess, here] at taken
  all_goals
    simp only [here, reduceCtorEq, iff_true, iff_false, or_self, or_true, or_false]
      at emptyOpened fullOpened born reaped
  case semOpenEmpty | semOpenFull | fork | produce | semClose | semUnlinkFull =>
    obtain rfl := Option.some.inj taken
    refine ⟨?_, ?_, ?_, ?_⟩
    · simp [emptyOpened]
    · simp [fullOpened]
    · simp [born]
    · first | exact reaped | simp [ParentPc.hasReaped]
  case loop =>
    obtain rfl := Option.some.inj taken
    refine ⟨?_, ?_, ?_, ?_⟩ <;> dsimp only <;> split
    all_goals simp [emptyOpened, fullOpened, born, ParentPc.hasReaped]
  case semWait | semPost =>
    obtain ⟨after, granted, rfl⟩ := Option.map_eq_some_iff.mp taken
    exact ⟨by simp [emptyOpened], by simp [fullOpened], by simp [born], by
      simp [ParentPc.hasReaped]⟩
  case waitpid =>
    obtain ⟨gone, same⟩ := Option.ite_none_right_eq_some.mp taken
    obtain rfl := Option.some.inj same
    exact ⟨by simp [emptyOpened], by simp [fullOpened], by simp [born], fun _ => gone⟩
  case semUnlinkEmpty =>
    split at taken <;> obtain rfl := Option.some.inj taken
    all_goals exact ⟨by simp [emptyOpened], by simp [fullOpened], by simp [born], reaped⟩
  case exited => contradiction

/-- The child's statements, by its program point. -/
theorem Stage.keptByChild (stage : Stage run)
    (taken : childProcess rounds objects run = some next)
    : Stage next.2 := by
  obtain ⟨emptyOpened, fullOpened, born, reaped⟩ := stage
  cases here : run.child <;> simp only [childProcess, here] at taken
  all_goals simp only [here, Run.childGone, reduceCtorEq, false_iff, decide_false,
    Bool.or_false] at born reaped
  case unborn | exited => contradiction
  case loop =>
    obtain rfl := Option.some.inj taken
    refine ⟨emptyOpened, fullOpened, ?_, ?_⟩ <;> dsimp only [Run.childGone] <;> split
    · simp [born]
    · simp [born]
    · simpa using reaped
    · simpa using reaped
  case semWait | semPost =>
    obtain ⟨after, granted, rfl⟩ := Option.map_eq_some_iff.mp taken
    exact ⟨emptyOpened, fullOpened, by simp [born], by simpa [Run.childGone] using reaped⟩
  case consume =>
    obtain rfl := Option.some.inj taken
    exact ⟨emptyOpened, fullOpened, by simp [born], by simpa [Run.childGone] using reaped⟩
  case semClose =>
    obtain rfl := Option.some.inj taken
    exact ⟨emptyOpened, fullOpened, by simp [born], by simp [Run.childGone]⟩

/-- `fork` creates both threads. -/
theorem Mirrors.fork {empty full : Nat} {t : UnnamedSemaphore.State}
    (mirrors : Mirrors rounds empty full run t)
    (unborn : run.child = .unborn)
    : ∃ t',
        Mirrors rounds empty full
          { run with parent := .loop, child := .loop, childData := run.parentData } t' := by
  have main : t.main = .createProducer := by rw [mirrors.main, unborn]; rfl
  have first : (UnnamedSemaphore.system rounds).step t .main
      = some { t with main := .createConsumer, producer := .loop } := by
    simp [UnnamedSemaphore.system, UnnamedSemaphore.step, UnnamedSemaphore.main, main]
  have second : (UnnamedSemaphore.system rounds).step
      { t with main := .createConsumer, producer := .loop } .main
      = some { t with main := .joinProducer, producer := .loop, consumer := .loop } := rfl
  exact ⟨_, { mirrors with
    reached := (mirrors.reached.next first).next second
    producer := rfl
    consumer := rfl
    main := rfl }⟩

/-- The statements of the two loops are those of the two threads. -/
theorem Mirrors.producerReached {empty full : Nat} {t t' : UnnamedSemaphore.State}
    (mirrors : Mirrors rounds empty full run t) (value : Int)
    (taken : UnnamedSemaphore.producerFunc rounds value t = some t')
    : (UnnamedSemaphore.system rounds).Reachable t' := by
  have step : (UnnamedSemaphore.system rounds).step t (.producer value) = some t' := taken
  exact mirrors.reached.next step

theorem Mirrors.consumerReached {empty full : Nat} {t t' : UnnamedSemaphore.State}
    (mirrors : Mirrors rounds empty full run t)
    (taken : UnnamedSemaphore.consumerFunc rounds t = some t')
    : (UnnamedSemaphore.system rounds).Reachable t' := by
  have step : (UnnamedSemaphore.system rounds).step t .consumer = some t' := taken
  exact mirrors.reached.next step

/-- The parent's statements, by its program point. -/
theorem Held.keptByParent (held : Held rounds objects run)
    (taken : parentProcess rounds random objects run = some next)
    : Held rounds next.1 next.2 := by
  have stage := held.stage.keptByParent taken
  obtain ⟨⟨emptyOpened, fullOpened, born, -⟩, ⟨empty, full, t, emptySem, fullSem, mirrors⟩,
    apart, foundEmpty, foundFull⟩ := held
  have point := mirrors.producer
  cases here : run.parent <;> simp only [parentProcess, here] at taken
  all_goals
    rw [here] at point
    simp only [here, reduceCtorEq, iff_true, iff_false, or_self, or_true, or_false]
      at emptyOpened fullOpened born
  case semOpenEmpty =>
    obtain rfl := Option.some.inj taken
    rw [emptyOpened] at emptySem apart
    have different : fullSemName ≠ emptySemName := by decide
    obtain rfl := emptySem.intended rfl
    exact ⟨stage, ⟨1, full, t, emptySem.opened, fullSem.openOther different,
      { mirrors with producer := point }⟩, apart.opened different fullSem,
      fun _ => emptySem.opened.content, foundFull⟩
  case semOpenFull =>
    obtain rfl := Option.some.inj taken
    rw [fullOpened] at fullSem apart
    have different : emptySemName ≠ fullSemName := by decide
    obtain rfl := fullSem.intended rfl
    exact ⟨stage, ⟨empty, 0, t, emptySem.openOther different, fullSem.opened,
      { mirrors with producer := point }⟩, (apart.symm.opened different emptySem).symm,
      foundEmpty, fun _ => fullSem.opened.content⟩
  case fork =>
    obtain rfl := Option.some.inj taken
    obtain ⟨t', mirrors⟩ := mirrors.fork born
    exact ⟨stage, ⟨empty, full, t', emptySem, fullSem, mirrors⟩, apart, foundEmpty, foundFull⟩
  case loop =>
    obtain rfl := Option.some.inj taken
    have reached := mirrors.producerReached 0
      (by simp only [UnnamedSemaphore.producerFunc, point, ParentPc.producer]; rfl)
    refine ⟨stage, ⟨empty, full, _, emptySem, fullSem,
      { mirrors with reached, producer := ?_ }⟩, apart, foundEmpty, foundFull⟩
    simp only [mirrors.producerRound, ParentPc.producer_loopTest]
  case semWait =>
    obtain ⟨after, granted, rfl⟩ := Option.map_eq_some_iff.mp taken
    obtain ⟨sem, opened, granted⟩ := Option.bind_eq_some_iff.mp granted
    rw [opened] at emptySem apart
    obtain ⟨lower, lowered, rfl, emptySem'⟩ := emptySem.waitOn granted
    have granted' : semWait t.empty = some lower := by
      rw [mirrors.empty]
      exact semWait_eq_some.mpr lowered
    have reached := mirrors.producerReached 0
      (by simp only [UnnamedSemaphore.producerFunc, point, ParentPc.producer, granted']; rfl)
    exact ⟨stage, ⟨lower, full, _, opened ▸ emptySem',
      fullSem.writeOther (apart sem (Or.inr rfl)) lower,
      { mirrors with reached, empty := rfl, producer := rfl }⟩,
      opened ▸ apart.write sem lower, foundEmpty, foundFull⟩
  case produce =>
    obtain rfl := Option.some.inj taken
    have reached := mirrors.producerReached (random % 1000 : Nat)
      (by simp only [UnnamedSemaphore.producerFunc, point, ParentPc.producer]; rfl)
    refine ⟨stage, ⟨empty, full, _, emptySem, fullSem,
      { mirrors with reached, producer := rfl, stored := ?_ }⟩, apart, foundEmpty, foundFull⟩
    simp only [mirrors.stored]
  case semPost =>
    obtain ⟨after, posted, rfl⟩ := Option.map_eq_some_iff.mp taken
    obtain ⟨sem, opened, posted⟩ := Option.bind_eq_some_iff.mp posted
    rw [opened] at fullSem apart
    obtain ⟨rfl, fullSem'⟩ := fullSem.postOn posted
    have reached := mirrors.producerReached 0
      (by simp only [UnnamedSemaphore.producerFunc, point, ParentPc.producer]; rfl)
    refine ⟨stage, ⟨empty, full + 1, _,
      emptySem.writeOther (apart.symm sem (Or.inr rfl)) (full + 1), opened ▸ fullSem',
      { mirrors with reached, producer := rfl, full := ?_, producerRound := ?_ }⟩,
      opened ▸ apart.write sem (full + 1), foundEmpty, foundFull⟩
    · simp only [mirrors.full, semPost]
    · simp only [mirrors.producerRound]
  case waitpid =>
    obtain ⟨_, same⟩ := Option.ite_none_right_eq_some.mp taken
    obtain rfl := Option.some.inj same
    exact ⟨stage, ⟨empty, full, t, emptySem, fullSem, { mirrors with producer := point }⟩, apart,
      foundEmpty, foundFull⟩
  case semClose =>
    obtain rfl := Option.some.inj taken
    exact ⟨stage, ⟨empty, full, t, emptySem, fullSem, { mirrors with producer := point }⟩, apart,
      foundEmpty, foundFull⟩
  case semUnlinkEmpty =>
    split at taken <;> obtain rfl := Option.some.inj taken
    · exact ⟨stage, ⟨empty, full, t, emptySem, fullSem, { mirrors with producer := point }⟩,
        apart, foundEmpty, foundFull⟩
    · exact ⟨stage, ⟨empty, full, t, emptySem.unlink, fullSem.unlink,
        { mirrors with producer := point }⟩, apart.unlink _, foundEmpty, foundFull⟩
  case semUnlinkFull =>
    obtain rfl := Option.some.inj taken
    exact ⟨stage, ⟨empty, full, t, emptySem.unlink, fullSem.unlink,
      { mirrors with producer := point }⟩, apart.unlink _, foundEmpty, foundFull⟩
  case exited => contradiction

/-- The child's statements, by its program point. -/
theorem Held.keptByChild (held : Held rounds objects run)
    (taken : childProcess rounds objects run = some next)
    : Held rounds next.1 next.2 := by
  have stage := held.stage.keptByChild taken
  obtain ⟨-, ⟨empty, full, t, emptySem, fullSem, mirrors⟩, apart, foundEmpty, foundFull⟩ := held
  have point := mirrors.consumer
  have main := mirrors.main
  cases here : run.child <;> simp only [childProcess, here] at taken
  all_goals rw [here] at point main
  case unborn | exited => contradiction
  case loop =>
    obtain rfl := Option.some.inj taken
    have reached := mirrors.consumerReached
      (by simp only [UnnamedSemaphore.consumerFunc, point, ChildPc.consumer]; rfl)
    obtain ⟨behind, created⟩ := ChildPc.consumer_loopTest (run.consumerRound < rounds)
    refine ⟨stage, ⟨empty, full, _, emptySem, fullSem,
      { mirrors with reached, consumer := ?_, main := main.trans created.symm }⟩, apart,
      foundEmpty, foundFull⟩
    simp only [mirrors.consumerRound, behind]
  case semWait =>
    obtain ⟨after, granted, rfl⟩ := Option.map_eq_some_iff.mp taken
    obtain ⟨sem, opened, granted⟩ := Option.bind_eq_some_iff.mp granted
    rw [opened] at fullSem apart
    obtain ⟨lower, lowered, rfl, fullSem'⟩ := fullSem.waitOn granted
    have granted' : semWait t.full = some lower := by
      rw [mirrors.full]
      exact semWait_eq_some.mpr lowered
    have reached := mirrors.consumerReached
      (by simp only [UnnamedSemaphore.consumerFunc, point, ChildPc.consumer, granted']; rfl)
    exact ⟨stage, ⟨empty, lower, _, emptySem.writeOther (apart.symm sem (Or.inr rfl)) lower,
      opened ▸ fullSem', { mirrors with reached, full := rfl, consumer := rfl, main }⟩,
      opened ▸ apart.write sem lower, foundEmpty, foundFull⟩
  case consume =>
    obtain rfl := Option.some.inj taken
    have reached := mirrors.consumerReached
      (by simp only [UnnamedSemaphore.consumerFunc, point, ChildPc.consumer]; rfl)
    refine ⟨stage, ⟨empty, full, _, emptySem, fullSem,
      { mirrors with reached, consumer := rfl, main, taken := ?_ }⟩, apart, foundEmpty,
      foundFull⟩
    simp only [List.length_append, List.length_singleton, mirrors.taken]
  case semPost =>
    obtain ⟨after, posted, rfl⟩ := Option.map_eq_some_iff.mp taken
    obtain ⟨sem, opened, posted⟩ := Option.bind_eq_some_iff.mp posted
    rw [opened] at emptySem apart
    obtain ⟨rfl, emptySem'⟩ := emptySem.postOn posted
    have reached := mirrors.consumerReached
      (by simp only [UnnamedSemaphore.consumerFunc, point, ChildPc.consumer]; rfl)
    refine ⟨stage, ⟨empty + 1, full, _, opened ▸ emptySem',
      fullSem.writeOther (apart sem (Or.inr rfl)) (empty + 1),
      { mirrors with reached, consumer := rfl, main, empty := ?_, consumerRound := ?_ }⟩,
      opened ▸ apart.write sem (empty + 1), foundEmpty, foundFull⟩
    · simp only [mirrors.empty, semPost]
    · simp only [mirrors.consumerRound]
  case semClose =>
    obtain rfl := Option.some.inj taken
    exact ⟨stage, ⟨empty, full, t, emptySem, fullSem,
      { mirrors with consumer := point, main }⟩, apart, foundEmpty, foundFull⟩

/-- Cutting a process off moves nothing. -/
theorem Held.kept {action : Action} (held : Held rounds objects run)
    (taken : step rounds objects run action = some next)
    : Held rounds next.1 next.2 := by
  cases action <;> obtain ⟨-, taken⟩ := Option.ite_none_left_eq_some.mp taken
  case parent => exact held.keptByParent taken
  case child => exact held.keptByChild taken
  case cutParent =>
    obtain rfl := Option.some.inj taken
    obtain ⟨⟨emptyOpened, fullOpened, born, reaped⟩, ⟨empty, full, t, emptySem, fullSem,
      mirrors⟩, apart, foundEmpty, foundFull⟩ := held
    exact ⟨⟨emptyOpened, fullOpened, born, reaped⟩,
      ⟨empty, full, t, emptySem, fullSem, { mirrors with }⟩, apart, foundEmpty, foundFull⟩
  case cutChild =>
    obtain rfl := Option.some.inj taken
    obtain ⟨⟨emptyOpened, fullOpened, born, reaped⟩, ⟨empty, full, t, emptySem, fullSem,
      mirrors⟩, apart, foundEmpty, foundFull⟩ := held
    exact ⟨⟨emptyOpened, fullOpened, born, fun _ => by simp [Run.childGone]⟩,
      ⟨empty, full, t, emptySem, fullSem, { mirrors with }⟩, apart, foundEmpty, foundFull⟩

end Step

/-- A run about to open two names that offer 1 and 0. -/
theorem Held.fresh {rounds : Nat} {objects : Objects}
    (empty : objects.Offers emptySemName 1) (full : objects.Offers fullSemName 0)
    (apart : Apart objects emptySemName fullSemName none none)
    : Held rounds objects fresh := by
  refine ⟨⟨?_, ?_, ?_, ?_⟩, ⟨1, 0, UnnamedSemaphore.start, .unopened empty, .unopened full, ?_⟩,
    apart, by simp [NamedSemProducerConsumer.fresh], by simp [NamedSemProducerConsumer.fresh]⟩
  · simp [NamedSemProducerConsumer.fresh]
  · simp [NamedSemProducerConsumer.fresh]
  · simp [NamedSemProducerConsumer.fresh]
  · simp [NamedSemProducerConsumer.fresh, ParentPc.hasReaped]
  · exact ⟨.initial rfl, rfl, rfl, rfl, rfl, rfl, rfl, rfl, rfl, rfl⟩

/-- On a machine on which no name is used. -/
theorem Held.start {rounds : Nat}
    : Held rounds NamedObjects.empty NamedSemProducerConsumer.fresh := by
  refine .fresh (NamedObjects.offers_of_free rfl) (NamedObjects.offers_of_free rfl) ?_
  intro object denoted
  rcases denoted with used | opened
  · simp [NamedObjects.empty] at used
  · simp at opened

/-- Production and consumption alternate, starting with production: in every state as many
values were produced as consumed, or one more.
-/
def Run.Alternates (run : Run) : Prop :=
  run.produced.length = run.consumed.length ∨ run.produced.length = run.consumed.length + 1

/-- The two threads take turns, and so do the two processes. -/
theorem Held.alternates {rounds : Nat} {objects : Objects} {run : Run}
    (held : Held rounds objects run)
    : run.Alternates := by
  obtain ⟨empty, full, t, -, -, mirrors⟩ := held.mirrored
  obtain ⟨turns, -⟩ := UnnamedSemaphore.turns_of_reachable mirrors.reached
  rw [Run.Alternates, ← mirrors.stored, ← mirrors.taken]
  rcases turns.kept with same | longer
  · exact Or.inl (by rw [same])
  · exact Or.inr (by rw [longer]; simp)

end LinuxStudy.NamedSemProducerConsumer
