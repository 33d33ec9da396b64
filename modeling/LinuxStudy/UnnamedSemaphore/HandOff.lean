import LinuxStudy.UnnamedSemaphore.Model
import Mathlib.Data.List.Basic

/-! The hand-off of `unnamed_sem_count_thread.c`. One permit travels through `empty`, the
producer, `full` and the consumer, so the two threads take turns and each value stored is
read once before the next one is stored.
-/

namespace LinuxStudy.UnnamedSemaphore

open Transition Sync

/-- 1 between the wait and the post of an iteration, else 0. -/
def Pc.inside : Pc → Nat
  | .access | .post => 1
  | .unborn | .loop | .wait | .finished => 0

/-- 1 behind the access of an iteration, else 0. -/
def Pc.accessed : Pc → Nat
  | .post => 1
  | .unborn | .loop | .wait | .access | .finished => 0

/-- Which rounds a thread can be in at its program point. -/
def Pc.FitsRound (rounds round : Nat) : Pc → Prop
  | .unborn | .loop => round ≤ rounds
  | .wait | .access | .post => round < rounds
  | .finished => round = rounds

/-- Where the one permit is, how far the two threads have come, and what `shared_num` holds.
-/
structure Turns (rounds : Nat) (s : State) : Prop where
  permit : s.empty + s.full + s.producer.inside + s.consumer.inside = 1
  ahead : s.producerRound = s.consumerRound + s.full + s.consumer.inside
  stores : s.stored.length = s.producerRound + s.producer.accessed
  takes : s.taken.length = s.consumerRound + s.consumer.accessed
  kept : s.stored = s.taken ∨ s.stored = s.taken ++ [s.sharedNum]
  producerFits : s.producer.FitsRound rounds s.producerRound
  consumerFits : s.consumer.FitsRound rounds s.consumerRound

/-- A thread has accessed the number only while it is inside. -/
theorem Pc.accessed_le (pc : Pc) : pc.accessed ≤ pc.inside := by
  cases pc <;> decide

section Lists

variable {stored taken : List Int} {value : Int}

/-- Which of the two lists is the longer one is told by their lengths. -/
theorem eq_of_length_eq (kept : stored = taken ∨ stored = taken ++ [value])
    (even : stored.length = taken.length)
    : stored = taken := by
  refine kept.resolve_right fun longer => ?_
  have lengths := congrArg List.length longer
  simp only [List.length_append, List.length_singleton] at lengths
  omega

theorem eq_append_of_length_eq (kept : stored = taken ∨ stored = taken ++ [value])
    (odd : stored.length = taken.length + 1)
    : stored = taken ++ [value] := by
  refine kept.resolve_left fun same => ?_
  have lengths := congrArg List.length same
  omega

end Lists

section Step

variable {rounds : Nat} {s next : State}

/-- The test of a loop leads to the next round or to the end. -/
theorem Pc.fitsRound_loopTest {round : Nat} (fits : Pc.loop.FitsRound rounds round)
    : (if round < rounds then Pc.wait else .finished).FitsRound rounds round := by
  split
  next more => exact more
  next done => exact Nat.le_antisymm fits (Nat.le_of_not_lt done)

/-- Behind the test a thread is still outside. -/
theorem Pc.outside_loopTest (more : Prop) [Decidable more]
    : (if more then Pc.wait else .finished).inside = 0
      ∧ (if more then Pc.wait else .finished).accessed = 0 := by
  split <;> exact ⟨rfl, rfl⟩

/-- The producer's statements, by its program point. -/
theorem Turns.producerFunc (turns : Turns rounds s) {random : Int}
    (taken : producerFunc rounds random s = some next)
    : Turns rounds next := by
  obtain ⟨permit, ahead, stores, takes, kept, producerFits, consumerFits⟩ := turns
  have away := s.consumer.accessed_le
  cases here : s.producer <;> simp only [UnnamedSemaphore.producerFunc, here] at taken
  all_goals rw [here] at permit stores producerFits
  case unborn | finished => contradiction
  case loop =>
    obtain rfl := Option.some.inj taken
    obtain ⟨outside, quiet⟩ := Pc.outside_loopTest (s.producerRound < rounds)
    refine ⟨?_, ahead, ?_, takes, kept, Pc.fitsRound_loopTest producerFits, consumerFits⟩
    · rw [outside]
      exact permit
    · rw [quiet]
      exact stores
  case wait =>
    obtain ⟨empty, granted, same⟩ := Option.map_eq_some_iff.mp taken
    have lowered := semWait_eq_some.mp granted
    subst same
    refine ⟨?_, ahead, stores, takes, kept, producerFits, consumerFits⟩
    change s.empty + s.full + 0 + s.consumer.inside = 1 at permit
    change empty + s.full + 1 + s.consumer.inside = 1
    omega
  case access =>
    obtain rfl := Option.some.inj taken
    change s.empty + s.full + 1 + s.consumer.inside = 1 at permit
    change s.stored.length = s.producerRound + 0 at stores
    -- the consumer is outside and has read everything stored so far
    have same := eq_of_length_eq kept (by omega)
    refine ⟨permit, ahead, ?_, takes, Or.inr (by rw [same]), producerFits, consumerFits⟩
    simp only [List.length_append, List.length_singleton, stores]
    rfl
  case post =>
    obtain rfl := Option.some.inj taken
    change s.empty + s.full + 1 + s.consumer.inside = 1 at permit
    change s.stored.length = s.producerRound + 1 at stores
    refine ⟨?_, ?_, stores, takes, kept, producerFits, consumerFits⟩
    · change s.empty + (s.full + 1) + 0 + s.consumer.inside = 1
      omega
    · change s.producerRound + 1 = s.consumerRound + (s.full + 1) + s.consumer.inside
      omega

/-- The consumer's statements, by its program point. -/
theorem Turns.consumerFunc (turns : Turns rounds s)
    (taken : consumerFunc rounds s = some next)
    : Turns rounds next := by
  obtain ⟨permit, ahead, stores, takes, kept, producerFits, consumerFits⟩ := turns
  have away := s.producer.accessed_le
  cases here : s.consumer <;> simp only [UnnamedSemaphore.consumerFunc, here] at taken
  all_goals rw [here] at permit ahead takes consumerFits
  case unborn | finished => contradiction
  case loop =>
    obtain rfl := Option.some.inj taken
    obtain ⟨outside, quiet⟩ := Pc.outside_loopTest (s.consumerRound < rounds)
    refine ⟨?_, ?_, stores, ?_, kept, producerFits, Pc.fitsRound_loopTest consumerFits⟩
    · rw [outside]
      exact permit
    · rw [outside]
      exact ahead
    · rw [quiet]
      exact takes
  case wait =>
    obtain ⟨full, granted, same⟩ := Option.map_eq_some_iff.mp taken
    have lowered := semWait_eq_some.mp granted
    subst same
    change s.empty + s.full + s.producer.inside + 0 = 1 at permit
    change s.producerRound = s.consumerRound + s.full + 0 at ahead
    refine ⟨?_, ?_, stores, takes, kept, producerFits, consumerFits⟩
    · change s.empty + full + s.producer.inside + 1 = 1
      omega
    · change s.producerRound = s.consumerRound + full + 1
      omega
  case access =>
    obtain rfl := Option.some.inj taken
    change s.empty + s.full + s.producer.inside + 1 = 1 at permit
    change s.producerRound = s.consumerRound + s.full + 1 at ahead
    change s.taken.length = s.consumerRound + 0 at takes
    -- the producer is outside and one value ahead, which is the one in `shared_num`
    have same := eq_append_of_length_eq kept (by omega)
    refine ⟨permit, ahead, stores, ?_, Or.inl same, producerFits, consumerFits⟩
    simp only [List.length_append, List.length_singleton, takes]
    rfl
  case post =>
    obtain rfl := Option.some.inj taken
    change s.empty + s.full + s.producer.inside + 1 = 1 at permit
    change s.producerRound = s.consumerRound + s.full + 1 at ahead
    refine ⟨?_, ?_, stores, takes, kept, producerFits, consumerFits⟩
    · change s.empty + 1 + s.full + s.producer.inside + 0 = 1
      omega
    · change s.producerRound = s.consumerRound + 1 + s.full + 0
      omega

end Step

/-- The threads that `main` has not yet created are unborn. -/
structure Created (s : State) : Prop where
  producer : s.producer = .unborn ↔ s.main = .createProducer
  consumer : s.consumer = .unborn ↔ s.main = .createProducer ∨ s.main = .createConsumer

theorem Pc.loopTest_ne_unborn (more : Prop) [Decidable more]
    : (if more then Pc.wait else .finished) ≠ .unborn := by
  split <;> simp

/-- A thread that takes a step was born and stays so, and nobody else moves. -/
theorem producerFunc_frame {rounds : Nat} {random : Int} {s next : State}
    (taken : producerFunc rounds random s = some next)
    : s.producer ≠ .unborn
      ∧ next.producer ≠ .unborn
      ∧ next.consumer = s.consumer
      ∧ next.main = s.main := by
  cases here : s.producer <;> simp only [producerFunc, here] at taken
  case unborn | finished => contradiction
  case loop => exact Option.some.inj taken ▸ ⟨by simp, Pc.loopTest_ne_unborn _, rfl, rfl⟩
  case wait =>
    obtain ⟨_, _, same⟩ := Option.map_eq_some_iff.mp taken
    exact same ▸ ⟨by simp, by simp, rfl, rfl⟩
  case access | post => exact Option.some.inj taken ▸ ⟨by simp, by simp, rfl, rfl⟩

theorem consumerFunc_frame {rounds : Nat} {s next : State}
    (taken : consumerFunc rounds s = some next)
    : s.consumer ≠ .unborn
      ∧ next.consumer ≠ .unborn
      ∧ next.producer = s.producer
      ∧ next.main = s.main := by
  cases here : s.consumer <;> simp only [consumerFunc, here] at taken
  case unborn | finished => contradiction
  case loop => exact Option.some.inj taken ▸ ⟨by simp, Pc.loopTest_ne_unborn _, rfl, rfl⟩
  case wait =>
    obtain ⟨_, _, same⟩ := Option.map_eq_some_iff.mp taken
    exact same ▸ ⟨by simp, by simp, rfl, rfl⟩
  case access | post => exact Option.some.inj taken ▸ ⟨by simp, by simp, rfl, rfl⟩

/-- `main` starts each thread at its loop and otherwise only waits. -/
theorem Turns.main {rounds : Nat} {s next : State} (turns : Turns rounds s)
    (created : Created s) (taken : main s = some next)
    : Turns rounds next ∧ Created next := by
  obtain ⟨permit, ahead, stores, takes, kept, producerFits, consumerFits⟩ := turns
  cases here : s.main <;> simp only [UnnamedSemaphore.main, here] at taken
  case createProducer =>
    obtain rfl := Option.some.inj taken
    have fresh := created.producer.mpr here
    rw [fresh] at permit stores producerFits
    refine ⟨⟨permit, ahead, stores, takes, kept, producerFits, consumerFits⟩, by simp, ?_⟩
    simpa using created.consumer.mpr (Or.inl here)
  case createConsumer =>
    obtain rfl := Option.some.inj taken
    have fresh := created.consumer.mpr (Or.inr here)
    rw [fresh] at permit ahead takes consumerFits
    refine ⟨⟨permit, ahead, stores, takes, kept, producerFits, consumerFits⟩, ?_, by simp⟩
    simp [created.producer, here]
  case joinProducer | joinConsumer =>
    obtain ⟨_, same⟩ := Option.ite_none_right_eq_some.mp taken
    obtain rfl := Option.some.inj same
    refine ⟨⟨permit, ahead, stores, takes, kept, producerFits, consumerFits⟩, ?_, ?_⟩
    · simp [created.producer, here]
    · simp [created.consumer, here]
  case exited => contradiction

/-- In every reachable state the two threads take turns. -/
theorem turns_of_reachable {rounds : Nat} {s : State} (reached : (system rounds).Reachable s)
    : Turns rounds s ∧ Created s := by
  apply reached.invariant
  · intro _ same
    subst same
    refine ⟨⟨rfl, rfl, rfl, rfl, Or.inl rfl, Nat.zero_le _, Nat.zero_le _⟩, ?_, ?_⟩
    all_goals simp [start]
  · intro s action next ⟨turns, created⟩ taken
    cases action with
    | main => exact turns.main created taken
    | producer random =>
        obtain ⟨born, still, consumer, main⟩ := producerFunc_frame taken
        refine ⟨turns.producerFunc taken, ?_, ?_⟩
        · simp [still, main, ← created.producer, born]
        · rw [consumer, main, created.consumer]
    | consumer =>
        obtain ⟨born, still, producer, main⟩ := consumerFunc_frame taken
        refine ⟨turns.consumerFunc taken, ?_, ?_⟩
        · rw [producer, main, created.producer]
        · simp [still, main, ← created.consumer, born]

-----------------------------------------------------------------------------------------
-- Somebody can always go on
-----------------------------------------------------------------------------------------

/-- A thread that neither waits for a permit nor has finished can go on. -/
theorem producer_enabled {rounds : Nat} {s : State} (born : s.producer ≠ .unborn)
    (unfinished : s.producer ≠ .finished) (granted : s.producer = .wait → 0 < s.empty)
    : (system rounds).Enabled s (.producer 0) := by
  cases here : s.producer
  case unborn => exact absurd here born
  case finished => exact absurd here unfinished
  case loop | access | post => simp [System.Enabled, system, step, producerFunc, here]
  case wait =>
    obtain ⟨empty, taken⟩ := exists_semWait.mpr (granted here)
    simp [System.Enabled, system, step, producerFunc, here, taken]

theorem consumer_enabled {rounds : Nat} {s : State} (born : s.consumer ≠ .unborn)
    (unfinished : s.consumer ≠ .finished) (granted : s.consumer = .wait → 0 < s.full)
    : (system rounds).Enabled s .consumer := by
  cases here : s.consumer
  case unborn => exact absurd here born
  case finished => exact absurd here unfinished
  case loop | access | post => simp [System.Enabled, system, step, consumerFunc, here]
  case wait =>
    obtain ⟨full, taken⟩ := exists_semWait.mpr (granted here)
    simp [System.Enabled, system, step, consumerFunc, here, taken]

/-- Of two threads that have not both finished, one does not wait in vain: the one that is
inside or for which the permit is.
-/
theorem thread_granted {rounds : Nat} {s : State} (turns : Turns rounds s)
    (unfinished : s.producer ≠ .finished ∨ s.consumer ≠ .finished)
    : s.producer ≠ .finished ∧ (s.producer = .wait → 0 < s.empty)
      ∨ s.consumer ≠ .finished ∧ (s.consumer = .wait → 0 < s.full) := by
  obtain ⟨permit, ahead, _, _, _, producerFits, consumerFits⟩ := turns
  by_cases blocked : s.producer = .finished ∨ s.producer = .wait ∧ s.empty = 0
  · refine Or.inr ⟨?_, fun waits => ?_⟩
    · intro ended
      -- a finished consumer has taken every round, so no permit can be in `full`
      rw [ended] at permit ahead consumerFits
      change s.empty + s.full + s.producer.inside + 0 = 1 at permit
      change s.producerRound = s.consumerRound + s.full + 0 at ahead
      change s.consumerRound = rounds at consumerFits
      rcases blocked with here | ⟨here, none⟩
      · simp [here, ended] at unfinished
      · rw [here] at permit producerFits
        change s.empty + s.full + 0 + 0 = 1 at permit
        change s.producerRound < rounds at producerFits
        omega
    · rw [waits] at permit ahead consumerFits
      change s.empty + s.full + s.producer.inside + 0 = 1 at permit
      change s.producerRound = s.consumerRound + s.full + 0 at ahead
      change s.consumerRound < rounds at consumerFits
      rcases blocked with here | ⟨here, none⟩
      · rw [here] at producerFits
        change s.producerRound = rounds at producerFits
        omega
      · rw [here] at permit
        change s.empty + s.full + 0 + 0 = 1 at permit
        omega
  · rw [not_or] at blocked
    refine Or.inl ⟨blocked.1, fun waits => ?_⟩
    have some : s.empty ≠ 0 := fun none => blocked.2 ⟨waits, none⟩
    omega

/-- Until both loops are finished, some step is possible: `main` creates a thread, or a thread
goes on.
-/
theorem exists_enabled {rounds : Nat} {s : State} (turns : Turns rounds s)
    (created : Created s) (unfinished : s.producer ≠ .finished ∨ s.consumer ≠ .finished)
    : ∃ action, (system rounds).Enabled s action := by
  by_cases creating : s.main = .createProducer ∨ s.main = .createConsumer
  · refine ⟨.main, ?_⟩
    rcases creating with here | here <;> simp [System.Enabled, system, step, main, here]
  · rw [not_or] at creating
    have producerBorn : s.producer ≠ .unborn := created.producer.not.mpr creating.1
    have consumerBorn : s.consumer ≠ .unborn := created.consumer.not.mpr (by simp [creating])
    rcases thread_granted turns unfinished with ⟨remains, granted⟩ | ⟨remains, granted⟩
    · exact ⟨_, producer_enabled producerBorn remains granted⟩
    · exact ⟨_, consumer_enabled consumerBorn remains granted⟩

-----------------------------------------------------------------------------------------
-- The hand-off
-----------------------------------------------------------------------------------------

/-- There is one permit, the two threads are never both inside, the value stored in a round
is the one read in it and is read before the next store, and nobody is stuck.
-/
structure HandsOver (rounds : Nat) (s : State) : Prop where
  permit : s.empty + s.full + s.producer.inside + s.consumer.inside = 1
  exclusive : ¬(s.producer.inside = 1 ∧ s.consumer.inside = 1)
  stores : s.stored.length = s.producerRound + s.producer.accessed
  takes : s.taken.length = s.consumerRound + s.consumer.accessed
  reads : ∀ (i : Nat) (value : Int), s.taken[i]? = some value → s.stored[i]? = some value
  unread : s.stored.length ≤ s.taken.length + 1
  proceeds
    : s.producer ≠ .finished ∨ s.consumer ≠ .finished
      → ∃ action, (system rounds).Enabled s action

/-- Every round hands its number over, under every interleaving and for any number of rounds.
-/
theorem handsOver {rounds : Nat} {s : State} (reached : (system rounds).Reachable s)
    : HandsOver rounds s := by
  obtain ⟨turns, created⟩ := turns_of_reachable reached
  have permit := turns.permit
  have part : s.taken <+: s.stored := by
    rcases turns.kept with same | longer
    · exact same ▸ List.prefix_rfl
    · exact longer ▸ List.prefix_append _ _
  refine ⟨permit, ?_, turns.stores, turns.takes, ?_, ?_, exists_enabled turns created⟩
  · intro both
    omega
  · intro i value read
    obtain ⟨bound, _⟩ := List.getElem?_eq_some_iff.mp read
    obtain ⟨later, whole⟩ := part
    rw [← whole, List.getElem?_append_left bound, read]
  · rcases turns.kept with same | longer
    · rw [same]
      omega
    · rw [longer]
      simp

/-- Two rounds: the producer is back at its wait before the consumer has read the 7, and stores the
9 only behind that.
-/
def twoRounds : List Action :=
  [.main, .producer 0, .main, .consumer, .producer 0, .producer 7, .producer 0, .consumer,
    .producer 0, .consumer, .consumer, .producer 0, .consumer, .producer 9, .producer 0, .consumer,
    .consumer]

/-- Each number is read in the round in which it is stored. -/
theorem handsOver_twoRounds
    : ∃ s, s.stored = [7, 9] ∧ s.taken = [7, 9] ∧ HandsOver 2 s :=
  ⟨_, rfl, rfl, handsOver (System.reachable_of_run start rfl twoRounds rfl)⟩

end LinuxStudy.UnnamedSemaphore
