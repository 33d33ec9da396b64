import LinuxStudy.Transition.Runs
import Mathlib.Algebra.BigOperators.Group.Finset.Basic
import Mathlib.Algebra.BigOperators.Group.Finset.Piecewise
import Mathlib.Algebra.Order.BigOperators.Group.Finset

/-! Increments of a shared value without a lock. Each round of a thread is a load and a store
of the loaded value plus one, and any thread may step in between. The values such threads can
leave behind are an interval, whose two ends are found here.
-/

namespace LinuxStudy.Sync.LostUpdates

open Transition

/-- The shared value, what each thread holds between its load and its store, and the rounds
it has done.
-/
structure State (Thread : Type) where
  value : Nat
  held : Thread → Option Nat
  done : Thread → Nat

inductive Action (Thread : Type)
  | load (self : Thread)
  | store (self : Thread)

section Steps

variable {Thread : Type} [DecidableEq Thread]

def State.load (s : State Thread) (self : Thread) : State Thread :=
  { s with held := Function.update s.held self (some s.value) }

def State.store (s : State Thread) (self : Thread) (loaded : Nat) : State Thread where
  value := loaded + 1
  held := Function.update s.held self none
  done := Function.update s.done self (s.done self + 1)

/-- A thread loads when a round is left to it, and stores what it has loaded. -/
def step (threads : Finset Thread) (rounds : Nat) (s : State Thread)
    : Action Thread → Option (State Thread)
  | .load self =>
      if self ∈ threads ∧ s.done self < rounds ∧ s.held self = none then some (s.load self)
      else none
  | .store self => (s.held self).map (s.store self)

end Steps

def start (Thread : Type) : State Thread where
  value := 0
  held := fun _ => none
  done := fun _ => 0

variable {Thread : Type} [DecidableEq Thread]

def system (threads : Finset Thread) (rounds : Nat) : System (State Thread) (Action Thread) where
  Initial s := s = start Thread
  step := step threads rounds

/-- Every thread has done all its rounds. -/
def Finished (threads : Finset Thread) (rounds : Nat) (s : State Thread) : Prop :=
  ∀ self ∈ threads, s.done self = rounds

/-- The least value that this many threads with this many rounds each can leave behind. -/
def least (threads rounds : Nat) : Nat :=
  if threads ≤ 1 then threads * rounds else min rounds 2

/-- One step, with what has to hold before it. -/
inductive Move (threads : Finset Thread) (rounds : Nat) (s : State Thread) : State Thread → Prop
  | load {self} (member : self ∈ threads) (more : s.done self < rounds)
    (free : s.held self = none)
    : Move threads rounds s (s.load self)
  | store {self loaded} (holding : s.held self = some loaded)
    : Move threads rounds s (s.store self loaded)

theorem Move.of_step {threads : Finset Thread} {rounds : Nat} {s next : State Thread}
    {action : Action Thread} (taken : step threads rounds s action = some next)
    : Move threads rounds s next := by
  cases action with
  | load self =>
      obtain ⟨⟨member, more, free⟩, same⟩ := Option.ite_none_right_eq_some.mp taken
      exact Option.some.inj same ▸ .load member more free
  | store self =>
      obtain ⟨loaded, holding, same⟩ := Option.map_eq_some_iff.mp taken
      exact same ▸ .store holding

section Fields

variable (s : State Thread) {self other : Thread} (loaded : Nat)

@[simp] theorem State.load_value : (s.load self).value = s.value := rfl

@[simp] theorem State.load_done : (s.load self).done = s.done := rfl

@[simp] theorem State.load_held_self : (s.load self).held self = some s.value := by
  simp [State.load]

theorem State.load_held_ne (different : other ≠ self)
    : (s.load self).held other = s.held other := by
  simp [State.load, different]

@[simp] theorem State.store_value : (s.store self loaded).value = loaded + 1 := rfl

@[simp] theorem State.store_held_self : (s.store self loaded).held self = none := by
  simp [State.store]

theorem State.store_held_ne (different : other ≠ self)
    : (s.store self loaded).held other = s.held other := by
  simp [State.store, different]

@[simp] theorem State.store_done_self
    : (s.store self loaded).done self = s.done self + 1 := by
  simp [State.store]

theorem State.store_done_ne (different : other ≠ self)
    : (s.store self loaded).done other = s.done other := by
  simp [State.store, different]

end Fields

variable {threads : Finset Thread} {rounds : Nat} {s next : State Thread}

-----------------------------------------------------------------------------------------
-- No value is lower
-----------------------------------------------------------------------------------------

/-- A thread holds a value in the middle of a round it may do, and no value is above the
number of rounds done.
-/
structure Sound (threads : Finset Thread) (rounds : Nat) (s : State Thread) : Prop where
  holder : ∀ {self v}, s.held self = some v → self ∈ threads ∧ s.done self < rounds
  most : ∀ self, s.done self ≤ rounds
  value : s.value ≤ ∑ self ∈ threads, s.done self
  held : ∀ {self v}, s.held self = some v → v ≤ ∑ other ∈ threads, s.done other

/-- A round more adds one to the rounds done. -/
theorem sum_done_store (member : self ∈ threads) (loaded : Nat)
    : ∑ other ∈ threads, (s.store self loaded).done other
      = (∑ other ∈ threads, s.done other) + 1 := by
  rw [← Finset.add_sum_erase _ _ member, ← Finset.add_sum_erase _ s.done member,
    State.store_done_self]
  have others : ∑ other ∈ threads.erase self, (s.store self loaded).done other
      = ∑ other ∈ threads.erase self, s.done other :=
    Finset.sum_congr rfl fun other there => s.store_done_ne loaded (Finset.ne_of_mem_erase there)
  omega

theorem Sound.move (sound : Sound threads rounds s) (moves : Move threads rounds s next)
    : Sound threads rounds next := by
  obtain ⟨holder, most, value, held⟩ := sound
  cases moves with
  | @load self member more free =>
      refine ⟨fun {other v} holding => ?_, most, value, fun {other v} holding => ?_⟩
      · by_cases mine : other = self
        · subst mine
          exact ⟨member, more⟩
        · exact holder (s.load_held_ne mine ▸ holding)
      · by_cases mine : other = self
        · subst mine
          obtain rfl : s.value = v := by simpa using holding
          exact value
        · exact held (s.load_held_ne mine ▸ holding)
  | @store self loaded holding =>
      obtain ⟨member, more⟩ := holder holding
      have below := held holding
      have total := sum_done_store (s := s) member loaded
      refine ⟨fun {other v} holds => ?_, fun other => ?_, ?_, fun {other v} holds => ?_⟩
      · by_cases mine : other = self
        · subst mine
          simp at holds
        · rw [s.store_held_ne loaded mine] at holds
          rw [s.store_done_ne loaded mine]
          exact holder holds
      · by_cases mine : other = self
        · subst mine
          rw [State.store_done_self]
          exact more
        · exact s.store_done_ne loaded mine ▸ most other
      · rw [total, State.store_value]
        omega
      · by_cases mine : other = self
        · subst mine
          simp at holds
        · rw [s.store_held_ne loaded mine] at holds
          have below := held holds
          omega

theorem sound_of_reachable (reached : (system threads rounds).Reachable s)
    : Sound threads rounds s := by
  refine System.Reachable.invariant ?_ ?_ reached
  · intro _ same
    subst same
    constructor <;> simp [start]
  · exact fun _ _ _ sound taken => sound.move (.of_step taken)

/-- When all rounds are done no thread takes a step. -/
theorem not_step_of_finished (sound : Sound threads rounds s)
    (finished : Finished threads rounds s) (action : Action Thread)
    : (system threads rounds).step s action ≠ some next := by
  intro taken
  cases Move.of_step taken with
  | @load self member more _ => exact Nat.ne_of_lt more (finished self member)
  | @store self loaded holding =>
      obtain ⟨member, more⟩ := sound.holder holding
      exact Nat.ne_of_lt more (finished self member)

/-- Once a round is done the value is no longer zero, and a thread that has done one loads no
zero. When all rounds are done, the last store was that of a last round.
-/
structure Floor (threads : Finset Thread) (rounds : Nat) (s : State Thread) : Prop where
  value : ∀ {self}, 0 < s.done self → 0 < s.value
  held : ∀ {self v}, s.held self = some v → 0 < s.done self → 0 < v
  atEnd : 2 ≤ rounds → threads.Nonempty → Finished threads rounds s → 2 ≤ s.value

theorem Floor.move (floor : Floor threads rounds s) (sound : Sound threads rounds s)
    (moves : Move threads rounds s next)
    : Floor threads rounds next := by
  obtain ⟨value, held, atEnd⟩ := floor
  cases moves with
  | @load self member more free =>
      refine ⟨value, fun {other v} holding before => ?_, fun many some finished => ?_⟩
      · by_cases mine : other = self
        · subst mine
          obtain rfl : s.value = v := by simpa using holding
          exact value before
        · exact held (s.load_held_ne mine ▸ holding) before
      · exact absurd (finished self member) (Nat.ne_of_lt more)
  | @store self loaded holding =>
      refine ⟨fun _ => ?_, fun {other v} holds before => ?_, fun many some finished => ?_⟩
      · simp
      · by_cases mine : other = self
        · subst mine
          simp at holds
        · rw [s.store_held_ne loaded mine] at holds
          rw [s.store_done_ne loaded mine] at before
          exact held holds before
      · have last : s.done self + 1 = rounds := by
          simpa using finished self (sound.holder holding).1
        have earlier := held holding (by omega)
        rw [State.store_value]
        omega

theorem floor_of_reachable (reached : (system threads rounds).Reachable s)
    : Floor threads rounds s := by
  refine System.ReachableBy.invariant ?_ ?_ reached
  · intro _ same
    subst same
    refine ⟨fun before => by simp [start] at before, fun holding => by simp [start] at holding,
      fun many some finished => ?_⟩
    obtain ⟨self, member⟩ := some
    have nothing := finished self member
    simp [start] at nothing
    omega
  · exact fun s _ _ before floor _ taken =>
      floor.move (sound_of_reachable before) (.of_step taken)

/-- A thread on its own loses nothing. -/
def Alone (self : Thread) (s : State Thread) : Prop :=
  s.value = s.done self ∧ ∀ v, s.held self = some v → v = s.value

theorem alone_of_reachable {self : Thread} (reached : (system {self} rounds).Reachable s)
    : Alone self s := by
  refine System.ReachableBy.invariant ?_ ?_ reached
  · intro _ same
    subst same
    simp [Alone, start]
  · intro s _ next before ⟨value, held⟩ _ taken
    have sound := sound_of_reachable before
    cases Move.of_step taken with
    | @load other member _ _ =>
        obtain rfl : other = self := Finset.mem_singleton.mp member
        exact ⟨value, by simp⟩
    | @store other loaded holding =>
        obtain rfl : other = self := Finset.mem_singleton.mp (sound.holder holding).1
        have same := held loaded holding
        exact ⟨by simp [same, value], by simp⟩

/-- No schedule leaves a value outside the bounds. -/
theorem final_bounds (reached : (system threads rounds).Reachable s)
    (finished : Finished threads rounds s)
    : least threads.card rounds ≤ s.value ∧ s.value ≤ threads.card * rounds := by
  have floor := floor_of_reachable reached
  have upper := (sound_of_reachable reached).value
  rw [Finset.sum_const_nat finished] at upper
  refine ⟨?_, upper⟩
  unfold least
  split
  next few =>
    rcases Nat.le_one_iff_eq_zero_or_eq_one.mp few with none | one
    · simp [none]
    · obtain ⟨self, rfl⟩ := Finset.card_eq_one.mp one
      have value := (alone_of_reachable reached).1
      simp [value, finished self (Finset.mem_singleton_self self)]
  next many =>
    have some : threads.Nonempty := Finset.card_pos.mp (by omega)
    obtain ⟨self, member⟩ := some
    by_cases twice : 2 ≤ rounds
    · have above := floor.atEnd twice ⟨self, member⟩ finished
      omega
    · by_cases once : rounds = 0
      · simp [once]
      · have before : 0 < s.done self := by
          have all := finished self member
          omega
        have positive := floor.value before
        omega

-----------------------------------------------------------------------------------------
-- Every value in between is left behind by some schedule
-----------------------------------------------------------------------------------------

/-- The rounds that are left to a group of threads. -/
def left (rounds : Nat) (s : State Thread) (group : Finset Thread) : Nat :=
  ∑ self ∈ group, (rounds - s.done self)

/-- A group of threads has done so many whole rounds, one thread at a time, and nobody else
has moved.
-/
structure Advanced (rounds : Nat) (group : Finset Thread) (amount : Nat) (s next : State Thread)
    : Prop where
  value : next.value = s.value + amount
  counted : left rounds next group + amount = left rounds s group
  free : ∀ self ∈ group, next.held self = none
  held : ∀ self ∉ group, next.held self = s.held self
  done : ∀ self ∉ group, next.done self = s.done self

theorem reachable_load (reached : (system threads rounds).Reachable s) {self : Thread}
    (member : self ∈ threads) (more : s.done self < rounds) (free : s.held self = none)
    : (system threads rounds).Reachable (s.load self) := by
  have taken : (system threads rounds).step s (.load self) = some (s.load self) :=
    if_pos ⟨member, more, free⟩
  exact reached.next taken

theorem reachable_store (reached : (system threads rounds).Reachable s) {self : Thread}
    {loaded : Nat} (holding : s.held self = some loaded)
    : (system threads rounds).Reachable (s.store self loaded) := by
  have taken : (system threads rounds).step s (.store self) = some (s.store self loaded) := by
    simp [system, step, holding]
  exact reached.next taken

theorem left_store {group : Finset Thread} {self : Thread} (member : self ∈ group)
    (more : s.done self < rounds) (loaded : Nat)
    : left rounds (s.store self loaded) group + 1 = left rounds s group := by
  unfold left
  rw [← Finset.add_sum_erase _ _ member,
    ← Finset.add_sum_erase _ (fun other => rounds - s.done other) member,
    State.store_done_self]
  have others : ∑ other ∈ group.erase self, (rounds - (s.store self loaded).done other)
      = ∑ other ∈ group.erase self, (rounds - s.done other) := by
    refine Finset.sum_congr rfl fun other there => ?_
    rw [s.store_done_ne loaded (Finset.ne_of_mem_erase there)]
  omega

/-- Threads that are between rounds can do any number of the rounds left to them, by induction
on that number.
-/
theorem advance (reached : (system threads rounds).Reachable s) (group : Finset Thread)
    (inside : group ⊆ threads) (free : ∀ self ∈ group, s.held self = none) (amount : Nat)
    (enough : amount ≤ left rounds s group)
    : ∃ next, (system threads rounds).Reachable next ∧ Advanced rounds group amount s next := by
  induction amount generalizing s with
  | zero => exact ⟨s, reached, rfl, rfl, free, fun _ _ => rfl, fun _ _ => rfl⟩
  | succ amount ih =>
      obtain ⟨self, member, more⟩ : ∃ self ∈ group, s.done self < rounds := by
        by_contra all
        have nothing : left rounds s group = 0 := Finset.sum_eq_zero fun self member => by
          exact Nat.sub_eq_zero_of_le (Nat.le_of_not_lt fun more => all ⟨self, member, more⟩)
        omega
      have round := reachable_store
        (reachable_load reached (inside member) more (free self member)) (s.load_held_self)
      have counted := left_store (s := s.load self) member more s.value
      have same : left rounds (s.load self) group = left rounds s group := rfl
      obtain ⟨next, later, value, counted', free', held, done⟩ := ih round
        (fun other there => by
          by_cases mine : other = self
          · simp [mine]
          · rw [State.store_held_ne _ _ mine, State.load_held_ne _ mine]
            exact free other there)
        (by omega)
      refine ⟨next, later, ?_, ?_, free', ?_, ?_⟩
      · rw [value, State.store_value]
        omega
      · omega
      · intro other outside
        have different : other ≠ self := fun mine => outside (mine ▸ member)
        rw [held other outside, State.store_held_ne _ _ different,
          State.load_held_ne _ different]
      · intro other outside
        have different : other ≠ self := fun mine => outside (mine ▸ member)
        rw [done other outside, State.store_done_ne _ _ different, State.load_done]

/-- What a group advances is taken from what is left to all threads. -/
theorem Advanced.left_of_subset {group : Finset Thread} {amount : Nat}
    (advanced : Advanced rounds group amount s next) (inside : group ⊆ threads)
    : left rounds next threads + amount = left rounds s threads := by
  have counted := advanced.counted
  unfold left at *
  rw [← Finset.sum_sdiff inside,
    ← Finset.sum_sdiff (f := fun other => rounds - s.done other) inside]
  have others : ∑ other ∈ threads \ group, (rounds - next.done other)
      = ∑ other ∈ threads \ group, (rounds - s.done other) := by
    refine Finset.sum_congr rfl fun other there => ?_
    rw [advanced.done other (Finset.mem_sdiff.mp there).2]
  omega

/-- Once no thread holds a value, the rounds that are left can be done without a loss. -/
theorem complete (reached : (system threads rounds).Reachable s)
    (free : ∀ self ∈ threads, s.held self = none)
    : ∃ final,
        (system threads rounds).Reachable final
        ∧ Finished threads rounds final
        ∧ final.value = s.value + left rounds s threads := by
  obtain ⟨final, later, value, counted, _, _, _⟩ :=
    advance reached threads (Finset.Subset.refl threads) free _ (Nat.le_refl _)
  refine ⟨final, later, fun self member => ?_, value⟩
  have nothing : left rounds final threads = 0 := by omega
  have spent : rounds - final.done self = 0 := Finset.sum_eq_zero_iff.mp nothing self member
  have most := (sound_of_reachable later).most self
  omega

/-- A thread that loads before the other threads do some rounds, and stores after them, undoes
these rounds.
-/
theorem final_of_one_window {self : Thread} (member : self ∈ threads) (positive : 0 < rounds)
    {lost : Nat} (few : lost ≤ (threads.card - 1) * rounds)
    : ∃ final,
        (system threads rounds).Reachable final
        ∧ Finished threads rounds final
        ∧ final.value + lost = threads.card * rounds := by
  have initially : (system threads rounds).Reachable (start Thread) := .initial rfl
  have loaded := reachable_load initially member positive rfl
  have others : left rounds ((start Thread).load self) (threads.erase self)
      = (threads.card - 1) * rounds := by
    rw [← Finset.card_erase_of_mem member]
    exact Finset.sum_const_nat fun _ _ => rfl
  obtain ⟨middle, reached, value, counted, free, held, done⟩ :=
    advance loaded (threads.erase self) (Finset.erase_subset self threads)
      (fun other there => State.load_held_ne _ (Finset.ne_of_mem_erase there))
      lost (few.trans_eq others.symm)
  have holding : middle.held self = some 0 := by
    rw [held self (Finset.notMem_erase self threads)]
    simp [start]
  have fresh : middle.done self = 0 := done self (Finset.notMem_erase self threads)
  obtain ⟨final, later, finished, value'⟩ := complete (reachable_store reached holding)
    (fun other there => by
      by_cases mine : other = self
      · simp [mine]
      · rw [State.store_held_ne _ _ mine]
        exact free other (Finset.mem_erase.mpr ⟨mine, there⟩))
  refine ⟨final, later, finished, ?_⟩
  have counted' : left rounds (middle.store self 0) threads + 1 = left rounds middle threads :=
    left_store member (by omega) 0
  have split : left rounds middle threads
      = rounds - middle.done self + left rounds middle (threads.erase self) :=
    (Finset.add_sum_erase threads (fun other => rounds - middle.done other) member).symm
  have all : threads.card * rounds = (threads.card - 1) * rounds + rounds := by
    rw [← Nat.succ_mul, Nat.succ_eq_add_one,
      Nat.sub_add_cancel (Finset.card_pos.mpr ⟨self, member⟩)]
  rw [value', State.store_value]
  omega

/-- Two windows: `self` undoes all rounds of the others but the last one of `other`, whose own
window then undoes rounds of `self`.
-/
theorem final_of_two_windows {self other : Thread} (member : self ∈ threads)
    (member' : other ∈ threads) (different : other ≠ self) (many : 2 ≤ rounds) (kept : Nat)
    (few : kept < rounds)
    : ∃ final,
        (system threads rounds).Reachable final
        ∧ Finished threads rounds final
        ∧ final.value = 2 + kept := by
  have initially : (system threads rounds).Reachable (start Thread) := .initial rfl
  have loaded := reachable_load initially member (Nat.lt_of_lt_of_le Nat.zero_lt_two many) rfl
  -- all rounds of the threads that are neither of the two, and all but one of `other`
  obtain ⟨one, reached, rest⟩ :=
    advance loaded ((threads.erase self).erase other)
      ((Finset.erase_subset _ _).trans (Finset.erase_subset _ _))
      (fun third there => State.load_held_ne _
        (Finset.ne_of_mem_erase (Finset.mem_of_mem_erase there)))
      _ (Nat.le_refl _)
  have fresh : one.done other = 0 := rest.done other (Finset.notMem_erase _ _)
  obtain ⟨two, reached, most⟩ :=
    advance reached {other} (by simpa using member')
      (fun third there => by
        obtain rfl := Finset.mem_singleton.mp there
        rw [rest.held _ (Finset.notMem_erase _ _), State.load_held_ne _ different]
        rfl)
      (rounds - 1) (by simp [left, fresh])
  have last : two.done other = rounds - 1 := by
    have counted := most.counted
    simp only [left, Finset.sum_singleton, fresh] at counted
    omega
  have untouched : two.held self = some 0 ∧ two.done self = 0 := by
    have elsewhere : self ∉ ({other} : Finset Thread) := by simpa using different.symm
    have elsewhere' : self ∉ (threads.erase self).erase other := by simp
    rw [most.held self elsewhere, most.done self elsewhere, rest.held self elsewhere',
      rest.done self elsewhere']
    simp [start]
  -- `other` loads right after the store of `self`
  have stored := reachable_store reached untouched.1
  have window := reachable_load stored member' (by
      rw [State.store_done_ne _ _ different]
      omega)
    ((State.store_held_ne _ _ different).trans (most.free other (Finset.mem_singleton_self _)))
  obtain ⟨three, reached, undone⟩ :=
    advance window {self} (by simpa using member)
      (fun third there => by
        obtain rfl := Finset.mem_singleton.mp there
        rw [State.load_held_ne _ different.symm, State.store_held_self])
      (rounds - 1 - kept) (by simp [left, untouched.2])
  have holding : three.held other = some 1 := by
    rw [undone.held other (by simpa using different)]
    simp
  obtain ⟨final, later, finished, value⟩ := complete (reachable_store reached holding)
    (fun third there => by
      by_cases mine : third = other
      · simp [mine]
      · rw [State.store_held_ne _ _ mine]
        by_cases mine' : third = self
        · exact undone.free third (Finset.mem_singleton.mpr mine')
        · rw [undone.held third (by simpa using mine'), State.load_held_ne _ mine,
            State.store_held_ne _ _ mine', most.held third (by simpa using mine)]
          exact rest.free third (by simp [mine, mine', there]))
  refine ⟨final, later, finished, ?_⟩
  -- the rounds that are left after each part of the schedule
  have all : rounds + (rounds + left rounds ((start Thread).load self)
        ((threads.erase self).erase other)) = left rounds ((start Thread).load self) threads := by
    have once := Finset.add_sum_erase threads
      (fun third => rounds - ((start Thread).load self).done third) member
    have twice := Finset.add_sum_erase (threads.erase self)
      (fun third => rounds - ((start Thread).load self).done third)
      (Finset.mem_erase.mpr ⟨different, member'⟩)
    simp only [State.load_done, start, Nat.sub_zero] at once twice
    simp only [left, State.load_done, start, Nat.sub_zero]
    omega
  have afterRest := rest.left_of_subset
    ((Finset.erase_subset other _).trans (Finset.erase_subset self threads))
  have afterMost := most.left_of_subset (Finset.singleton_subset_iff.mpr member')
  have afterStore : left rounds (two.store self 0) threads + 1 = left rounds two threads :=
    left_store member (by omega) 0
  have afterUndone : left rounds three threads + (rounds - 1 - kept)
      = left rounds (two.store self 0) threads :=
    undone.left_of_subset (Finset.singleton_subset_iff.mpr member)
  have more : three.done other < rounds := ((sound_of_reachable reached).holder holding).2
  have afterWindow : left rounds (three.store other 1) threads + 1 = left rounds three threads :=
    left_store member' more 1
  rw [value, State.store_value]
  omega

/-- Exactly the values from `least` up to the number of all rounds are left behind, each by
some schedule.
-/
theorem final_value_iff (threads : Finset Thread) (rounds value : Nat)
    : (∃ s,
        (system threads rounds).Reachable s ∧ Finished threads rounds s ∧ s.value = value)
      ↔ least threads.card rounds ≤ value ∧ value ≤ threads.card * rounds := by
  constructor
  · rintro ⟨s, reached, finished, rfl⟩
    exact final_bounds reached finished
  · intro ⟨atLeast, atMost⟩
    by_cases nothing : threads.card * rounds = 0
    · have initially : (system threads rounds).Reachable (start Thread) := .initial rfl
      obtain ⟨final, later, finished, _⟩ := complete initially fun _ _ => rfl
      have below := (final_bounds later finished).2
      exact ⟨final, later, finished, by omega⟩
    · obtain ⟨some, positive⟩ := Nat.mul_ne_zero_iff.mp nothing
      obtain ⟨self, member⟩ := Finset.card_ne_zero.mp some
      by_cases large : rounds ≤ value
      · have few : threads.card * rounds - value ≤ (threads.card - 1) * rounds := by
          rw [Nat.sub_one_mul]
          omega
        obtain ⟨final, later, finished, counted⟩ :=
          final_of_one_window member (Nat.pos_of_ne_zero positive) few
        exact ⟨final, later, finished, by omega⟩
      · unfold least at atLeast
        split at atLeast
        next single =>
          have one : threads.card = 1 := by omega
          rw [one] at atLeast
          omega
        next several =>
          obtain ⟨other, member', different⟩ :=
            Finset.exists_mem_ne (Nat.lt_of_not_le several) self
          have many : 2 ≤ rounds := by omega
          obtain ⟨final, later, finished, counted⟩ :=
            final_of_two_windows member member' different many (value - 2) (by omega)
          exact ⟨final, later, finished, by omega⟩

end LinuxStudy.Sync.LostUpdates
