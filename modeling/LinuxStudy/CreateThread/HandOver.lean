import LinuxStudy.CreateThread.Model
import LinuxStudy.Histories.Ring
import Mathlib.Data.List.Basic

/-! The buffer of `create_thread_test.c` as a ring. The reader follows the writer as long as
the writer finds each cell empty; nothing in the code makes it wait for that, and the end of
the input is stored like a character.
-/

namespace LinuxStudy.CreateThread

open Transition Posix Histories

/-- The writer is not a whole round ahead and not past the end of its input: the next cell is
empty when it stores, and there is something to read when it reads.
-/
def KeepsPace (s : State) (action : Action) : Prop :=
  action = .thread1
  → match s.input with
    | .read => s.stdin ≠ []
    | .store _ => s.buf s.inputIndex = 0

instance (s : State) (action : Action) : Decidable (KeepsPace s action) := by
  unfold KeepsPace
  cases s.input <;> infer_instance

/-- A character that has been put out and not yet been cleared. -/
def OutputPc.behind : OutputPc → Nat
  | .newline | .clear => 1
  | .test | .put => 0

/-- The cells the reader has given back. -/
def State.cleared (s : State) : Nat := s.printed.length - s.output.behind

/-- The character `thread1_func` is about to store, if any. -/
def InputPc.pending : InputPc → Bytes
  | .read => []
  | .store c => [c]

-----------------------------------------------------------------------------------------
-- The indices stay inside the buffer
-----------------------------------------------------------------------------------------

/-- Both indices lead to a cell of the buffer. -/
def InBounds (s : State) : Prop := s.inputIndex < bufLen ∧ s.outputIndex < bufLen

theorem bufLen_pos : 0 < bufLen := by decide

theorem nextIndex_lt {i : Nat} : nextIndex i < bufLen := by
  unfold nextIndex
  split
  · exact bufLen_pos
  · omega

/-- Whatever the threads do, their indices stay inside the buffer. -/
theorem inBounds_of_reachable {input : Bytes} {s : State}
    (reached : (system input).Reachable s)
    : InBounds s := by
  refine System.Reachable.invariant ?_ ?_ reached
  · intro _ same
    subst same
    exact ⟨bufLen_pos, bufLen_pos⟩
  · intro s action next bounds taken
    cases action with
    | thread1 =>
        obtain rfl := Option.some.inj taken
        unfold thread1Func
        cases s.input with
        | read => exact bounds
        | store c => exact ⟨nextIndex_lt, bounds.2⟩
    | thread2 =>
        obtain rfl := Option.some.inj taken
        unfold thread2Func
        cases s.output with
        | test | put | newline => exact bounds
        | clear => exact ⟨bounds.1, nextIndex_lt⟩

-----------------------------------------------------------------------------------------
-- The ring
-----------------------------------------------------------------------------------------

/-- The cells hold what has been written and not been cleared, the indices follow the two
counts, and the printed characters are the first of the written ones.
-/
structure Flows (input : Bytes) (s : State) : Prop where
  ring : RingHolds bufLen 0 s.buf s.written s.cleared
  proper : ∀ c ∈ s.written ++ s.input.pending, c ≠ 0
  read : s.written ++ s.input.pending ++ s.stdin.filter wanted = input.filter wanted
  printed : s.printed <+: s.written
  behind : s.output.behind ≤ s.printed.length
  inputIndex : s.inputIndex = s.written.length % bufLen
  outputIndex : s.outputIndex = s.cleared % bufLen
  occupied : s.output ≠ .test → s.buf s.outputIndex ≠ 0

theorem nextIndex_mod (n : Nat) : nextIndex (n % bufLen) = (n + 1) % bufLen :=
  next_mod bufLen_pos

section Step

variable {input : Bytes} {s : State}

/-- A step of the writer that keeps pace fills the ring in the order of the input. -/
theorem Flows.thread1Func (flows : Flows input s) (pace : KeepsPace s .thread1)
    : Flows input (thread1Func s) := by
  obtain ⟨ring, proper, read, printed, behind, inputIndex, outputIndex, occupied⟩ := flows
  have pace := pace rfl
  unfold CreateThread.thread1Func
  cases here : s.input with
  | read =>
      simp only [here] at pace proper read ⊢
      obtain ⟨c, rest, first⟩ := List.exists_cons_of_ne_nil pace
      rw [first] at read ⊢
      cases keep : wanted c with
      | false =>
          refine ⟨ring, proper, ?_, printed, behind, inputIndex, outputIndex, occupied⟩
          simpa [keep] using read
      | true =>
          refine ⟨ring, ?_, ?_, printed, behind, inputIndex, outputIndex, occupied⟩
          · have visible : c ≠ 0 := by
              simp only [wanted, decide_eq_true_eq] at keep
              exact keep.1
            intro other member
            rcases List.mem_append.mp member with old | new
            · exact proper other (List.mem_append_left _ old)
            · obtain rfl : other = c := List.mem_singleton.mp new
              exact visible
          · simpa [keep, InputPc.pending] using read
  | store c =>
      simp only [here] at pace proper read ⊢
      rw [inputIndex] at pace ⊢
      have visible : ∀ c ∈ s.written, c ≠ 0 := fun c member =>
        proper c (List.mem_append_left _ member)
      have room := ring.not_full bufLen_pos visible pace
      refine ⟨ring.write room c, ?_, ?_, ?_, behind, ?_, outputIndex, ?_⟩
      · simpa [InputPc.pending] using proper
      · simpa [InputPc.pending] using read
      · exact printed.trans (List.prefix_append _ _)
      · rw [nextIndex_mod]
        simp
      · intro inside
        have before := occupied inside
        -- the reader's cell is full, the writer's is empty
        have apart : s.outputIndex ≠ s.written.length % bufLen := by
          intro same
          exact before (same ▸ pace)
        simpa [Function.update_of_ne apart] using before

/-- A step of the reader prints the oldest character, or clears its cell. -/
theorem Flows.thread2Func (flows : Flows input s) : Flows input (thread2Func s) := by
  obtain ⟨ring, proper, read, printed, behind, inputIndex, outputIndex, occupied⟩ := flows
  unfold CreateThread.thread2Func
  cases here : s.output with
  | test =>
      have cleared : s.cleared = s.printed.length := by simp [State.cleared, here, OutputPc.behind]
      rw [cleared] at ring outputIndex
      by_cases full : s.buf s.outputIndex ≠ 0
      · simp only [if_pos full]
        exact ⟨ring, proper, read, printed, Nat.zero_le _, inputIndex, outputIndex,
          fun _ => full⟩
      · simp only [if_neg full]
        exact ⟨ring, proper, read, printed, Nat.zero_le _, inputIndex, outputIndex,
          fun inside => absurd rfl inside⟩
  | put =>
      have cleared : s.cleared = s.printed.length := by simp [State.cleared, here, OutputPc.behind]
      have full := occupied (by simp [here])
      rw [cleared] at ring outputIndex
      obtain ⟨bound, oldest⟩ := ring.oldest bufLen_pos (outputIndex ▸ full)
      have next : s.buf s.outputIndex = s.written[s.printed.length] := outputIndex ▸ oldest
      refine ⟨?_, proper, read, ?_, ?_, inputIndex, ?_, fun _ => full⟩
      · simpa [State.cleared, OutputPc.behind] using ring
      · change s.printed ++ [s.buf s.outputIndex] <+: s.written
        have first : s.printed = s.written.take s.printed.length :=
          List.prefix_iff_eq_take.mp printed
        have more : s.printed ++ [s.written[s.printed.length]]
            = s.written.take (s.printed.length + 1) := by
          conv_lhs => arg 1; rw [first]
          exact List.take_append_getElem bound
        rw [next, more]
        exact List.take_prefix _ _
      · simp [OutputPc.behind]
      · simpa [State.cleared, OutputPc.behind] using outputIndex
  | newline =>
      refine ⟨?_, proper, read, printed, ?_, inputIndex, ?_, fun _ => occupied (by simp [here])⟩
      · simpa [State.cleared, here, OutputPc.behind] using ring
      · simpa [here, OutputPc.behind] using behind
      · simpa [State.cleared, here, OutputPc.behind] using outputIndex
  | clear =>
      have cleared : s.cleared + 1 = s.printed.length := by
        have one : 1 ≤ s.printed.length := by simpa [here, OutputPc.behind] using behind
        simp only [State.cleared, here, OutputPc.behind]
        omega
      have bound : s.cleared < s.written.length := by
        have few := printed.length_le
        omega
      rw [outputIndex]
      refine ⟨?_, proper, read, printed, Nat.zero_le _, inputIndex, ?_,
        fun inside => absurd rfl inside⟩
      · have after := ring.clear bound
        rw [cleared] at after
        simpa [State.cleared, OutputPc.behind] using after
      · rw [nextIndex_mod, cleared]
        simp [State.cleared, OutputPc.behind]

end Step

/-- In every state reached with the writer keeping pace, the ring holds. -/
theorem flows_of_reachable {input : Bytes} {s : State}
    (reached : (system input).ReachableBy KeepsPace s)
    : Flows input s := by
  apply reached.invariant
  · intro _ same
    subst same
    refine ⟨.empty, ?_, ?_, List.nil_prefix, Nat.le_refl _, rfl, rfl, ?_⟩
    · exact fun c none => absurd none List.not_mem_nil
    · rfl
    · exact fun inside => absurd rfl inside
  · intro s action next _ flows pace taken
    cases action with
    | thread1 =>
        obtain rfl := Option.some.inj taken
        exact flows.thread1Func pace
    | thread2 =>
        obtain rfl := Option.some.inj taken
        exact flows.thread2Func

-----------------------------------------------------------------------------------------
-- The hand-over
-----------------------------------------------------------------------------------------

/-- What is printed is the start of the input, and every written character that is not printed
is still in its cell.
-/
structure HandedOver (input : Bytes) (s : State) : Prop where
  bounds : InBounds s
  inOrder : s.printed <+: input.filter wanted
  kept
    : ∀ k (bound : k < s.written.length),
        s.printed.length ≤ k → s.buf (k % bufLen) = s.written[k]

theorem Flows.handedOver {input : Bytes} {s : State} (flows : Flows input s)
    (bounds : InBounds s)
    : HandedOver input s where
  bounds := bounds
  inOrder := by
    have written : s.written <+: input.filter wanted := by
      rw [← flows.read, List.append_assoc]
      exact List.prefix_append _ _
    exact flows.printed.trans written
  kept k bound later := by
    refine flows.ring.held k bound ?_
    unfold State.cleared
    omega

/-- The indices never leave the buffer. As long as the writer finds its next cell empty and
its input goes on, the threads hand over the input.
-/
theorem handOver (input : Bytes)
    : (∀ s, (system input).Reachable s → InBounds s)
      ∧ ∀ s, (system input).ReachableBy KeepsPace s → HandedOver input s := by
  refine ⟨fun s reached => inBounds_of_reachable reached, fun s reached => ?_⟩
  exact (flows_of_reachable reached).handedOver (inBounds_of_reachable reached.reachable)

/-- Three characters with a newline between them; the reader prints one while the writer goes on,
and is about to clear the second one's cell in the end.
-/
def threeCharacters : List Action :=
  [.thread1, .thread1, .thread2, .thread1, .thread2, .thread1, .thread2, .thread1, .thread1,
    .thread2, .thread2, .thread1, .thread2, .thread2]

/-- A run that keeps pace prints its input in order. -/
theorem handOver_threeCharacters
    : ∃ s : State,
        s.written = [97, 98, 99]
        ∧ s.printed = [97, 98]
        ∧ HandedOver [97, 10, 98, 99] s :=
  ⟨_, rfl, rfl, (handOver [97, 10, 98, 99]).2 _ (System.reachable_restrict_iff.mp
    (System.reachable_of_run (start [97, 10, 98, 99]) rfl threeCharacters rfl))⟩

/-- The writer stores one character, the reader prints it. -/
def oneCharacter : List Action :=
  [.thread1, .thread1, .thread2, .thread2]

/-- At the end of the input the writer stores `(char)EOF`, and the reader prints it. -/
theorem handOver_endOfInput
    : ¬∀ (input : Bytes) (s : State), (system input).Reachable s → HandedOver input s := by
  intro always
  have reached : (system []).Reachable _ :=
    System.reachable_of_run (start []) rfl oneCharacter rfl
  have none := (always [] _ reached).inOrder
  exact absurd (List.prefix_nil.mp none) (List.cons_ne_nil _ _)

end LinuxStudy.CreateThread
