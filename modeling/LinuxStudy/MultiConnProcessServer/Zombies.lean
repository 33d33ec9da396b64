import LinuxStudy.MultiConnProcessServer.Steps
import Mathlib.Data.List.Nodup

/-! `zombie_handler` of `multi_conn_process_server.c` reaps every child, although signals
that arrive while one is pending are merged into it.
-/

namespace LinuxStudy.MultiConnProcessServer

open Transition Posix MultiConn

/-- The handler is inside its `while` loop and will call `waitpid` again. -/
def HandlerPc.inLoop : HandlerPc → Bool
  | .waitpid | .report _ _ => true
  | .idle | .returning => false

/-- What a call of a child means for its parent: the child goes on, or it ends. -/
theorem ChildMove.effect {s next : State} {i : Nat} {child : Child} {call : Call}
    (taken : ChildMove s i child call next)
    : child.running
      ∧ ((∃ new : Child,
            new.running
            ∧ next.children = s.children.set i new
            ∧ next.handler = s.handler
            ∧ next.pending = s.pending
            ∧ next.reaped = s.reaped)
          ∨ ∃ status, next = endChild s i child status) := by
  cases taken
  case sendFails here | exit here =>
    exact ⟨by simp [Child.running, Child.unreaped, Child.ended, here], Or.inr ⟨_, rfl⟩⟩
  case killed here => exact ⟨here, Or.inr ⟨_, rfl⟩⟩
  all_goals
    refine ⟨by simp [Child.running, Child.unreaped, Child.ended, *], Or.inl ⟨_, ?_, rfl, ?_⟩⟩
    · simp [Child.running, Child.unreaped, Child.ended]
    · exact ⟨rfl, rfl, rfl⟩

/-- Every ended child is awaited, and each is reaped once. -/
structure Collected (s : State) : Prop where
  awaited
    : (∃ child ∈ s.children, child.ended) → s.pending = true ∨ s.handler.inLoop = true
  once : s.reaped.Nodup
  marked : ∀ pid ∈ s.reaped, ∃ child, s.children[pid]? = some child ∧ child.pc = .reaped

/-- Steps that touch neither children nor signals. -/
theorem Collected.of_eq {s next : State} (collected : Collected s)
    (children : next.children = s.children) (handler : next.handler.inLoop = s.handler.inLoop)
    (pending : next.pending = s.pending) (reaped : next.reaped = s.reaped)
    : Collected next := by
  obtain ⟨awaited, once, marked⟩ := collected
  constructor
  · rwa [children, handler, pending]
  · rwa [reaped]
  · rwa [children, reaped]

/-- Replacing the record of a running child leaves the reaped ones as they were. -/
theorem Collected.marked_set {s : State} (collected : Collected s) {i : Nat} {child : Child}
    (found : s.children[i]? = some child) (running : child.running) (new : Child)
    : ∀ pid ∈ s.reaped,
        ∃ child, (s.children.set i new)[pid]? = some child ∧ child.pc = .reaped := by
  intro pid member
  obtain ⟨old, there, reaped⟩ := collected.marked pid member
  have different : i ≠ pid := by
    intro same
    subst same
    obtain rfl : child = old := Option.some.inj (found.symm.trans there)
    exact running.1 reaped
  exact ⟨old, by rw [List.getElem?_set_ne different, there], reaped⟩

/-- A child that ends raises the signal, or is collected by `init`. -/
theorem Collected.endChild {s : State} (collected : Collected s) {i : Nat} {child : Child}
    (found : s.children[i]? = some child) (running : child.running) (status : Status)
    : Collected (endChild s i child status) := by
  unfold MultiConnProcessServer.endChild
  split
  next dead =>
    refine ⟨?_, collected.once, collected.marked_set found running _⟩
    intro found
    obtain ⟨other, member, ended⟩ := found
    rcases List.mem_or_eq_of_mem_set member with old | rfl
    · exact collected.awaited ⟨other, old, ended⟩
    · simp [Child.ended] at ended
  next alive =>
    exact ⟨fun _ => Or.inl rfl, collected.once, collected.marked_set found running _⟩

/-- Every step keeps ended children awaited and reaped once. -/
theorem Collected.move {s next : State} {action : Action} (collected : Collected s)
    (taken : Move s action next)
    : Collected next := by
  cases taken with
  | connect | network _ | acceptClient _ _ | acceptFails _ | testFailed _ _
  | testAccepted _ _ | retry _ _ | forkFails _ | closeClient _ =>
      exact collected.of_eq rfl rfl rfl rfl
  | handleError here failed =>
      refine ⟨?_, collected.once, ?_⟩
      · intro held
        obtain ⟨child, member, status, ended⟩ := held
        obtain ⟨old, _, rfl⟩ := List.mem_map.mp member
        split at ended <;> simp_all
      · intro pid member
        obtain ⟨child, there, reaped⟩ := collected.marked pid member
        exact ⟨child, by simp [there, reaped], reaped⟩
  | forkChild here last =>
      refine ⟨?_, collected.once, ?_⟩
      · intro held
        obtain ⟨child, member, ended⟩ := held
        rcases List.mem_append.mp member with old | new
        · exact collected.awaited ⟨child, old, ended⟩
        · obtain rfl := List.mem_singleton.mp new
          simp [Child.ended] at ended
      · intro pid member
        obtain ⟨child, there, reaped⟩ := collected.marked pid member
        have bound := (List.getElem?_eq_some_iff.mp there).1
        exact ⟨child, by rw [List.getElem?_append_left bound, there], reaped⟩
  | deliverSignal _ _ _ _ => exact ⟨fun _ => Or.inr rfl, collected.once, collected.marked⟩
  | @waitpidReaps pid child status here found ended =>
      have bound := (List.getElem?_eq_some_iff.mp found).1
      have unreaped : pid ∉ s.reaped := by
        intro member
        obtain ⟨other, there, reaped⟩ := collected.marked pid member
        obtain rfl : child = other := Option.some.inj (found.symm.trans there)
        simp [ended] at reaped
      refine ⟨fun _ => Or.inr rfl, ?_, ?_⟩
      · rw [List.nodup_append]
        refine ⟨collected.once, by simp, ?_⟩
        intro other member last same equal
        exact unreaped (List.mem_singleton.mp same ▸ equal ▸ member)
      · intro other member
        by_cases mine : pid = other
        · subst mine
          exact ⟨{ child with pc := .reaped }, by simp [State.setChild, bound], rfl⟩
        · have before : other ∈ s.reaped := by
            rcases List.mem_append.mp member with old | new
            · exact old
            · exact absurd (List.mem_singleton.mp new).symm mine
          obtain ⟨old, there, reaped⟩ := collected.marked other before
          exact ⟨old, by simp [State.setChild, List.getElem?_set_ne mine, there], reaped⟩
  | waitpidDone here none =>
      refine ⟨?_, collected.once, collected.marked⟩
      intro held
      obtain ⟨child, member, ended⟩ := held
      exact absurd ended (none child member)
  | reportChild here => exact collected.of_eq rfl (by simp [here, HandlerPc.inLoop]) rfl rfl
  | handlerReturns here => exact collected.of_eq rfl (by simp [here, HandlerPc.inLoop]) rfl rfl
  | child found taken =>
      obtain ⟨running, ⟨new, goesOn, children, handler, pending, reaped⟩ | ⟨status, rfl⟩⟩ :=
        taken.effect
      · refine ⟨?_, ?_, ?_⟩
        · rw [children, handler, pending]
          intro found
          obtain ⟨other, member, ended⟩ := found
          rcases List.mem_or_eq_of_mem_set member with old | rfl
          · exact collected.awaited ⟨other, old, ended⟩
          · exact absurd ended goesOn.2
        · rw [reaped]
          exact collected.once
        · rw [children, reaped]
          exact collected.marked_set found running new
      · exact collected.endChild found running status

theorem collected_of_reachable {s : State} (reached : system.Reachable s) : Collected s := by
  apply reached.invariant
  · intro s started
    constructor <;> simp [started.children, started.reaped]
  · exact fun _ _ _ collected taken => collected.move (.of_step taken)

/-- An ended child that is not reaped has a signal pending for it or finds the handler in its
loop; no child is reaped twice; and nothing is left when no signal is pending and the handler
does not run.
-/
theorem noZombieLeft {s : State} (reached : system.Reachable s)
    : ((∃ child ∈ s.children, child.ended) → s.pending = true ∨ s.handler.inLoop = true)
      ∧ s.reaped.Nodup
      ∧ (s.pending = false → s.handler = .idle → ∀ child ∈ s.children, ¬ child.ended) := by
  have collected := collected_of_reachable reached
  refine ⟨collected.awaited, collected.once, fun quiet idle child member ended => ?_⟩
  rcases collected.awaited ⟨child, member, ended⟩ with raised | inLoop
  · simp [quiet] at raised
  · simp [idle, HandlerPc.inLoop] at inLoop

/-- Two children exit while the handler does not run; one merged signal is delivered. -/
def mergedSignal : List Action :=
  [.connect, .connect, .acceptClient, .testResult, .forkChild, .closeClient, .acceptClient,
    .testResult, .forkChild, .closeClient, .child 0 (.killed 9), .child 1 (.killed 9),
    .deliverSignal true]

/-- The handler is in its loop for both of them. -/
theorem noZombieLeft_mergedSignal
    : ∃ s : State, s.children.map (·.pc) = [.zombie (.signaled 9), .zombie (.signaled 9)]
        ∧ s.pending = false ∧ (s.pending = true ∨ s.handler.inLoop = true) := by
  have run : (system.exec start mergedSignal).isSome := by decide
  have reached : system.Reachable _ :=
    System.reachable_of_run start start_started mergedSignal run
  have ended : ∃ child ∈ ((system.exec start mergedSignal).get run).children, child.ended :=
    ⟨_, List.mem_cons_self, _, rfl⟩
  exact ⟨_, rfl, rfl, (noZombieLeft reached).1 ended⟩

end LinuxStudy.MultiConnProcessServer
