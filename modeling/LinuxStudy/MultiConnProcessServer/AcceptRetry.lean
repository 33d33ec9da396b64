import LinuxStudy.MultiConnProcessServer.Zombies
import LinuxStudy.Transition.Progress

/-! The `EINTR` branch of the accept loop of `multi_conn_process_server.c`. `zombie_handler`
leaves `ECHILD` in `errno` when it reaps the last child; if it runs between the return of
`accept` and the test of `errno`, the server takes the interruption for a failure.
-/

namespace LinuxStudy.MultiConnProcessServer

open Transition Posix MultiConn

/-- `accept` has returned -1 and `errno` has not been tested. -/
def State.retrying (s : State) : Prop :=
  s.main = .testResult ∧ s.clientfd = none ∨ s.main = .testErrno

instance (s : State) : Decidable s.retrying := by
  unfold State.retrying
  infer_instance

/-- The call ends the child. -/
def Call.ends : Call → Bool
  | .sendFails | .exit | .killed _ => true
  | _ => false

instance (child : Child) : Decidable child.running := by
  unfold Child.running
  infer_instance

/-- `accept` fails in no other way than by being interrupted. -/
def OnlyInterrupted (_ : State) (action : Action) : Prop := action ≠ .acceptFails .other

instance (s : State) (action : Action) : Decidable (OnlyInterrupted s action) := by
  unfold OnlyInterrupted
  infer_instance

/-- A handler that runs between the return of `accept` and the test of `errno` finds a child
that has not ended, as long as it is in its loop.
-/
def LeavesChild (s : State) : Action → Prop
  | .acceptFails errno => errno = .interrupted
  | .deliverSignal _ => s.retrying → ∃ child ∈ s.children, child.running
  | .child i call =>
      s.retrying
      → s.handler.inLoop = true
      → call.ends = true
      → ∃ child ∈ s.children.eraseIdx i, child.running
  | _ => True

instance (s : State) (action : Action) : Decidable (LeavesChild s action) := by
  unfold LeavesChild
  split <;> infer_instance

/-- The server is alive, `errno` still holds `EINTR` when it is about to be tested, and a
handler that could change it has a running child to find.
-/
structure Retries (s : State) : Prop where
  alive : s.main ≠ .dead
  errno : s.retrying → s.errno = .interrupted
  found : s.retrying → s.handler.inLoop = true → ∃ child ∈ s.children, child.running

section Step

variable {s next : State} {action : Action}

/-- What a call of a child leaves as it is, and which children run behind it. -/
theorem ChildMove.running {i : Nat} {child : Child} {call : Call}
    (taken : ChildMove s i child call next) (found : s.children[i]? = some child)
    : next.main = s.main ∧ next.clientfd = s.clientfd ∧ next.errno = s.errno
      ∧ next.handler = s.handler
      ∧ ((∃ other ∈ next.children, other.running)
          ↔ call.ends = false ∨ ∃ other ∈ s.children.eraseIdx i, other.running) := by
  have bound : i < s.children.length := (List.getElem?_eq_some_iff.mp found).1
  -- one record is replaced; the others are those of `eraseIdx`
  have replaced (new : Child)
      : (∃ other ∈ s.children.set i new, other.running)
        ↔ new.running ∨ ∃ other ∈ s.children.eraseIdx i, other.running := by
    constructor
    · intro held
      obtain ⟨other, member, running⟩ := held
      obtain ⟨j, here⟩ := List.mem_iff_getElem?.mp member
      by_cases mine : i = j
      · subst mine
        rw [List.getElem?_set_self bound] at here
        exact Or.inl (Option.some.inj here ▸ running)
      · rw [List.getElem?_set_ne mine] at here
        have elsewhere := List.mem_eraseIdx_iff_getElem?.mpr ⟨j, Ne.symm mine, here⟩
        exact Or.inr ⟨other, elsewhere, running⟩
    · rintro (running | ⟨other, member, running⟩)
      · exact ⟨new, List.mem_set bound new, running⟩
      · obtain ⟨j, different, here⟩ := List.mem_eraseIdx_iff_getElem?.mp member
        refine ⟨other, List.mem_iff_getElem?.mpr ⟨j, ?_⟩, running⟩
        rw [List.getElem?_set_ne (Ne.symm different), here]
  have ended (status : Status)
      : (endChild s i child status).main = s.main
        ∧ (endChild s i child status).clientfd = s.clientfd
        ∧ (endChild s i child status).errno = s.errno
        ∧ (endChild s i child status).handler = s.handler
        ∧ ((∃ other ∈ (endChild s i child status).children, other.running)
            ↔ ∃ other ∈ s.children.eraseIdx i, other.running) := by
    unfold endChild
    split
    all_goals
      refine ⟨rfl, rfl, rfl, rfl, (replaced _).trans (or_iff_right ?_)⟩
      simp [Child.running, Child.unreaped, Child.ended]
  cases taken
  case sendFails | exit | killed => simpa [Call.ends] using ended _
  all_goals
    refine ⟨rfl, rfl, rfl, rfl, (replaced _).trans (or_congr_left ?_)⟩
    simp [Child.running, Child.unreaped, Child.ended, Call.ends]

/-- Every step that leaves the handler a child keeps `errno` for the test. -/
theorem Retries.move (retries : Retries s) (leaves : LeavesChild s action)
    (taken : Move s action next)
    : Retries next := by
  obtain ⟨alive, errno, found⟩ := retries
  cases taken with
  | connect => exact ⟨alive, errno, found⟩
  | network _ => exact ⟨alive, errno, found⟩
  | acceptClient here _ => exact ⟨by simp, by simp [State.retrying], by simp [State.retrying]⟩
  | acceptFails here =>
      refine ⟨by simp, fun _ => leaves, fun _ inLoop => ?_⟩
      have idle : s.handler = .idle := here.elim (fun h => h.1.2) fun h => h.1.2
      simp [idle, HandlerPc.inLoop] at inLoop
  | testFailed here failed =>
      exact ⟨by simp, fun _ => errno (Or.inl ⟨here.1, failed⟩),
        fun _ => found (Or.inl ⟨here.1, failed⟩)⟩
  | testAccepted _ _ | retry _ _ | forkChild _ _ | forkFails _ | closeClient _ =>
      exact ⟨by simp, by simp [State.retrying], by simp [State.retrying]⟩
  | handleError here failed => exact absurd (errno (Or.inr here.1)) failed
  | @deliverSignal interrupts raised unblocked alive during =>
      cases interrupts with
      | false => exact ⟨alive, errno, fun retrying _ => leaves retrying⟩
      | true => exact ⟨by simp, by simp [State.retrying], by simp [State.retrying]⟩
  | @waitpidReaps pid child status here there ended =>
      refine ⟨alive, errno, fun retrying _ => ?_⟩
      obtain ⟨other, member, running⟩ := found retrying (by simp [here, HandlerPc.inLoop])
      obtain ⟨j, position⟩ := List.mem_iff_getElem?.mp member
      have different : pid ≠ j := by
        intro same
        subst same
        obtain rfl : child = other := Option.some.inj (there.symm.trans position)
        exact running.2 ⟨status, ended⟩
      refine ⟨other, List.mem_iff_getElem?.mpr ⟨j, ?_⟩, running⟩
      simp [State.setChild, List.getElem?_set_ne different, position]
  | waitpidDone here none =>
      refine ⟨alive, fun retrying => ?_, by simp [HandlerPc.inLoop]⟩
      obtain ⟨child, member, running⟩ := found retrying (by simp [here, HandlerPc.inLoop])
      have left : ∃ child ∈ s.children, child.unreaped := ⟨child, member, running.1⟩
      rw [if_pos left]
      exact errno retrying
  | reportChild here =>
      exact ⟨alive, errno, fun retrying _ => found retrying (by simp [here, HandlerPc.inLoop])⟩
  | handlerReturns here => exact ⟨alive, errno, by simp [HandlerPc.inLoop]⟩
  | child there taken =>
      obtain ⟨main, clientfd, same, handler, runs⟩ := taken.running there
      have stays : next.retrying ↔ s.retrying := by simp [State.retrying, main, clientfd]
      refine ⟨main ▸ alive, fun retrying => same ▸ errno (stays.mp retrying), ?_⟩
      intro retrying inLoop
      rw [stays] at retrying
      rw [handler] at inLoop
      rw [runs]
      rcases Bool.eq_false_or_eq_true _ with ends | goesOn
      · exact Or.inr (leaves retrying inLoop ends)
      · exact Or.inl goesOn

end Step

theorem retries_of_reachable {s : State} (reached : system.ReachableBy LeavesChild s)
    : Retries s := by
  apply reached.invariant
  · intro s started
    constructor <;> simp [started.main, State.retrying]
  · exact fun _ _ _ _ retries leaves taken => retries.move leaves (.of_step taken)

-----------------------------------------------------------------------------------------
-- Back to `accept`, or out of the loop
-----------------------------------------------------------------------------------------

/-- The calls and tests of the parent and its handler that do not wait for a client. -/
def Action.own : Action → Bool
  | .acceptFails .interrupted | .testResult | .testErrno | .forkChild | .forkFails
  | .closeClient | .waitpidReaps _ | .waitpidDone | .reportChild | .handlerReturns => true
  | _ => false

/-- A step of the parent itself. -/
def OwnStep (_ : State) (action : Action) : Prop := action.own = true

/-- The statements of the loop from here to the next `accept`. -/
def MainPc.distance : MainPc → Nat
  | .interrupted => 4
  | .testResult => 3
  | .testErrno | .fork => 2
  | .closeClient => 1
  | .accept | .dead => 0

/-- The steps of the handler that are left, when this many children have ended. -/
def HandlerPc.distance (ended : Nat) : HandlerPc → Nat
  | .idle => 0
  | .returning => 1
  | .waitpid => 2 * ended + 2
  | .report _ _ => 2 * ended + 3

/-- The steps that are left until `main` is back at `accept`. -/
def State.distance (s : State) : Nat :=
  s.main.distance + s.handler.distance (s.children.countP fun child => child.ended)

section Own

variable {s next : State} {action : Action}

/-- Every own step moves the program point of `main` or of the handler. -/
theorem own_moves (taken : step s action = some next) (own : OwnStep s action)
    : next.main ≠ s.main ∨ next.handler ≠ s.handler := by
  cases action with
  | acceptFails errno =>
      obtain ⟨here, same⟩ := Option.ite_none_right_eq_some.mp taken
      obtain rfl := Option.some.inj same
      rcases here with ⟨here, _⟩ | ⟨here, _⟩ <;> simp [here.1]
  | testResult =>
      obtain ⟨here, same⟩ := Option.ite_none_right_eq_some.mp taken
      obtain rfl := Option.some.inj same
      refine Or.inl ?_
      rw [here.1]
      split <;> simp
  | testErrno =>
      obtain ⟨here, taken⟩ := Option.ite_none_right_eq_some.mp taken
      split at taken
      all_goals
        obtain rfl := Option.some.inj taken
        simp [here.1]
  | forkChild =>
      obtain ⟨here, taken⟩ := Option.ite_none_right_eq_some.mp taken
      obtain ⟨c, last, rfl⟩ := Option.map_eq_some_iff.mp taken
      simp [here.1]
  | forkFails | closeClient =>
      obtain ⟨here, same⟩ := Option.ite_none_right_eq_some.mp taken
      obtain rfl := Option.some.inj same
      simp [here.1]
  | waitpidReaps pid =>
      obtain ⟨here, taken⟩ := Option.ite_none_right_eq_some.mp taken
      obtain ⟨child, found, taken⟩ := Option.bind_eq_some_iff.mp taken
      split at taken
      next =>
        obtain rfl := Option.some.inj taken
        simp [here]
      next => contradiction
  | waitpidDone =>
      obtain ⟨⟨here, _⟩, same⟩ := Option.ite_none_right_eq_some.mp taken
      obtain rfl := Option.some.inj same
      simp [here]
  | reportChild =>
      simp only [step, MultiConnProcessServer.reportChild] at taken
      split at taken
      next here =>
        obtain rfl := Option.some.inj taken
        simp [here]
      next => contradiction
  | handlerReturns =>
      obtain ⟨here, same⟩ := Option.ite_none_right_eq_some.mp taken
      obtain rfl := Option.some.inj same
      simp [here]
  | _ => simp [OwnStep, Action.own] at own

/-- The parent's own steps lead on. -/
theorem own_lowers (taken : step s action = some next) (own : OwnStep s action)
    : next.distance < s.distance := by
  have moves := own_moves taken own
  cases Move.of_step taken with
  | network _ => simp [State.setConnection] at moves
  | acceptFails here =>
      rcases here with ⟨here, _⟩ | ⟨here, rfl⟩
      · simp [State.distance, here.1, here.2, MainPc.distance, HandlerPc.distance]
      · simp [OwnStep, Action.own] at own
  | testFailed here _ | testAccepted here _ | retry here _ | handleError here _
  | forkChild here _ | forkFails here | closeClient here =>
      simp [State.distance, here.1, here.2, MainPc.distance, HandlerPc.distance]
  | @waitpidReaps pid child status here there ended =>
      have bound : pid < s.children.length := (List.getElem?_eq_some_iff.mp there).1
      have member := List.mem_of_getElem? there
      have some : 0 < s.children.countP fun child => child.ended :=
        List.countP_pos_iff.mpr ⟨child, member, by simp [Child.ended, ended]⟩
      have before : s.children[pid].ended := by
        rw [(List.getElem?_eq_some_iff.mp there).2]
        exact ⟨status, ended⟩
      have after : ¬({ child with pc := .reaped } : Child).ended := by simp [Child.ended]
      simp only [State.distance, State.setChild, here, HandlerPc.distance,
        List.countP_set bound, before, after]
      simp
      omega
  | waitpidDone here _ | reportChild here | handlerReturns here =>
      simp [State.distance, here, HandlerPc.distance]
  | _ => simp [OwnStep, Action.own] at own

/-- Outside `accept` the parent can always take a step of its own. -/
theorem own_enabled (alive : s.main ≠ .dead)
    : s.at .accept ∨ ∃ action next, OwnStep s action ∧ step s action = some next := by
  have can {action : Action} (own : action.own = true) (possible : (step s action).isSome)
      : s.at .accept ∨ ∃ action next, OwnStep s action ∧ step s action = some next :=
    Or.inr ⟨action, _, own, (Option.some_get possible).symm⟩
  cases inHandler : s.handler with
  | idle =>
      cases here : s.main with
      | accept => exact Or.inl ⟨here, inHandler⟩
      | interrupted =>
          exact @can (.acceptFails .interrupted) rfl
            (by simp [step, MultiConnProcessServer.acceptFails, State.at, here, inHandler])
      | testResult =>
          exact @can .testResult rfl
            (by simp [step, MultiConnProcessServer.testResult, State.at, here, inHandler])
      | testErrno =>
          refine @can .testErrno rfl ?_
          by_cases interrupted : s.errno = .interrupted
          all_goals
            simp [step, MultiConnProcessServer.testErrno, State.at, here, inHandler, interrupted]
      | fork =>
          exact @can .forkFails rfl
            (by simp [step, MultiConnProcessServer.forkFails, State.at, here, inHandler])
      | closeClient =>
          exact @can .closeClient rfl
            (by simp [step, MultiConnProcessServer.closeClient, State.at, here, inHandler])
      | dead => exact absurd here alive
  | waitpid =>
      by_cases ended : ∃ child ∈ s.children, child.ended
      · obtain ⟨child, member, status, zombie⟩ := ended
        obtain ⟨pid, there⟩ := List.mem_iff_getElem?.mp member
        exact @can (.waitpidReaps pid) rfl
          (by simp [step, MultiConnProcessServer.waitpidReaps, inHandler, there, zombie])
      · have none : ∀ child ∈ s.children, ¬child.ended :=
          fun child member zombie => ended ⟨child, member, zombie⟩
        refine @can .waitpidDone rfl ?_
        change (waitpidDone s).isSome
        rw [waitpidDone, if_pos ⟨inHandler, none⟩]
        rfl
  | report pid status =>
      exact @can .reportChild rfl
        (by simp [step, MultiConnProcessServer.reportChild, inHandler])
  | returning =>
      exact @can .handlerReturns rfl
        (by simp [step, MultiConnProcessServer.handlerReturns, inHandler])

end Own

/-- From a state whose errors are told apart, the parent's own steps lead back to `accept`. -/
theorem Retries.inevitable {s : State} (retries : Retries s)
    : system.Inevitable OwnStep (fun final => final.at .accept) s := by
  refine .of_measure Retries State.distance ?_ ?_ ?_ retries
  · intro s action next retries own taken
    refine retries.move ?_ (.of_step taken)
    cases action with
    | acceptFails errno =>
        cases errno <;> simp_all [OwnStep, Action.own, LeavesChild]
    | _ => simp_all [OwnStep, Action.own, LeavesChild]
  · exact fun s retries => own_enabled retries.alive
  · exact fun s action next _ own taken => own_lowers taken own

/-- The handler is about to find no child, or has found none, and `errno` is not yet tested. -/
structure Doomed (s : State) : Prop where
  retrying : s.retrying
  childless
    : s.handler.inLoop = true ∧ (∀ child ∈ s.children, ¬child.running)
      ∨ s.handler.inLoop = false ∧ s.errno = .noChild

section Doomed

variable {s next : State} {action : Action}

/-- The parent's own steps lead from there to the failed test. -/
theorem Doomed.own (doomed : Doomed s) (taken : step s action = some next)
    (own : OwnStep s action)
    : next.main = .dead ∨ Doomed next := by
  obtain ⟨retrying, childless⟩ := doomed
  have moves := own_moves taken own
  have noChild (idle : s.handler = .idle) : s.errno = .noChild := by
    rcases childless with ⟨inLoop, _⟩ | ⟨_, left⟩
    · simp [idle, HandlerPc.inLoop] at inLoop
    · exact left
  cases Move.of_step taken with
  | network _ => simp [State.setConnection] at moves
  | acceptFails here =>
      rcases here with ⟨here, _⟩ | ⟨here, _⟩ <;> simp [State.retrying, here.1] at retrying
  | testAccepted here accepted => simp [State.retrying, here.1, accepted] at retrying
  | forkChild here _ | forkFails here | closeClient here =>
      simp [State.retrying, here.1] at retrying
  | testFailed here failed =>
      exact Or.inr ⟨Or.inr rfl, Or.inr ⟨by simp [here.2, HandlerPc.inLoop], noChild here.2⟩⟩
  | retry here interrupted => simp [noChild here.2] at interrupted
  | handleError _ _ => exact Or.inl rfl
  | @waitpidReaps pid child status here there ended =>
      have none := (childless.resolve_right (by simp [here, HandlerPc.inLoop])).2
      refine Or.inr ⟨retrying, Or.inl ⟨rfl, fun other member running => ?_⟩⟩
      rcases List.mem_or_eq_of_mem_set member with old | rfl
      · exact none other old running
      · exact running.1 rfl
  | waitpidDone here zombies =>
      have none := (childless.resolve_right (by simp [here, HandlerPc.inLoop])).2
      refine Or.inr ⟨retrying, Or.inr ⟨rfl, if_neg ?_⟩⟩
      intro held
      obtain ⟨child, member, unreaped⟩ := held
      exact none child member ⟨unreaped, zombies child member⟩
  | reportChild here =>
      have none := (childless.resolve_right (by simp [here, HandlerPc.inLoop])).2
      exact Or.inr ⟨retrying, Or.inl ⟨rfl, none⟩⟩
  | handlerReturns here =>
      have left := (childless.resolve_left (by simp [here, HandlerPc.inLoop])).2
      exact Or.inr ⟨retrying, Or.inr ⟨rfl, left⟩⟩
  | _ => simp [OwnStep, Action.own] at own

/-- A dead server stays dead. -/
theorem dead_of_own (dead : s.main = .dead) (taken : step s action = some next)
    (own : OwnStep s action)
    : next.main = .dead := by
  have moves := own_moves taken own
  cases Move.of_step taken with
  | network _ => simp [State.setConnection] at moves
  | acceptFails here =>
      rcases here with ⟨⟨here, _⟩, _⟩ | ⟨⟨here, _⟩, _⟩ <;> simp [dead] at here
  | testFailed here _ | testAccepted here _ | retry here _ | handleError here _
  | forkChild here _ | forkFails here | closeClient here =>
      exact absurd (dead.symm.trans here.1) (by simp)
  | waitpidReaps _ _ _ | waitpidDone _ _ | reportChild _ | handlerReturns _ => exact dead
  | _ => simp [OwnStep, Action.own] at own

end Doomed

/-- Without a running child the handler's answer ends the server. -/
theorem Doomed.inevitable {s : State} (doomed : Doomed s)
    : system.Inevitable OwnStep (fun final => final.main = .dead) s := by
  refine .of_measure (fun s => s.main = .dead ∨ Doomed s) State.distance ?_ ?_ ?_ (Or.inr doomed)
  · intro s action next state own taken
    rcases state with dead | doomed
    · exact Or.inl (dead_of_own dead taken own)
    · exact doomed.own taken own
  · intro s state
    rcases state with dead | doomed
    · exact Or.inl dead
    · have place := doomed.retrying
      have alive : s.main ≠ .dead := by
        intro dead
        simp [State.retrying, dead] at place
      refine Or.inr ((own_enabled alive).resolve_left fun back => ?_)
      simp [State.retrying, back.1] at place
  · exact fun s action next _ own taken => own_lowers taken own

/-- A step that leaves the handler no child dooms the server. -/
theorem doomed_of_step {s next : State} {action : Action} (only : OnlyInterrupted s action)
    (broken : ¬LeavesChild s action) (taken : step s action = some next)
    : Doomed next := by
  cases action with
  | acceptFails errno =>
      obtain ⟨here, _⟩ := Option.ite_none_right_eq_some.mp taken
      rcases here with ⟨_, interrupted⟩ | ⟨_, other⟩
      · exact absurd interrupted broken
      · exact absurd (congrArg Action.acceptFails other) only
  | deliverSignal interrupts =>
      obtain ⟨retrying, none⟩ := Classical.not_imp.mp broken
      obtain ⟨⟨_, _, _, during⟩, same⟩ := Option.ite_none_right_eq_some.mp taken
      obtain rfl := Option.some.inj same
      have childless : ∀ child ∈ s.children, ¬child.running :=
        fun child member running => none ⟨child, member, running⟩
      cases interrupts with
      | false => exact ⟨retrying, Or.inl ⟨rfl, childless⟩⟩
      | true => simp [State.retrying, during rfl] at retrying
  | child i call =>
      obtain ⟨retrying, rest⟩ := Classical.not_imp.mp broken
      obtain ⟨inLoop, rest⟩ := Classical.not_imp.mp rest
      obtain ⟨ends, none⟩ := Classical.not_imp.mp rest
      obtain ⟨child, there, taken⟩ := Option.bind_eq_some_iff.mp taken
      obtain ⟨main, clientfd, _, handler, runs⟩ := (ChildMove.of_call taken).running there
      refine ⟨by simpa [State.retrying, main, clientfd] using retrying, Or.inl ?_⟩
      refine ⟨by rw [handler, inLoop], fun other member running => ?_⟩
      rcases runs.mp ⟨other, member, running⟩ with goesOn | found
      · simp [ends] at goesOn
      · exact none found
  | _ => exact absurd trivial broken

-----------------------------------------------------------------------------------------
-- The fate of the server
-----------------------------------------------------------------------------------------

/-- The server is alive and goes back to `accept` by its own steps. -/
structure GoesOn (s : State) : Prop where
  alive : s.main ≠ .dead
  back : system.Inevitable OwnStep (fun final => final.at .accept) s

/-- No child's exit ends the server as long as the handler finds a child that runs whenever it
comes between the return of `accept` and the test of `errno`; and the first time it does not,
the server's own steps lead to the exit of `handle_error`.
-/
theorem neverEnded (s : State)
    : (system.ReachableBy LeavesChild s → GoesOn s)
      ∧ ∀ action next,
          OnlyInterrupted s action
          → ¬LeavesChild s action
          → system.step s action = some next
          → system.Inevitable OwnStep (fun final => final.main = .dead) next := by
  constructor
  · intro reached
    have retries := retries_of_reachable reached
    exact ⟨retries.alive, retries.inevitable⟩
  · exact fun action next only broken taken => (doomed_of_step only broken taken).inevitable

/-- One client after the other connects and gets a child. -/
def forkOne : List Action :=
  [.connect, .acceptClient, .testResult, .forkChild, .closeClient]

/-- Child `i` is killed and interrupts `accept`, which returns -1 behind the handler. -/
def interruptedBy (i : Nat) : List Action :=
  [.child i (.killed 9), .deliverSignal true, .waitpidReaps i, .reportChild, .waitpidDone,
    .handlerReturns, .acceptFails .interrupted]

/-- Child `i` is killed before `errno` is tested, and the handler runs once more. -/
def againBy (i : Nat) : List Action :=
  [.child i (.killed 9), .deliverSignal false, .waitpidReaps i, .reportChild, .waitpidDone,
    .handlerReturns, .testResult]

/-- Of three children two are reaped around the return of `accept`. -/
def threeChildren : List Action :=
  forkOne ++ forkOne ++ forkOne ++ interruptedBy 0 ++ againBy 1

/-- The test of `errno` still finds `EINTR`. -/
theorem neverEnded_threeChildren
    : ∃ s : State, s.main = .testErrno ∧ s.errno = .interrupted ∧ GoesOn s := by
  have run : ((system.restrict LeavesChild).exec start threeChildren).isSome := by decide
  have reached : (system.restrict LeavesChild).Reachable _ :=
    System.reachable_of_run start start_started threeChildren run
  exact ⟨_, rfl, rfl, (neverEnded _).1 (System.reachable_restrict_iff.mp reached)⟩

/-- Of two children both are reaped around the return of `accept`. -/
def twoChildren : List Action :=
  forkOne ++ forkOne ++ interruptedBy 0 ++ againBy 1 ++ [.testErrno]

/-- The server takes the `ECHILD` of its own handler for a failure of `accept` and ends. -/
theorem neverEnded_twoChildren
    : ¬∀ s, system.ReachableBy OnlyInterrupted s → GoesOn s := by
  intro always
  have run : ((system.restrict OnlyInterrupted).exec start twoChildren).isSome := by decide
  have reached : (system.restrict OnlyInterrupted).Reachable _ :=
    System.reachable_of_run start start_started twoChildren run
  exact (always _ (System.reachable_restrict_iff.mp reached)).alive rfl

end LinuxStudy.MultiConnProcessServer
