import LinuxStudy.TerminateTest.Model

/-! The threads share the input between them: every piece is read by one of them, and a thread
leaves with the first piece it reads that begins with its letter.
-/

namespace LinuxStudy.TerminateTest

open Posix Transition

/-- One step, with what has to hold before it. -/
inductive Move (launch : Launch) (s : State) : Action → State → Prop
  | create {rose} (here : s.main = .create rose)
    : Move launch s .main
        ({ s with main := rose.afterCreate }.become rose { s.thread rose with pc := .malloc })
  | join {rose} (here : s.main = .join rose) (exited : (s.thread rose).pc = .exited)
    : Move launch s .main
        { s with
          joined := Function.update s.joined rose (s.thread rose).result
          main := rose.afterJoin }
  | print {red white} (here : s.main = .print) (first : s.joined .red = some red)
    (second : s.joined .white = some white)
    : Move launch s .main
        ({ s with main := .returned }.print [.result .red red.p, .result .white white.p])
  | malloc {rose} (here : (s.thread rose).pc = .malloc)
    : Move launch s (.thread rose)
        (s.become rose { s.thread rose with ans := launch.fresh rose, pc := .fgets })
  | fgets {rose} (here : (s.thread rose).pc = .fgets) (some : fgetsLine ansSize s.stdin ≠ [])
    : Move launch s (.thread rose)
        ({ s with
          stdin := s.stdin.drop (fgetsLine ansSize s.stdin).length
          log := s.log ++ [(rose, fgetsLine ansSize s.stdin)] }.become rose
            { s.thread rose with
              ans := overwrite (s.thread rose).ans (fgetsLine ansSize s.stdin ++ [0])
              pc := .test })
  | fgetsEnd {rose} (here : (s.thread rose).pc = .fgets) (none : fgetsLine ansSize s.stdin = [])
    : Move launch s (.thread rose) (s.become rose { s.thread rose with pc := .test })
  | leaves {rose} (here : (s.thread rose).pc = .test)
    (own : (s.thread rose).ans.head? = some rose.code)
    : Move launch s (.thread rose)
        ((s.become rose
          { s.thread rose with result := some rose.result, pc := .exited }).print [.leaves rose])
  | waits {rose} (here : (s.thread rose).pc = .test)
    (other : (s.thread rose).ans.head? ≠ some rose.code)
    : Move launch s (.thread rose)
        ((s.become rose { s.thread rose with pc := .fgets }).print [.waits rose])

/-- Every step is one of the listed ones. -/
theorem Move.of_step {launch : Launch} {s next : State} {action : Action}
    (taken : (system launch).step s action = some next)
    : Move launch s action next := by
  cases action with
  | main =>
      change main s = some next at taken
      unfold TerminateTest.main at taken
      split at taken
      next here =>
        obtain rfl := Option.some.inj taken
        exact .create here
      next here =>
        obtain ⟨exited, taken⟩ := Option.ite_none_right_eq_some.mp taken
        obtain rfl := Option.some.inj taken
        exact .join here exited
      next here =>
        split at taken
        next first second =>
          obtain rfl := Option.some.inj taken
          exact .print here first second
        next => exact nomatch taken
      next => exact nomatch taken
  | thread rose =>
      change threadFunc launch rose s = some next at taken
      cases here : (s.thread rose).pc with
      | unborn | exited => simp [threadFunc, here] at taken
      | malloc =>
          simp only [threadFunc, here, Option.some.injEq] at taken
          subst taken
          exact .malloc here
      | fgets =>
          by_cases none : fgetsLine ansSize s.stdin = []
          · simp only [threadFunc, here, none, if_true, Option.some.injEq] at taken
            subst taken
            exact .fgetsEnd here none
          · simp only [threadFunc, here, none, if_false, Option.some.injEq] at taken
            subst taken
            exact .fgets here none
      | test =>
          by_cases own : (s.thread rose).ans.head? = some rose.code
          · simp only [threadFunc, here, own, if_true, Option.some.injEq] at taken
            subst taken
            exact .leaves here own
          · simp only [threadFunc, here, own, if_false, Option.some.injEq] at taken
            subst taken
            exact .waits here own

-----------------------------------------------------------------------------------------
-- Frame facts
-----------------------------------------------------------------------------------------

section Frame

variable (s : State) (rose other : Rose) (thread : ThreadState)

@[simp] theorem State.become_self : (s.become rose thread).thread rose = thread := by
  simp [State.become]

@[simp] theorem State.become_of_ne {rose other : Rose} (apart : other ≠ rose)
    : (s.become rose thread).thread other = s.thread other := by
  simp [State.become, apart]

@[simp] theorem State.become_main : (s.become rose thread).main = s.main := rfl
@[simp] theorem State.become_stdin : (s.become rose thread).stdin = s.stdin := rfl
@[simp] theorem State.become_log : (s.become rose thread).log = s.log := rfl
@[simp] theorem State.become_joined : (s.become rose thread).joined = s.joined := rfl
@[simp] theorem State.become_printed : (s.become rose thread).printed = s.printed := rfl

variable (texts : List Printed)

@[simp] theorem State.print_thread : (s.print texts).thread = s.thread := rfl
@[simp] theorem State.print_main : (s.print texts).main = s.main := rfl
@[simp] theorem State.print_stdin : (s.print texts).stdin = s.stdin := rfl
@[simp] theorem State.print_log : (s.print texts).log = s.log := rfl
@[simp] theorem State.print_joined : (s.print texts).joined = s.joined := rfl
@[simp] theorem State.print_printed : (s.print texts).printed = s.printed ++ texts := rfl

end Frame

/-- `ans` begins with what was read last. -/
theorem head?_overwrite {buffer line : Bytes} (some : line ≠ [])
    : (overwrite buffer (line ++ [0])).head? = line.head? := by
  cases line with
  | nil => exact absurd rfl some
  | cons byte rest => rfl

-----------------------------------------------------------------------------------------
-- What the steps keep
-----------------------------------------------------------------------------------------

/-- `main` has created the thread. -/
def MainPc.created : MainPc → Rose → Bool
  | .create .red, _ => false
  | .create .white, rose => rose = .red
  | _, _ => true

/-- `main` has joined the thread. -/
def MainPc.joined : MainPc → Rose → Bool
  | .join .white, rose => rose = .red
  | .print, _ | .returned, _ => true
  | _, _ => false

/-- A thread's place and buffer agree with what it has read. -/
def State.Agrees (s : State) (rose : Rose) : Prop :=
  match (s.thread rose).pc with
  | .unborn | .malloc => s.read rose = []
  | .fgets => s.Unanswered rose ∧ (s.thread rose).ans.head? ≠ some rose.code
  | .test => if (s.thread rose).ans.head? = some rose.code then s.Answered rose
      else s.Unanswered rose
  | .exited => s.Answered rose ∧ (s.thread rose).result = some rose.result

/-- What holds in every reachable state. -/
structure Kept (launch : Launch) (s : State) : Prop where
  shared : pieces ansSize launch.input = s.log.map Prod.snd ++ pieces ansSize s.stdin
  agrees : ∀ rose, s.Agrees rose
  created : ∀ rose, (s.thread rose).pc = .unborn ↔ s.main.created rose = false
  joined
    : ∀ rose,
        s.main.joined rose = true
        → (s.thread rose).pc = .exited ∧ s.joined rose = some rose.result
  shown
    : s.main = .returned
      → ∃ texts, s.printed = texts ++ [.result .red Rose.red.resp, .result .white Rose.white.resp]

/-- A step that leaves the thread and what it has read alone. -/
theorem State.Agrees.of_eq {s next : State} {rose : Rose} (agrees : s.Agrees rose)
    (thread : next.thread rose = s.thread rose) (read : next.read rose = s.read rose)
    : next.Agrees rose := by
  unfold State.Agrees State.Answered State.Unanswered at agrees ⊢
  rw [thread, read]
  exact agrees

/-- What either thread has read, after a piece has been read. -/
theorem State.read_append (s : State) (rose : Rose) (line : Bytes) (other : Rose)
    : ({ s with log := s.log ++ [(rose, line)] } : State).read other
      = s.read other ++ if rose = other then [line] else [] := by
  by_cases same : rose = other <;> simp [State.read, same]

/-- A step of a running thread concerns its own place and what it reads. -/
theorem Kept.of_thread {launch : Launch} {s next : State} {rose : Rose} (kept : Kept launch s)
    (running : (s.thread rose).pc ≠ .unborn ∧ (s.thread rose).pc ≠ .exited)
    (main : next.main = s.main) (joined : next.joined = s.joined)
    (others
      : ∀ other, other ≠ rose → next.thread other = s.thread other ∧ next.read other = s.read other)
    (born : (next.thread rose).pc ≠ .unborn)
    (shared
      : next.log.map Prod.snd ++ pieces ansSize next.stdin
        = s.log.map Prod.snd ++ pieces ansSize s.stdin)
    (agrees : next.Agrees rose)
    : Kept launch next where
  shared := by rw [shared, kept.shared]
  agrees other := by
    by_cases same : other = rose
    · rw [same]
      exact agrees
    · obtain ⟨thread, read⟩ := others other same
      exact (kept.agrees other).of_eq thread read
  created other := by
    rw [main, ← kept.created other]
    by_cases same : other = rose
    · rw [same]
      exact iff_of_false born running.1
    · rw [(others other same).1]
  joined other past := by
    rw [main] at past
    obtain ⟨exited, result⟩ := kept.joined other past
    have apart : other ≠ rose := by
      rintro rfl
      exact running.2 exited
    rw [(others other apart).1, joined]
    exact ⟨exited, result⟩
  shown returned := by
    rw [main] at returned
    have exited := (kept.joined rose (by rw [returned]; rfl)).1
    exact absurd exited running.2

/-- One more piece, which may be the answer. -/
theorem State.Unanswered.append {s next : State} {rose : Rose} {line : Bytes}
    (before : s.Unanswered rose) (read : next.read rose = s.read rose ++ [line])
    : if rose.answeredBy line then next.Answered rose else next.Unanswered rose := by
  split
  next answer => exact ⟨s.read rose, line, read, answer, before⟩
  next other =>
    intro piece member
    rw [read] at member
    rcases List.mem_append.mp member with earlier | last
    · exact before piece earlier
    · rw [List.mem_singleton.mp last]
      exact other

theorem Kept.move {launch : Launch} (clean : launch.Clean) {s next : State} {action : Action}
    (kept : Kept launch s) (move : Move launch s action next)
    : Kept launch next := by
  cases move with
  | @create rose here =>
      have unborn : (s.thread rose).pc = .unborn := by
        rw [kept.created, here]
        cases rose <;> rfl
      have nothing : s.read rose = [] := by
        have agrees := kept.agrees rose
        rwa [State.Agrees, unborn] at agrees
      refine ⟨kept.shared, fun other => ?_, fun other => ?_, fun other past => ?_, ?_⟩
      · by_cases same : other = rose
        · subst same
          simpa [State.Agrees, State.read] using nothing
        · exact (kept.agrees other).of_eq (by simp [same]) rfl
      · have before := kept.created other
        rw [here] at before
        cases rose <;> cases other <;>
          simp_all [Rose.afterCreate, MainPc.created]
      · cases rose <;> simp [Rose.afterCreate, MainPc.joined] at past
      · cases rose <;> exact nofun
  | @join rose here exited =>
      have result : (s.thread rose).result = some rose.result := by
        have agrees := kept.agrees rose
        rw [State.Agrees, exited] at agrees
        exact agrees.2
      refine ⟨kept.shared, fun other => (kept.agrees other).of_eq rfl rfl, fun other => ?_,
        fun other past => ?_, ?_⟩
      · rw [kept.created other, here]
        cases rose <;> rfl
      · by_cases same : other = rose
        · subst same
          simp [exited, result]
        · have before : s.main.joined other = true := by
            rw [here]
            cases rose <;> cases other <;> simp_all [Rose.afterJoin, MainPc.joined]
          simpa [Function.update_of_ne same] using kept.joined other before
      · cases rose <;> exact nofun
  | @print red white here first second =>
      have joined (rose : Rose) := kept.joined rose (by rw [here]; rfl)
      refine ⟨kept.shared, fun other => (kept.agrees other).of_eq rfl rfl, fun other => ?_,
        fun other _ => joined other, fun _ => ⟨s.printed, ?_⟩⟩
      · have before := kept.created other
        rw [here] at before
        exact before
      · have red := (joined .red).2
        have white := (joined .white).2
        rw [first] at red
        rw [second] at white
        obtain rfl := Option.some.inj red
        obtain rfl := Option.some.inj white
        rfl
  | @malloc rose here =>
      have nothing := kept.agrees rose
      rw [State.Agrees, here] at nothing
      have running : (s.thread rose).pc ≠ .unborn ∧ (s.thread rose).pc ≠ .exited := by simp [here]
      refine kept.of_thread running rfl rfl (fun other apart => ?_) (by simp) rfl ?_
      · exact ⟨State.become_of_ne _ _ apart, rfl⟩
      · simp only [State.Agrees, State.become_self]
        refine ⟨fun piece member => ?_, clean rose⟩
        have member : piece ∈ s.read rose := member
        rw [nothing] at member
        exact nomatch member
  | @fgets rose here some =>
      have before := kept.agrees rose
      rw [State.Agrees, here] at before
      have running : (s.thread rose).pc ≠ .unborn ∧ (s.thread rose).pc ≠ .exited := by simp [here]
      refine kept.of_thread running rfl rfl (fun other apart => ?_) (by simp) ?_ ?_
      · refine ⟨State.become_of_ne _ _ apart, ?_⟩
        have read := s.read_append rose (fgetsLine ansSize s.stdin) other
        rw [if_neg (Ne.symm apart), List.append_nil] at read
        exact read
      · simp [pieces_eq_cons some]
      · simp only [State.Agrees, State.become_self, head?_overwrite some]
        refine before.1.append ?_
        have read := s.read_append rose (fgetsLine ansSize s.stdin) rose
        rw [if_pos rfl] at read
        exact read
  | @fgetsEnd rose here none =>
      have before := kept.agrees rose
      rw [State.Agrees, here] at before
      have running : (s.thread rose).pc ≠ .unborn ∧ (s.thread rose).pc ≠ .exited := by simp [here]
      refine kept.of_thread running rfl rfl (fun other apart => ?_) (by simp) rfl ?_
      · exact ⟨State.become_of_ne _ _ apart, rfl⟩
      · simp only [State.Agrees, State.become_self, if_neg before.2]
        exact before.1
  | @leaves rose here own =>
      have before := kept.agrees rose
      rw [State.Agrees, here] at before
      have running : (s.thread rose).pc ≠ .unborn ∧ (s.thread rose).pc ≠ .exited := by simp [here]
      refine kept.of_thread running rfl rfl (fun other apart => ?_) (by simp) rfl ?_
      · exact ⟨State.become_of_ne _ _ apart, rfl⟩
      · simp only [if_pos own] at before
        simp only [State.Agrees, State.print_thread, State.become_self, and_true]
        exact before
  | @waits rose here other =>
      have before := kept.agrees rose
      rw [State.Agrees, here] at before
      have running : (s.thread rose).pc ≠ .unborn ∧ (s.thread rose).pc ≠ .exited := by simp [here]
      refine kept.of_thread running rfl rfl (fun other apart => ?_) (by simp) rfl ?_
      · exact ⟨State.become_of_ne _ _ apart, rfl⟩
      · simp only [if_neg other] at before
        simp only [State.Agrees, State.print_thread, State.become_self]
        exact ⟨before, other⟩

theorem kept_of_reachable {launch : Launch} (clean : launch.Clean) {s : State}
    (reached : (system launch).Reachable s)
    : Kept launch s := by
  apply reached.invariant
  · rintro s rfl
    exact ⟨rfl, fun rose => rfl, fun rose => by simp [start, MainPc.created],
      fun rose => by simp [start, MainPc.joined], nofun⟩
  · intro s action next kept taken
    exact kept.move clean (.of_step taken)

/-- A thread that is leaving or gone has read its letter last. -/
theorem Kept.answered {launch : Launch} {s : State} {rose : Rose} (kept : Kept launch s)
    (settled : s.Settled rose)
    : s.Answered rose := by
  have agrees := kept.agrees rose
  rcases settled with exited | ⟨here, own⟩
  · rw [State.Agrees, exited] at agrees
    exact agrees.1
  · rw [State.Agrees, here] at agrees
    simp only [if_pos own] at agrees
    exact agrees

/-- What a thread has read is a piece of the input. -/
theorem Kept.mem_pieces {launch : Launch} {s : State} {rose : Rose} {piece : Bytes}
    (kept : Kept launch s) (member : piece ∈ s.read rose)
    : piece ∈ pieces ansSize launch.input := by
  obtain ⟨entry, listed, rfl⟩ := List.mem_map.mp member
  rw [kept.shared]
  exact List.mem_append_left _ (List.mem_map_of_mem (List.mem_of_mem_filter listed))

/-- In every reachable state the pieces of the input have been read by one thread each and in
their order, except those still to come. A thread is leaving or gone exactly when it has read
a piece that begins with its letter, which is then its last one; and `main` returns with both
results printed.
-/
theorem sharesInput {launch : Launch} (clean : launch.Clean) {s : State}
    (reached : (system launch).Reachable s)
    : pieces ansSize launch.input = s.log.map Prod.snd ++ pieces ansSize s.stdin
      ∧ (∀ rose, s.Settled rose → s.Answered rose)
      ∧ (∀ rose, ¬ s.Settled rose → s.Unanswered rose)
      ∧ (s.main = .returned
        → (∀ rose, s.Answered rose)
          ∧ ∃ texts,
              s.printed
              = texts ++ [.result .red Rose.red.resp, .result .white Rose.white.resp]) := by
  have kept := kept_of_reachable clean reached
  refine ⟨kept.shared, fun rose => kept.answered, fun rose open_ => ?_,
    fun returned => ⟨fun rose => ?_, ?_⟩⟩
  · have agrees := kept.agrees rose
    unfold State.Agrees at agrees
    cases here : (s.thread rose).pc with
    | unborn | malloc =>
        rw [here] at agrees
        intro piece member
        rw [agrees] at member
        exact nomatch member
    | fgets =>
        rw [here] at agrees
        exact agrees.1
    | test =>
        have other : (s.thread rose).ans.head? ≠ some rose.code :=
          fun own => open_ (.inr ⟨here, own⟩)
        simp only [here, if_neg other] at agrees
        exact agrees
    | exited => exact absurd (.inl here) open_
  · exact kept.answered (.inl (kept.joined rose (by rw [returned]; rfl)).1)
  · exact kept.shown returned

/-- `"w\nx\nr\nw\n"`: the red thread reads the first two lines and the last but one. -/
def fourLines : Launch where
  input := [119, 10, 120, 10, 114, 10, 119, 10]
  fresh := fun _ => List.replicate ansSize 0

theorem fourLines_clean : fourLines.Clean := by
  intro rose
  cases rose <;> decide

/-- The red thread reads three lines and leaves, and then the white one reads the fourth. -/
def redFirst : List Action :=
  [.main, .main, .thread .red, .thread .red, .thread .red, .thread .red, .thread .red,
    .thread .red, .thread .red, .thread .white, .thread .white, .thread .white,
    .main, .main, .main]

theorem sharesInput_redFirst
    : ∃ s : State,
        s.read .red = [[119, 10], [120, 10], [114, 10]]
        ∧ s.read .white = [[119, 10]]
        ∧ s.main = .returned
        ∧ ∀ rose, s.Answered rose := by
  have run : ((system fourLines).exec (start fourLines) redFirst).isSome := by decide +kernel
  have reached : (system fourLines).Reachable _ :=
    System.reachable_of_run (start fourLines) rfl redFirst run
  exact ⟨_, rfl, rfl, rfl, ((sharesInput fourLines_clean reached).2.2.2 rfl).1⟩

end LinuxStudy.TerminateTest
