import LinuxStudy.TerminateTest.SharedInput
import LinuxStudy.Transition.Assured

/-! When a thread is sure to leave. A thread that still waits can be robbed of its letter by
the other one, unless that one has left or is about to.
-/

namespace LinuxStudy.TerminateTest

open Posix Transition

variable {launch : Launch} {s next : State} {action : Action} {rose : Rose}

/-- The steps of a thread, and of `main`, which creates it. -/
def Own (rose : Rose) (_ : State) (action : Action) : Prop :=
  action = .main ∨ action = .thread rose

def State.Exited (rose : Rose) (s : State) : Prop := (s.thread rose).pc = .exited

/-- The thread would leave if it read on alone. -/
def State.Hopeful (s : State) (rose : Rose) : Prop := s.Settled rose ∨ s.Ahead rose

def Rose.other : Rose → Rose
  | .red => .white
  | .white => .red

/-- The thread has had its letter, or nobody else reads any more and it is still to come. -/
def State.Secured (s : State) (rose : Rose) : Prop :=
  s.Settled rose ∨ (s.Settled rose.other ∧ s.Ahead rose)

theorem Rose.other_ne (rose : Rose) : rose.other ≠ rose := by
  cases rose <;> decide

theorem Rose.eq_or_eq_other (rose one : Rose) : one = rose ∨ one = rose.other := by
  cases rose <;> cases one <;> decide

/-- No piece begins with both letters. -/
theorem Rose.not_answeredBy_other {piece : Bytes} (answer : rose.answeredBy piece)
    : ¬ rose.other.answeredBy piece := by
  intro both
  have same := answer.symm.trans both
  revert same
  cases rose <;> decide

-----------------------------------------------------------------------------------------
-- What a step does to a thread's prospects
-----------------------------------------------------------------------------------------

/-- A thread that `main` is about to create does not exist. -/
theorem Kept.unborn (kept : Kept launch s) (here : s.main = .create rose)
    : (s.thread rose).pc = .unborn := by
  rw [kept.created, here]
  cases rose <;> rfl

/-- A step reads a piece, or leaves the input alone. -/
theorem Move.stdin (move : Move launch s action next)
    : next.stdin = s.stdin
      ∨ ∃ reader line,
          action = .thread reader
          ∧ (s.thread reader).pc = .fgets
          ∧ pieces ansSize s.stdin = line :: pieces ansSize next.stdin
          ∧ (next.thread reader).pc = .test
          ∧ (next.thread reader).ans.head? = line.head? := by
  cases move with
  | create | join | print | malloc | fgetsEnd | leaves | waits => exact .inl rfl
  | @fgets reader here some =>
      refine .inr ⟨reader, _, rfl, here, pieces_eq_cons some, by simp, ?_⟩
      simp [head?_overwrite some]

/-- What is not a thread's own step leaves it as it is, or creates it. -/
theorem Move.thread_eq_or (move : Move launch s action next) (rose : Rose)
    (apart : action ≠ .thread rose)
    : next.thread rose = s.thread rose
      ∨ (s.main = .create rose ∧ (next.thread rose).pc = .malloc) := by
  cases move with
  | join | print => exact .inl rfl
  | @create one here =>
      by_cases same : rose = one
      · subst same
        exact .inr ⟨here, by simp⟩
      · exact .inl (State.become_of_ne _ _ same)
  | malloc | fgets | fgetsEnd =>
      exact .inl (State.become_of_ne _ _ fun same => apart (by rw [same]))
  | leaves | waits =>
      exact .inl (State.become_of_ne _ _ fun same => apart (by rw [same]))

/-- A thread that exists is left as it is. -/
theorem Move.thread_eq (kept : Kept launch s) (move : Move launch s action next)
    (apart : action ≠ .thread rose) (born : (s.thread rose).pc ≠ .unborn)
    : next.thread rose = s.thread rose :=
  (move.thread_eq_or rose apart).resolve_right fun created => born (kept.unborn created.1)

/-- Who has left stays away. -/
theorem Move.exited (kept : Kept launch s) (move : Move launch s action next)
    (gone : s.Exited rose)
    : next.Exited rose := by
  have gone : (s.thread rose).pc = .exited := gone
  have apart : action ≠ .thread rose := by
    rintro rfl
    cases move <;> simp_all
  rw [State.Exited, move.thread_eq kept apart (by simp [gone]), gone]

/-- Who is about to leave, leaves with its next step. -/
theorem Move.settled (kept : Kept launch s) (move : Move launch s action next)
    (settled : s.Settled rose)
    : next.Settled rose := by
  rcases settled with gone | ⟨here, own⟩
  · exact .inl (move.exited kept gone)
  · by_cases apart : action = .thread rose
    · subst apart
      cases move with
      | malloc before | fgets before | fgetsEnd before => simp [here] at before
      | leaves => exact .inl (by simp)
      | waits _ other => exact absurd own other
    · rw [State.Settled, move.thread_eq kept apart (by simp [here])]
      exact .inr ⟨here, own⟩

/-- A piece that nobody else reads stays there until the thread has it. -/
theorem Move.ahead (move : Move launch s action next) (ahead : s.Ahead rose)
    (alone : ∀ other, other ≠ rose → (s.thread other).pc = .fgets → action ≠ .thread other)
    : next.Hopeful rose := by
  rcases move.stdin with same | ⟨reader, line, by_, here, first, test, head⟩
  · refine .inr ?_
    rw [State.Ahead, same]
    exact ahead
  · obtain rfl : reader = rose := by
      by_contra apart
      exact alone reader apart here by_
    obtain ⟨piece, member, answer⟩ := ahead
    rw [first] at member
    rcases List.mem_cons.mp member with rfl | later
    · exact .inl (.inr ⟨test, head.trans answer⟩)
    · exact .inr ⟨piece, later, answer⟩

/-- Once the other thread has had its letter, a thread's prospects are safe. -/
theorem Move.secured (kept : Kept launch s) (move : Move launch s action next)
    (secured : s.Secured rose)
    : next.Secured rose := by
  rcases secured with settled | ⟨other, ahead⟩
  · exact .inl (move.settled kept settled)
  · have hopeful := move.ahead ahead fun one apart reading => by
      obtain rfl := (Rose.eq_or_eq_other rose one).resolve_left apart
      rcases other with gone | ⟨here, _⟩
      · rw [gone] at reading
        exact nomatch reading
      · rw [here] at reading
        exact nomatch reading
    rcases hopeful with settled | ahead
    · exact .inl settled
    · exact .inr ⟨move.settled kept other, ahead⟩

/-- A thread whose letter is neither in its buffer nor still to come does not get it. -/
theorem Move.hopeless (kept : Kept launch s) (move : Move launch s action next)
    (hopeless : ¬ s.Hopeful rose)
    : ¬ next.Hopeful rose := by
  have gone : ¬ next.Ahead rose := by
    rintro ⟨piece, member, answer⟩
    refine hopeless (.inr ⟨piece, ?_, answer⟩)
    rcases move.stdin with same | ⟨_, line, _, _, first, _⟩
    · rwa [← same]
    · rw [first]
      exact List.mem_cons_of_mem _ member
  refine fun either => either.elim (fun settled => hopeless (.inl ?_)) gone
  by_cases own : action = .thread rose
  · subst own
    have agrees := kept.agrees rose
    cases move with
    | malloc => simp [State.Settled] at settled
    | fgets here some =>
        simp only [State.Settled, State.become_self, head?_overwrite some] at settled
        obtain ⟨_, answer⟩ := settled.resolve_left (by simp)
        refine absurd (.inr ⟨_, ?_, answer⟩) hopeless
        rw [pieces_eq_cons some]
        exact List.mem_cons_self
    | fgetsEnd here =>
        rw [State.Agrees, here] at agrees
        simp only [State.Settled, State.become_self] at settled
        exact absurd (settled.resolve_left (by simp)).2 agrees.2
    | leaves here own => exact .inr ⟨here, own⟩
    | waits => simp [State.Settled] at settled
  · rcases move.thread_eq_or rose own with same | ⟨_, created⟩
    · rw [State.Settled, same] at settled
      exact settled
    · simp [State.Settled, created] at settled

-----------------------------------------------------------------------------------------
-- A thread on its own
-----------------------------------------------------------------------------------------

/-- How far a thread is from its end, apart from the pieces it has to read. -/
def ThreadPc.work : ThreadPc → Nat
  | .unborn => 6
  | .malloc => 5
  | .test => 4
  | .fgets => 2
  | .exited => 0

def MainPc.work : MainPc → Nat
  | .create .red => 5
  | .create .white => 4
  | .join .red => 3
  | .join .white => 2
  | .print => 1
  | .returned => 0

/-- What is left to do until the thread has left on its own. -/
def State.work (rose : Rose) (s : State) : Nat :=
  s.main.work + 3 * s.stdin.length + (s.thread rose).pc.work

/-- Every step of `main` brings it forward, and leaves the input alone. -/
theorem Move.main_work (move : Move launch s .main next)
    : next.main.work < s.main.work ∧ next.stdin = s.stdin := by
  cases move with
  | @create one here =>
      refine ⟨?_, rfl⟩
      cases one <;> simp [here, Rose.afterCreate, MainPc.work]
  | @join one here =>
      refine ⟨?_, rfl⟩
      cases one <;> simp [here, Rose.afterJoin, MainPc.work]
  | print here => exact ⟨by simp [here, MainPc.work], rfl⟩

/-- A thread with prospects is not at the end of the input when it reads. -/
theorem State.Hopeful.more (hopeful : s.Hopeful rose) (here : (s.thread rose).pc = .fgets)
    : fgetsLine ansSize s.stdin ≠ [] := by
  have ahead := hopeful.resolve_left fun settled => by simp [State.Settled, here] at settled
  obtain ⟨piece, member, _⟩ := ahead
  refine fgetsLine_ne_nil (by decide) fun none => ?_
  rw [none, pieces_nil] at member
  exact nomatch member

theorem Move.work_lt (kept : Kept launch s) (move : Move launch s action next)
    (hopeful : s.Hopeful rose) (own : Own rose s action)
    : next.work rose < s.work rose := by
  rcases own with rfl | rfl
  · obtain ⟨lower, stdin⟩ := move.main_work
    have thread : (next.thread rose).pc.work ≤ (s.thread rose).pc.work := by
      rcases move.thread_eq_or rose (by simp) with same | ⟨created, malloc⟩
      · exact Nat.le_of_eq (by rw [same])
      · rw [kept.unborn created, malloc]
        decide
    simp only [State.work, stdin]
    omega
  · cases move with
    | malloc here => simp [State.work, here, ThreadPc.work]
    | fgets here some =>
        have positive := List.length_pos_of_ne_nil some
        have front := List.IsPrefix.length_le <| fgetsLine_prefix ansSize s.stdin
        simp only [State.work, State.become_self, State.become_stdin, State.become_main, here,
          ThreadPc.work, List.length_drop]
        omega
    | fgetsEnd here none => exact absurd none (hopeful.more here)
    | leaves here | waits here => simp [State.work, here, ThreadPc.work]

/-- A thread that has not left can take a step, or `main` can create it. -/
theorem Kept.can_go_on (kept : Kept launch s) (inside : ¬ s.Exited rose)
    : ∃ action next, Own rose s action ∧ (system launch).step s action = some next := by
  cases here : (s.thread rose).pc with
  | unborn =>
      have early := (kept.created rose).mp here
      cases place : s.main with
      | create one =>
          exact ⟨.main, _, .inl rfl, by simp [system, step, TerminateTest.main, place]; rfl⟩
      | join | print | returned => simp [place, MainPc.created] at early
  | malloc => exact ⟨.thread rose, _, .inr rfl, by simp [system, step, threadFunc, here]; rfl⟩
  | fgets =>
      by_cases none : fgetsLine ansSize s.stdin = []
      · exact ⟨.thread rose, _, .inr rfl, by simp [system, step, threadFunc, here, none]; rfl⟩
      · exact ⟨.thread rose, _, .inr rfl, by simp [system, step, threadFunc, here, none]; rfl⟩
  | test =>
      by_cases own : (s.thread rose).ans.head? = some rose.code
      · exact ⟨.thread rose, _, .inr rfl, by simp [system, step, threadFunc, here, own]; rfl⟩
      · exact ⟨.thread rose, _, .inr rfl, by simp [system, step, threadFunc, here, own]; rfl⟩
  | exited => exact absurd here inside

/-- A thread that keeps its own steps keeps its prospects. -/
theorem Move.hopeful (kept : Kept launch s) (move : Move launch s action next)
    (hopeful : s.Hopeful rose) (own : Own rose s action)
    : next.Hopeful rose := by
  rcases hopeful with settled | ahead
  · exact .inl (move.settled kept settled)
  · refine move.ahead ahead fun other apart _ same => ?_
    rcases own with rfl | rfl
    · exact nomatch same
    · exact apart (Action.thread.inj same).symm

theorem Kept.inevitable (clean : launch.Clean) (kept : Kept launch s) (hopeful : s.Hopeful rose)
    : (system launch).Inevitable (Own rose) (State.Exited rose) s := by
  refine System.Inevitable.of_measure (fun s => Kept launch s ∧ s.Hopeful rose)
    (State.work rose) ?_ ?_ ?_ ⟨kept, hopeful⟩
  · intro s action next holds own taken
    have move := Move.of_step taken
    exact ⟨holds.1.move clean move, move.hopeful holds.1 holds.2 own⟩
  · intro s holds
    by_cases gone : s.Exited rose
    · exact .inl gone
    · exact .inr (holds.1.can_go_on gone)
  · intro s action next holds own taken
    exact (Move.of_step taken).work_lt holds.1 holds.2 own

/-- A thread that has left had prospects. -/
theorem State.Exited.hopeful (gone : s.Exited rose) : s.Hopeful rose := .inl (.inl gone)

/-- What is hopeless once is hopeless for good. -/
theorem Move.hopeless_kept (clean : launch.Clean)
    (holds : Kept launch s ∧ ¬ s.Hopeful rose)
    (taken : (system launch).step s action = some next)
    : Kept launch next ∧ ¬ next.Hopeful rose :=
  ⟨holds.1.move clean (.of_step taken), (Move.of_step taken).hopeless holds.1 holds.2⟩

-----------------------------------------------------------------------------------------
-- Robbing a thread of its letter
-----------------------------------------------------------------------------------------

/-- Both threads are at `fgets`. -/
def State.Reading (s : State) : Prop := ∀ rose, (s.thread rose).pc = .fgets

/-- A thread that exists and has not had its letter gets to `fgets`, by a step at most. -/
theorem State.reads_on (launch : Launch) (born : (s.thread rose).pc ≠ .unborn)
    (open_ : ¬ s.Settled rose)
    : ∃ next,
        (system launch).Leads s next
        ∧ (next.thread rose).pc = .fgets
        ∧ next.thread rose.other = s.thread rose.other
        ∧ next.stdin = s.stdin
        ∧ next.main = s.main := by
  have apart := rose.other_ne
  cases here : (s.thread rose).pc with
  | unborn => exact absurd here born
  | exited => exact absurd (.inl here) open_
  | fgets => exact ⟨s, .refl s, here, rfl, rfl, rfl⟩
  | malloc =>
      let next := s.become rose { s.thread rose with ans := launch.fresh rose, pc := .fgets }
      have taken : (system launch).step s (.thread rose) = some next := by
        simp [system, step, threadFunc, here, next]
      exact ⟨next, .step taken (.refl next), by simp [next], by simp [next, apart], rfl, rfl⟩
  | test =>
      have differs : (s.thread rose).ans.head? ≠ some rose.code :=
        fun own => open_ (.inr ⟨here, own⟩)
      let next := (s.become rose { s.thread rose with pc := .fgets }).print [.waits rose]
      have taken : (system launch).step s (.thread rose) = some next := by
        simp [system, step, threadFunc, here, differs, next]
      exact ⟨next, .step taken (.refl next), by simp [next], by simp [next, apart], rfl, rfl⟩

/-- Either thread can read the next piece. -/
theorem State.Reading.takes (launch : Launch) (reading : s.Reading) (reader : Rose)
    (some : fgetsLine ansSize s.stdin ≠ [])
    : ∃ next,
        (system launch).step s (.thread reader) = Option.some next
        ∧ (next.thread reader).pc = .test
        ∧ (next.thread reader).ans.head? = (fgetsLine ansSize s.stdin).head?
        ∧ next.thread reader.other = s.thread reader.other
        ∧ next.stdin = s.stdin.drop (fgetsLine ansSize s.stdin).length := by
  refine ⟨_, by simp [system, step, threadFunc, reading reader, some]; rfl, ?_⟩
  simp [head?_overwrite some, reader.other_ne]

/-- A thread that reads a piece without its letter is back at `fgets` two steps later. -/
theorem State.Reading.skips (launch : Launch) (reading : s.Reading) {reader : Rose}
    (some : fgetsLine ansSize s.stdin ≠ [])
    (other : ¬ reader.answeredBy (fgetsLine ansSize s.stdin))
    : ∃ next,
        (system launch).Leads s next
        ∧ next.Reading
        ∧ next.stdin = s.stdin.drop (fgetsLine ansSize s.stdin).length := by
  obtain ⟨read, taken, test, head, untouched, stdin⟩ :=
    reading.takes launch reader some
  have open_ : ¬ read.Settled reader := by
    simp only [State.Settled, test, head]
    exact fun settled => other (settled.resolve_left (by simp)).2
  obtain ⟨next, run, back, untouched', stdin', _⟩ :=
    State.reads_on launch (by simp [test]) open_
  refine ⟨next, .step taken run, fun rose => ?_, stdin'.trans stdin⟩
  rcases Rose.eq_or_eq_other reader rose with rfl | rfl
  · exact back
  · rw [untouched', untouched]
    exact reading _

/-- Both threads can read on until the end of the input without getting their letters, by
induction on what is left of it: each letter goes to the other thread.
-/
theorem State.Reading.robbed (launch : Launch) (reading : s.Reading)
    : ∃ after, (system launch).Leads s after ∧ ∀ rose, ¬ after.Hopeful rose := by
  induction length : s.stdin.length using Nat.strongRecOn generalizing s with
  | ind n ih =>
      by_cases none : s.stdin = []
      · refine ⟨s, .refl s, fun rose => ?_⟩
        simp [State.Hopeful, State.Settled, State.Ahead, reading rose, none]
      · have some : fgetsLine ansSize s.stdin ≠ [] := fgetsLine_ne_nil (by decide) none
        obtain ⟨reader, other⟩ : ∃ reader : Rose,
            ¬ reader.answeredBy (fgetsLine ansSize s.stdin) := by
          by_cases answer : Rose.red.answeredBy (fgetsLine ansSize s.stdin)
          · exact ⟨.white, Rose.not_answeredBy_other answer⟩
          · exact ⟨.red, answer⟩
        obtain ⟨next, run, reading, stdin⟩ := reading.skips launch some other
        have shorter : next.stdin.length < n := by
          have positive := List.length_pos_of_ne_nil some
          have more := List.length_pos_of_ne_nil none
          rw [stdin, List.length_drop]
          omega
        obtain ⟨after, later, hopeless⟩ := ih _ shorter reading rfl
        exact ⟨after, run.trans later, hopeless⟩

/-- `main` can create the threads that are still to be created. -/
theorem Kept.creates (clean : launch.Clean) (kept : Kept launch s)
    (open_ : ∀ rose, ¬ s.Settled rose)
    : ∃ next,
        (system launch).Leads s next
        ∧ (∀ rose, (next.thread rose).pc ≠ .unborn ∧ ¬ next.Settled rose)
        ∧ next.stdin = s.stdin := by
  induction left : s.main.work using Nat.strongRecOn generalizing s with
  | ind n ih =>
      by_cases created : ∀ rose, (s.thread rose).pc ≠ .unborn
      · exact ⟨s, .refl s, fun rose => ⟨created rose, open_ rose⟩, rfl⟩
      · obtain ⟨rose, unborn⟩ := not_forall_not.mp created
        obtain ⟨one, here⟩ : ∃ one, s.main = .create one := by
          have early := (kept.created rose).mp unborn
          cases place : s.main with
          | create one => exact ⟨one, rfl⟩
          | join | print | returned => simp [place, MainPc.created] at early
        have taken : (system launch).step s .main
            = some ({ s with main := one.afterCreate }.become one
              { s.thread one with pc := .malloc }) := by
          simp [system, step, TerminateTest.main, here]
        have move := Move.of_step taken
        have later (rose : Rose) : ¬ State.Settled _ rose := fun settled => by
          rcases move.thread_eq_or rose (by simp) with same | ⟨_, created⟩
          · rw [State.Settled, same] at settled
            exact open_ rose settled
          · simp [State.Settled, created] at settled
        obtain ⟨next, run, after, stdin⟩ :=
          ih _ (left ▸ move.main_work.1) (kept.move clean move) later rfl
        exact ⟨next, .step taken run, after, stdin⟩

/-- Two threads that have not had their letters can both get to `fgets`. -/
theorem Kept.read_on (clean : launch.Clean) (kept : Kept launch s)
    (open_ : ∀ rose, ¬ s.Settled rose)
    : ∃ next, (system launch).Leads s next ∧ next.Reading ∧ next.stdin = s.stdin := by
  obtain ⟨one, run, created, stdin⟩ := kept.creates clean open_
  obtain ⟨two, run', red, white, stdin', _⟩ :=
    State.reads_on launch (created .red).1 (created .red).2
  have white : two.thread .white = one.thread .white := white
  obtain ⟨three, run'', white', red', stdin'', _⟩ :=
    @State.reads_on two .white launch
      (by rw [white]; exact (created .white).1)
      (by rw [State.Settled, white]; exact (created .white).2)
  have red' : three.thread .red = two.thread .red := red'
  refine ⟨three, run.trans (run'.trans run''), fun rose => ?_, ?_⟩
  · cases rose with
    | red => rw [red', red]
    | white => exact white'
  · rw [stdin'', stdin', stdin]

/-- A thread whose prospects are not safe can be robbed of them. -/
theorem Kept.robbed (clean : launch.Clean) (kept : Kept launch s) (exposed : ¬ s.Secured rose)
    : ∃ after, (system launch).Leads s after ∧ ¬ after.Hopeful rose := by
  obtain ⟨open_, alone⟩ := not_or.mp exposed
  by_cases ahead : s.Ahead rose
  · have both (one : Rose) : ¬ s.Settled one := by
      rcases Rose.eq_or_eq_other rose one with rfl | rfl
      · exact open_
      · exact fun settled => alone ⟨settled, ahead⟩
    obtain ⟨middle, run, reading, _⟩ := kept.read_on clean both
    obtain ⟨after, later, hopeless⟩ := reading.robbed launch
    exact ⟨after, run.trans later, hopeless rose⟩
  · exact ⟨s, .refl s, not_or.mpr ⟨open_, ahead⟩⟩

/-- In every reachable state a thread that goes on alone leaves in the end, exactly if its
letter is in its buffer or still to come. It leaves whatever the other one does before,
exactly if it has its letter, or if the letter is still to come and the other one has had its
own: until then the other one can take every piece that the thread is waiting for.
-/
theorem leaves_iff (clean : launch.Clean) (reached : (system launch).Reachable s)
    : ((system launch).Inevitable (Own rose) (State.Exited rose) s ↔ s.Hopeful rose)
      ∧ ((system launch).Assured (Own rose) (State.Exited rose) s ↔ s.Secured rose) := by
  have kept := kept_of_reachable clean reached
  have lost (s : State) (holds : Kept launch s ∧ ¬ s.Hopeful rose) : ¬ s.Exited rose :=
    fun gone => holds.2 gone.hopeful
  refine ⟨⟨fun sure => ?_, kept.inevitable clean⟩, ⟨fun assured => ?_, fun secured => ?_⟩⟩
  · by_contra hopeless
    obtain ⟨final, run, gone⟩ := sure.leads
    exact lost final (run.kept (fun _ _ _ => Move.hopeless_kept clean) ⟨kept, hopeless⟩) gone
  · by_contra exposed
    obtain ⟨after, run, hopeless⟩ := kept.robbed clean exposed
    have kept' := kept_of_reachable clean (run.reachable reached)
    exact System.not_assured (fun _ _ _ => Move.hopeless_kept clean) lost run
      ⟨kept', hopeless⟩ assured
  · let safe (s : State) : Prop := Kept launch s ∧ s.Secured rose
    have stays (s : State) (action : Action) (next : State) (before : safe s)
        (taken : (system launch).step s action = some next)
        : safe next := by
      have move := Move.of_step taken
      exact ⟨before.1.move clean move, move.secured before.1 before.2⟩
    have sure (s : State) (before : safe s) :=
      before.1.inevitable clean (before.2.imp id And.right)
    exact System.Assured.of_kept stays sure ⟨kept, secured⟩

/-- At the start the red thread would find its letter in the third line, but need not. -/
theorem leaves_iff_fourLines
    : (system fourLines).Inevitable (Own .red) (State.Exited .red) (start fourLines)
      ∧ ¬ (system fourLines).Assured (Own .red) (State.Exited .red) (start fourLines) := by
  have exact_ := @leaves_iff fourLines (start fourLines) .red fourLines_clean (.initial rfl)
  refine ⟨exact_.1.mpr (.inr ⟨[114, 10], by decide, rfl⟩), fun assured => ?_⟩
  exact absurd (exact_.2.mp assured) (by simp [State.Secured, State.Settled, start])

-----------------------------------------------------------------------------------------
-- The whole program
-----------------------------------------------------------------------------------------

/-- Two threads whose prospects are safe both leave, the red one first. -/
theorem Kept.both_leave (clean : launch.Clean) (kept : Kept launch s)
    (secured : ∀ rose, s.Secured rose)
    : ∃ after, (system launch).Leads s after ∧ ∀ rose, after.Exited rose := by
  have leaves {s : State} {rose : Rose} (kept : Kept launch s) (secured : s.Secured rose) :=
    (kept.inevitable clean (secured.imp id And.right)).leads
  have kept_secured (s : State) (action : Action) (next : State)
      (holds : Kept launch s ∧ s.Secured .white)
      (taken : (system launch).step s action = some next)
      : Kept launch next ∧ next.Secured .white :=
    ⟨holds.1.move clean (.of_step taken), (Move.of_step taken).secured holds.1 holds.2⟩
  have kept_gone (s : State) (action : Action) (next : State)
      (holds : Kept launch s ∧ s.Exited .red)
      (taken : (system launch).step s action = some next)
      : Kept launch next ∧ next.Exited .red :=
    ⟨holds.1.move clean (.of_step taken), (Move.of_step taken).exited holds.1 holds.2⟩
  obtain ⟨middle, run, red⟩ := leaves kept (secured .red)
  obtain ⟨kept', white⟩ := run.kept kept_secured ⟨kept, secured .white⟩
  obtain ⟨after, later, white⟩ := leaves kept' white
  refine ⟨after, run.trans later, fun rose => ?_⟩
  cases rose with
  | red => exact (later.kept kept_gone ⟨kept', red⟩).2
  | white => exact white

/-- Once both threads have left, `main` returns. -/
theorem Kept.main_returns (clean : launch.Clean) (kept : Kept launch s)
    (gone : ∀ rose, s.Exited rose)
    : ∃ after, (system launch).Leads s after ∧ after.main = .returned := by
  have sure : (system launch).Inevitable (fun _ action => action = .main)
      (fun s => s.main = .returned) s := by
    refine System.Inevitable.of_measure (fun s => Kept launch s ∧ ∀ rose, s.Exited rose)
      (fun s => s.main.work) ?_ ?_ ?_ ⟨kept, gone⟩
    · intro s action next holds _ taken
      have move := Move.of_step taken
      exact ⟨holds.1.move clean move, fun rose => move.exited holds.1 (holds.2 rose)⟩
    · intro s holds
      cases here : s.main with
      | returned => exact .inl rfl
      | create rose =>
          have unborn := holds.1.unborn here
          rw [holds.2 rose] at unborn
          exact nomatch unborn
      | join rose =>
          have exited : (s.thread rose).pc = .exited := holds.2 rose
          exact .inr ⟨.main, _, rfl, by
            simp [system, step, TerminateTest.main, here, exited]; rfl⟩
      | print =>
          have joined (rose : Rose) := (holds.1.joined rose (by rw [here]; rfl)).2
          exact .inr ⟨.main, _, rfl, by
            simp [system, step, TerminateTest.main, here, joined .red, joined .white]; rfl⟩
    · rintro s _ next holds rfl taken
      exact (Move.of_step taken).main_work.1
  exact sure.leads

/-- A letter that does not begin the next piece is still to come behind it. -/
theorem State.Ahead.behind {next : State} (ahead : s.Ahead rose)
    (some : fgetsLine ansSize s.stdin ≠ [])
    (other : ¬ rose.answeredBy (fgetsLine ansSize s.stdin))
    (stdin : next.stdin = s.stdin.drop (fgetsLine ansSize s.stdin).length)
    : next.Ahead rose := by
  obtain ⟨piece, member, answer⟩ := ahead
  rw [pieces_eq_cons some] at member
  rcases List.mem_cons.mp member with rfl | later
  · exact absurd answer other
  · exact ⟨piece, by rwa [stdin], answer⟩

/-- Two threads at `fgets` whose letters are still to come can both leave, by induction on the
input: as long as the next piece begins with neither letter, the red thread reads it.
-/
theorem State.Reading.both_secured (launch : Launch) (reading : s.Reading)
    (ahead : ∀ rose, s.Ahead rose)
    : ∃ after, (system launch).Leads s after ∧ ∀ rose, after.Secured rose := by
  induction length : s.stdin.length using Nat.strongRecOn generalizing s with
  | ind n ih =>
      have some : fgetsLine ansSize s.stdin ≠ [] :=
        State.Hopeful.more (.inr (ahead .red)) (reading .red)
      by_cases answer : ∃ reader : Rose, reader.answeredBy (fgetsLine ansSize s.stdin)
      · obtain ⟨reader, answer⟩ := answer
        obtain ⟨next, taken, test, head, _, stdin⟩ := reading.takes launch reader some
        have settled : next.Settled reader := .inr ⟨test, head.trans answer⟩
        refine ⟨next, .step taken (.refl next), fun rose => ?_⟩
        rcases Rose.eq_or_eq_other reader rose with rfl | rfl
        · exact .inl settled
        · have other := Rose.not_answeredBy_other answer
          have back : reader.other.other = reader := by cases reader <;> rfl
          exact .inr ⟨by rwa [back], (ahead _).behind some other stdin⟩
      · have other (rose : Rose) := not_exists.mp answer rose
        obtain ⟨next, run, reading, stdin⟩ := reading.skips launch some (other .red)
        have shorter : next.stdin.length < n := by
          have positive := List.length_pos_of_ne_nil some
          have front := List.IsPrefix.length_le <| fgetsLine_prefix ansSize s.stdin
          rw [stdin, List.length_drop]
          omega
        obtain ⟨after, later, secured⟩ :=
          ih _ shorter reading (fun rose => (ahead rose).behind some (other rose) stdin) rfl
        exact ⟨after, run.trans later, secured⟩

/-- `main` can return exactly if both letters begin a piece of the input. Whatever the input
is, the threads can also come to a point from which neither of them ever leaves.
-/
theorem returns_iff (clean : launch.Clean)
    : ((∃ s, (system launch).Reachable s ∧ s.main = .returned)
        ↔ ∀ rose : Rose, ∃ piece ∈ pieces ansSize launch.input, rose.answeredBy piece)
      ∧ ∃ s,
          (system launch).Reachable s
          ∧ ∀ after,
              (system launch).Leads s after
              → after.main ≠ .returned ∧ ∀ rose, ¬ after.Exited rose := by
  have initial : (system launch).Reachable (start launch) := .initial rfl
  have kept := kept_of_reachable clean initial
  have waiting (rose : Rose) : ¬ (start launch).Settled rose := by
    simp [State.Settled, start]
  obtain ⟨ready, run, reading, stdin⟩ := kept.read_on clean waiting
  have stdin : ready.stdin = launch.input := stdin
  have reached := run.reachable initial
  refine ⟨⟨?_, fun letters => ?_⟩, ?_⟩
  · rintro ⟨s, reached, returned⟩ rose
    have kept := kept_of_reachable clean reached
    have exited := (kept.joined rose (by rw [returned]; rfl)).1
    obtain ⟨earlier, last, read, answer, _⟩ := kept.answered (.inl exited)
    have member : last ∈ s.read rose := by simp [read]
    exact ⟨last, kept.mem_pieces member, answer⟩
  · obtain ⟨assured, later, secured⟩ := reading.both_secured launch fun rose => by
      rw [State.Ahead, stdin]
      exact letters rose
    have reached := later.reachable reached
    obtain ⟨bothGone, last, gone⟩ := (kept_of_reachable clean reached).both_leave clean secured
    have reached := last.reachable reached
    obtain ⟨final, ending, returned⟩ := (kept_of_reachable clean reached).main_returns clean gone
    exact ⟨final, ending.reachable reached, returned⟩
  · obtain ⟨after, later, hopeless⟩ := reading.robbed launch
    have reached := later.reachable reached
    refine ⟨after, reached, fun final last => ?_⟩
    have stuck (rose : Rose) : ¬ final.Exited rose := fun gone =>
      (last.kept (fun _ _ _ => Move.hopeless_kept clean)
        ⟨kept_of_reachable clean reached, hopeless rose⟩).2 gone.hopeful
    refine ⟨fun returned => stuck .red ?_, stuck⟩
    have kept := kept_of_reachable clean (last.reachable reached)
    exact (kept.joined .red (by rw [returned]; rfl)).1

theorem returns_iff_fourLines
    : (∃ s, (system fourLines).Reachable s ∧ s.main = .returned)
      ∧ ∃ s,
          (system fourLines).Reachable s
          ∧ ∀ after,
              (system fourLines).Leads s after
              → after.main ≠ .returned ∧ ∀ rose, ¬ after.Exited rose := by
  obtain ⟨can, need_not⟩ := returns_iff fourLines_clean
  refine ⟨can.mpr fun rose => ?_, need_not⟩
  cases rose with
  | red => exact ⟨[114, 10], by decide, rfl⟩
  | white => exact ⟨[119, 10], by decide, rfl⟩

end LinuxStudy.TerminateTest
