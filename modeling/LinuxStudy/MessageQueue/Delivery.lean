import LinuxStudy.MessageQueue.Steps
import LinuxStudy.Transition.Progress
import Mathlib.Data.List.Nodup
import Mathlib.Data.List.Range

/-! No message of `product.c` is lost, and the end marker reaches `consumer.c`, in runs in which
the producer removes the name of the queue only after the consumer has opened it, and does not
give up on the end marker. The code provides for neither.
-/

namespace LinuxStudy.MessageQueue

open Transition Posix

/-- The message about to be sent is the marker or does not look like it. -/
def ProducerPc.distinct : ProducerPc → Prop
  | .send chunk => looksLikeEof (filled chunk) = false
  | _ => True

instance (pc : ProducerPc) : Decidable pc.distinct := by
  unfold ProducerPc.distinct
  split <;> infer_instance

/-- The condition on the steps: the calls for the queue succeed, the end marker is not given
up, the name is removed only after both have opened the queue, and no chunk that looks like
the marker is sent.
-/
def Orderly (s : State) : Action → Prop
  | .send => s.producer.distinct
  | .sendTimesOut => s.producer ≠ .sendMarker
  | .producerUnlink => s.consumer ≠ .open_
  | .producerOpenFails | .consumerOpenFails | .receiveFails => False
  | _ => True

instance (s : State) (action : Action) : Decidable (Orderly s action) := by
  unfold Orderly
  split <;> infer_instance

/-- The producer has the queue open. -/
def ProducerPc.holdsQueue : ProducerPc → Prop
  | .read | .send _ | .sendMarker | .close => True
  | _ => False

/-- The producer's input has ended, and it has left its loop. -/
def ProducerPc.ended : ProducerPc → Prop
  | .close | .unlink | .done => True
  | _ => False

/-- The consumer has the queue open. -/
def ConsumerPc.holdsQueue : ConsumerPc → Prop
  | .receive | .test | .print | .close => True
  | _ => False

/-- The consumer has left its loop. -/
def ConsumerPc.left : ConsumerPc → Prop
  | .close | .unlink | .done => True
  | _ => False

/-- Neither program has opened the queue. -/
def State.unopened (s : State) : Prop := s.producer = .open_ ∧ s.consumer = .open_

instance (s : State) : Decidable s.unopened := by
  unfold State.unopened
  infer_instance

/-- The messages in the queue that was created first. -/
def State.waiting (s : State) : List Message := (s.queues.content? 0).getD []

-----------------------------------------------------------------------------------------
-- One queue for both
-----------------------------------------------------------------------------------------

/-- There is one queue at most, each program that has opened it holds it, and whoever has not
opened it yet finds it by name.
-/
structure Linked (s : State) : Prop where
  queues : s.queues.contents.length = if s.unopened then 0 else 1
  named
    : s.producer = .open_ ∨ s.consumer = .open_
      → s.queues.names mqName = if s.unopened then none else some 0
  producer : s.producer.holdsQueue → s.producerMqdes = some 0
  consumer : s.consumer.holdsQueue → s.consumerMqdes = some 0
  alive : s.producer ≠ .failed ∧ s.consumer ≠ .failed

/-- Opening the queue leads both to the same one and changes no message. -/
theorem Linked.openOrCreate {s : State} (linked : Linked s)
    (closed : s.producer = .open_ ∨ s.consumer = .open_)
    : (s.queues.openOrCreate mqName []).1 = 0
      ∧ (s.queues.openOrCreate mqName []).2.contents.length = 1
      ∧ ((s.queues.openOrCreate mqName []).2.content? 0).getD [] = s.waiting := by
  have queues := linked.queues
  have named := linked.named closed
  by_cases first : s.unopened
  · rw [if_pos first] at queues named
    obtain ⟨number, contents⟩ := NamedObjects.openOrCreate_of_none named []
    have none : s.queues.contents = [] := List.length_eq_zero_iff.mp queues
    rw [none] at number contents
    simp [number, contents, NamedObjects.content?, State.waiting, none]
  · rw [if_neg first] at queues named
    rw [NamedObjects.openOrCreate_of_some named]
    exact ⟨rfl, queues, rfl⟩

/-- Steps after which the same programs have not opened the queue yet. -/
theorem Linked.stay {s next : State} (linked : Linked s)
    (length : next.queues.contents.length = s.queues.contents.length)
    (opening : next.producer = .open_ ↔ s.producer = .open_)
    (opening' : next.consumer = .open_ ↔ s.consumer = .open_)
    (names
      : next.producer = .open_ ∨ next.consumer = .open_
        → next.queues.names = s.queues.names)
    (producer : next.producer.holdsQueue → next.producerMqdes = some 0)
    (consumer : next.consumer.holdsQueue → next.consumerMqdes = some 0)
    (alive : next.producer ≠ .failed ∧ next.consumer ≠ .failed)
    : Linked next where
  queues := by simpa only [length, State.unopened, opening, opening'] using linked.queues
  named closed := by
    rw [names closed]
    simp only [State.unopened, opening, opening'] at closed ⊢
    exact linked.named closed
  producer := producer
  consumer := consumer
  alive := alive

/-- Whoever is about to send has the queue open. -/
theorem ProducerPc.outgoing_cases {pc next : ProducerPc} {bytes : Bytes} {marker : Bool}
    (outgoing : pc.outgoing? = some (bytes, marker, next))
    : pc = .send bytes ∧ marker = false ∧ next = .read
      ∨ pc = .sendMarker ∧ bytes = eofText ∧ marker = true ∧ next = .close := by
  cases pc with
  | send chunk =>
      obtain ⟨rfl, rfl, rfl⟩ : chunk = bytes ∧ false = marker ∧ .read = next := by
        simpa [ProducerPc.outgoing?] using outgoing
      exact Or.inl ⟨rfl, rfl, rfl⟩
  | sendMarker =>
      obtain ⟨rfl, rfl, rfl⟩ : eofText = bytes ∧ true = marker ∧ .close = next := by
        simpa [ProducerPc.outgoing?] using outgoing
      exact Or.inr ⟨rfl, rfl, rfl, rfl⟩
  | _ => simp [ProducerPc.outgoing?] at outgoing

/-- Sending and giving up a message lead from one point with the queue open to another. -/
theorem ProducerPc.outgoing_open {pc next : ProducerPc} {bytes : Bytes} {marker : Bool}
    (outgoing : pc.outgoing? = some (bytes, marker, next))
    : pc.holdsQueue ∧ pc ≠ .open_ ∧ next ≠ .open_ ∧ next ≠ .failed := by
  rcases ProducerPc.outgoing_cases outgoing with ⟨rfl, -, rfl⟩ | ⟨rfl, -, -, rfl⟩
  all_goals simp [ProducerPc.holdsQueue]

/-- An orderly step keeps the two programs on one queue. -/
theorem Linked.move {s next : State} {action : Action} (linked : Linked s)
    (later : s.consumer.left → s.producer.ended) (orderly : Orderly s action)
    (taken : Move s action next)
    : Linked next := by
  have first := linked.openOrCreate
  have producer := linked.producer
  have consumer := linked.consumer
  have alive := linked.alive
  cases taken with
  | producerOpen here =>
      obtain ⟨number, one, -⟩ := first (Or.inl here)
      refine ⟨?_, fun _ => ?_, fun _ => by rw [number], consumer, ⟨by simp, alive.2⟩⟩
      · simp [State.unopened, one]
      · simp [State.unopened, number]
  | consumerOpen here =>
      obtain ⟨number, one, -⟩ := first (Or.inr here)
      refine ⟨?_, fun _ => ?_, producer, fun _ => by rw [number], ⟨alive.1, by simp⟩⟩
      · simp [State.unopened, one]
      · simp [State.unopened, number]
  | producerOpenFails _ | consumerOpenFails _ | receiveFails _ => exact orderly.elim
  | readFails here => exact linked
  | read here _ _ _ | readEnd here _ =>
      refine linked.stay rfl (by simp [here]) Iff.rfl (fun _ => rfl) (fun _ => ?_) consumer
        ⟨by simp, alive.2⟩
      exact producer (by simp [here, ProducerPc.holdsQueue])
  | producerClose here =>
      exact linked.stay rfl (by simp [here]) Iff.rfl (fun _ => rfl) False.elim consumer
        ⟨by simp, alive.2⟩
  | send outgoing mine holds room =>
      obtain ⟨inside, before, after, running⟩ := ProducerPc.outgoing_open outgoing
      exact linked.stay (by simp [State.sends, NamedObjects.write])
        (iff_of_false after before) Iff.rfl (fun _ => rfl) (fun _ => producer inside) consumer
        ⟨running, alive.2⟩
  | sendTimesOut outgoing mine holds full =>
      obtain ⟨inside, before, after, running⟩ := ProducerPc.outgoing_open outgoing
      exact linked.stay rfl (iff_of_false after before) Iff.rfl (fun _ => rfl)
        (fun _ => producer inside) consumer ⟨running, alive.2⟩
  | producerUnlink here =>
      refine linked.stay rfl (by simp [here]) Iff.rfl (fun closed => ?_) False.elim consumer
        ⟨by simp, alive.2⟩
      exact absurd closed (by simpa [Orderly] using orderly)
  | receive here mine holds =>
      refine linked.stay (by simp [State.takes, NamedObjects.write]) Iff.rfl
        (by simp [State.takes, here]) (fun _ => rfl) producer (fun _ => ?_)
        ⟨alive.1, by simp [State.takes]⟩
      exact consumer (by simp [here, ConsumerPc.holdsQueue])
  | test here =>
      refine linked.stay rfl Iff.rfl ?_ (fun _ => rfl) producer (fun _ => ?_) ⟨alive.1, ?_⟩
      · by_cases eof : looksLikeEof s.readBuf = true <;> simp [here, eof]
      · exact consumer (by simp [here, ConsumerPc.holdsQueue])
      · by_cases eof : looksLikeEof s.readBuf = true <;> simp [eof]
  | print here =>
      refine linked.stay rfl Iff.rfl (by simp [here]) (fun _ => rfl) producer (fun _ => ?_)
        ⟨alive.1, by simp⟩
      exact consumer (by simp [here, ConsumerPc.holdsQueue])
  | consumerClose here =>
      exact linked.stay rfl Iff.rfl (by simp [here]) (fun _ => rfl) producer False.elim
        ⟨alive.1, by simp⟩
  | consumerUnlink here =>
      refine linked.stay rfl Iff.rfl (by simp [here]) (fun closed => ?_) producer False.elim
        ⟨alive.1, by simp⟩
      -- the consumer leaves only after the producer's marker
      have ended := later (by simp [here, ConsumerPc.left])
      have unopened : s.producer = .open_ := by simpa using closed
      simp [unopened, ProducerPc.ended] at ended

-----------------------------------------------------------------------------------------
-- The way of the messages
-----------------------------------------------------------------------------------------

/-- Messages are received in the order in which they were sent, and the end marker is the last
of them; the consumer leaves its loop when it has it.
-/
structure Marked (s : State) : Prop where
  flow : s.sent = s.received ++ s.waiting
  serials : s.sent.map (·.serial) = List.range s.sent.length
  shapes : ∀ message ∈ s.sent, looksLikeEof (filled message.bytes) = message.marker
  unmarked : ¬ s.producer.ended → ∀ message ∈ s.sent, message.marker = false
  marked
    : s.producer.ended
      → ∃ earlier last,
          s.sent = earlier ++ [last]
          ∧ last.marker = true
          ∧ ∀ message ∈ earlier, message.marker = false
  held
    : s.consumer = .test ∨ s.consumer = .print
      → ∃ earlier last,
          s.received = earlier ++ [last]
          ∧ s.readBuf = filled last.bytes
          ∧ ∀ message ∈ earlier, message.marker = false
  reading
    : s.consumer = .open_ ∨ s.consumer = .receive ∨ s.consumer = .print
      → ∀ message ∈ s.received, message.marker = false
  left : s.consumer.left → s.producer.ended ∧ s.waiting = []

/-- Steps of the producer that send nothing. -/
theorem Marked.producer {s next : State} (marked : Marked s) (sent : next.sent = s.sent)
    (received : next.received = s.received) (waiting : next.waiting = s.waiting)
    (readBuf : next.readBuf = s.readBuf) (consumer : next.consumer = s.consumer)
    (ended : next.producer.ended ↔ s.producer.ended)
    : Marked next := by
  obtain ⟨flow, serials, shapes, unmarked, marked, held, reading, left⟩ := marked
  constructor
  all_goals simp only [sent, received, waiting, readBuf, consumer, ended]
  all_goals assumption

/-- The marker is the last message there is. -/
theorem Marked.nothing_behind {s : State} (marked : Marked s) {earlier : List Message}
    {last : Message} (received : s.received = earlier ++ [last]) (eof : last.marker = true)
    : s.producer.ended ∧ s.waiting = [] := by
  have flow := marked.flow
  rw [received] at flow
  have member : last ∈ s.sent := by simp [flow]
  have ended : s.producer.ended := by
    by_contra running
    exact absurd eof (by simp [marked.unmarked running last member])
  refine ⟨ended, ?_⟩
  obtain ⟨front, final, sent, -, plain⟩ := marked.marked ended
  rcases List.eq_nil_or_concat' s.waiting with none | ⟨more, x, waiting⟩
  · exact none
  · have split : front ++ [final] = (earlier ++ [last] ++ more) ++ [x] := by
      rw [← sent, flow, waiting]
      simp
    have front_eq := (List.append_inj' split rfl).1
    exact absurd eof (by simp [plain last (by simp [front_eq])])

/-- A message that passes the test of the consumer's `if` is the marker, and no other is. -/
theorem Marked.looksLikeEof_eq {s : State} (marked : Marked s) {earlier : List Message}
    {last : Message} (received : s.received = earlier ++ [last])
    : looksLikeEof (filled last.bytes) = last.marker := by
  refine marked.shapes last ?_
  rw [marked.flow, received]
  simp

/-- The messages in the only queue. -/
theorem State.waiting_eq {s : State} {messages : List Message}
    (holds : s.queues.content? 0 = some messages)
    : s.waiting = messages := by
  simp [State.waiting, holds]

/-- The marker itself is recognised. -/
theorem looksLikeEof_eofText : looksLikeEof (filled eofText) = true := by decide

/-- What waits is in the queue. -/
theorem State.content_of_waiting {s : State} {message : Message} {rest : List Message}
    (waiting : s.waiting = message :: rest)
    : s.queues.content? 0 = some (message :: rest) := by
  cases stored : s.queues.content? 0 with
  | none => simp [State.waiting, stored] at waiting
  | some messages => simpa [State.waiting, stored] using waiting

/-- Sending a chunk or the marker. -/
theorem Marked.send {s : State} (marked : Marked s) {bytes : Bytes} {marker : Bool}
    {next : ProducerPc} {messages : List Message}
    (outgoing : s.producer.outgoing? = some (bytes, marker, next))
    (distinct : s.producer.distinct) (holds : s.queues.content? 0 = some messages)
    : Marked (s.sends 0 messages bytes marker next) := by
  have waiting : (s.sends 0 messages bytes marker next).waiting
      = s.waiting ++ [⟨s.sent.length, bytes, marker⟩] := by
    rw [State.waiting_eq holds, State.waiting_eq]
    exact NamedObjects.content_write holds _
  have running : ¬ s.producer.ended := by
    rcases ProducerPc.outgoing_cases outgoing with ⟨here, -⟩ | ⟨here, -⟩
    all_goals simp [here, ProducerPc.ended]
  have unmarked := marked.unmarked running
  constructor
  case flow =>
    rw [waiting, ← List.append_assoc]
    simp only [State.sends, ← marked.flow]
  case serials => simp [State.sends, marked.serials, List.range_succ]
  case shapes =>
    intro message member
    rcases List.mem_append.mp member with old | new
    · exact marked.shapes message old
    · obtain rfl := List.mem_singleton.mp new
      rcases ProducerPc.outgoing_cases outgoing with ⟨here, rfl, -⟩ | ⟨-, rfl, rfl, -⟩
      · simpa only [here, ProducerPc.distinct] using distinct
      · exact looksLikeEof_eofText
  case unmarked =>
    intro still message member
    rcases ProducerPc.outgoing_cases outgoing with ⟨-, rfl, -⟩ | ⟨-, -, -, rfl⟩
    · rcases List.mem_append.mp member with old | new
      · exact unmarked message old
      · obtain rfl := List.mem_singleton.mp new
        rfl
    · exact absurd trivial still
  case marked =>
    intro past
    rcases ProducerPc.outgoing_cases outgoing with ⟨-, -, rfl⟩ | ⟨-, -, rfl, -⟩
    · exact past.elim
    · exact ⟨s.sent, _, rfl, rfl, unmarked⟩
  case held => exact marked.held
  case reading => exact marked.reading
  case left => exact fun gone => absurd (marked.left gone).1 running

/-- Receiving the oldest message. -/
theorem Marked.receive {s : State} (marked : Marked s) {message : Message}
    {rest : List Message} (here : s.consumer = .receive)
    (holds : s.queues.content? 0 = some (message :: rest))
    : Marked (s.takes 0 message rest) := by
  have waiting : (s.takes 0 message rest).waiting = rest :=
    State.waiting_eq (NamedObjects.content_write holds _)
  have unmarked := marked.reading (Or.inr (Or.inl here))
  refine { marked with
    flow := ?_, held := fun _ => ?_, reading := ?_, left := False.elim }
  · rw [waiting]
    simp [State.takes, marked.flow, State.waiting_eq holds]
  · exact ⟨s.received, message, rfl, rfl, unmarked⟩
  · simp [State.takes]

/-- The test sends the marker out of the loop and everything else to the `printf`. -/
theorem Marked.test {s : State} (marked : Marked s) (here : s.consumer = .test)
    : Marked { s with
        looked := s.looked ++ [strcmpLooks s.readBuf (eofText ++ [0])]
        consumer := if looksLikeEof s.readBuf then .close else .print } := by
  obtain ⟨earlier, last, received, readBuf, before⟩ := marked.held (Or.inl here)
  have eof := marked.looksLikeEof_eq received
  rw [← readBuf] at eof
  rw [eof]
  cases kind : last.marker with
  | true =>
      refine { marked with held := ?_, reading := ?_, left := fun _ => ?_ }
      · simp
      · simp
      · exact marked.nothing_behind received kind
  | false =>
      refine { marked with held := fun _ => ?_, reading := fun _ => ?_, left := ?_ }
      · exact ⟨earlier, last, received, readBuf, before⟩
      · intro message member
        rw [received] at member
        rcases List.mem_append.mp member with old | new
        · exact before message old
        · obtain rfl := List.mem_singleton.mp new
          exact kind
      · simp [ConsumerPc.left]

/-- Steps of the consumer that receive nothing and test nothing. -/
theorem Marked.consumer {s next : State} (marked : Marked s) (sent : next.sent = s.sent)
    (received : next.received = s.received) (waiting : next.waiting = s.waiting)
    (producer : next.producer = s.producer)
    (free : next.consumer ≠ .test ∧ next.consumer ≠ .print)
    (reading
      : next.consumer = .open_ ∨ next.consumer = .receive
        → s.consumer = .open_ ∨ s.consumer = .print)
    (left : next.consumer.left → s.consumer.left)
    : Marked next := by
  obtain ⟨flow, serials, shapes, unmarked, marked, -, before, gone⟩ := marked
  constructor
  case held => exact fun inside => absurd inside (not_or.mpr free)
  case reading =>
    intro inside
    rw [received]
    refine before ?_
    rcases inside with open_ | receive | print
    · exact (reading (Or.inl open_)).imp_right Or.inr
    · exact (reading (Or.inr receive)).imp_right Or.inr
    · exact absurd print free.2
  case left =>
    intro inside
    rw [producer, waiting]
    exact gone (left inside)
  all_goals simp only [sent, received, waiting, producer]
  all_goals assumption

-----------------------------------------------------------------------------------------
-- Orderly runs
-----------------------------------------------------------------------------------------

/-- What holds in every orderly run. -/
structure Delivers (s : State) : Prop where
  linked : Linked s
  marked : Marked s

theorem Delivers.move {s next : State} {action : Action} (delivers : Delivers s)
    (orderly : Orderly s action) (taken : Move s action next)
    : Delivers next := by
  obtain ⟨linked, marked⟩ := delivers
  refine ⟨linked.move (fun gone => (marked.left gone).1) orderly taken, ?_⟩
  have first := linked.openOrCreate
  cases taken with
  | producerOpen here =>
      obtain ⟨-, -, waiting⟩ := first (Or.inl here)
      exact marked.producer rfl rfl waiting rfl rfl (by simp [here, ProducerPc.ended])
  | producerOpenFails _ | consumerOpenFails _ | receiveFails _ => exact orderly.elim
  | read here _ _ _ | readEnd here _ | producerClose here | producerUnlink here =>
      exact marked.producer rfl rfl rfl rfl rfl (by simp [here, ProducerPc.ended])
  | readFails _ => exact marked
  | send outgoing mine holds room =>
      have inside := (ProducerPc.outgoing_open outgoing).1
      obtain rfl := Option.some.inj (mine.symm.trans (linked.producer inside))
      exact marked.send outgoing orderly holds
  | sendTimesOut outgoing mine holds full =>
      rcases ProducerPc.outgoing_cases outgoing with ⟨here, -, rfl⟩ | ⟨here, -, -, rfl⟩
      · exact marked.producer rfl rfl rfl rfl rfl (by simp [here, ProducerPc.ended])
      · exact absurd here orderly
  | consumerOpen here =>
      obtain ⟨-, -, waiting⟩ := first (Or.inr here)
      exact marked.consumer rfl rfl waiting rfl (by simp) (by simp [here])
        (by simp [ConsumerPc.left])
  | receive here mine holds =>
      have inside := linked.consumer (by simp [here, ConsumerPc.holdsQueue])
      obtain rfl := Option.some.inj (mine.symm.trans inside)
      exact marked.receive here holds
  | test here => exact marked.test here
  | print here =>
      exact marked.consumer rfl rfl rfl rfl (by simp) (by simp [here]) (by simp [ConsumerPc.left])
  | consumerClose here =>
      exact marked.consumer rfl rfl rfl rfl (by simp) (by simp) (by simp [here, ConsumerPc.left])
  | consumerUnlink here =>
      exact marked.consumer rfl rfl rfl rfl (by simp) (by simp) (by simp [here, ConsumerPc.left])

theorem delivers_start (input : Bytes) : Delivers (start input) where
  linked := {
    queues := rfl
    named := fun _ => rfl
    producer := False.elim
    consumer := False.elim
    alive := ⟨by simp [start], by simp [start]⟩ }
  marked := {
    flow := rfl
    serials := rfl
    shapes := fun message member => absurd member List.not_mem_nil
    unmarked := fun _ message member => absurd member List.not_mem_nil
    marked := False.elim
    held := by simp [start]
    reading := fun _ message member => absurd member List.not_mem_nil
    left := False.elim }

theorem delivers_of_reachable {input : Bytes} {s : State}
    (reached : (system input).ReachableBy Orderly s)
    : Delivers s := by
  apply reached.invariant
  · intro _ same
    subst same
    exact delivers_start input
  · intro s action next _ delivers orderly taken
    exact delivers.move orderly (.of_step taken)

-----------------------------------------------------------------------------------------
-- The consumer comes to its end
-----------------------------------------------------------------------------------------

/-- The calls of `consumer.c`. -/
def Action.ofConsumer : Action → Prop
  | .consumerOpen | .consumerOpenFails | .receive | .receiveFails | .test | .print _
  | .consumerClose | .consumerUnlink => True
  | _ => False

/-- The orderly steps of the consumer alone. -/
def ConsumerAlone (s : State) (action : Action) : Prop := action.ofConsumer ∧ Orderly s action

/-- The steps to the end of one round, or of the program. -/
def ConsumerPc.remaining : ConsumerPc → Nat
  | .open_ => 6
  | .test => 5
  | .print => 4
  | .receive => 3
  | .close => 2
  | .unlink => 1
  | .done | .failed => 0

/-- Each message takes one round. -/
def State.consumerWork (s : State) : Nat := 3 * s.waiting.length + s.consumer.remaining

/-- The consumer's steps leave the producer alone and lower its work. -/
theorem Delivers.consumer_move {s next : State} {action : Action} (delivers : Delivers s)
    (alone : ConsumerAlone s action) (taken : Move s action next)
    : next.producer = s.producer ∧ next.consumerWork < s.consumerWork := by
  obtain ⟨mine, orderly⟩ := alone
  cases taken with
  | consumerOpen here =>
      obtain ⟨-, -, waiting⟩ := delivers.linked.openOrCreate (Or.inr here)
      refine ⟨rfl, ?_⟩
      simp only [State.consumerWork, State.waiting, here, ConsumerPc.remaining] at waiting ⊢
      rw [waiting]
      omega
  | consumerOpenFails _ | receiveFails _ => exact orderly.elim
  | receive here holder holds =>
      have inside := delivers.linked.consumer (by simp [here, ConsumerPc.holdsQueue])
      obtain rfl := Option.some.inj (holder.symm.trans inside)
      refine ⟨rfl, ?_⟩
      rw [State.consumerWork, State.consumerWork,
        State.waiting_eq (NamedObjects.content_write holds _), State.waiting_eq holds]
      simp only [State.takes, here, ConsumerPc.remaining, List.length_cons]
      omega
  | test here =>
      refine ⟨rfl, Nat.add_lt_add_left ?_ _⟩
      by_cases eof : looksLikeEof s.readBuf = true
      all_goals simp [here, eof, ConsumerPc.remaining]
  | print here | consumerClose here | consumerUnlink here =>
      exact ⟨rfl, Nat.add_lt_add_left (by simp [here, ConsumerPc.remaining]) _⟩
  | _ => exact mine.elim

/-- Once the producer has left its loop the consumer can always go on, up to its end. -/
theorem Delivers.consumer_enabled {s : State} (delivers : Delivers s)
    (ended : s.producer.ended)
    : s.consumer = .done ∨ ∃ action next, ConsumerAlone s action ∧ step s action = some next := by
  have can {action : Action} (mine : ConsumerAlone s action) (possible : (step s action).isSome)
      : ∃ action next, ConsumerAlone s action ∧ step s action = some next :=
    ⟨action, _, mine, (Option.some_get possible).symm⟩
  cases here : s.consumer with
  | open_ =>
      exact Or.inr (@can .consumerOpen ⟨trivial, trivial⟩ (by simp [step, consumerOpen, here]))
  | receive =>
      have inside := delivers.linked.consumer (by simp [here, ConsumerPc.holdsQueue])
      obtain ⟨earlier, last, sent, eof, -⟩ := delivers.marked.marked ended
      have unread := delivers.marked.reading (Or.inr (Or.inl here))
      -- the marker has not been received, so it is still in the queue
      have more : s.waiting ≠ [] := by
        intro none
        have member : last ∈ s.received := by
          have flow := delivers.marked.flow
          rw [none, List.append_nil, sent] at flow
          simp [← flow]
        exact absurd eof (by simp [unread last member])
      obtain ⟨message, rest, waiting⟩ := List.exists_cons_of_ne_nil more
      have holds := State.content_of_waiting waiting
      exact Or.inr (@can .receive ⟨trivial, trivial⟩
        (by simp [step, receive, here, State.queue?, inside, holds]))
  | test => exact Or.inr (@can .test ⟨trivial, trivial⟩ (by simp [step, test, here]))
  | print => exact Or.inr (@can (.print []) ⟨trivial, trivial⟩ (by simp [step, print, here]))
  | close =>
      exact Or.inr (@can .consumerClose ⟨trivial, trivial⟩ (by simp [step, consumerClose, here]))
  | unlink =>
      exact Or.inr (@can .consumerUnlink ⟨trivial, trivial⟩ (by simp [step, consumerUnlink, here]))
  | done => exact Or.inl rfl
  | failed => exact absurd here delivers.linked.alive.2

/-- In an orderly run the consumer comes to its end once the producer has left its loop. -/
theorem Delivers.finishes {input : Bytes} {s : State} (delivers : Delivers s)
    (ended : s.producer.ended)
    : (system input).Inevitable ConsumerAlone (fun final => final.consumer = .done) s := by
  refine .of_measure (fun s => Delivers s ∧ s.producer.ended) State.consumerWork ?_ ?_ ?_
    ⟨delivers, ended⟩
  · intro s action next still alone taken
    have move := Move.of_step taken
    exact ⟨still.1.move alone.2 move, (still.1.consumer_move alone move).1 ▸ still.2⟩
  · exact fun s still => still.1.consumer_enabled still.2
  · intro s action next still alone taken
    exact (still.1.consumer_move alone (.of_step taken)).2

-----------------------------------------------------------------------------------------
-- No loss
-----------------------------------------------------------------------------------------

/-- The message is in a queue that the consumer has open or can still open by name. -/
def State.Available (s : State) (message : Message) : Prop :=
  ∃ queue messages,
    (s.consumerMqdes = some queue
      ∨ s.consumer = .open_ ∧ s.queues.names mqName = some queue)
    ∧ s.queues.content? queue = some messages
    ∧ message ∈ messages

/-- Every message that was sent has been received or can be; when the producer has left its
loop the end marker is one of them, and the consumer's own steps lead it to its end.
-/
structure NoLoss (input : Bytes) (s : State) : Prop where
  numbered : (s.sent.map (·.serial)).Nodup
  delivered : ∀ message ∈ s.sent, message ∈ s.received ∨ s.Available message
  marker : s.producer.ended → ∃ message ∈ s.sent, message.marker = true
  finishes
    : s.producer.ended
      → (system input).Inevitable ConsumerAlone (fun final => final.consumer = .done) s

/-- What waits in the queue, waits where the consumer gets it. -/
theorem Delivers.available {s : State} (delivers : Delivers s) {message : Message}
    (waits : message ∈ s.waiting)
    : s.Available message := by
  obtain ⟨linked, marked⟩ := delivers
  have holds : s.queues.content? 0 = some s.waiting := by
    obtain ⟨first, rest, waiting⟩ := List.exists_cons_of_ne_nil (List.ne_nil_of_mem waits)
    rw [waiting]
    exact State.content_of_waiting waiting
  refine ⟨0, s.waiting, ?_, holds, waits⟩
  have inLoop : ¬ s.consumer.left := by
    intro gone
    rw [(marked.left gone).2] at waits
    exact absurd waits List.not_mem_nil
  cases here : s.consumer with
  | open_ =>
      refine Or.inr ⟨rfl, ?_⟩
      have opened : ¬ s.unopened := by
        intro unopened
        have queues := linked.queues
        rw [if_pos unopened] at queues
        simp [NamedObjects.content?, List.length_eq_zero_iff.mp queues] at holds
      rw [linked.named (Or.inr here), if_neg opened]
  | receive | test | print =>
      exact Or.inl (linked.consumer (by simp [here, ConsumerPc.holdsQueue]))
  | close | unlink | done => exact absurd (by simp [here, ConsumerPc.left]) inLoop
  | failed => exact absurd here linked.alive.2

/-- No message is lost in an orderly run of the two programs, in whatever order they open the
queue.
-/
theorem noLoss {input : Bytes} {s : State} (reached : (system input).ReachableBy Orderly s)
    : NoLoss input s := by
  have delivers := delivers_of_reachable reached
  have marked := delivers.marked
  refine ⟨?_, fun message member => ?_, fun ended => ?_, delivers.finishes⟩
  · rw [marked.serials]
    exact List.nodup_range
  · rw [marked.flow] at member
    exact (List.mem_append.mp member).imp_right delivers.available
  · obtain ⟨earlier, last, sent, eof, -⟩ := marked.marked ended
    exact ⟨last, by simp [sent], eof⟩

/-- The producer sends one line and the marker before the consumer opens the queue. -/
def producerFirst : List Action :=
  [.producerOpen, .read 2, .send, .readEnd, .send, .consumerOpen, .producerClose,
    .producerUnlink, .receive, .test, .print [], .receive, .test]

/-- The consumer has the marker although the name of the queue is gone. -/
theorem noLoss_producerFirst
    : ∃ s : State,
        s.producer = .done ∧ s.consumer = .close ∧ s.printed = [[97, 10]]
        ∧ NoLoss [97, 10] s :=
  ⟨_, rfl, rfl, rfl, noLoss (System.reachable_restrict_iff.mp
    (System.reachable_of_run (start [97, 10]) rfl producerFirst rfl))⟩

/-- `mq_open` and `mq_receive` succeed. -/
def CallsSucceed (_ : State) (action : Action) : Prop :=
  action ∉ [.producerOpenFails, .consumerOpenFails, .receiveFails]

instance (s : State) (action : Action) : Decidable (CallsSucceed s action) := by
  unfold CallsSucceed
  infer_instance

/-- The producer sends the marker and removes the name before the consumer opens it. -/
def unlinkedFirst : List Action :=
  [.producerOpen, .readEnd, .send, .producerClose, .producerUnlink, .consumerOpen]

/-- The consumer has created a queue of its own, in which there is no marker. -/
theorem noLoss_unlinkedFirst
    : ¬∀ (input : Bytes) (s : State),
        (system input).ReachableBy CallsSucceed s → NoLoss input s := by
  intro always
  have run : ((system []).restrict CallsSucceed).Reachable _ :=
    System.reachable_of_run (start []) rfl unlinkedFirst rfl
  have reached := System.reachable_restrict_iff.mp run
  rcases (always [] _ reached).delivered ⟨0, eofText, true⟩ List.mem_cons_self with got | can
  · exact absurd got List.not_mem_nil
  · obtain ⟨queue, messages, held, holds, member⟩ := can
    rcases held with mine | ⟨unopened, -⟩
    · obtain rfl : 1 = queue := Option.some.inj mine
      obtain rfl : [] = messages := Option.some.inj holds
      exact absurd member List.not_mem_nil
    · exact absurd unopened (by decide)

end LinuxStudy.MessageQueue
