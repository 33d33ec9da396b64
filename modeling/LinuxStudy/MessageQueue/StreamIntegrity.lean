import LinuxStudy.MessageQueue.Delivery

/-! What `consumer.c` prints. The end of the input travels as three ordinary bytes, and
`read_buf` is read as a string; both go well as long as no chunk looks like the end marker or
fills its buffer.
-/

namespace LinuxStudy.MessageQueue

open Transition Posix

/-- A chunk that is shown as it is: a string with its terminator fits into the buffer, and it
is no end marker.
-/
structure PlainChunk (chunk : Bytes) : Prop where
  nulFree : 0 ∉ chunk
  fits : chunk.length < bufSize
  noText : chunk ≠ eofText
  noChar : chunk.head? ≠ some eofChar

instance (chunk : Bytes) : Decidable (PlainChunk chunk) :=
  decidable_of_iff
    (0 ∉ chunk ∧ chunk.length < bufSize ∧ chunk ≠ eofText ∧ chunk.head? ≠ some eofChar)
    ⟨fun all => ⟨all.1, all.2.1, all.2.2.1, all.2.2.2⟩,
      fun plain => ⟨plain.nulFree, plain.fits, plain.noText, plain.noChar⟩⟩

/-- The condition on the steps: `read` returns plain chunks, and no call for the queue fails. -/
def PlainInput (s : State) : Action → Prop
  | .read n => PlainChunk (s.stdin.take n)
  | .sendTimesOut | .receiveFails => False
  | _ => True

instance (s : State) (action : Action) : Decidable (PlainInput s action) := by
  unfold PlainInput
  split <;> infer_instance

-----------------------------------------------------------------------------------------
-- Strings in the buffer
-----------------------------------------------------------------------------------------

/-- A plain chunk in the buffer ends inside it, whatever lies behind. -/
theorem PlainChunk.cString_filled {chunk : Bytes} (plain : PlainChunk chunk) (beyond : Bytes)
    : cString (filled chunk ++ beyond) = chunk := by
  have room : bufSize - chunk.length = (bufSize - chunk.length - 1) + 1 := by
    have fits := plain.fits
    omega
  rw [filled, overwrite, List.drop_replicate, room, List.replicate_succ, List.append_assoc]
  exact cString_append_zero plain.nulFree

/-- A plain chunk passes the consumer's test. -/
theorem PlainChunk.distinct {chunk : Bytes} (plain : PlainChunk chunk)
    : looksLikeEof (filled chunk) = false := by
  have text : cString (filled chunk) = chunk := by
    simpa using plain.cString_filled []
  have char : (filled chunk).head? ≠ some eofChar := by
    cases chunk with
    | nil => decide
    | cons first rest => simpa [filled, overwrite] using plain.noChar
  simp [looksLikeEof, text, plain.noText, char]

/-- `strcmp` looks at no more bytes than the text it compares with has. -/
theorem strcmpLooks_le (buffer text : Bytes) : strcmpLooks buffer text ≤ text.length := by
  induction text generalizing buffer with
  | nil =>
      cases buffer
      all_goals exact Nat.le_refl 0
  | cons other text ih =>
      cases buffer with
      | nil => exact Nat.zero_le _
      | cons byte buffer =>
          simp only [strcmpLooks, List.length_cons]
          split
          · exact Nat.succ_le_succ (ih buffer)
          · exact Nat.succ_le_succ (Nat.zero_le _)

-----------------------------------------------------------------------------------------
-- The stream of chunks
-----------------------------------------------------------------------------------------

/-- The bytes of the messages that are not the end marker. -/
def texts (messages : List Message) : List Bytes :=
  (messages.filter fun message => !message.marker).map (·.bytes)

@[simp] theorem texts_append (first second : List Message)
    : texts (first ++ second) = texts first ++ texts second := by
  simp [texts]

/-- The chunk that has been read and not been sent. -/
def ProducerPc.pending : ProducerPc → List Bytes
  | .send chunk => [chunk]
  | _ => []

/-- The messages that the consumer has dealt with. -/
def State.shown (s : State) : List Message :=
  match s.consumer with
  | .test | .print => s.received.dropLast
  | _ => s.received

/-- The chunks on their way, from the input to the text shown. -/
structure Streams (input : Bytes) (s : State) : Prop where
  delivers : Delivers s
  opened : s.producer ≠ .open_ ∧ s.consumer ≠ .open_
  consumed : s.chunks.flatten ++ s.stdin = input
  drained : s.producer = .sendMarker ∨ s.producer.ended → s.stdin = []
  plain : ∀ chunk ∈ s.chunks, PlainChunk chunk
  sent : texts s.sent ++ s.producer.pending = s.chunks
  printed : s.printed = texts s.shown
  looked : ∀ n ∈ s.looked, n ≤ bufSize

section Step

variable {input : Bytes} {s next : State} {action : Action}

/-- With plain chunks and both programs on the queue every step is orderly. -/
theorem Streams.orderly (streams : Streams input s) (plain : PlainInput s action)
    (taken : Move s action next)
    : Orderly s action := by
  cases taken with
  | producerOpenFails here => exact absurd here streams.opened.1
  | consumerOpenFails here => exact absurd here streams.opened.2
  | send outgoing _ _ _ =>
      rcases ProducerPc.outgoing_cases outgoing with ⟨here, -⟩ | ⟨here, -⟩
      · have member := streams.sent
        rw [here] at member
        have known := streams.plain _ (member ▸ List.mem_append_right _ List.mem_cons_self)
        simpa only [Orderly, here, ProducerPc.distinct] using known.distinct
      · simp [Orderly, here, ProducerPc.distinct]
  | producerUnlink _ => exact streams.opened.2
  | sendTimesOut _ _ _ _ | receiveFails _ => exact plain.elim
  | _ => trivial

/-- A message shown as it is was a plain chunk. -/
theorem Streams.plain_of_received (streams : Streams input s) {message : Message}
    (member : message ∈ s.received) (kind : message.marker = false)
    : PlainChunk message.bytes := by
  refine streams.plain _ ?_
  have passed : message.bytes ∈ texts s.sent := by
    refine List.mem_map.mpr ⟨message, List.mem_filter.mpr ⟨?_, by simp [kind]⟩, rfl⟩
    rw [streams.delivers.marked.flow]
    exact List.mem_append_left _ member
  rw [← streams.sent]
  exact List.mem_append_left _ passed

/-- Steps of the producer that send nothing. -/
theorem Streams.producer (streams : Streams input s) (delivers : Delivers next)
    (running : next.producer ≠ .open_) (sent : next.sent = s.sent)
    (received : next.received = s.received) (consumer : next.consumer = s.consumer)
    (stdin : next.stdin = s.stdin) (chunks : next.chunks = s.chunks)
    (printed : next.printed = s.printed) (looked : next.looked = s.looked)
    (drained : next.producer = .sendMarker ∨ next.producer.ended → s.stdin = [])
    (pending : next.producer.pending = s.producer.pending)
    : Streams input next where
  delivers := delivers
  opened := ⟨running, consumer ▸ streams.opened.2⟩
  consumed := by rw [chunks, stdin, streams.consumed]
  drained := by
    rw [stdin]
    exact drained
  plain := by
    rw [chunks]
    exact streams.plain
  sent := by rw [sent, chunks, pending, streams.sent]
  printed := by
    rw [printed, streams.printed]
    simp only [State.shown, received, consumer]
  looked := by
    rw [looked]
    exact streams.looked

/-- Steps of the consumer that print nothing. -/
theorem Streams.consumer (streams : Streams input s) (delivers : Delivers next)
    (running : next.consumer ≠ .open_) (sent : next.sent = s.sent)
    (producer : next.producer = s.producer) (stdin : next.stdin = s.stdin)
    (chunks : next.chunks = s.chunks) (printed : next.printed = s.printed)
    (shown : texts next.shown = texts s.shown)
    (looked : ∀ n ∈ next.looked, n ∈ s.looked ∨ n ≤ bufSize)
    : Streams input next where
  delivers := delivers
  opened := ⟨producer ▸ streams.opened.1, running⟩
  consumed := by rw [chunks, stdin, streams.consumed]
  drained := by
    rw [stdin, producer]
    exact streams.drained
  plain := by
    rw [chunks]
    exact streams.plain
  sent := by rw [sent, chunks, producer, streams.sent]
  printed := by rw [printed, shown, streams.printed]
  looked n member := (looked n member).elim (streams.looked n) id

/-- A step with plain input keeps the stream. -/
theorem Streams.move (streams : Streams input s) (plain : PlainInput s action)
    (taken : Move s action next)
    : Streams input next := by
  have delivers := streams.delivers.move (streams.orderly plain taken) taken
  cases taken with
  | producerOpen here | producerOpenFails here => exact absurd here streams.opened.1
  | consumerOpen here | consumerOpenFails here => exact absurd here streams.opened.2
  | sendTimesOut _ _ _ _ | receiveFails _ => exact plain.elim
  | read here positive fits available =>
      refine ⟨delivers, ⟨by simp, streams.opened.2⟩, ?_, ?_, ?_, ?_, streams.printed,
        streams.looked⟩
      · simpa using streams.consumed
      · simp [ProducerPc.ended]
      · intro chunk member
        rcases List.mem_append.mp member with old | new
        · exact streams.plain chunk old
        · obtain rfl := List.mem_singleton.mp new
          exact plain
      · simpa [here, ProducerPc.pending] using streams.sent
  | readFails _ => exact streams
  | readEnd here ended =>
      exact streams.producer delivers (by simp) rfl rfl rfl rfl rfl rfl rfl (fun _ => ended)
        (by simp [here, ProducerPc.pending])
  | send outgoing mine holds room =>
      have sent := streams.sent
      have drained := streams.drained
      rcases ProducerPc.outgoing_cases outgoing with ⟨here, rfl, rfl⟩ | ⟨here, rfl, rfl, rfl⟩
      · refine ⟨delivers, ⟨by simp [State.sends], streams.opened.2⟩, streams.consumed, ?_,
          streams.plain, ?_, streams.printed, streams.looked⟩
        · simp [State.sends, ProducerPc.ended]
        · simpa [State.sends, here, texts, ProducerPc.pending] using sent
      · refine ⟨delivers, ⟨by simp [State.sends], streams.opened.2⟩, streams.consumed, ?_,
          streams.plain, ?_, streams.printed, streams.looked⟩
        · exact fun _ => drained (Or.inl here)
        · simpa [State.sends, here, texts, ProducerPc.pending] using sent
  | producerClose here | producerUnlink here =>
      refine streams.producer delivers (by simp) rfl rfl rfl rfl rfl rfl rfl (fun _ => ?_)
        (by simp [here, ProducerPc.pending])
      exact streams.drained (Or.inr (by simp [here, ProducerPc.ended]))
  | receive here mine holds =>
      exact streams.consumer delivers (by simp [State.takes]) rfl rfl rfl rfl rfl
        (by simp [State.takes, State.shown, here]) (fun n member => Or.inl member)
  | test here =>
      obtain ⟨earlier, last, received, readBuf, -⟩ := streams.delivers.marked.held (Or.inl here)
      have eof := streams.delivers.marked.looksLikeEof_eq received
      refine streams.consumer delivers ?_ rfl rfl rfl rfl rfl ?_ fun n member => ?_
      · by_cases same : looksLikeEof s.readBuf = true <;> simp [same]
      · rw [← readBuf] at eof
        cases kind : last.marker with
        | true => simp [State.shown, here, eof, kind, received, texts]
        | false => simp [State.shown, here, eof, kind]
      · refine (List.mem_append.mp member).imp_right fun new => ?_
        obtain rfl := List.mem_singleton.mp new
        exact Nat.le_trans (strcmpLooks_le _ _) (by decide)
  | @print beyond here =>
      have marked := streams.delivers.marked
      obtain ⟨earlier, last, received, readBuf, -⟩ := marked.held (Or.inr here)
      have member : last ∈ s.received := by simp [received]
      have kind := marked.reading (Or.inr (Or.inr here)) last member
      have known := streams.plain_of_received member kind
      have text := known.cString_filled beyond
      rw [← readBuf] at text
      refine ⟨delivers, ⟨streams.opened.1, by simp⟩, streams.consumed, streams.drained,
        streams.plain, streams.sent, ?_, fun n member => ?_⟩
      · simp [text, streams.printed, State.shown, here, received, texts, kind]
      · rcases List.mem_append.mp member with old | new
        · exact streams.looked n old
        · obtain rfl := List.mem_singleton.mp new
          rw [text]
          exact known.fits
  | consumerClose here | consumerUnlink here =>
      exact streams.consumer delivers (by simp) rfl rfl rfl rfl rfl
        (by simp [State.shown, here]) (fun n member => Or.inl member)

end Step

/-- The point where both have opened the queue is an orderly one. -/
theorem delivers_opened (input : Bytes) : Delivers (opened input) := by
  have run : ((system input).restrict Orderly).exec (start input) [.producerOpen, .consumerOpen]
      = some (opened input) := rfl
  have reached : ((system input).restrict Orderly).Reachable (opened input) :=
    System.Reachable.exec (.initial rfl) run
  exact delivers_of_reachable (System.reachable_restrict_iff.mp reached)

theorem streams_of_reachable {input : Bytes} {s : State}
    (reached : (openedSystem input).ReachableBy PlainInput s)
    : Streams input s := by
  apply reached.invariant
  · intro _ same
    subst same
    refine ⟨delivers_opened input, ⟨by simp [opened], by simp [opened]⟩, rfl, ?_, ?_, rfl, rfl,
      ?_⟩
    · simp [opened, ProducerPc.ended]
    · exact fun chunk member => absurd member List.not_mem_nil
    · exact fun n member => absurd member List.not_mem_nil
  · intro s action next _ streams plain taken
    exact streams.move plain (.of_step taken)

-----------------------------------------------------------------------------------------
-- Stream integrity
-----------------------------------------------------------------------------------------

/-- The chunks are printed in order, the consumer leaves its loop on the producer's end marker
after all of them, and its string functions stay inside `read_buf`.
-/
structure StreamIntegrity (input : Bytes) (s : State) : Prop where
  printed : s.printed <+: s.chunks
  whole
    : s.consumer.left
      → (∃ earlier last, s.received = earlier ++ [last] ∧ last.marker = true)
        ∧ s.printed = s.chunks
        ∧ s.chunks.flatten = input
  inBuffer : ∀ n ∈ s.looked, n ≤ bufSize

/-- What the consumer has printed comes first among the chunks. -/
theorem Streams.prefix_chunks {input : Bytes} {s : State} (streams : Streams input s)
    : s.printed <+: s.chunks := by
  have shown : s.shown <+: s.received := by
    unfold State.shown
    split
    case h_1 | h_2 => exact List.dropLast_prefix _
    case h_3 => exact List.prefix_rfl
  obtain ⟨more, received⟩ := shown
  have sent := streams.sent
  rw [streams.delivers.marked.flow, ← received] at sent
  simp only [texts_append, List.append_assoc] at sent
  rw [streams.printed, ← sent]
  exact List.prefix_append _ _

/-- When the consumer has left its loop, everything has been printed. -/
theorem Streams.whole {input : Bytes} {s : State} (streams : Streams input s)
    (left : s.consumer.left)
    : (∃ earlier last, s.received = earlier ++ [last] ∧ last.marker = true)
      ∧ s.printed = s.chunks
      ∧ s.chunks.flatten = input := by
  obtain ⟨ended, waiting⟩ := streams.delivers.marked.left left
  have flow := streams.delivers.marked.flow
  rw [waiting, List.append_nil] at flow
  refine ⟨?_, ?_, ?_⟩
  · obtain ⟨earlier, last, sent, eof, -⟩ := streams.delivers.marked.marked ended
    exact ⟨earlier, last, flow ▸ sent, eof⟩
  · have shown : s.shown = s.received := by
      cases here : s.consumer with
      | close | unlink | done => simp [State.shown, here]
      | _ => simp [here, ConsumerPc.left] at left
    have pending : s.producer.pending = [] := by
      cases here : s.producer with
      | close | unlink | done => rfl
      | _ => simp [here, ProducerPc.ended] at ended
    rw [streams.printed, shown, ← streams.sent, pending, flow, List.append_nil]
  · have consumed := streams.consumed
    rwa [streams.drained (Or.inr ended), List.append_nil] at consumed

/-- For input that is read in plain chunks the consumer prints exactly these chunks. -/
theorem streamIntegrity {input : Bytes} {s : State}
    (reached : (openedSystem input).ReachableBy PlainInput s)
    : StreamIntegrity input s := by
  have streams := streams_of_reachable reached
  exact ⟨streams.prefix_chunks, streams.whole, streams.looked⟩

/-- Two chunks, the end marker, and the consumer's way through all three. -/
def twoChunks : List Action :=
  [.read 2, .send, .receive, .test, .print [1, 0], .read 1, .send, .readEnd, .send, .receive,
    .test, .print [], .receive, .test]

theorem streamIntegrity_twoChunks
    : ∃ s : State,
        s.printed = [[97, 10], [98]]
        ∧ s.consumer = .close
        ∧ StreamIntegrity [97, 10, 98] s :=
  ⟨_, rfl, rfl, streamIntegrity (System.reachable_restrict_iff.mp
    (System.reachable_of_run (opened [97, 10, 98]) rfl twoChunks rfl))⟩

/-- No call for the queue fails, and no send gives up. -/
def NoFailure (s : State) (action : Action) : Prop :=
  CallsSucceed s action ∧ action ≠ .sendTimesOut

instance (s : State) (action : Action) : Decidable (NoFailure s action) := by
  unfold NoFailure
  infer_instance

/-- The producer's chunk is the text `EOF`. -/
def typedEof : List Action :=
  [.read 3, .send, .receive, .test]

/-- The consumer takes what was typed for the end marker. -/
theorem streamIntegrity_typedEof
    : ¬∀ (input : Bytes) (s : State),
        (openedSystem input).ReachableBy NoFailure s → StreamIntegrity input s := by
  intro always
  have run : ((openedSystem eofText).restrict NoFailure).Reachable _ :=
    System.reachable_of_run (opened eofText) rfl typedEof rfl
  have whole := (always eofText _ (System.reachable_restrict_iff.mp run)).whole trivial
  exact absurd whole.2.1 (by decide)

end LinuxStudy.MessageQueue
