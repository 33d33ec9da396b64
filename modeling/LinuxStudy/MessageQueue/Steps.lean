import LinuxStudy.MessageQueue.Model

/-! The steps of `product.c` and `consumer.c` read as a relation, one shape for each call and
result, with the facts that make the step possible.
-/

namespace LinuxStudy.MessageQueue

open Transition Posix

theorem State.queue?_eq_some {s : State} {mqdes : Option Nat} {queue : Nat}
    {messages : List Message}
    : s.queue? mqdes = some (queue, messages)
      ↔ mqdes = some queue ∧ s.queues.content? queue = some messages := by
  simp only [State.queue?, Option.bind_eq_some_iff, Option.map_eq_some_iff, Prod.mk.injEq]
  constructor
  · intro found
    obtain ⟨queue', mine, messages', holds, same, same'⟩ := found
    subst same same'
    exact ⟨mine, holds⟩
  · intro found
    exact ⟨queue, found.1, messages, found.2, rfl, rfl⟩

/-- The state after one message has been put into the queue. -/
def State.sends (s : State) (queue : Nat) (messages : List Message) (bytes : Bytes)
    (marker : Bool) (next : ProducerPc) : State :=
  { s with
    queues := s.queues.write queue (messages ++ [⟨s.sent.length, bytes, marker⟩])
    sent := s.sent ++ [⟨s.sent.length, bytes, marker⟩]
    producer := next }

/-- The state after a message has been taken out of the queue. -/
def State.takes (s : State) (queue : Nat) (message : Message) (rest : List Message) : State :=
  { s with
    queues := s.queues.write queue rest
    received := s.received ++ [message]
    readBuf := filled message.bytes
    consumer := .test }

/-- One step, with the call that makes it and the result it gets. -/
inductive Move (s : State) : Action → State → Prop
  | producerOpen (here : s.producer = .open_)
    : Move s .producerOpen
        { s with
          queues := (s.queues.openOrCreate mqName []).2
          producerMqdes := some (s.queues.openOrCreate mqName []).1
          producer := .read }
  | producerOpenFails (here : s.producer = .open_)
    : Move s .producerOpenFails { s with producer := .failed }
  | read {n} (here : s.producer = .read) (positive : 0 < n) (fits : n ≤ bufSize)
    (available : n ≤ s.stdin.length)
    : Move s (.read n)
        { s with
          stdin := s.stdin.drop n
          chunks := s.chunks ++ [s.stdin.take n]
          producer := .send (s.stdin.take n) }
  | readFails (here : s.producer = .read) : Move s .readFails s
  | readEnd (here : s.producer = .read) (ended : s.stdin = [])
    : Move s .readEnd { s with producer := .sendMarker }
  | send {bytes marker next queue messages}
    (outgoing : s.producer.outgoing? = some (bytes, marker, next))
    (mine : s.producerMqdes = some queue) (holds : s.queues.content? queue = some messages)
    (room : messages.length < maxMsg)
    : Move s .send (s.sends queue messages bytes marker next)
  | sendTimesOut {bytes marker next queue messages}
    (outgoing : s.producer.outgoing? = some (bytes, marker, next))
    (mine : s.producerMqdes = some queue) (holds : s.queues.content? queue = some messages)
    (full : maxMsg ≤ messages.length)
    : Move s .sendTimesOut { s with producer := next }
  | producerClose (here : s.producer = .close)
    : Move s .producerClose { s with producerMqdes := none, producer := .unlink }
  | producerUnlink (here : s.producer = .unlink)
    : Move s .producerUnlink { s with queues := s.queues.unlink mqName, producer := .done }
  | consumerOpen (here : s.consumer = .open_)
    : Move s .consumerOpen
        { s with
          queues := (s.queues.openOrCreate mqName []).2
          consumerMqdes := some (s.queues.openOrCreate mqName []).1
          consumer := .receive }
  | consumerOpenFails (here : s.consumer = .open_)
    : Move s .consumerOpenFails { s with consumer := .failed }
  | receive {queue message rest} (here : s.consumer = .receive)
    (mine : s.consumerMqdes = some queue)
    (holds : s.queues.content? queue = some (message :: rest))
    : Move s .receive (s.takes queue message rest)
  | receiveFails (here : s.consumer = .receive)
    : Move s .receiveFails { s with readBuf := filled [], consumer := .close }
  | test (here : s.consumer = .test)
    : Move s .test
        { s with
          looked := s.looked ++ [strcmpLooks s.readBuf (eofText ++ [0])]
          consumer := if looksLikeEof s.readBuf then .close else .print }
  | print {beyond} (here : s.consumer = .print)
    : Move s (.print beyond)
        { s with
          printed := s.printed ++ [cString (s.readBuf ++ beyond)]
          looked := s.looked ++ [(cString (s.readBuf ++ beyond)).length + 1]
          consumer := .receive }
  | consumerClose (here : s.consumer = .close)
    : Move s .consumerClose { s with consumerMqdes := none, consumer := .unlink }
  | consumerUnlink (here : s.consumer = .unlink)
    : Move s .consumerUnlink { s with queues := s.queues.unlink mqName, consumer := .done }

/-- Every successor of the executable step is one of the shapes. -/
theorem Move.of_step {s next : State} {action : Action} (taken : step s action = some next)
    : Move s action next := by
  cases action with
  | producerOpen =>
      simp only [step, MessageQueue.producerOpen] at taken
      split at taken
      next here => exact Option.some.inj taken ▸ .producerOpen here
      next => contradiction
  | producerOpenFails =>
      obtain ⟨here, same⟩ := Option.ite_none_right_eq_some.mp taken
      exact Option.some.inj same ▸ .producerOpenFails here
  | read n =>
      simp only [step, MessageQueue.read] at taken
      split at taken
      next here =>
        obtain ⟨⟨positive, fits, available⟩, same⟩ := Option.ite_none_right_eq_some.mp taken
        exact Option.some.inj same ▸ .read here positive fits available
      next => contradiction
  | readFails =>
      obtain ⟨here, same⟩ := Option.ite_none_right_eq_some.mp taken
      exact Option.some.inj same ▸ .readFails here
  | readEnd =>
      simp only [step, MessageQueue.readEnd] at taken
      split at taken
      next here ended => exact Option.some.inj taken ▸ .readEnd here ended
      next => contradiction
  | send =>
      simp only [step, MessageQueue.send] at taken
      split at taken
      next bytes marker next queue messages outgoing found =>
        obtain ⟨mine, holds⟩ := State.queue?_eq_some.mp found
        obtain ⟨room, same⟩ := Option.ite_none_right_eq_some.mp taken
        exact Option.some.inj same ▸ .send outgoing mine holds room
      next => contradiction
  | sendTimesOut =>
      simp only [step, MessageQueue.sendTimesOut] at taken
      split at taken
      next bytes marker next queue messages outgoing found =>
        obtain ⟨mine, holds⟩ := State.queue?_eq_some.mp found
        obtain ⟨full, same⟩ := Option.ite_none_right_eq_some.mp taken
        exact Option.some.inj same ▸ .sendTimesOut outgoing mine holds full
      next => contradiction
  | producerClose =>
      simp only [step, MessageQueue.producerClose] at taken
      split at taken
      next here => exact Option.some.inj taken ▸ .producerClose here
      next => contradiction
  | producerUnlink =>
      simp only [step, MessageQueue.producerUnlink] at taken
      split at taken
      next here => exact Option.some.inj taken ▸ .producerUnlink here
      next => contradiction
  | consumerOpen =>
      simp only [step, MessageQueue.consumerOpen] at taken
      split at taken
      next here => exact Option.some.inj taken ▸ .consumerOpen here
      next => contradiction
  | consumerOpenFails =>
      obtain ⟨here, same⟩ := Option.ite_none_right_eq_some.mp taken
      exact Option.some.inj same ▸ .consumerOpenFails here
  | receive =>
      simp only [step, MessageQueue.receive] at taken
      split at taken
      next queue message rest here found =>
        obtain ⟨mine, holds⟩ := State.queue?_eq_some.mp found
        exact Option.some.inj taken ▸ .receive here mine holds
      next => contradiction
  | receiveFails =>
      simp only [step, MessageQueue.receiveFails] at taken
      split at taken
      next here => exact Option.some.inj taken ▸ .receiveFails here
      next => contradiction
  | test =>
      simp only [step, MessageQueue.test] at taken
      split at taken
      next here => exact Option.some.inj taken ▸ .test here
      next => contradiction
  | print beyond =>
      simp only [step, MessageQueue.print] at taken
      split at taken
      next here => exact Option.some.inj taken ▸ .print here
      next => contradiction
  | consumerClose =>
      simp only [step, MessageQueue.consumerClose] at taken
      split at taken
      next here => exact Option.some.inj taken ▸ .consumerClose here
      next => contradiction
  | consumerUnlink =>
      simp only [step, MessageQueue.consumerUnlink] at taken
      split at taken
      next here => exact Option.some.inj taken ▸ .consumerUnlink here
      next => contradiction

end LinuxStudy.MessageQueue
