import LinuxStudy.Posix.Bytes
import LinuxStudy.Posix.NamedObjects
import LinuxStudy.Transition.Runs

/-! The pipeline of `product.c` and `consumer.c`: both programs open the same message queue by
name, the producer sends what it reads, the consumer prints what it receives, and both remove
the name in the end.
-/

namespace LinuxStudy.MessageQueue

open Transition Posix

/-- `attr.mq_maxmsg` -/
def maxMsg : Nat := 10

/-- `attr.mq_msgsize`, and the size of `write_buf` and `read_buf`. -/
def bufSize : Nat := 100

/-- `mq_name` -/
def mqName : String := "/product_consumer_mq_test"

/-- `"EOF"` -/
def eofText : Bytes := [69, 79, 70]

/-- The `char` that compares equal to the constant `EOF`. -/
def eofChar : UInt8 := 0xFF

/-- A message, with its number among all that were sent and whether the producer sent it as
the end marker; all messages have priority 5.
-/
structure Message where
  serial : Nat
  bytes : Bytes
  marker : Bool
  deriving DecidableEq, Repr

/-- Program points of `main` in `product.c`. -/
inductive ProducerPc
  | open_ -- `mq_open(mq_name, O_CREAT | O_RDWR, 0666, &attr)`
  | read -- `memset`, `read` and `clock_gettime` at the head of the loop
  | send (chunk : Bytes) -- `mq_timedsend(mqdes, write_buf, ret, 5, &time_info)`
  | sendMarker -- `mq_timedsend(mqdes, "EOF", 3, 5, &time_info)`
  | close
  | unlink
  | done
  | failed -- `exit(EXIT_FAILURE)` after `mq_open`
  deriving DecidableEq, Repr

/-- Program points of `main` in `consumer.c`. -/
inductive ConsumerPc
  | open_
  | receive -- `memset` and `mq_receive` at the head of the loop
  | test -- the `if` on `read_buf`
  | print -- the `printf` of `read_buf`
  | close
  | unlink
  | done
  | failed
  deriving DecidableEq, Repr

/-- Both processes and the queues. A descriptor is the number of its queue. `chunks`, `sent`
and `received` record what `read` returned and the messages that passed each side; `printed`
is the text shown for the messages and `looked` how many bytes each string function looked at
in `read_buf`.
-/
structure State where
  queues : NamedObjects String (List Message)
  producer : ProducerPc
  producerMqdes : Option Nat
  stdin : Bytes
  consumer : ConsumerPc
  consumerMqdes : Option Nat
  readBuf : Bytes
  chunks : List Bytes
  sent : List Message
  received : List Message
  printed : List Bytes
  looked : List Nat

-----------------------------------------------------------------------------------------
-- The producer
-----------------------------------------------------------------------------------------

def producerOpen (s : State) : Option State :=
  match s.producer with
  | .open_ =>
      let (queue, queues) := s.queues.openOrCreate mqName []
      some { s with queues, producerMqdes := some queue, producer := .read }
  | _ => none

/-- `read` returns `n` bytes of what is still to come. -/
def read (s : State) (n : Nat) : Option State :=
  match s.producer with
  | .read =>
      if 0 < n ∧ n ≤ bufSize ∧ n ≤ s.stdin.length then
        some { s with
          stdin := s.stdin.drop n
          chunks := s.chunks ++ [s.stdin.take n]
          producer := .send (s.stdin.take n) }
      else none
  | _ => none

/-- `read` returns 0 at the end of the input. -/
def readEnd (s : State) : Option State :=
  match s.producer, s.stdin with
  | .read, [] => some { s with producer := .sendMarker }
  | _, _ => none

/-- What the producer is about to send, whether it is the end marker, and where it goes on. -/
def ProducerPc.outgoing? : ProducerPc → Option (Bytes × Bool × ProducerPc)
  | .send chunk => some (chunk, false, .read)
  | .sendMarker => some (eofText, true, .close)
  | _ => none

/-- The queue behind a descriptor, with its messages. -/
def State.queue? (s : State) (mqdes : Option Nat) : Option (Nat × List Message) :=
  mqdes.bind fun queue => (s.queues.content? queue).map fun messages => (queue, messages)

/-- `mq_timedsend` finds room in the queue. -/
def send (s : State) : Option State :=
  match s.producer.outgoing?, s.queue? s.producerMqdes with
  | some (bytes, marker, next), some (queue, messages) =>
      if messages.length < maxMsg then
        let message : Message := ⟨s.sent.length, bytes, marker⟩
        some { s with
          queues := s.queues.write queue (messages ++ [message])
          sent := s.sent ++ [message]
          producer := next }
      else none
  | _, _ => none

/-- `mq_timedsend` gives up after five seconds before the full queue; the code goes on. -/
def sendTimesOut (s : State) : Option State :=
  match s.producer.outgoing?, s.queue? s.producerMqdes with
  | some (_, _, next), some (_, messages) =>
      if maxMsg ≤ messages.length then some { s with producer := next } else none
  | _, _ => none

def producerClose (s : State) : Option State :=
  match s.producer with
  | .close => some { s with producerMqdes := none, producer := .unlink }
  | _ => none

def producerUnlink (s : State) : Option State :=
  match s.producer with
  | .unlink => some { s with queues := s.queues.unlink mqName, producer := .done }
  | _ => none

-----------------------------------------------------------------------------------------
-- The consumer
-----------------------------------------------------------------------------------------

/-- How many bytes of the buffer `strcmp` looks at; the text ends with its NUL. -/
def strcmpLooks : Bytes → Bytes → Nat
  | byte :: buffer, other :: text =>
      if byte = other ∧ byte ≠ 0 then strcmpLooks buffer text + 1 else 1
  | _, _ => 0

/-- `strcmp(read_buf, "EOF") == 0 || read_buf[0] == EOF` -/
def looksLikeEof (buffer : Bytes) : Bool :=
  cString buffer = eofText || buffer.head? = some eofChar

/-- `read_buf` after `memset` and `mq_receive`. -/
def filled (bytes : Bytes) : Bytes := overwrite (List.replicate bufSize 0) bytes

def consumerOpen (s : State) : Option State :=
  match s.consumer with
  | .open_ =>
      let (queue, queues) := s.queues.openOrCreate mqName []
      some { s with queues, consumerMqdes := some queue, consumer := .receive }
  | _ => none

/-- `mq_receive` takes the oldest message; it waits as long as there is none. -/
def receive (s : State) : Option State :=
  match s.consumer, s.queue? s.consumerMqdes with
  | .receive, some (queue, message :: rest) =>
      some { s with
        queues := s.queues.write queue rest
        received := s.received ++ [message]
        readBuf := filled message.bytes
        consumer := .test }
  | _, _ => none

/-- `mq_receive` returns -1. -/
def receiveFails (s : State) : Option State :=
  match s.consumer with
  | .receive => some { s with readBuf := filled [], consumer := .close }
  | _ => none

def test (s : State) : Option State :=
  match s.consumer with
  | .test =>
      some { s with
        looked := s.looked ++ [strcmpLooks s.readBuf (eofText ++ [0])]
        consumer := if looksLikeEof s.readBuf then .close else .print }
  | _ => none

/-- `printf` of `read_buf` as a string; it reads on in the memory behind the buffer until it
comes to a NUL.
-/
def print (s : State) (beyond : Bytes) : Option State :=
  match s.consumer with
  | .print =>
      let text := cString (s.readBuf ++ beyond)
      some { s with
        printed := s.printed ++ [text]
        looked := s.looked ++ [text.length + 1]
        consumer := .receive }
  | _ => none

def consumerClose (s : State) : Option State :=
  match s.consumer with
  | .close => some { s with consumerMqdes := none, consumer := .unlink }
  | _ => none

def consumerUnlink (s : State) : Option State :=
  match s.consumer with
  | .unlink => some { s with queues := s.queues.unlink mqName, consumer := .done }
  | _ => none

-----------------------------------------------------------------------------------------
-- Both together
-----------------------------------------------------------------------------------------

/-- One call of a process with the result it gets. -/
inductive Action
  | producerOpen
  | producerOpenFails
  | read (n : Nat)
  | readFails
  | readEnd
  | send
  | sendTimesOut
  | producerClose
  | producerUnlink
  | consumerOpen
  | consumerOpenFails
  | receive
  | receiveFails
  | test
  | print (beyond : Bytes)
  | consumerClose
  | consumerUnlink
  deriving DecidableEq, Repr

def step (s : State) : Action → Option State
  | .producerOpen => producerOpen s
  | .producerOpenFails =>
      if s.producer = .open_ then some { s with producer := .failed } else none
  | .read n => read s n
  | .readFails => if s.producer = .read then some s else none
  | .readEnd => readEnd s
  | .send => send s
  | .sendTimesOut => sendTimesOut s
  | .producerClose => producerClose s
  | .producerUnlink => producerUnlink s
  | .consumerOpen => consumerOpen s
  | .consumerOpenFails =>
      if s.consumer = .open_ then some { s with consumer := .failed } else none
  | .receive => receive s
  | .receiveFails => receiveFails s
  | .test => test s
  | .print beyond => print s beyond
  | .consumerClose => consumerClose s
  | .consumerUnlink => consumerUnlink s

/-- Both programs are started; there is no queue of this name. -/
def start (input : Bytes) : State where
  queues := .empty
  producer := .open_
  producerMqdes := none
  stdin := input
  consumer := .open_
  consumerMqdes := none
  readBuf := List.replicate bufSize 0
  chunks := []
  sent := []
  received := []
  printed := []
  looked := []

def system (input : Bytes) : System State Action where
  Initial s := s = start input
  step := step

/-- Both programs have opened the queue. -/
def opened (input : Bytes) : State :=
  { start input with
    queues := (NamedObjects.empty.openOrCreate mqName []).2
    producer := .read
    producerMqdes := some 0
    consumer := .receive
    consumerMqdes := some 0 }

/-- The same programs from the point where both have opened the queue. -/
def openedSystem (input : Bytes) : System State Action where
  Initial s := s = opened input
  step := step

end LinuxStudy.MessageQueue
