import LinuxStudy.Sync.Semaphore
import LinuxStudy.Transition.Runs

/-! `unnamed_sem_count_thread.c`: a producer and a consumer hand one shared number over with
the two semaphores `empty` and `full`. The number of rounds is a parameter; the source has 5.
-/

namespace LinuxStudy.UnnamedSemaphore

open Transition Sync

/-- Program points of the two thread functions, which have the same shape. -/
inductive Pc
  | unborn -- before `pthread_create`
  | loop -- the test of the `for` loop
  | wait -- about to call `sem_wait`
  | access -- the store to `shared_num`, or its load for the `printf`
  | post -- about to call `sem_post`
  | finished
  deriving DecidableEq, Repr

inductive MainPc
  | createProducer
  | createConsumer
  | joinProducer
  | joinConsumer
  | exited -- behind both joins
  deriving DecidableEq, Repr

/-- The program state. `producerRound` and `consumerRound` are the two loops' `i`; `stored`
and `taken` record the values stored to and read from `shared_num`.
-/
structure State where
  empty : Nat
  full : Nat
  sharedNum : Int
  producer : Pc
  producerRound : Nat
  consumer : Pc
  consumerRound : Nat
  main : MainPc
  stored : List Int
  taken : List Int

/-- One atomic step of `producer_func`; `random` is what `rand_num` returns, which only the
store looks at.
-/
def producerFunc (rounds : Nat) (random : Int) (s : State) : Option State :=
  match s.producer with
  | .unborn | .finished => none
  | .loop =>
      some { s with producer := if s.producerRound < rounds then .wait else .finished }
  | .wait => (semWait s.empty).map fun empty => { s with empty, producer := .access }
  | .access =>
      some { s with sharedNum := random, stored := s.stored ++ [random], producer := .post }
  | .post =>
      some { s with
        full := semPost s.full
        producerRound := s.producerRound + 1
        producer := .loop }

/-- One atomic step of `consumer_func`. -/
def consumerFunc (rounds : Nat) (s : State) : Option State :=
  match s.consumer with
  | .unborn | .finished => none
  | .loop =>
      some { s with consumer := if s.consumerRound < rounds then .wait else .finished }
  | .wait => (semWait s.full).map fun full => { s with full, consumer := .access }
  | .access => some { s with taken := s.taken ++ [s.sharedNum], consumer := .post }
  | .post =>
      some { s with
        empty := semPost s.empty
        consumerRound := s.consumerRound + 1
        consumer := .loop }

def main (s : State) : Option State :=
  match s.main with
  | .createProducer => some { s with main := .createConsumer, producer := .loop }
  | .createConsumer => some { s with main := .joinProducer, consumer := .loop }
  | .joinProducer => if s.producer = .finished then some { s with main := .joinConsumer } else none
  | .joinConsumer => if s.consumer = .finished then some { s with main := .exited } else none
  | .exited => none

/-- Who takes the next atomic step. -/
inductive Action
  | main
  | producer (random : Int)
  | consumer
  deriving DecidableEq, Repr

def step (rounds : Nat) (s : State) : Action → Option State
  | .main => main s
  | .producer random => producerFunc rounds random s
  | .consumer => consumerFunc rounds s

/-- Behind `sem_init(empty,0,1)` and `sem_init(full,0,0)`. -/
def start : State where
  empty := 1
  full := 0
  sharedNum := 0
  producer := .unborn
  producerRound := 0
  consumer := .unborn
  consumerRound := 0
  main := .createProducer
  stored := []
  taken := []

def system (rounds : Nat) : System State Action where
  Initial s := s = start
  step := step rounds

end LinuxStudy.UnnamedSemaphore
