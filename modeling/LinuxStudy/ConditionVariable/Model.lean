import LinuxStudy.Transition.Runs
import LinuxStudy.Histories.Stack
import Mathlib.Logic.Function.Basic

/-! The bounded buffer of `condition_variable.c`: `main`, `producer_thread_func` and
`consumer_thread_func` as interleaved atomic steps over one mutex and one condition
variable. Each load of `should_exit` or `count` is a step of its own.
-/

namespace LinuxStudy.ConditionVariable

open Transition Histories

/-- `BUFFER_SIZE` -/
def bufferSize : Nat := 5

/-- The two worker threads. -/
inductive Worker
  | producer
  | consumer
  deriving DecidableEq, Repr

def Worker.other : Worker → Worker
  | .producer => .consumer
  | .consumer => .producer

instance Worker.decidableForall (holds : Worker → Prop) [DecidablePred holds]
    : Decidable (∀ worker, holds worker) :=
  decidable_of_iff (holds .producer ∧ holds .consumer)
    ⟨fun both worker => by cases worker <;> simp [both], fun all => ⟨all _, all _⟩⟩

/-- Program points of the two thread functions, which have the same shape. -/
inductive Pc
  | unborn -- before `pthread_create`
  | loopTest -- `while(!should_exit)`
  | lock -- `pthread_mutex_lock`
  | testCount -- the load of `count` in the inner `while`
  | testExit -- the load of `should_exit` in the inner `while`
  | wait -- about to enter `pthread_cond_wait`
  | asleep -- inside `pthread_cond_wait`, mutex released
  | woken -- inside `pthread_cond_wait`, woken and taking the mutex again
  | checkExit -- `if(should_exit)`
  | unlockExit -- the unlock before `break`
  | loadCount -- the load of `count++` or `--count`
  | storeCount (loaded : Int) -- its store
  | touchCell (index : Int) -- the access to `buffer[index]`
  | signal -- `pthread_cond_signal`
  | unlock -- `pthread_mutex_unlock`
  | finished
  deriving DecidableEq, Repr

inductive MainPc
  | createProducer
  | createConsumer
  | sleeping -- `sleep(10)`, before the store to `should_exit`
  | broadcasting -- after the store, before `pthread_cond_broadcast`
  | joinProducer
  | joinConsumer
  | exited
  deriving DecidableEq, Repr

/-- The program state. `history` and `accesses` only record what the code does: the items
put into and taken from the buffer, and every index used on it. `item` is a natural
number, so the runs where the source's `int` would overflow are not cut off.
-/
structure State where
  buffer : List Nat
  count : Int
  shouldExit : Bool
  mutex : Option Worker
  pc : Worker → Pc
  item : Nat
  main : MainPc
  history : List (Event Nat)
  accesses : List Int

def State.goto (s : State) (self : Worker) (pc : Pc) : State :=
  { s with pc := Function.update s.pc self pc }

/-- Give a sleeping thread its wake-up; a thread that is not asleep is not affected. -/
def State.wake (s : State) (worker : Worker) : State :=
  if s.pc worker = .asleep then s.goto worker .woken else s

/-- What the two thread functions do differently: the test of the inner `while`, the value
stored back to `count`, the index used on `buffer`, and the access itself.
-/
structure Role where
  blocked : Int → Bool
  newCount : Int → Int
  index : Int → Int
  access : State → Int → State

/-- One atomic step of a thread function; `none` while the thread is blocked. -/
def threadFunc (role : Role) (self : Worker) (s : State) : Option State :=
  match s.pc self with
  | .unborn | .asleep | .finished => none
  | .loopTest => some (s.goto self (if s.shouldExit then .finished else .lock))
  | .lock | .woken =>
      if s.mutex = none then some ({ s with mutex := some self }.goto self .testCount)
      else none
  | .testCount => some (s.goto self (if role.blocked s.count then .testExit else .checkExit))
  | .testExit => some (s.goto self (if s.shouldExit then .checkExit else .wait))
  | .wait => some ({ s with mutex := none }.goto self .asleep)
  | .checkExit => some (s.goto self (if s.shouldExit then .unlockExit else .loadCount))
  | .unlockExit => some ({ s with mutex := none }.goto self .finished)
  | .loadCount => some (s.goto self (.storeCount s.count))
  | .storeCount loaded =>
      some ({ s with count := role.newCount loaded }.goto self
        (.touchCell (role.index loaded)))
  | .touchCell index => some ((role.access s index).goto self .signal)
  | .signal => some ((s.wake self.other).goto self .unlock)
  | .unlock => some ({ s with mutex := none }.goto self .loopTest)

/-- `buffer[count++] = item++` waits while `count == BUFFER_SIZE`. -/
def producerRole : Role where
  blocked count := count == bufferSize
  newCount loaded := loaded + 1
  index loaded := loaded
  access s index :=
    { s with
      buffer := s.buffer.set index.toNat s.item
      item := s.item + 1
      history := s.history ++ [.pushed s.item]
      accesses := s.accesses ++ [index] }

/-- `consumed_item = buffer[--count]` waits while `count == 0`. -/
def consumerRole : Role where
  blocked count := count == 0
  newCount loaded := loaded - 1
  index loaded := loaded - 1
  access s index :=
    { s with
      history := s.history ++ [.popped (s.buffer.getD index.toNat 0)]
      accesses := s.accesses ++ [index] }

def Worker.role : Worker → Role
  | .producer => producerRole
  | .consumer => consumerRole

def producerThreadFunc : State → Option State := threadFunc producerRole .producer

def consumerThreadFunc : State → Option State := threadFunc consumerRole .consumer

/-- One atomic step of `main`. -/
def main (s : State) : Option State :=
  match s.main with
  | .createProducer => some ({ s with main := .createConsumer }.goto .producer .loopTest)
  | .createConsumer => some ({ s with main := .sleeping }.goto .consumer .loopTest)
  | .sleeping => some { s with main := .broadcasting, shouldExit := true }
  | .broadcasting =>
      some (({ s with main := .joinProducer }.wake .producer).wake .consumer)
  | .joinProducer =>
      if s.pc .producer = .finished then some { s with main := .joinConsumer } else none
  | .joinConsumer =>
      if s.pc .consumer = .finished then some { s with main := .exited } else none
  | .exited => none

/-- A scheduling choice: who takes the next atomic step, or which sleeping thread is woken
without any signal.
-/
inductive Action
  | main
  | worker (self : Worker)
  | spurious (self : Worker)
  deriving DecidableEq, Repr

def step (s : State) : Action → Option State
  | .main => main s
  | .worker .producer => producerThreadFunc s
  | .worker .consumer => consumerThreadFunc s
  | .spurious self => if s.pc self = .asleep then some (s.goto self .woken) else none

/-- The globals as the program starts. -/
def start : State where
  buffer := List.replicate bufferSize 0
  count := 0
  shouldExit := false
  mutex := none
  pc := fun _ => .unborn
  item := 0
  main := .createProducer
  history := []
  accesses := []

def system : System State Action where
  Initial s := s = start
  step := step

end LinuxStudy.ConditionVariable
