import Mathlib.Data.List.Basic

/-! An epoll instance: the interest list, and the descriptors with an edge-triggered event
that has not been delivered yet. Level-triggered readiness is not stored; it is asked of
the file when events are reported.
-/

namespace LinuxStudy.Posix

/-- One entry of the interest list: the descriptor it was made for, the file behind it, the
user data reported with its events, and `EPOLLET`.
-/
structure Registration (File : Type) where
  fd : Nat
  file : File
  data : Nat
  edge : Bool
  deriving DecidableEq, Repr

structure EpollInstance (File : Type) where
  interest : List (Registration File)
  queued : List Nat
  deriving DecidableEq, Repr

variable {File : Type}

/-- `EPOLL_CTL_ADD`; a file that is already readable gets its first event at once. -/
def EpollInstance.add (epoll : EpollInstance File) (entry : Registration File)
    (readable : Bool) : EpollInstance File where
  interest := epoll.interest ++ [entry]
  queued := if entry.edge && readable then epoll.queued ++ [entry.fd] else epoll.queued

/-- `EPOLL_CTL_DEL`, and what the kernel does when the last descriptor is closed. -/
def EpollInstance.remove (epoll : EpollInstance File) (fd : Nat) : EpollInstance File where
  interest := epoll.interest.filter (·.fd ≠ fd)
  queued := epoll.queued.filter (· ≠ fd)

/-- Something arrived for the file: every edge-triggered entry of it gets an event. -/
def EpollInstance.notify [DecidableEq File] (epoll : EpollInstance File) (file : File)
    : EpollInstance File :=
  { epoll with
    queued :=
      epoll.queued
      ++ (epoll.interest.filter fun entry => entry.edge && entry.file = file).map (·.fd) }

/-- Whether an entry has something to report now. -/
def EpollInstance.reports (epoll : EpollInstance File) (levelReady : File → Bool)
    (entry : Registration File) : Bool :=
  if entry.edge then epoll.queued.contains entry.fd else levelReady entry.file

/-- The events handed out are no longer queued. -/
def EpollInstance.deliver (epoll : EpollInstance File)
    (entries : List (Registration File)) : EpollInstance File :=
  { epoll with queued := epoll.queued.filter fun fd => fd ∉ entries.map (·.fd) }

section Lists
variable (epoll : EpollInstance File)

@[simp] theorem EpollInstance.mem_add_interest {entry other : Registration File}
    {readable : Bool}
    : other ∈ (epoll.add entry readable).interest ↔ other ∈ epoll.interest ∨ other = entry := by
  simp [EpollInstance.add]

@[simp] theorem EpollInstance.mem_add_queued {entry : Registration File} {readable : Bool}
    {fd : Nat}
    : fd ∈ (epoll.add entry readable).queued
      ↔ fd ∈ epoll.queued ∨ (entry.edge = true ∧ readable = true ∧ fd = entry.fd) := by
  cases edge : entry.edge <;> cases readable <;> simp [EpollInstance.add, edge]

@[simp] theorem EpollInstance.mem_remove_interest {entry : Registration File} {fd : Nat}
    : entry ∈ (epoll.remove fd).interest ↔ entry ∈ epoll.interest ∧ entry.fd ≠ fd := by
  simp [EpollInstance.remove]

@[simp] theorem EpollInstance.mem_remove_queued {fd other : Nat}
    : other ∈ (epoll.remove fd).queued ↔ other ∈ epoll.queued ∧ other ≠ fd := by
  simp [EpollInstance.remove]

@[simp] theorem EpollInstance.mem_notify_queued [DecidableEq File] {file : File} {fd : Nat}
    : fd ∈ (epoll.notify file).queued
      ↔ fd ∈ epoll.queued
        ∨ ∃ entry ∈ epoll.interest, entry.edge = true ∧ entry.file = file ∧ entry.fd = fd := by
  simp [EpollInstance.notify, and_assoc]

@[simp] theorem EpollInstance.deliver_interest (entries : List (Registration File))
    : (epoll.deliver entries).interest = epoll.interest :=
  rfl

@[simp] theorem EpollInstance.mem_deliver_queued {entries : List (Registration File)}
    {fd : Nat}
    : fd ∈ (epoll.deliver entries).queued
      ↔ fd ∈ epoll.queued ∧ ∀ entry ∈ entries, entry.fd ≠ fd := by
  simp [EpollInstance.deliver]

end Lists

end LinuxStudy.Posix
