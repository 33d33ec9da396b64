import LinuxStudy.EpollTest.EchoIntegrity
import Mathlib.Data.Set.Insert

/-! The event loop without descriptor numbers. The view of a state names connections where
the program names descriptors; the steps of the program are determined by the view.
-/

namespace LinuxStudy.EpollTest

open Transition Posix

/-- Where `main` stands, by connection. -/
inductive Place
  | loop
  | accept
  | setNonblock (c : Nat)
  | register (c : Nat)
  | closeRejected (c : Nat)
  | serve (c : Nat) (stage : Stage)
  | dead

/-- What clients and connections can tell of a state: which connections are open, registered
and have an undelivered event, which files the events of the batch belong to, and which bytes
the server holds for whom.
-/
@[ext]
structure View where
  place : Place
  batch : List File
  backlog : List Nat
  connected : Nat
  connections : Nat → Connection
  opened : Set Nat
  listed : Set Nat
  queued : Set Nat
  held : Nat → Bytes

namespace View

/-- The connection has changed, and epoll hears of it. -/
def deliver (v : View) (c : Nat) (connection : Connection) : View :=
  { v with
    connections := Function.update v.connections c connection
    queued := {other | other ∈ v.queued ∨ other = c ∧ c ∈ v.listed} }

/-- A client may still send on its connection. -/
def streaming (v : View) (c : Nat) : Prop :=
  c < v.connected ∧ (v.connections c).eof = false ∧ (v.connections c).reset = false

/-- The file is in the interest list. -/
def watches (v : View) : File → Prop
  | .listening => True
  | .client c => c ∈ v.listed
  | _ => False

/-- The file has an event to report. -/
def ready (v : View) : File → Prop
  | .listening => v.backlog ≠ []
  | .client c => c ∈ v.queued
  | _ => False

open Classical in
/-- The files that are reported, if these are asked for. -/
noncomputable def reported (v : View) (files : List File) : List File :=
  files.filter fun file => v.watches file

/-- Only this connection has bytes in the buffer. -/
def holding (c : Nat) (chunk : Bytes) : Nat → Bytes :=
  Function.update (fun _ => []) c chunk

/-- One step of the event loop, on connections instead of descriptors. -/
inductive Move (v : View) : Action → View → Prop
  | connect
    : Move v .connect
        { v with
          connected := v.connected + 1
          backlog := v.backlog ++ [v.connected]
          connections := Function.update v.connections v.connected {} }
  | arrive {c bytes} (streaming : v.streaming c) (nonempty : bytes ≠ [])
    : Move v (.arrive c bytes)
        (v.deliver c { v.connections c with unread := (v.connections c).unread ++ bytes })
  | endStream {c} (streaming : v.streaming c)
    : Move v (.endStream c) (v.deliver c { v.connections c with eof := true })
  | resetPeer {c} (known : c < v.connected) (whole : (v.connections c).reset = false)
    : Move v (.resetPeer c) (v.deliver c { v.connections c with reset := true })
  | epollWait {files} (here : v.place = .loop) (used : v.batch = []) (distinct : files.Nodup)
    (some : v.reported files ≠ []) (few : (v.reported files).length ≤ maxEvents)
    (ready : ∀ file ∈ v.reported files, v.ready file)
    : Move v (.epollWait files)
        { v with
          batch := v.reported files
          queued := {c | c ∈ v.queued ∧ .client c ∉ v.reported files} }
  | epollWaitFails (here : v.place = .loop) (used : v.batch = [])
    : Move v .epollWaitFails { v with place := .dead }
  | nextListening {rest} (here : v.place = .loop) (first : v.batch = .listening :: rest)
    : Move v .nextEvent { v with batch := rest, place := .accept }
  | nextClient {c rest} (here : v.place = .loop) (first : v.batch = .client c :: rest)
    : Move v .nextEvent { v with batch := rest, place := .serve c .recv }
  | acceptClient {c rest} (here : v.place = .accept) (waiting : v.backlog = c :: rest)
    : Move v .acceptClient
        { v with backlog := rest, opened := insert c v.opened, place := .setNonblock c }
  | acceptFails (here : v.place = .accept) : Move v .acceptFails { v with place := .loop }
  | setNonblock {c} (here : v.place = .setNonblock c)
    : Move v .setNonblock
        { v with
          connections := Function.update v.connections c { v.connections c with nonblock := true }
          place := .register c }
  | registerClient {c} (here : v.place = .register c)
    : Move v .registerClient
        { v with
          listed := insert c v.listed
          queued := {other | other ∈ v.queued ∨ other = c ∧ (v.connections c).readable = true}
          place := .loop }
  | registerFails {c} (here : v.place = .register c)
    : Move v .registerFails { v with place := .closeRejected c }
  | closeRejected {c} (here : v.place = .closeRejected c)
    : Move v .closeRejected { v with opened := v.opened \ {c}, place := .loop }
  | recvData {c n} (here : v.place = .serve c .recv) (positive : 0 < n)
    (available : n ≤ (v.connections c).unread.length) (fits : n ≤ bufSize - 1)
    : Move v (.recvData n)
        { v with
          connections := Function.update v.connections c ((v.connections c).takes n)
          held := holding c ((v.connections c).unread.take n)
          place := .serve c (.print n) }
  | recvEnd {c} (here : v.place = .serve c .recv) (drained : (v.connections c).unread = [])
    (eof : (v.connections c).eof = true)
    : Move v .recvEnd { v with place := .serve c .closing }
  | recvAgain {c} (here : v.place = .serve c .recv)
    (idle : (v.connections c).readable = false) (nonblock : (v.connections c).nonblock = true)
    : Move v .recvAgain { v with place := .loop }
  | recvError {c} (here : v.place = .serve c .recv)
    : Move v .recvError { v with place := .serve c .closing }
  | printChunk {c len} (here : v.place = .serve c (.print len))
    : Move v .printChunk { v with place := .serve c (.echo len) }
  | sendChunk {c len k} (here : v.place = .serve c (.echo len)) (part : k ≤ len)
    (blocks : k = 0 → (v.connections c).nonblock = true)
    (whole : (v.connections c).reset = false)
    : Move v (.sendChunk k)
        { v with
          connections :=
            Function.update v.connections c ((v.connections c).accepts (v.held c) k)
          held := fun _ => []
          place := .serve c .recv }
  | sendRefused {c len} (here : v.place = .serve c (.echo len))
    (broken : (v.connections c).reset = true)
    : Move v (.sendBroken false)
        { v with
          connections :=
            Function.update v.connections c ((v.connections c).accepts (v.held c) 0)
          held := fun _ => []
          place := .serve c .recv }
  | sendKills {c len} (here : v.place = .serve c (.echo len))
    (broken : (v.connections c).reset = true)
    : Move v (.sendBroken true)
        { v with
          connections :=
            Function.update v.connections c ((v.connections c).accepts (v.held c) 0)
          held := fun _ => []
          place := .dead }
  | closeClient {c} (here : v.place = .serve c .closing)
    : Move v .closeClient
        { v with
          opened := v.opened \ {c}
          listed := v.listed \ {c}
          queued := v.queued \ {c}
          place := .serve c .deleting }
  | deleteClient {c} (here : v.place = .serve c .deleting)
    : Move v .deleteClient { v with place := .loop }

end View

-----------------------------------------------------------------------------------------
-- The view of a state
-----------------------------------------------------------------------------------------

/-- The place of a program point that works on the connection behind a descriptor. -/
def State.placeAt (s : State) (fd : Nat) (place : Nat → Place) : Place :=
  ((s.connection? fd).map place).getD .dead

/-- The place of `main`. -/
def State.place (s : State) : Place :=
  match s.pc with
  | .loop => .loop
  | .accept => .accept
  | .setNonblock fd => s.placeAt fd .setNonblock
  | .register fd => s.placeAt fd .register
  | .closeRejected fd => s.placeAt fd .closeRejected
  | .serve _ stage =>
      match s.source with
      | .client c => .serve c stage
      | _ => .dead
  | .dead => .dead

/-- The connection has a descriptor. -/
def State.opened (s : State) : Set Nat := {c | ∃ fd, s.table.lookup fd = some (.client c)}

/-- The connection is registered. -/
def State.listed (s : State) : Set Nat :=
  {c | ∃ entry ∈ s.epoll.interest, entry.file = .client c}

/-- The connection has an event that is not delivered yet. -/
def State.queued (s : State) : Set Nat :=
  {c | ∃ entry ∈ s.epoll.interest, entry.file = .client c ∧ entry.fd ∈ s.epoll.queued}

def State.view (s : State) : View where
  place := s.place
  batch := s.batch.map (·.source)
  backlog := s.backlog
  connected := s.connected
  connections := s.connections
  opened := s.opened
  listed := s.listed
  queued := s.queued
  held := s.held

end LinuxStudy.EpollTest
