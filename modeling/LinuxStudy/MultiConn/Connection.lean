import LinuxStudy.Posix.Bytes

/-! What the two multi-client servers of chapter 6 have in common: the files behind their
descriptors, the server's end of a connection, and the buffer sizes and the reply of
`read_from_write_thread`.
-/

namespace LinuxStudy.MultiConn

open Posix

/-- The size of `read_buf` and `write_buf`. -/
def bufSize : Nat := 1024

/-- The bytes of "收到\n" in UTF-8. -/
def reply : Bytes := [0xE6, 0x94, 0xB6, 0xE5, 0x88, 0xB0, 0x0A]

/-- What a descriptor of a server refers to; connections are numbered as clients connect. -/
inductive File
  | standard
  | listening
  | client (connection : Nat)
  deriving DecidableEq, Repr

/-- The server's end of one connection. `received` and `replied` record the bytes returned by
`recv` and accepted by `send`.
-/
structure Connection where
  unread : Bytes := []
  eof : Bool := false
  reset : Bool := false
  received : Bytes := []
  replied : Bytes := []
  deriving DecidableEq, Repr

/-- What the server's end of a connection looks like after `recv` of `n` bytes. -/
def Connection.takes (connection : Connection) (n : Nat) : Connection :=
  { connection with
    unread := connection.unread.drop n
    received := connection.received ++ connection.unread.take n }

/-- The connection after `send` has accepted `k` bytes of the reply. -/
def Connection.answers (connection : Connection) (k : Nat) : Connection :=
  { connection with replied := connection.replied ++ reply.take k }

/-- `recv` may return `n` bytes: any non-empty part of what has arrived that fits. -/
def Connection.offers (connection : Connection) (n : Nat) : Prop :=
  0 < n ∧ n ≤ connection.unread.length ∧ n ≤ bufSize

/-- `recv` returns 0: the end of the stream, after all its bytes. -/
def Connection.ended (connection : Connection) : Prop :=
  connection.unread = [] ∧ connection.eof = true

/-- The peer may still send. -/
def Connection.streaming (connection : Connection) : Prop :=
  connection.eof = false ∧ connection.reset = false

instance (connection : Connection) (n : Nat) : Decidable (connection.offers n) := by
  unfold Connection.offers
  infer_instance

instance (connection : Connection) : Decidable connection.ended := by
  unfold Connection.ended
  infer_instance

instance (connection : Connection) : Decidable connection.streaming := by
  unfold Connection.streaming
  infer_instance

/-- Replacing one record without changing a field leaves the column of that field. -/
theorem map_set_of_eq {α β : Type} (records : List α) (column : α → β) {i : Nat} {old new : α}
    (found : records[i]? = some old) (same : column new = column old)
    : (records.set i new).map column = records.map column := by
  have bound : i < records.length := (List.getElem?_eq_some_iff.mp found).1
  refine List.ext_getElem? fun j => ?_
  rw [List.map_set, List.getElem?_set]
  split
  next here =>
    subst here
    rw [if_pos (by simpa using bound), List.getElem?_map, found, same]
    rfl
  next => rfl

end LinuxStudy.MultiConn
