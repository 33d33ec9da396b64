import LinuxStudy.DaemonClient.Model
import Mathlib.Data.List.Basic

/-! What `daemon_client.c` makes of the lines that are typed. -/

namespace LinuxStudy.DaemonClient

open Posix

/-- The lines, each with its newline. -/
def typed (lines : List Bytes) : Bytes := lines.flatMap (· ++ [newline])

/-- A line that the client can take for one message: without NUL, not empty and shorter than
the buffer.
-/
structure Line (line : Bytes) : Prop where
  nulFree : 0 ∉ line
  newlineFree : newline ∉ line
  nonempty : line ≠ []
  fits : line.length < bufSize

/-- The standard input in front of these lines. The newline of a line that just fits is still
there when the line has been read.
-/
def Awaits (lines : List Bytes) (stdin : Bytes) : Prop :=
  stdin = typed lines ∨ stdin = newline :: typed lines

section Buffer

variable {line rest : Bytes}

/-- The string of a buffer in which a line with its newline was stored. -/
theorem cString_stripNewline (nulFree : 0 ∉ line)
    : cString (stripNewline (line ++ newline :: 0 :: rest)) = line := by
  have text : cString (line ++ newline :: 0 :: rest) = line ++ [newline] := by
    have free : (0 : UInt8) ∉ line ++ [newline] := by simp [nulFree, newline]
    have split : line ++ newline :: 0 :: rest = (line ++ [newline]) ++ 0 :: rest := by simp
    rw [split, cString_append_zero free]
  have stripped : stripNewline (line ++ newline :: 0 :: rest) = line ++ 0 :: 0 :: rest := by
    simp [stripNewline, text]
  rw [stripped, cString_append_zero nulFree]

/-- Without a newline at its end the string stays. -/
theorem cString_stripNewline_of_notMem (nulFree : 0 ∉ line) (free : newline ∉ line)
    : cString (stripNewline (line ++ 0 :: rest)) = line := by
  have text := @cString_append_zero line rest nulFree
  have kept : stripNewline (line ++ 0 :: rest) = line ++ 0 :: rest := by
    rw [stripNewline, text]
    refine if_neg fun ⟨positive, last⟩ => free ?_
    rw [List.getElem?_append_left (by omega)] at last
    exact List.mem_of_getElem? last
  rw [kept, text]

/-- What `fgets` and the removal of the newline leave of a line in the buffer. -/
theorem cString_fgets (line_ : Line line) (buffer stdin : Bytes)
    : cString (stripNewline (overwrite buffer
        (fgetsLine bufSize (line ++ newline :: stdin) ++ [0]))) = line := by
  obtain ⟨nulFree, newlineFree, nonempty, fits⟩ := line_
  by_cases short : line.length + 2 ≤ bufSize
  · rw [fgetsLine_append_newline newlineFree short, overwrite]
    simpa using @cString_stripNewline line _ nulFree
  · rw [fgetsLine_of_length newlineFree (by omega), overwrite]
    simpa using @cString_stripNewline_of_notMem line _ nulFree newlineFree

end Buffer

/-- What one `fgets` can come to when these lines are still to be typed. -/
inductive Reads (client : Client) : List Bytes → Client → Prop
  | ended : Reads client [] { client with pc := .left .endOfInput }
  | newline {lines} (buffer : Bytes) (stdin : client.stdin = Posix.newline :: typed lines)
    : Reads client lines { client with stdin := typed lines, buffer, pc := .fgets }
  | command {line lines} (stdin buffer : Bytes) (ends : line = quit ∨ line = eof)
    : Reads client (line :: lines)
        { client with stdin, buffer, pc := .left .typedQuit }
  | line {line lines} (stdin buffer : Bytes) (awaits : Awaits lines stdin)
    (text : buffer.take line.length = line) (other : ¬(line = quit ∨ line = eof))
    : Reads client (line :: lines) { client with stdin, buffer, pc := .send line.length }

/-- `fgets` takes the newline left over, the next line, or the end of the input. -/
theorem reads_of_fgets {client next : Client} {lines : List Bytes}
    (good : ∀ line ∈ lines.head?, Line line) (awaits : Awaits lines client.stdin)
    (taken : fgets client = some next)
    : Reads client lines next := by
  obtain ⟨here, same⟩ := Option.ite_none_right_eq_some.mp taken
  rcases awaits with front | left_
  · cases lines with
    | nil =>
        have nothing : fgetsLine bufSize client.stdin = [] := by rw [front]; rfl
        rw [if_pos nothing] at same
        exact Option.some.inj same ▸ .ended
    | cons line lines =>
        have line_ := good line rfl
        have input : client.stdin = line ++ newline :: typed lines := by
          rw [front]
          simp [typed]
        have some : fgetsLine bufSize client.stdin ≠ [] :=
          fgetsLine_ne_nil (by decide) (by simp [input])
        have text := cString_fgets line_ client.buffer (typed lines)
        rw [← input] at text
        rw [if_neg some] at same
        simp only [text] at same
        obtain rfl := Option.some.inj same
        by_cases ends : line = quit ∨ line = eof
        · rw [if_pos ends]
          exact .command _ _ ends
        · have nonempty : line.length ≠ 0 := fun empty =>
            line_.nonempty (List.length_eq_zero_iff.mp empty)
          rw [if_neg ends, if_neg nonempty]
          refine .line _ _ ?_ ?_ ends
          · by_cases short : line.length + 2 ≤ bufSize
            · left
              rw [input, fgetsLine_append_newline line_.newlineFree short]
              have split : line ++ newline :: typed lines
                  = (line ++ [newline]) ++ typed lines := by simp
              rw [split, List.drop_left']
              rfl
            · right
              have fits := line_.fits
              rw [input, fgetsLine_of_length line_.newlineFree (by omega), List.drop_left']
              rfl
          · have front := take_length_cString (stripNewline (overwrite client.buffer
              (fgetsLine bufSize client.stdin ++ [0])))
            rwa [text] at front
  · have first : fgetsLine bufSize client.stdin = [newline] := by
      rw [left_]
      exact @fgetsLine_append_newline bufSize [] (by simp) (by decide) _
    have text : cString (stripNewline (overwrite client.buffer ([newline] ++ [0]))) = [] :=
      @cString_stripNewline [] _ (by simp)
    rw [first] at same
    simp only [text] at same
    have other : ¬(([] : Bytes) = quit ∨ ([] : Bytes) = eof) := by decide
    have some : [newline] ≠ [] := by simp
    rw [if_neg some, if_neg other, left_] at same
    exact Option.some.inj same ▸ .newline _ left_

-----------------------------------------------------------------------------------------
-- What the steps touch
-----------------------------------------------------------------------------------------

/-- Reading typed lines touches no stream. -/
theorem fgets_frame {client next : Client} (taken : fgets client = some next)
    : next.sent = client.sent ∧ next.received = client.received := by
  obtain ⟨-, same⟩ := Option.ite_none_right_eq_some.mp taken
  dsimp only at same
  split at same
  · exact Option.some.inj same ▸ ⟨rfl, rfl⟩
  · exact Option.some.inj same ▸ ⟨rfl, rfl⟩

/-- The text shown of a chunk that was stored with a NUL behind it. -/
theorem cString_received {chunk : Bytes} (fits : chunk.length < bufSize)
    : cString ((overwrite (List.replicate bufSize 0) chunk).set chunk.length 0)
      = cString chunk := by
  have inside : chunk.length < (overwrite (List.replicate bufSize 0) chunk).length := by
    rw [length_overwrite (by simpa using Nat.le_of_lt fits), List.length_replicate]
    exact fits
  rw [cString_set_zero inside, take_overwrite]

/-- What `recv` takes comes next in the stream, and is shown. -/
theorem recv_eq_some {client next : Client} {stream : Bytes} {n : Nat}
    (taken : recv client stream n = some next)
    : ∃ sendLen chunk,
        client.pc = .recv sendLen
        ∧ chunk = (stream.drop client.received.length).take n
        ∧ chunk.length = n
        ∧ 0 < n
        ∧ next.pc = .fgets
        ∧ next.stdin = client.stdin
        ∧ next.sent = client.sent
        ∧ next.received = client.received ++ chunk
        ∧ next.printed = client.printed ++ [cString chunk] := by
  simp only [recv] at taken
  split at taken
  next sendLen here =>
    obtain ⟨⟨positive, enough, fits⟩, same⟩ := Option.ite_none_right_eq_some.mp taken
    obtain rfl := Option.some.inj same
    have length : ((stream.drop client.received.length).take n).length = n :=
      List.length_take_of_le enough
    have text := @cString_received ((stream.drop client.received.length).take n) (by
      rw [length]
      have size : bufSize = 1024 := rfl
      omega)
    rw [length] at text
    exact ⟨sendLen, _, here, rfl, length, positive, rfl, rfl, rfl, rfl, by rw [text]⟩
  next => contradiction

/-- The bytes received stay the front of the stream. -/
theorem received_prefix {client next : Client} {stream : Bytes} {n : Nat}
    (read : client.received <+: stream) (taken : recv client stream n = some next)
    : next.received <+: stream := by
  obtain ⟨_, chunk, _, chunk_, _, _, _, _, _, received, _⟩ := recv_eq_some taken
  obtain ⟨rest, rfl⟩ := read
  rw [List.drop_left' rfl] at chunk_
  rw [received, chunk_]
  exact (List.prefix_append_right_inj _).mpr (List.take_prefix n rest)

theorem send_eq_some {client next : Client} (taken : send client = some next)
    : ∃ len,
        client.pc = .send len
        ∧ next = { client with
            sent := client.sent ++ client.buffer.take len
            messages := client.messages ++ [client.buffer.take len]
            pc := .recv len } := by
  simp only [send] at taken
  split at taken
  next len here => exact ⟨len, here, (Option.some.inj taken).symm⟩
  next => contradiction

theorem recvEnd_eq_some {client next : Client} {stream : Bytes}
    (taken : recvEnd client stream = some next)
    : (∃ sendLen, client.pc = .recv sendLen)
      ∧ stream.drop client.received.length = []
      ∧ next = { client with pc := .left .serverClosed } := by
  simp only [recvEnd] at taken
  split at taken
  next sendLen here =>
    obtain ⟨nothing, same⟩ := Option.ite_none_right_eq_some.mp taken
    exact ⟨⟨sendLen, here⟩, nothing, (Option.some.inj same).symm⟩
  next => contradiction

/-- `recv` can return any part that has arrived and fits. -/
theorem exists_recv {client : Client} {stream : Bytes} {sendLen n : Nat}
    (here : client.pc = .recv sendLen) (positive : 0 < n)
    (available : n ≤ (stream.drop client.received.length).length) (fits : n ≤ bufSize - 1)
    : ∃ next, recv client stream n = some next := by
  simp only [recv, here]
  rw [if_pos ⟨positive, available, fits⟩]
  exact ⟨_, rfl⟩

/-- A call that fails leaves the loop. -/
theorem sendFails_eq_some {client next : Client} (taken : sendFails client = some next)
    : (∃ len, client.pc = .send len) ∧ next = { client with pc := .left .sendFailed } := by
  simp only [sendFails] at taken
  split at taken
  next len here => exact ⟨⟨len, here⟩, (Option.some.inj taken).symm⟩
  next => contradiction

theorem recvFails_eq_some {client next : Client} (taken : recvFails client = some next)
    : (∃ sendLen, client.pc = .recv sendLen)
      ∧ next = { client with pc := .left .recvFailed } := by
  simp only [recvFails] at taken
  split at taken
  next sendLen here => exact ⟨⟨sendLen, here⟩, (Option.some.inj taken).symm⟩
  next => contradiction

-----------------------------------------------------------------------------------------
-- What the client has still to do
-----------------------------------------------------------------------------------------

def Pc.rank : Pc → Nat
  | .send _ => 3
  | .recv _ => 2
  | .fgets => 1
  | .left _ => 0

/-- Each step lowers it: reading a line takes that off the input. -/
def Client.cost (client : Client) : Nat := 4 * client.stdin.length + client.pc.rank

/-- Reading a line takes it off the input, or the client leaves. -/
theorem fgets_cost {client after : Client} (taken : fgets client = some after)
    : after.cost < client.cost := by
  obtain ⟨here, same⟩ := Option.ite_none_right_eq_some.mp taken
  dsimp only at same
  split at same
  next =>
    obtain rfl := Option.some.inj same
    simp [Client.cost, Pc.rank, here]
  next some =>
    obtain rfl := Option.some.inj same
    have line := List.IsPrefix.length_le <| fgetsLine_prefix bufSize client.stdin
    have positive := List.length_pos_of_ne_nil some
    have bound (pc : Pc) : pc.rank ≤ 3 := by cases pc <;> simp [Pc.rank]
    refine Nat.lt_of_le_of_lt (Nat.add_le_add_left (bound _) _) ?_
    simp only [Client.cost, here, List.length_drop, Pc.rank]
    omega

end LinuxStudy.DaemonClient
