import LinuxStudy.DaemonServer.LogRecords

/-! Reading the clients and their messages back from the log of `daemon_server.c`. The buffers
are large enough for every record; but a message is written as it is, so a newline in it begins
another line, and what follows a NUL is lost.
-/

namespace LinuxStudy.DaemonServer

open Posix WriteLog

/-- No buffer on the way of a client's records cuts anything off. -/
structure Client.Uncut (client : Client) : Prop where
  received
    : ∀ entry ∈ client.message, entry.1.bytes.length < DaemonServer.bufSize
      ∧ entry.1.buffer.take entry.1.bytes.length = entry.1.bytes
  connection
    : snprintf mainLogSize (connectionText client.address) = connectionText client.address
  message
    : ∀ entry ∈ client.message, handleClient client.address entry.1
      = messageText client.address (cString entry.1.buffer)
  line : ∀ call ∈ client.calls, writeLog call = logText call.1 call.2 ++ [newline]

/-- No record is cut, each call of `write_log` adds one line, and the log is read back as the
clients and messages of the history.
-/
structure ReadBack (history : List Client) : Prop where
  uncut : ∀ client ∈ history, client.Uncut
  oneLine
    : ∀ call ∈ history.flatMap Client.calls,
      ∃ line, newline ∉ line ∧ writeLog call = line ++ [newline]
  recovered : readLog (logFile history) = history.flatMap Client.records

/-- No message has a NUL or a newline. -/
def Plain (history : List Client) : Prop :=
  ∀ client ∈ history, ∀ entry ∈ client.message, 0 ∉ entry.1.bytes ∧ newline ∉ entry.1.bytes

-----------------------------------------------------------------------------------------
-- Lengths
-----------------------------------------------------------------------------------------

theorem snprintf_eq {size : Nat} {text : Bytes} (fits : text.length < size)
    : snprintf size text = text :=
  List.take_of_length_le (by omega)

theorem length_decimal_byte (byte : UInt8) : (decimal byte.toNat).length ≤ 3 := by
  have bound := byte.toNat_lt
  exact length_decimal_le (by decide) (by omega)

theorem length_decimal_port (port : UInt16) : (decimal port.toNat).length ≤ 5 := by
  have bound := port.toNat_lt
  exact length_decimal_le (by decide) (by omega)

theorem Address.length_text_le (address : Address) : address.text.length ≤ 21 := by
  have first := length_decimal_byte address.first
  have second := length_decimal_byte address.second
  have third := length_decimal_byte address.third
  have fourth := length_decimal_byte address.fourth
  have port := length_decimal_port address.port
  simp only [Address.text, Address.inetNtoa, List.length_append, List.length_cons]
  omega

theorem length_connectionText_le (address : Address) : (connectionText address).length ≤ 38 := by
  have label : connectionLabel.length = 17 := by decide
  have sender := address.length_text_le
  simp only [connectionText, List.length_append, label]
  omega

theorem length_messageText_le (address : Address) (text : Bytes)
    : (messageText address text).length ≤ 48 + text.length := by
  have label : messageLabel.length = 17 := by decide
  have separator : messageSeparator.length = 10 := by decide
  have sender := address.length_text_le
  simp only [messageText, List.length_append, label, separator]
  omega

-----------------------------------------------------------------------------------------
-- Buffers
-----------------------------------------------------------------------------------------

namespace Message

variable (message : Message)

theorem room : message.bytes.length < DaemonServer.bufSize := by
  have fits := message.fits
  have size : DaemonServer.bufSize = 1024 := rfl
  omega

/-- `recv` has stored all bytes of the message. -/
theorem take_buffer : message.buffer.take message.bytes.length = message.bytes := by
  rw [Message.buffer, take_set_self, take_overwrite]

/-- The buffer holds the message up to its first NUL as a string. -/
theorem cString_buffer : cString message.buffer = cString message.bytes := by
  have zeros : (List.replicate DaemonServer.bufSize (0 : UInt8)).length
      = DaemonServer.bufSize := List.length_replicate
  have inside : message.bytes.length
      < (overwrite (List.replicate DaemonServer.bufSize 0) message.bytes).length := by
    rw [length_overwrite (by rw [zeros]; exact message.room.le), zeros]
    exact message.room
  rw [Message.buffer, cString_set_zero inside, take_overwrite]

theorem length_cString_lt : (cString message.bytes).length < DaemonServer.bufSize :=
  Nat.lt_of_le_of_lt (prefix_cString _).length_le message.room

end Message

/-- The record of a message, as `write_log` gets it. -/
theorem handleClient_eq (address : Address) (message : Message)
    : handleClient address message = messageText address (cString message.bytes) := by
  have length := length_messageText_le address (cString message.bytes)
  have short := message.length_cString_lt
  have size : DaemonServer.bufSize = 1024 := rfl
  rw [handleClient, message.cString_buffer]
  exact snprintf_eq (by simp only [clientLogSize]; omega)

theorem snprintf_connectionText (address : Address)
    : snprintf mainLogSize (connectionText address) = connectionText address := by
  have length := length_connectionText_le address
  exact snprintf_eq (by simp only [mainLogSize]; omega)

/-- The calls of `write_log`, without the buffers. -/
theorem Client.calls_eq (client : Client)
    : client.calls
      = (client.connectedAt, connectionText client.address)
        :: client.message.toList.map fun entry =>
          (entry.2, messageText client.address (cString entry.1.bytes)) := by
  simp only [Client.calls, snprintf_connectionText, handleClient_eq]

/-- What `write_log` gets is short enough for it. -/
theorem Client.length_call_le (client : Client) {call : Date × Bytes}
    (among : call ∈ client.calls)
    : call.2.length ≤ maxMessage := by
  rw [client.calls_eq, List.mem_cons, List.mem_map] at among
  rcases among with rfl | ⟨entry, _, rfl⟩
  · exact (length_connectionText_le _).trans (by decide)
  · have length := length_messageText_le client.address (cString entry.1.bytes)
    have short := entry.1.length_cString_lt
    have size : DaemonServer.bufSize = 1024 := rfl
    simp only [maxMessage]
    omega

/-- `write_log` writes the whole line. -/
theorem writeLog_eq {call : Date × Bytes} (short : call.2.length ≤ maxMessage)
    : writeLog call = logText call.1 call.2 ++ [newline] := by
  have length := length_logText call.1 call.2
  rw [writeLog, snprintf_eq]
  simp only [WriteLog.bufSize, maxMessage] at short ⊢
  omega

/-- Every record of a client gets through all buffers as it is. -/
theorem Client.uncut (client : Client) : client.Uncut where
  received entry _ := ⟨entry.1.room, entry.1.take_buffer⟩
  connection := snprintf_connectionText client.address
  message entry _ := by rw [handleClient_eq, entry.1.cString_buffer]
  line _ among := writeLog_eq (client.length_call_le among)

-----------------------------------------------------------------------------------------
-- Newlines
-----------------------------------------------------------------------------------------

theorem newline_notMem_decimal (n : Nat) : newline ∉ decimal n := fun member =>
  absurd ((isNumeral_decimal n).2 newline member) (by decide)

theorem Address.newline_notMem_text (address : Address) : newline ∉ address.text := by
  have separators : newline ≠ 46 ∧ newline ≠ 58 := by decide
  simp [Address.text, Address.inetNtoa, newline_notMem_decimal, separators]

theorem newline_notMem_connectionText (address : Address)
    : newline ∉ connectionText address := by
  have label : newline ∉ connectionLabel := by decide
  simp [connectionText, label, address.newline_notMem_text]

theorem newline_mem_messageText (address : Address) (text : Bytes)
    : newline ∈ messageText address text ↔ newline ∈ text := by
  have label : newline ∉ messageLabel := by decide
  have separator : newline ∉ messageSeparator := by decide
  simp [messageText, label, separator, address.newline_notMem_text]

-----------------------------------------------------------------------------------------
-- Reading a line
-----------------------------------------------------------------------------------------

theorem readNumber_decimal (n : Nat) {rest : Bytes}
    (stops : ∀ byte ∈ rest.head?, isDigit byte = false)
    : readNumber (decimal n ++ rest) = (n, rest) := by
  obtain ⟨digits, behind⟩ := takeWhile_isDigit (isNumeral_decimal n).2 stops
  rw [readNumber, digits, behind, numeralValue_decimal]

/-- The sender is read back from its text. -/
theorem readAddress_text (address : Address) {rest : Bytes}
    (stops : ∀ byte ∈ rest.head?, isDigit byte = false)
    : readAddress (address.text ++ rest) = (address, rest) := by
  have dot (rest : Bytes) : ∀ byte ∈ (46 :: rest).head?, isDigit byte = false := by
    rintro byte ⟨⟩
    decide
  have colon (rest : Bytes) : ∀ byte ∈ (58 :: rest).head?, isDigit byte = false := by
    rintro byte ⟨⟩
    decide
  simp only [readAddress, Address.text, Address.inetNtoa, List.append_assoc, List.cons_append,
    readNumber_decimal _ (dot _), readNumber_decimal _ (colon _), readNumber_decimal _ stops,
    List.drop_succ_cons, List.drop_zero, UInt8.ofNat_toNat, UInt16.ofNat_toNat]

/-- Behind the date is what was logged. -/
theorem drop_logText (date : Date) (message : Bytes)
    : (logText date message).drop 27 = message := by
  have front : (91 :: date.text ++ [93, 32]).length = 27 := by simp [date.length_text]
  rw [logText, ← front, List.drop_left]

/-- The record of a connection is read back. -/
theorem readRecord_connection (date : Date) (address : Address)
    : readRecord (logText date (connectionText address)) = some (.connected address) := by
  have label : connectionLabel <+: connectionText address := List.prefix_append _ _
  have sender := @readAddress_text address [] (by simp)
  rw [List.append_nil] at sender
  simp only [readRecord, drop_logText, label, if_true]
  rw [connectionText, List.drop_left, sender]

/-- The record of a message is read back, with the text that it shows. -/
theorem readRecord_message (date : Date) (address : Address) (text : Bytes)
    : readRecord (logText date (messageText address text)) = some (.message address text) := by
  have split : messageText address text
      = messageLabel ++ (address.text ++ (messageSeparator ++ text)) := by
    simp [messageText]
  have label : messageLabel <+: messageText address text := split ▸ List.prefix_append _ _
  have other : ¬connectionLabel <+: messageText address text := by
    rintro ⟨rest, same⟩
    rw [split] at same
    -- the two labels differ in their first byte
    have first : (0xE5 : UInt8) = 0xE6 := (List.cons.inj same).1
    exact absurd first (by decide)
  have stops : ∀ byte ∈ (messageSeparator ++ text).head?, isDigit byte = false := by
    rintro byte ⟨⟩
    decide
  simp only [readRecord, drop_logText, label, other, if_true, if_false]
  rw [split, List.drop_left, readAddress_text address stops, List.drop_left]

-----------------------------------------------------------------------------------------
-- Reading the file
-----------------------------------------------------------------------------------------

/-- What the records of a client show of its message. -/
def Client.shown (client : Client) : List Record :=
  .connected client.address
    :: client.message.toList.map fun entry => .message client.address (cString entry.1.bytes)

/-- The records of a client are read as what they show. -/
theorem Client.filterMap_calls (client : Client)
    : client.calls.filterMap (fun call => readRecord (logText call.1 call.2))
      = client.shown := by
  rw [client.calls_eq, Client.shown]
  cases client.message <;> simp [readRecord_connection, readRecord_message]

theorem logFile_eq (history : List Client)
    : logFile history
      = (history.flatMap Client.calls).flatMap fun call =>
        logText call.1 call.2 ++ [newline] := by
  refine List.flatMap_congr fun call among => writeLog_eq ?_
  obtain ⟨client, _, among⟩ := List.mem_flatMap.mp among
  exact client.length_call_le among

/-- A log with one line for each call is read as what its records show. -/
theorem readLog_logFile {history : List Client}
    (oneLine : ∀ call ∈ history.flatMap Client.calls, newline ∉ logText call.1 call.2)
    : readLog (logFile history) = history.flatMap Client.shown := by
  rw [readLog, logFile_eq, lines_flatMap oneLine, List.filterMap_map, List.filterMap_flatMap]
  exact List.flatMap_congr fun client _ => client.filterMap_calls

/-- If the shown records are the records, every client shows its message as it is. -/
theorem shown_eq_records {history : List Client}
    (same : history.flatMap Client.shown = history.flatMap Client.records)
    : ∀ client ∈ history, client.shown = client.records := by
  induction history with
  | nil => simp
  | cons first history ih =>
      have length : first.shown.length = first.records.length := by
        simp [Client.shown, Client.records]
      rw [List.flatMap_cons, List.flatMap_cons] at same
      obtain ⟨here, behind⟩ := List.append_inj same length
      intro client among
      rcases List.mem_cons.mp among with rfl | among
      · exact here
      · exact ih behind client among

-----------------------------------------------------------------------------------------
-- The condition
-----------------------------------------------------------------------------------------

/-- A string without a NUL shows all of itself, and only then. -/
theorem cString_eq_self_iff {bytes : Bytes} : cString bytes = bytes ↔ 0 ∉ bytes := by
  refine ⟨fun same member => ?_, cString_of_nulFree⟩
  rw [← same] at member
  simpa using List.mem_takeWhile_imp member

/-- The line of a call has a newline only from the message. -/
theorem Client.newline_mem_call {client : Client} {call : Date × Bytes}
    (among : call ∈ client.calls) (newline_ : newline ∈ logText call.1 call.2)
    : ∃ entry ∈ client.message, newline ∈ cString entry.1.bytes := by
  rw [newline_mem_logText] at newline_
  rw [client.calls_eq, List.mem_cons, List.mem_map] at among
  rcases among with rfl | ⟨entry, here, rfl⟩
  · exact absurd newline_ (newline_notMem_connectionText _)
  · exact ⟨entry, by simpa using here, (newline_mem_messageText _ _).mp newline_⟩

section ReadBack

variable {history : List Client}

theorem Plain.oneLine (plain : Plain history)
    : ∀ call ∈ history.flatMap Client.calls, newline ∉ logText call.1 call.2 := by
  intro call among newline_
  obtain ⟨client, member, among⟩ := List.mem_flatMap.mp among
  obtain ⟨entry, here, inText⟩ := client.newline_mem_call among newline_
  exact (plain client member entry here).2 ((prefix_cString _).subset inText)

/-- A log of plain messages is read back. -/
theorem Plain.readBack (plain : Plain history) : ReadBack history where
  uncut client _ := client.uncut
  oneLine call among := by
    obtain ⟨client, _, called⟩ := List.mem_flatMap.mp among
    exact ⟨_, plain.oneLine call among, writeLog_eq (client.length_call_le called)⟩
  recovered := by
    rw [readLog_logFile plain.oneLine]
    refine List.flatMap_congr fun client member => ?_
    cases has : client.message with
    | none => simp [Client.shown, Client.records, has]
    | some entry =>
        have free := (plain client member entry (by simp [has])).1
        simp [Client.shown, Client.records, has, cString_of_nulFree free]

/-- A log that is read back has only plain messages. -/
theorem ReadBack.plain (readBack : ReadBack history) : Plain history := by
  have oneLine : ∀ call ∈ history.flatMap Client.calls, newline ∉ logText call.1 call.2 := by
    intro call among
    obtain ⟨client, _, called⟩ := List.mem_flatMap.mp among
    obtain ⟨line, free, written⟩ := readBack.oneLine call among
    rw [writeLog_eq (client.length_call_le called)] at written
    exact List.append_cancel_right written ▸ free
  have shown := readBack.recovered
  rw [readLog_logFile oneLine] at shown
  intro client member entry here
  have same := shown_eq_records shown client member
  have has : client.message = some entry := here
  have text : cString entry.1.bytes = entry.1.bytes := by
    simpa [Client.shown, Client.records, has] using same
  refine ⟨cString_eq_self_iff.mp text, fun newline_ => ?_⟩
  have among : (entry.2, messageText client.address (cString entry.1.bytes))
      ∈ client.calls := by
    rw [client.calls_eq, has]
    exact List.mem_cons_of_mem _ List.mem_cons_self
  refine oneLine _ (List.mem_flatMap.mpr ⟨client, member, among⟩) ?_
  rw [newline_mem_logText, newline_mem_messageText, text]
  exact newline_

/-- The clients and their messages are read back from the log exactly if all messages are
plain.
-/
theorem readBack_iff_plain (history : List Client) : ReadBack history ↔ Plain history :=
  ⟨ReadBack.plain, Plain.readBack⟩

end ReadBack

/-- 127.0.0.1:4000 connects and sends these bytes. -/
def localClient (message : Message) : Client where
  address := ⟨127, 0, 0, 1, 4000⟩
  connectedAt := tenOClock ⟨0, by decide⟩
  message := some (message, tenOClock ⟨1, by decide⟩)

/-- "a\nb" is logged on two lines; and the log is the same for "a", a NUL and "b" as for "a",
a NUL and "c".
-/
theorem not_readBack_newline
    : ¬ReadBack [localClient ⟨[97, 10, 98], by decide, by decide⟩]
      ∧ logFile [localClient ⟨[97, 0, 98], by decide, by decide⟩]
        = logFile [localClient ⟨[97, 0, 99], by decide, by decide⟩] := by
  constructor
  · intro readBack
    have plain := readBack.plain _ List.mem_cons_self _ rfl
    exact absurd plain.2 (by decide)
  · simp only [logFile, List.flatMap_cons, List.flatMap_nil, Client.calls_eq, localClient]
    rfl

end LinuxStudy.DaemonServer
