import LinuxStudy.DaemonServer.LogLines
import LinuxStudy.Posix.Lines
import LinuxStudy.Posix.Numerals

/-! What `daemon_server.c` logs of its clients: the record of `main` for each connection and the
record of `handle_client` for a message, on their way through the buffers of `recv`, of the two
callers and of `write_log`.
-/

namespace LinuxStudy.DaemonServer

open Posix WriteLog

/-- `sizeof(log_msg)` in `main`, and in `handle_client` and `write_log`. -/
def mainLogSize : Nat := 256

def clientLogSize : Nat := 2048

/-- The string that `snprintf` leaves in a buffer of this size. -/
def snprintf (size : Nat) (text : Bytes) : Bytes := text.take (size - 1)

/-- `client_addr`: the four bytes of the address, and the port. -/
structure Address where
  first : UInt8
  second : UInt8
  third : UInt8
  fourth : UInt8
  port : UInt16
  deriving DecidableEq, Repr

/-- The bytes that `recv` returns in `handle_client`. -/
structure Message where
  bytes : Bytes
  nonempty : 0 < bytes.length
  fits : bytes.length ≤ bufSize - 1

/-- One pass of the main loop: the connection, when it is logged, and the message if there is
one, with the time of its record.
-/
structure Client where
  address : Address
  connectedAt : Date
  message : Option (Message × Date)

/-- `inet_ntoa(client_addr.sin_addr)` -/
def Address.inetNtoa (address : Address) : Bytes :=
  decimal address.first.toNat ++ 46 :: decimal address.second.toNat
    ++ 46 :: decimal address.third.toNat ++ 46 :: decimal address.fourth.toNat

/-- `%s:%d` with the address and the port. -/
def Address.text (address : Address) : Bytes :=
  address.inetNtoa ++ 58 :: decimal address.port.toNat

-----------------------------------------------------------------------------------------
-- The records
-----------------------------------------------------------------------------------------

def connectionLabel : Bytes := utf8 "客户端连接: "

def messageLabel : Bytes := utf8 "收到客户端 ["

def messageSeparator : Bytes := utf8 "] 消息: "

/-- `"客户端连接: %s:%d"` -/
def connectionText (address : Address) : Bytes := connectionLabel ++ address.text

/-- `"收到客户端 [%s:%d] 消息: %s"` -/
def messageText (address : Address) (text : Bytes) : Bytes :=
  messageLabel ++ address.text ++ messageSeparator ++ text

/-- `buffer` of `handle_client` behind `recv` and `buffer[recv_len] = '\0'`. -/
def Message.buffer (message : Message) : Bytes :=
  (overwrite (List.replicate bufSize 0) message.bytes).set message.bytes.length 0

/-- What `handle_client` passes to `write_log`. -/
def handleClient (address : Address) (message : Message) : Bytes :=
  snprintf clientLogSize (messageText address (cString message.buffer))

/-- The calls of `write_log` in one pass of the main loop. -/
def Client.calls (client : Client) : List (Date × Bytes) :=
  (client.connectedAt, snprintf mainLogSize (connectionText client.address))
    :: client.message.toList.map fun (message, date) =>
      (date, handleClient client.address message)

/-- What `write_log` appends to the log file, which can be opened. -/
def writeLog (call : Date × Bytes) : Bytes :=
  snprintf WriteLog.bufSize (logText call.1 call.2) ++ [newline]

/-- The log file behind these clients. -/
def logFile (history : List Client) : Bytes := (history.flatMap Client.calls).flatMap writeLog

-----------------------------------------------------------------------------------------
-- Reading the log
-----------------------------------------------------------------------------------------

/-- What a record says. -/
inductive Record
  | connected (address : Address)
  | message (address : Address) (bytes : Bytes)
  deriving DecidableEq, Repr

/-- What there is to be recorded of a client. -/
def Client.records (client : Client) : List Record :=
  .connected client.address
    :: client.message.toList.map fun (message, _) => .message client.address message.bytes

/-- The number at the start of a text, and what follows it. -/
def readNumber (text : Bytes) : Nat × Bytes :=
  (numeralValue (text.takeWhile isDigit), text.dropWhile isDigit)

/-- The address at the start of a text, and what follows it. -/
def readAddress (text : Bytes) : Address × Bytes :=
  let first := readNumber text
  let second := readNumber (first.2.drop 1)
  let third := readNumber (second.2.drop 1)
  let fourth := readNumber (third.2.drop 1)
  let port := readNumber (fourth.2.drop 1)
  ({ first := .ofNat first.1, second := .ofNat second.1, third := .ofNat third.1,
     fourth := .ofNat fourth.1, port := .ofNat port.1 }, port.2)

/-- The record on a line, behind its date. -/
def readRecord (line : Bytes) : Option Record :=
  let body := line.drop 27
  if connectionLabel <+: body then
    some (.connected (readAddress (body.drop connectionLabel.length)).1)
  else if messageLabel <+: body then
    let sender := readAddress (body.drop messageLabel.length)
    some (.message sender.1 (sender.2.drop messageSeparator.length))
  else none

/-- The records in a log file. -/
def readLog (file : Bytes) : List Record := (lines file).filterMap readRecord

end LinuxStudy.DaemonServer
