import LinuxStudy.Posix.Numerals
import LinuxStudy.Posix.StringReads

/-! The receive loops of chapter 6 that show what comes in: each stores a `recv` result in a
buffer of 1024 bytes and prints the buffer as a string. They differ in whether the buffer is
cleared before the loop and behind each message.
-/

namespace LinuxStudy.StreamHandlers

open Posix

/-- The size of `read_buf`. -/
def bufSize : Nat := 1024

/-- What one call of `recv` stores. -/
structure RecvResult where
  bytes : Bytes
  nonempty : 0 < bytes.length
  fits : bytes.length ≤ bufSize

/-- The memory that `malloc` returns, before anything is stored in it. -/
structure Memory where
  bytes : Bytes
  size : bytes.length = bufSize

/-- The buffer behind `memset(read_buf, 0, 1024)`. -/
def zeros : Bytes := List.replicate bufSize 0

/-- One print of the buffer: what the format has before and behind the `%s`. -/
structure Print where
  before : Bytes
  behind : Bytes

def Print.line (print : Print) (text : Bytes) : Bytes := print.before ++ text ++ print.behind

/-- A receive loop: `zeroed` says that the buffer is cleared before it, `cleared` that it is
cleared again behind each message.
-/
structure Handler where
  zeroed : Bool
  cleared : Bool
  prints : List Print

/-- What the calls of `printf` and `fputs` write for the buffer, unless they read behind its
end.
-/
def Handler.output (handler : Handler) (buffer : Bytes) : List (Option Bytes) :=
  handler.prints.map fun print => (stringIn buffer).map print.line

/-- The buffer when the next call of `recv` is made. -/
def Handler.reuse (handler : Handler) (buffer : Bytes) : Bytes :=
  if handler.cleared then zeros else buffer

/-- The loop: what is written for each result. -/
def Handler.loop (handler : Handler) (buffer : Bytes)
    : List RecvResult → List (List (Option Bytes))
  | [] => []
  | result :: results =>
      let readBuf := overwrite buffer result.bytes
      handler.output readBuf :: handler.loop (handler.reuse readBuf) results

/-- The buffer at the first call of `recv`. -/
def Handler.allocate (handler : Handler) (memory : Memory) : Bytes :=
  if handler.zeroed then zeros else memory.bytes

def Handler.run (handler : Handler) (memory : Memory) (results : List RecvResult)
    : List (List (Option Bytes)) :=
  handler.loop (handler.allocate memory) results

-----------------------------------------------------------------------------------------
-- The four functions
-----------------------------------------------------------------------------------------

/-- `read_from_write_thread` of `multi_conn_threads_server.c` -/
def threadsServerReadFromWriteThread (clientfd : Nat) : Handler where
  zeroed := true
  cleared := false
  prints := [⟨utf8 "收到客户端" ++ decimal clientfd ++ utf8 "的消息:", [newline]⟩]

/-- `read_from_write_thread` of `multi_conn_process_server.c` -/
def processServerReadFromWriteThread (clientfd : Nat) : Handler where
  zeroed := true
  cleared := false
  prints := [⟨utf8 "收到客户端" ++ decimal clientfd ++ utf8 "的消息:", [newline]⟩]

/-- `read_from_client` of `single_conn_server.c`: a `printf` and an `fputs`. -/
def readFromClient : Handler where
  zeroed := false
  cleared := false
  prints := [⟨utf8 "接收到数据: ", []⟩, ⟨[], []⟩]

/-- `read_from_server` of `multi_conn_threads_client.c` -/
def readFromServer : Handler where
  zeroed := true
  cleared := true
  prints := [⟨utf8 "接收到服务器消息: ", []⟩]

/-- The four functions, with the descriptor that two of them print. -/
inductive Function
  | threadsServerReadFromWriteThread (clientfd : Nat)
  | processServerReadFromWriteThread (clientfd : Nat)
  | readFromClient
  | readFromServer
  deriving DecidableEq, Repr

def Function.handler : Function → Handler
  | .threadsServerReadFromWriteThread clientfd =>
      StreamHandlers.threadsServerReadFromWriteThread clientfd
  | .processServerReadFromWriteThread clientfd =>
      StreamHandlers.processServerReadFromWriteThread clientfd
  | .readFromClient => StreamHandlers.readFromClient
  | .readFromServer => StreamHandlers.readFromServer

end LinuxStudy.StreamHandlers
