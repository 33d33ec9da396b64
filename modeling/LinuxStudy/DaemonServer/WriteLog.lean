import LinuxStudy.DaemonServer.Model
import Mathlib.Algebra.GroupWithZero.Nat

/-! `write_log` of `daemon_server.c`, statement by statement, with `signal_handler` on top of
it. All calls share the static buffer of `ctime`; every other variable is a call's own.
-/

namespace LinuxStudy.DaemonServer.WriteLog

open Transition Posix

/-- `sizeof(log_msg)` -/
def bufSize : Nat := 2048

/-- The broken-down time that `ctime` formats. -/
structure Date where
  weekday : Fin 7
  month : Fin 12
  day : Fin 32
  hour : Fin 24
  minute : Fin 60
  second : Fin 61
  year : Fin 10000
  deriving DecidableEq, Repr

/-- `"Sun"` and so on -/
def dayName : Fin 7 → Bytes
  | 0 => [83, 117, 110]
  | 1 => [77, 111, 110]
  | 2 => [84, 117, 101]
  | 3 => [87, 101, 100]
  | 4 => [84, 104, 117]
  | 5 => [70, 114, 105]
  | 6 => [83, 97, 116]

/-- `"Jan"` and so on -/
def monthName : Fin 12 → Bytes
  | 0 => [74, 97, 110]
  | 1 => [70, 101, 98]
  | 2 => [77, 97, 114]
  | 3 => [65, 112, 114]
  | 4 => [77, 97, 121]
  | 5 => [74, 117, 110]
  | 6 => [74, 117, 108]
  | 7 => [65, 117, 103]
  | 8 => [83, 101, 112]
  | 9 => [79, 99, 116]
  | 10 => [78, 111, 118]
  | 11 => [68, 101, 99]

/-- The last digit of a number, as a character. -/
def digit (n : Nat) : UInt8 := UInt8.ofNat (48 + n % 10)

/-- `%.2d` -/
def twoDigits (n : Nat) : Bytes := [digit (n / 10), digit n]

/-- `%3d` for the day of the month: a blank, and a second one instead of a leading zero. -/
def dayOfMonth (n : Nat) : Bytes := [32, if n < 10 then 32 else digit (n / 10), digit n]

/-- The date as in `"Mon Jan  1 10:00:00 2024"`, without the newline. -/
def Date.text (date : Date) : Bytes :=
  dayName date.weekday ++ 32 :: monthName date.month ++ dayOfMonth date.day ++ 32
    :: twoDigits date.hour ++ 58 :: twoDigits date.minute ++ 58 :: twoDigits date.second ++ 32
    :: twoDigits (date.year / 100) ++ twoDigits date.year

/-- What `ctime` stores: the date with a newline and the terminator. -/
def Date.ctime (date : Date) : Bytes := date.text ++ [newline, 0]

/-- What the handler logs for each signal: "收到退出信号，准备退出..." or
"收到SIGHUP信号，重新加载配置..." in UTF-8.
-/
def signalMessage : Signal → Bytes
  | .term | .int =>
      [0xE6, 0x94, 0xB6, 0xE5, 0x88, 0xB0, 0xE9, 0x80, 0x80, 0xE5, 0x87, 0xBA, 0xE4, 0xBF, 0xA1,
        0xE5, 0x8F, 0xB7, 0xEF, 0xBC, 0x8C, 0xE5, 0x87, 0x86, 0xE5, 0xA4, 0x87, 0xE9, 0x80, 0x80,
        0xE5, 0x87, 0xBA, 0x2E, 0x2E, 0x2E]
  | .hup =>
      [0xE6, 0x94, 0xB6, 0xE5, 0x88, 0xB0, 0x53, 0x49, 0x47, 0x48, 0x55, 0x50, 0xE4, 0xBF, 0xA1,
        0xE5, 0x8F, 0xB7, 0xEF, 0xBC, 0x8C, 0xE9, 0x87, 0x8D, 0xE6, 0x96, 0xB0, 0xE5, 0x8A, 0xA0,
        0xE8, 0xBD, 0xBD, 0xE9, 0x85, 0x8D, 0xE7, 0xBD, 0xAE, 0x2E, 0x2E, 0x2E]

/-- Inside a call of `write_log`. -/
inductive Pc
  | time -- at `time(NULL)`
  | ctime (now : Date) -- at `ctime(&now)`
  | strlen -- at `strlen(time_str)`
  | cut (last : Nat) -- at `time_str[last] = '\0'`
  | snprintf -- at `snprintf(log_msg, sizeof(log_msg), "[%s] %s", time_str, message)`
  | console (logMsg : Bytes) -- at `printf` and `fflush` of the foreground mode
  | fopen (logMsg : Bytes) -- at `fopen(LOG_FILE, "a")`
  | fprintf (logMsg : Bytes) -- at `fprintf(log_fp, "%s\n", log_msg)`
  | fclose (buffered : Bytes) -- at `fclose(log_fp)`, which appends what the stream holds
  deriving DecidableEq, Repr

/-- One call; a handler's call knows its signal, which is blocked until it returns. -/
structure Call where
  message : Bytes
  signal : Option Signal
  pc : Pc
  deriving DecidableEq, Repr

/-- The calls in progress, the innermost first, and the buffer of `ctime`. `file` and `console`
record what was written, and `returned` the messages of the calls that have returned.
-/
structure State where
  daemonMode : Bool
  timeStr : Bytes
  calls : List Call
  file : List Bytes
  console : List Bytes
  returned : List Bytes

/-- `main` logs a message, which is a C string. -/
def call (s : State) (message : Bytes) : Option State :=
  if s.calls = [] ∧ 0 ∉ message then some { s with calls := [⟨message, none, .time⟩] }
  else none

/-- `signal_handler` is called on top of whatever runs, also at the call of `ctime`, where its own
`ctime` would have to wait for the lock of the interrupted one once that holds it.
-/
def signal (s : State) (signum : Signal) : Option State :=
  if ∀ call ∈ s.calls, call.signal ≠ some signum then
    some { s with calls := ⟨signalMessage signum, some signum, .time⟩ :: s.calls }
  else none

/-- The innermost call gets to another statement. -/
def State.goto (s : State) (call : Call) (rest : List Call) (pc : Pc) : State :=
  { s with calls := { call with pc } :: rest }

def time (s : State) (now : Date) : Option State :=
  match s.calls with
  | call :: rest => if call.pc = .time then some (s.goto call rest (.ctime now)) else none
  | [] => none

/-- The innermost call returns. -/
def State.return (s : State) (call : Call) (rest : List Call) : State :=
  { s with calls := rest, returned := s.returned ++ [call.message] }

/-- `strlen(time_str) - 1` in the type `size_t`. -/
def lastIndex (timeStr : Bytes) : Nat := ((cString timeStr).length + (2 ^ 64 - 1)) % 2 ^ 64

/-- The innermost call executes its next statement. -/
def statement (s : State) : Option State :=
  match s.calls with
  | [] => none
  | call :: rest =>
      match call.pc with
      | .time => none
      | .ctime now =>
          some { s.goto call rest .strlen with timeStr := overwrite s.timeStr now.ctime }
      | .strlen => some (s.goto call rest (.cut (lastIndex s.timeStr)))
      | .cut last => some { s.goto call rest .snprintf with timeStr := s.timeStr.set last 0 }
      | .snprintf =>
          let text := 91 :: cString s.timeStr ++ [93, 32] ++ cString call.message
          let logMsg := text.take (bufSize - 1)
          some (s.goto call rest (if s.daemonMode then .fopen logMsg else .console logMsg))
      | .console logMsg =>
          some { s.goto call rest (.fopen logMsg) with
            console := s.console ++ [logMsg ++ [newline]] }
      | .fopen logMsg => some (s.goto call rest (.fprintf logMsg))
      | .fprintf logMsg => some (s.goto call rest (.fclose (cString logMsg ++ [newline])))
      | .fclose buffered => some { s.return call rest with file := s.file ++ [buffered] }

/-- `fopen` returns `NULL`, and the line is not written. -/
def fopenFails (s : State) : Option State :=
  match s.calls with
  | [] => none
  | call :: rest =>
      match call.pc with
      | .fopen _ => some (s.return call rest)
      | _ => none

inductive Action
  | call (message : Bytes)
  | signal (signum : Signal)
  | time (now : Date)
  | statement
  | fopenFails
  deriving DecidableEq, Repr

def step (s : State) : Action → Option State
  | .call message => call s message
  | .signal signum => signal s signum
  | .time now => time s now
  | .statement => statement s
  | .fopenFails => fopenFails s

/-- The handler is registered and nothing is logged yet. -/
def start (daemonMode : Bool) : State where
  daemonMode := daemonMode
  timeStr := List.replicate 26 0
  calls := []
  file := []
  console := []
  returned := []

def system (daemonMode : Bool) : System State Action where
  Initial s := s = start daemonMode
  step := step

end LinuxStudy.DaemonServer.WriteLog
