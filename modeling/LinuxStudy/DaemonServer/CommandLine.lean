import LinuxStudy.Posix.Numerals

/-! The command line of `daemon_server.c`: the loop of `main` over its arguments. -/

namespace LinuxStudy.DaemonServer.CommandLine

open Posix

/-- `PORT` -/
def defaultPort : Nat := 8888

/-- `"-d"`, `"--daemon"` and so on: the short and the long form of an option. -/
def daemonWords : List Bytes := [[45, 100], [45, 45, 100, 97, 101, 109, 111, 110]]

def portWords : List Bytes := [[45, 112], [45, 45, 112, 111, 114, 116]]

def helpWords : List Bytes := [[45, 104], [45, 45, 104, 101, 108, 112]]

/-- How `main` leaves the loop: it goes on to start a server, or it ends the process. -/
inductive Outcome
  | start (port : Int) (daemonMode : Bool)
  | exitSuccess (stdout : Bytes)
  | exitFailure (stderr stdout : Bytes)
  deriving DecidableEq, Repr

/-- What `print_usage` writes. -/
def printUsage (programName : Bytes) : Bytes :=
  utf8 "用法: " ++ programName ++ utf8 " [选项]\n"
    ++ utf8 "选项:\n"
    ++ utf8 "  -d, --daemon    以守护进程模式运行（后台运行）\n"
    ++ utf8 "  -p, --port PORT 指定端口号（默认: " ++ decimal defaultPort ++ utf8 "）\n"
    ++ utf8 "  -h, --help      显示此帮助信息\n"
    ++ utf8 "\n"
    ++ utf8 "示例:\n"
    ++ utf8 "  " ++ programName ++ utf8 "              # 前台模式运行，显示交互信息\n"
    ++ utf8 "  " ++ programName ++ utf8 " -d           # 守护进程模式运行\n"
    ++ utf8 "  " ++ programName ++ utf8 " -p 9999      # 前台模式，使用端口9999\n"
    ++ utf8 "  " ++ programName ++ utf8 " -d -p 9999   # 守护进程模式，使用端口9999\n"

def portRange : Outcome := .exitFailure (utf8 "错误: 端口号必须在1-65535之间\n") []

def portMissing : Outcome := .exitFailure (utf8 "错误: -p 选项需要端口号参数\n") []

def unknownOption (programName arg : Bytes) : Outcome :=
  .exitFailure (utf8 "错误: 未知选项 " ++ arg ++ utf8 "\n") (printUsage programName)

/-- The loop over the arguments that are left, with `port` and `daemon_mode` so far. -/
def parse (programName : Bytes) (port : Int) (daemonMode : Bool) : List Bytes → Outcome
  | [] => .start port daemonMode
  | arg :: args =>
      if arg ∈ daemonWords then parse programName port true args
      else if arg ∈ portWords then
        match args with
        | value :: args =>
            if atoi value ≤ 0 ∨ atoi value > 65535 then portRange
            else parse programName (atoi value) daemonMode args
        | [] => portMissing
      else if arg ∈ helpWords then .exitSuccess (printUsage programName)
      else unknownOption programName arg

/-- `main` up to the registration of its signal handlers; `args` are the arguments behind
`argv[0]`.
-/
def main (programName : Bytes) (args : List Bytes) : Outcome :=
  parse programName defaultPort false args

-----------------------------------------------------------------------------------------
-- The documented grammar
-----------------------------------------------------------------------------------------

/-- One option with its argument; each is written in one of two forms. -/
inductive Item
  | daemon (word : {word // word ∈ daemonWords})
  | port (word : {word // word ∈ portWords}) (value : Bytes)

/-- The arguments that make up an item. -/
def Item.args : Item → List Bytes
  | .daemon word => [word]
  | .port word value => [word, value]

def Item.isDaemon : Item → Bool
  | .daemon _ => true
  | .port _ _ => false

/-- The argument of `-p`. -/
def Item.value : Item → Option Bytes
  | .daemon _ => none
  | .port _ value => some value

/-- The arguments of a sequence of items. -/
def argsOf (items : List Item) : List Bytes := items.flatMap Item.args

/-- A decimal numeral of an integer in 1..65535. -/
def PortNumeral (value : Bytes) : Prop :=
  IsNumeral value ∧ 1 ≤ numeralValue value ∧ numeralValue value ≤ 65535

instance (value : Bytes) : Decidable (PortNumeral value) :=
  inferInstanceAs (Decidable (_ ∧ _))

/-- What `main` takes for a port number. -/
def Accepted (value : Bytes) : Prop := 1 ≤ atoi value ∧ atoi value ≤ 65535

instance (value : Bytes) : Decidable (Accepted value) :=
  inferInstanceAs (Decidable (_ ∧ _))

/-- Every port of the items is of this kind. -/
def PortsAre (kind : Bytes → Prop) (items : List Item) : Prop :=
  ∀ item ∈ items, ∀ value ∈ item.value, kind value

/-- The number of the last port among the items. -/
def lastPort (items : List Item) : Nat :=
  ((items.filterMap Item.value).getLast?.map numeralValue).getD defaultPort

def AsksForHelp (args : List Bytes) : Prop := ∃ word ∈ args.head?, word ∈ helpWords

/-- `main` starts a server exactly for the documented sequences of items, with the last port
and the mode they give; it ends successfully exactly when help is asked for behind such a
sequence, and with failure otherwise, as there is no fourth outcome.
-/
structure Documented (programName : Bytes) (args : List Bytes) : Prop where
  start
    : ∀ port daemonMode, main programName args = .start port daemonMode
      ↔ ∃ items, PortsAre PortNumeral items ∧ args = argsOf items
        ∧ port = lastPort items ∧ daemonMode = items.any Item.isDaemon
  help
    : (∃ stdout, main programName args = .exitSuccess stdout)
      ↔ ∃ items rest, PortsAre PortNumeral items ∧ args = argsOf items ++ rest
        ∧ AsksForHelp rest

/-- An accepted port that is no numeral of its range stands in the items before the end or
before the first `-h`.
-/
def LoosePort (args : List Bytes) : Prop :=
  ∃ items rest, args = argsOf items ++ rest ∧ (rest = [] ∨ AsksForHelp rest)
    ∧ PortsAre Accepted items ∧ ¬PortsAre PortNumeral items

-----------------------------------------------------------------------------------------
-- Options and ports
-----------------------------------------------------------------------------------------

/-- No word stands for two options. -/
theorem notMem_portWords {word : Bytes} (daemon : word ∈ daemonWords) : word ∉ portWords := by
  have all : ∀ word ∈ daemonWords, word ∉ portWords := by decide
  exact all word daemon

theorem notMem_words_of_help {word : Bytes} (help : word ∈ helpWords)
    : word ∉ daemonWords ∧ word ∉ portWords := by
  have all : ∀ word ∈ helpWords, word ∉ daemonWords ∧ word ∉ portWords := by decide
  exact all word help

/-- `main` takes every numeral of the range for the number it stands for. -/
theorem PortNumeral.atoi_eq {value : Bytes} (port : PortNumeral value)
    : atoi value = numeralValue value := by
  obtain ⟨numeral, _, small⟩ := port
  exact atoi_numeral numeral (by omega)

theorem PortNumeral.accepted {value : Bytes} (port : PortNumeral value) : Accepted value := by
  have same := port.atoi_eq
  obtain ⟨_, positive, small⟩ := port
  unfold Accepted
  omega

theorem PortsAre.cons {kind : Bytes → Prop} {item : Item} {items : List Item}
    (first : ∀ value ∈ item.value, kind value) (rest : PortsAre kind items)
    : PortsAre kind (item :: items) := by
  intro other among
  rcases List.mem_cons.mp among with rfl | among
  · exact first
  · exact rest other among

theorem PortsAre.accepted {items : List Item} (ports : PortsAre PortNumeral items)
    : PortsAre Accepted items :=
  fun item among value given => (ports item among value given).accepted

/-- `port` after the items, from what it was before them. -/
def portAfter (port : Int) : List Item → Int
  | [] => port
  | item :: items => portAfter ((item.value.map atoi).getD port) items

/-- Behind documented items it has the number of the last port. -/
theorem PortsAre.portAfter_eq {items : List Item} (ports : PortsAre PortNumeral items)
    (port : Nat)
    : portAfter port items
      = (((items.filterMap Item.value).getLast?.map numeralValue).getD port : Nat) := by
  induction items generalizing port with
  | nil => rfl
  | cons item items ih =>
      have rest : PortsAre PortNumeral items := fun other among =>
        ports other (List.mem_cons_of_mem _ among)
      cases item with
      | daemon word => simpa [portAfter, Item.value] using ih rest port
      | port word value =>
          have number := (ports (.port word value) List.mem_cons_self value rfl).atoi_eq
          simp only [portAfter, Item.value, Option.map_some, Option.getD_some, number,
            ih rest, List.filterMap_cons, List.getLast?_cons]
          cases (items.filterMap Item.value).getLast? <;> rfl

-----------------------------------------------------------------------------------------
-- The loop
-----------------------------------------------------------------------------------------

section Loop

variable (programName : Bytes)

theorem parse_daemon {word : Bytes} (daemon : word ∈ daemonWords) (port : Int)
    (daemonMode : Bool) (args : List Bytes)
    : parse programName port daemonMode (word :: args) = parse programName port true args := by
  cases args <;> simp [parse, daemon]

theorem parse_port {word value : Bytes} (option : word ∈ portWords) (accepted : Accepted value)
    (port : Int) (daemonMode : Bool) (args : List Bytes)
    : parse programName port daemonMode (word :: value :: args)
      = parse programName (atoi value) daemonMode args := by
  have free : word ∉ daemonWords := fun daemon => notMem_portWords daemon option
  have inside : ¬(atoi value ≤ 0 ∨ atoi value > 65535) := by
    unfold Accepted at accepted
    omega
  rw [parse, if_neg free, if_pos option, if_neg inside]

/-- The loop takes accepted items one by one. -/
theorem parse_argsOf {items : List Item} (accepted : PortsAre Accepted items) (port : Int)
    (daemonMode : Bool) (rest : List Bytes)
    : parse programName port daemonMode (argsOf items ++ rest)
      = parse programName (portAfter port items) (daemonMode || items.any Item.isDaemon)
          rest := by
  induction items generalizing port daemonMode with
  | nil => simp [argsOf, portAfter]
  | cons item items ih =>
      have others : PortsAre Accepted items := fun other among =>
        accepted other (List.mem_cons_of_mem _ among)
      have split : argsOf (item :: items) ++ rest = item.args ++ (argsOf items ++ rest) := by
        simp [argsOf]
      rw [split]
      cases item with
      | daemon word =>
          simp [Item.args, parse_daemon _ word.2, ih others, portAfter, Item.value,
            Item.isDaemon]
      | port word value =>
          have first := accepted (.port word value) List.mem_cons_self value rfl
          simp [Item.args, parse_port _ word.2 first, ih others, portAfter, Item.value,
            Item.isDaemon]

/-- Where help is asked for, the loop ends with the usage. -/
theorem parse_help {args : List Bytes} (help : AsksForHelp args) (port : Int)
    (daemonMode : Bool)
    : parse programName port daemonMode args = .exitSuccess (printUsage programName) := by
  obtain ⟨word, first, among⟩ := help
  obtain ⟨rest, rfl⟩ : ∃ rest, args = word :: rest := List.head?_eq_some_iff.mp first
  obtain ⟨daemon, port⟩ := notMem_words_of_help among
  cases rest <;> simp [parse, daemon, port, among]

/-- The loop takes items until the arguments end, help is asked for or there is an error. -/
theorem parse_cases (port : Int) (daemonMode : Bool) (args : List Bytes)
    : ∃ items, PortsAre Accepted items
      ∧ (args = argsOf items
          ∨ (∃ rest, args = argsOf items ++ rest ∧ AsksForHelp rest)
          ∨ ∃ stderr stdout,
              parse programName port daemonMode args = .exitFailure stderr stdout) := by
  have none : PortsAre Accepted [] := by simp [PortsAre]
  have behind {items : List Item} {args : List Bytes} (item : Item)
      (first : ∀ value ∈ item.value, Accepted value) (accepted : PortsAre Accepted items)
      {fails : Prop}
      (rest : args = argsOf items
        ∨ (∃ rest, args = argsOf items ++ rest ∧ AsksForHelp rest) ∨ fails)
      : PortsAre Accepted (item :: items)
        ∧ (item.args ++ args = argsOf (item :: items)
          ∨ (∃ rest, item.args ++ args = argsOf (item :: items) ++ rest ∧ AsksForHelp rest)
          ∨ fails) := by
    refine ⟨.cons first accepted, ?_⟩
    rcases rest with rfl | ⟨rest, rfl, help⟩ | fails
    · exact Or.inl rfl
    · exact Or.inr (Or.inl ⟨rest, by simp [argsOf], help⟩)
    · exact Or.inr (Or.inr fails)
  fun_induction parse programName port daemonMode args with
  | case1 port daemonMode => exact ⟨[], none, Or.inl rfl⟩
  | case2 port daemonMode arg args daemon ih =>
      obtain ⟨items, accepted, rest⟩ := ih
      exact ⟨_, behind (.daemon ⟨arg, daemon⟩) (by simp [Item.value]) accepted rest⟩
  | case3 port daemonMode arg _ port_ value args outside =>
      exact ⟨[], none, Or.inr (Or.inr ⟨_, _, rfl⟩)⟩
  | case4 port daemonMode arg _ port_ value args inside ih =>
      obtain ⟨items, accepted, rest⟩ := ih
      have range : Accepted value := by
        unfold Accepted
        omega
      exact ⟨_, behind (.port ⟨arg, port_⟩ value) (by simpa [Item.value] using range) accepted
        rest⟩
  | case5 | case7 => exact ⟨[], none, Or.inr (Or.inr ⟨_, _, rfl⟩)⟩
  | case6 port daemonMode arg args _ _ help =>
      exact ⟨[], none, Or.inr (Or.inl ⟨arg :: args, rfl, arg, rfl, help⟩)⟩

end Loop

-----------------------------------------------------------------------------------------
-- Reading the items
-----------------------------------------------------------------------------------------

/-- The arguments end, or help is asked for. -/
def Stops (rest : List Bytes) : Prop := rest = [] ∨ AsksForHelp rest

/-- Where the items stop, no item begins. -/
theorem Stops.notMem {word : Bytes} {rest : List Bytes} (stops : Stops (word :: rest))
    : word ∉ daemonWords ∧ word ∉ portWords := by
  rcases stops with none | ⟨first, here, help⟩
  · exact nomatch none
  · rw [List.head?_cons, Option.mem_some_iff] at here
    exact here ▸ notMem_words_of_help help

/-- The items stop behind an item, not in front of it. -/
theorem Item.not_stops (item : Item) (rest : List Bytes) : ¬Stops (item.args ++ rest) := by
  intro stops
  cases item with
  | daemon word => exact stops.notMem.1 word.2
  | port word value => exact stops.notMem.2 word.2

/-- The first item is read in one way only. -/
theorem Item.args_append_inj {item other : Item} {rest more : List Bytes}
    (same : item.args ++ rest = other.args ++ more)
    : item = other ∧ rest = more := by
  cases item with
  | daemon word =>
      cases other with
      | daemon word' =>
          obtain ⟨first, behind⟩ := List.cons.inj same
          exact ⟨by rw [Subtype.ext first], behind⟩
      | port word' value' =>
          obtain ⟨first, _⟩ := List.cons.inj same
          exact absurd word'.2 (first ▸ notMem_portWords word.2)
  | port word value =>
      cases other with
      | daemon word' =>
          obtain ⟨first, _⟩ := List.cons.inj same
          exact absurd word.2 (first ▸ notMem_portWords word'.2)
      | port word' value' =>
          obtain ⟨first, behind⟩ := List.cons.inj same
          obtain ⟨second, behind⟩ := List.cons.inj behind
          exact ⟨by rw [Subtype.ext first, second], behind⟩

/-- The items can be read in one way only. -/
theorem argsOf_injective {items others : List Item} {rest more : List Bytes}
    (stops : Stops rest) (ends : Stops more) (same : argsOf items ++ rest = argsOf others ++ more)
    : items = others := by
  induction items generalizing others with
  | nil =>
      cases others with
      | nil => rfl
      | cons other others =>
          have first : rest = other.args ++ (argsOf others ++ more) := by
            simpa [argsOf] using same
          rw [first] at stops
          exact absurd stops (other.not_stops _)
  | cons item items ih =>
      cases others with
      | nil =>
          have first : item.args ++ (argsOf items ++ rest) = more := by
            simpa [argsOf] using same
          rw [← first] at ends
          exact absurd ends (item.not_stops _)
      | cons other others =>
          have split : item.args ++ (argsOf items ++ rest)
              = other.args ++ (argsOf others ++ more) := by
            simpa [argsOf] using same
          obtain ⟨rfl, behind⟩ := Item.args_append_inj split
          rw [ih behind]

section Grammar

variable {programName : Bytes} {args : List Bytes}

/-- Documented items start the documented server. -/
theorem main_argsOf {items : List Item} (ports : PortsAre PortNumeral items)
    : main programName (argsOf items)
      = .start (lastPort items) (items.any Item.isDaemon) := by
  have whole := parse_argsOf programName ports.accepted defaultPort false []
  rw [List.append_nil] at whole
  rw [main, whole, parse, ports.portAfter_eq, Bool.false_or, lastPort]

theorem main_help {items : List Item} (accepted : PortsAre Accepted items) {rest : List Bytes}
    (help : AsksForHelp rest)
    : main programName (argsOf items ++ rest) = .exitSuccess (printUsage programName) := by
  rw [main, parse_argsOf _ accepted, parse_help _ help]

/-- A loose port lets the process start a server or end successfully. -/
theorem LoosePort.not_documented (loose : LoosePort args) : ¬Documented programName args := by
  intro documented
  obtain ⟨items, rest, rfl, stops, accepted, no⟩ := loose
  rcases stops with rfl | help
  · have starts : main programName (argsOf items ++ [])
        = .start (portAfter defaultPort items) (items.any Item.isDaemon) := by
      rw [main, parse_argsOf _ accepted, parse, Bool.false_or]
    obtain ⟨others, ports, same, _⟩ := (documented.start _ _).mp starts
    have unique : items = others :=
      argsOf_injective (Or.inl rfl) (Or.inl rfl) (by rw [same, List.append_nil])
    exact no (unique ▸ ports)
  · obtain ⟨others, more, ports, same, asks⟩ :=
      documented.help.mp ⟨_, main_help accepted help⟩
    exact no (argsOf_injective (Or.inr help) (Or.inr asks) same ▸ ports)

/-- The loop behaves as documented on exactly the arguments without a loose port. -/
theorem documented_iff_no_loosePort (programName : Bytes) (args : List Bytes)
    : Documented programName args ↔ ¬LoosePort args := by
  refine ⟨fun documented loose => loose.not_documented documented, fun tight => ?_⟩
  have numerals {items : List Item} {rest : List Bytes} (split : args = argsOf items ++ rest)
      (stops : Stops rest) (accepted : PortsAre Accepted items)
      : PortsAre PortNumeral items := by
    by_contra no
    exact tight ⟨items, rest, split, stops, accepted, no⟩
  have cases := parse_cases programName defaultPort false args
  refine ⟨fun port daemonMode => ⟨fun starts => ?_, ?_⟩, fun ⟨stdout, ends⟩ => ?_, ?_⟩
  · obtain ⟨items, accepted, whole | ⟨rest, split, help⟩ | ⟨stderr, stdout, fails⟩⟩ := cases
    · have ports := numerals (by rw [whole, List.append_nil]) (Or.inl rfl) accepted
      rw [whole, main_argsOf ports, Outcome.start.injEq] at starts
      exact ⟨items, ports, whole, starts.1.symm, starts.2.symm⟩
    · rw [split, main_help accepted help] at starts
      exact nomatch starts
    · rw [main, fails] at starts
      exact nomatch starts
  · rintro ⟨items, ports, rfl, rfl, rfl⟩
    exact main_argsOf ports
  · obtain ⟨items, accepted, whole | ⟨rest, split, help⟩ | ⟨stderr, stdout', fails⟩⟩ := cases
    · have ports := numerals (by rw [whole, List.append_nil]) (Or.inl rfl) accepted
      rw [whole, main_argsOf ports] at ends
      exact nomatch ends
    · exact ⟨items, rest, numerals split (Or.inr help) accepted, split, help⟩
    · rw [main, fails] at ends
      exact nomatch ends
  · rintro ⟨items, rest, ports, rfl, help⟩
    exact ⟨_, main_help ports.accepted help⟩

/-- `-p 80abc` starts a server on port 80. -/
theorem not_documented_80abc
    : main [] [[45, 112], [56, 48, 97, 98, 99]] = .start 80 false
      ∧ ¬Documented [] [[45, 112], [56, 48, 97, 98, 99]] := by
  refine ⟨by decide, ?_⟩
  have loose : LoosePort [[45, 112], [56, 48, 97, 98, 99]] :=
    ⟨[.port ⟨[45, 112], by decide⟩ [56, 48, 97, 98, 99]], [], rfl, Or.inl rfl,
      by simp [PortsAre, Item.value]; decide,
      fun ports => absurd (ports _ List.mem_cons_self _ rfl) (by decide)⟩
  exact loose.not_documented

end Grammar

end LinuxStudy.DaemonServer.CommandLine
