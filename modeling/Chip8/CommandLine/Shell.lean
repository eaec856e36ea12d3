import Chip8.CommandLine.Report
import Chip8.Decimal.Reading

/-! What stands around the program on the command line: the reading of its arguments, the lines that its log
is printed as, and the clock that it is paced by. Arguments are read from left to right, options and the
program in any order, and the first that is wrong, or asks for help, decides. -/

namespace Chip8.CommandLine

/-- Options that are given or not. -/
inductive Switch
  | listing
  | monitor
  | operandShiftFlag
  | incrementIndex
  | verbose
  deriving DecidableEq

/-- Options that take a value. -/
inductive Parameter
  | steps
  | clockRate
  | memory
  deriving DecidableEq

inductive OptionName
  | help
  | switch (s : Switch)
  | parameter (p : Parameter)

namespace OptionName

def ofLong? : String → Option OptionName
  | "help" => some help
  | "listing" => some (switch .listing)
  | "monitor" => some (switch .monitor)
  | "operand-shift-flag" => some (switch .operandShiftFlag)
  | "increment-index" => some (switch .incrementIndex)
  | "verbose" => some (switch .verbose)
  | "steps" => some (parameter .steps)
  | "hz" => some (parameter .clockRate)
  | "memory" => some (parameter .memory)
  | _ => none

def ofShort? : Char → Option OptionName
  | 'h' => some help
  | 'm' => some (switch .monitor)
  | 'v' => some (switch .verbose)
  | 's' => some (parameter .steps)
  | _ => none

end OptionName

/-- Why the reading of arguments ends before the last of them, or cannot end there. -/
inductive Stop
  | help
  | unknown (argument : String)
  | repeated
  | needlessValue (option : String)
  | missingValue
  | invalidValue (value : String)
  | secondProgram (program : String)
  | missingProgram
  deriving DecidableEq

def Stop.message : Stop → String
  | help => ""
  | unknown argument => s!"unexpected argument '{argument}'"
  | repeated => "an option is given more than once"
  | needlessValue option => s!"option '{option}' takes no value"
  | missingValue => "an option lacks its value"
  | invalidValue value => s!"invalid value '{value}'"
  | secondProgram program => s!"unexpected argument '{program}'"
  | missingProgram => "no program is given"

/-- What the arguments read so far say. -/
structure Draft where
  program : Option String := none
  listing : Bool := false
  steps : Option Nat := none
  clockRate : Option Float := none
  monitor : Bool := false
  operandShiftFlag : Bool := false
  incrementIndex : Bool := false
  memory : Option Nat := none
  verbosity : Nat := 0
  /-- The option whose value is to come next. -/
  pending : Option Parameter := none
  /-- Whether options are at an end, so that all that follows is a program. -/
  optionsEnded : Bool := false

namespace Draft

def setProgram (d : Draft) (path : String) : Except Stop Draft :=
  if path.isEmpty then .error (.invalidValue path)
  else match d.program with
    | some _ => .error (.secondProgram path)
    | none => .ok { d with program := some path }

/-- Only the verbose switch may be given more than once. -/
def turnOn (d : Draft) : Switch → Except Stop Draft
  | .listing => if d.listing then .error .repeated else .ok { d with listing := true }
  | .monitor => if d.monitor then .error .repeated else .ok { d with monitor := true }
  | .operandShiftFlag =>
    if d.operandShiftFlag then .error .repeated else .ok { d with operandShiftFlag := true }
  | .incrementIndex =>
    if d.incrementIndex then .error .repeated else .ok { d with incrementIndex := true }
  | .verbose => .ok { d with verbosity := d.verbosity + 1 }

/-- A value for an option that has none yet. -/
def once {α : Type} (before : Option α) (read : String → Option α) (value : String) : Except Stop (Option α) :=
  match before, read value with
  | some _, _ => .error .repeated
  | none, none => .error (.invalidValue value)
  | none, some v => .ok (some v)

def assign (d : Draft) (p : Parameter) (value : String) : Except Stop Draft :=
  match p with
  | .steps => (once d.steps Decimal.readNat? value).map fun v => { d with steps := v, pending := none }
  | .clockRate =>
    (once d.clockRate Decimal.readFloat? value).map fun v => { d with clockRate := v, pending := none }
  | .memory => (once d.memory Decimal.readNat? value).map fun v => { d with memory := v, pending := none }

/-- Short options that share a dash. One that takes a value takes the rest of them, less a leading `=`;
if nothing is left its value is the next argument. -/
def letters (d : Draft) : List Char → Except Stop Draft
  | [] => .ok d
  | c :: r =>
    match OptionName.ofShort? c with
    | none => .error (.unknown ("-" ++ c.toString))
    | some .help => .error .help
    | some (.switch s) => do (← d.turnOn s).letters r
    | some (.parameter p) =>
      match r with
      | [] => .ok { d with pending := some p }
      | '=' :: value => d.assign p (String.ofList value)
      | value => d.assign p (String.ofList value)

/-- A long option, cut at its first `=`. -/
def long (d : Draft) (text : List Char) : Except Stop Draft :=
  let name := String.ofList (text.takeWhile (· ≠ '='))
  let value? := match text.dropWhile (· ≠ '=') with
    | [] => none
    | _ :: value => some (String.ofList value)
  match OptionName.ofLong? name, value? with
  | none, _ => .error (.unknown ("--" ++ name))
  | some .help, none => .error .help
  | some (.switch s), none => d.turnOn s
  | some (.parameter p), none => .ok { d with pending := some p }
  | some (.parameter p), some value => d.assign p value
  | some _, some _ => .error (.needlessValue ("--" ++ name))

/-- Reads one more argument. The value of an option does not start with a dash, unless the dash is all
of it; a dash alone is a program like any other text. -/
def feed (d : Draft) (argument : String) : Except Stop Draft :=
  match d.optionsEnded, d.pending, argument.toList with
  | true, _, _ => d.setProgram argument
  | false, some _, '-' :: _ :: _ => .error .missingValue
  | false, some p, _ => d.assign p argument
  | false, none, ['-', '-'] => .ok { d with optionsEnded := true }
  | false, none, '-' :: '-' :: text => d.long text
  | false, none, '-' :: c :: r => d.letters (c :: r)
  | false, none, _ => d.setProgram argument

def finish (d : Draft) : Except Stop Options :=
  match d.pending, d.program with
  | some _, _ => .error .missingValue
  | none, none => .error .missingProgram
  | none, some program =>
    .ok { program
          listing := d.listing
          steps := d.steps.getD 18000
          clockRate := d.clockRate
          monitor := d.monitor
          operandShiftFlag := d.operandShiftFlag
          incrementIndex := d.incrementIndex
          memory := d.memory.getD minMemory
          verbosity := d.verbosity }

end Draft

def Options.parse (arguments : List String) : Except Stop Options := do
  (← arguments.foldlM Draft.feed {}).finish

def helpLines : List String := [
  "Run a CHIP-8 program through the interpreter core",
  "",
  "Usage: chip8 [OPTIONS] <PROGRAM>",
  "",
  "Arguments:",
  "  <PROGRAM>  program to run: a .ch8 byte image, or a text listing of hex words",
  "",
  "Options:",
  "      --listing             treat the program as a text listing regardless of extension",
  "  -s, --steps <STEPS>       stop after this many instructions [default: 18000]",
  "      --hz <HZ>             instructions per second; unthrottled if absent",
  "  -m, --monitor             show machine state in the terminal while running",
  "      --operand-shift-flag  take the SHR/SHL flag from the operand, like older interpreters",
  "      --increment-index     Fx55/Fx65 advance I past the bytes transferred",
  "      --memory <MEMORY>     memory size in bytes [default: 4096]",
  "  -v, --verbose...          more logging; repeat for more",
  "  -h, --help                Print help"]

/-- What is answered in place of the program. -/
def Stop.report : Stop → Report
  | help => { code := 0, entries := helpLines.map .plain }
  | misuse => { code := 2, entries := [], stderr := s!"error: {misuse.message}\n" }

def readArguments (arguments : List String) : Except Report Options :=
  (Options.parse arguments).mapError Stop.report

/-! ### The log and the clock -/

/-- The level's name, five characters wide. -/
def Level.label : Level → String
  | error => "ERROR"
  | warn => "WARN "
  | info => "INFO "
  | debug => "DEBUG"
  | trace => "TRACE"

def Record.line (r : Record) : String := s!"{r.level.label} [{r.speaker.name}] {r.message}"

/-- A helper that keeps the time of a clock of its own, in nanoseconds. -/
structure Stopwatch where
  /-- How long a round is to last. -/
  period : Nat
  start : Nat := 0
  now : Nat := 0

/-- Where all is printed at the end there is nobody to wait for, and time passes only on the stopwatch. -/
def Stopwatch.pacer : Pacer Stopwatch where
  build rate s u := some ({ period := (1e9 / rate).toUInt64.toNat }, s, u)
  loopStart helper s u := some ({ helper with start := helper.now }, s, u)
  loopSleep helper s u := some ({ helper with now := max helper.now (helper.start + helper.period) }, s, u)

end Chip8.CommandLine
