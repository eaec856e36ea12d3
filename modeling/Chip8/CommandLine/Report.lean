import Chip8.CommandLine.Log
import Chip8.CommandLine.Options
import Chip8.Pacing

/-! What the command line answers: an exit code and what it prints. A program that ran to its end, or
to the limit on its steps, leaves the state of its machine after the log. How arguments are read, how a record
is written as a line, and what paces a run is up to whoever asks. -/

namespace Chip8.CommandLine

/-- One printed line: a record of the log, or text of the answer itself. -/
inductive Entry
  | record (r : Record)
  | plain (text : String)
  deriving DecidableEq

structure Report where
  code : Nat
  entries : List Entry
  stderr : String := ""
  deriving DecidableEq

namespace Report

/-- Everything on standard output, line by line. -/
def stdout (line : Record → String) (r : Report) : List String :=
  r.entries.map fun
    | .record r => line r
    | .plain text => text

/-- The lines on standard output that are no log. -/
def plainLines (r : Report) : List String :=
  r.entries.filterMap fun
    | .record _ => none
    | .plain text => some text

end Report

/-- What keeps a program from its end. A file that cannot be opened, or a listing that cannot be read,
is no failure of the machine. -/
inductive Problem
  | failure (f : Failure)
  | file (e : InputError)

def Problem.inspect : Problem → String
  | failure f => f.inspect
  | file e => e.inspect

/-- What opening a path gives. -/
abbrev Files := String → Except InputError Reader

/-- A listing's text, which has to be UTF-8. -/
def readText (r : Reader) : Except InputError String := do
  match String.fromUTF8? ⟨← r.contents⟩ with
  | some text => return text
  | none => throw .notText

/-- A program that was found: the words of a listing, or an image that is still to be read. -/
inductive Source
  | listing (p : Program)
  | image (r : Reader)

def source (o : Options) (files : Files) : Except Problem Source :=
  if o.isListing then do
    let text ← ((files o.program).bind readText).mapError .file
    let program ← (Program.parseListing text).mapError .failure
    return .listing program
  else do
    let r ← (files o.program).mapError .file
    return .image r

section Pacing

variable {κ μ : Type} (pacer : Pacer κ)

/-- The session that the options ask for, at the start of its program. -/
def start (o : Options) (files : Files) (random : RandomStream) (interpreter : Interpreter) (u : μ) :
    Option (Except Problem (PacedSession κ) × μ) :=
  match source o files with
  | .error p => some (.error p, u)
  | .ok (.listing program) => do
    let (r, u) ← PacedSession.new pacer o.settings interpreter random program u
    return (r.mapError .failure, u)
  | .ok (.image reader) => do
    let (r, u) ← PacedSession.loadImage pacer o.settings interpreter random reader u
    return (r.mapError .failure, u)

/-- The records that a session leaves when it starts. -/
def startRecords (s : Session) : List Record :=
  match s.program with
  | .listing _ => []
  | .image length => [Record.loaded length.toNat s.programAddr]

/-- What is printed while a program runs, in order. -/
structure Output where
  finest : Level
  entries : Array Entry := #[]

namespace Output

def add (o : Output) (r : Record) : Output :=
  if r.level.rank ≤ o.finest.rank then { o with entries := o.entries.push (.record r) } else o

def addAll (o : Output) (rs : List Record) : Output := rs.foldl add o

def print (o : Output) (text : List String) : Output := { o with entries := o.entries ++ text.map Entry.plain }

/-- Logs every instruction, and shows it with the machine it left if a monitor is asked for. -/
def observer (stride : UInt16) (monitor : Bool) : Observer Output where
  frame m d o :=
    let o := o.addAll (Record.ofDispatched stride m d)
    (.ok (), if monitor then o.print (d.line :: m.lines) else o)
  interrupted o := (.ok false, o)

end Output

def failed (o : Output) (p : Problem) : Report :=
  { code := 1, entries := o.entries.toList, stderr := s!"Error: {p.inspect}\n" }

/-- What is reported of a run, given the session after it and what was printed until then. -/
def ended (o : Options) (r : Except Failure Halt) (s : Session) (out : Output) : Report :=
  match r with
  | .error f => failed (out.addAll (Record.ofFailure s.interpreter.decoder f)) (.failure f)
  | .ok halt =>
    let out := out.addAll (Record.ofHalt s o.steps halt)
    { code := 0, entries := (if o.monitor then out else out.print s.machine.lines).entries.toList }

/-- Runs a session that was started, for as long as the options allow. -/
def finish (o : Options) (s : PacedSession κ) (out : Output) : Option Report := do
  let (r, s, out) ← s.run pacer (Output.observer s.session.interpreter.addressing.stride o.monitor) o.steps out
  return ended o r s.session out

/-- There is no report if the pacer never lets the program go on. -/
def execute (o : Options) (files : Files) (random : RandomStream) : Option Report :=
  let out : Output := { finest := .ofVerbosity o.verbosity }
  match Interpreter.ofSettings o.settings with
  | .error f => some (failed out (.failure f))
  | .ok interpreter => do
    let out := out.add (Record.decoderReady interpreter.decoder)
    match ← start pacer o files random interpreter out with
    | (.error p, out) => return failed out p
    | (.ok s, out) => finish pacer o s (out.addAll (startRecords s.session))

/-- Answers a command line; `random` is what the program draws from. Reading the arguments may also lead to a report
at once, which is then the answer. -/
def answer (parse : List String → Except Report Options) (arguments : List String) (files : Files)
    (random : RandomStream) : Option Report :=
  match parse arguments with
  | .ok o => execute pacer o files random
  | .error report => some report

end Pacing
end Chip8.CommandLine
