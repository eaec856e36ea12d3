import Chip8.Settings
import Chip8.Text.Pieces

/-! Options of the command line, and the settings that they stand for. -/

namespace Chip8.CommandLine

structure Options where
  program : String
  listing : Bool
  steps : Nat
  clockRate : Option Float
  monitor : Bool
  operandShiftFlag : Bool
  incrementIndex : Bool
  memory : Nat
  verbosity : Nat

/-- The names on a path from its start to its end, without those that stay where they are. -/
def pathNames (path : String) : List (List Char) :=
  (pieces (· == '/') path.toList).filter fun name => !name.isEmpty && name ≠ ['.']

/-- What follows the last point of a file's name, if something stands before that point. -/
def extension? (path : String) : Option String :=
  match (pathNames path).getLast? with
  | none => none
  | some ['.', '.'] => none
  | some name =>
    match name.reverse.dropWhile (· ≠ '.') with
    | [] | ['.'] => none
    | _ => some (String.ofList (name.reverse.takeWhile (· ≠ '.')).reverse)

namespace Options

/-- A program is read as a listing if its name says so, or if it is told to. -/
def isListing (o : Options) : Bool :=
  o.listing || ["hex", "txt", "lst"].any fun e => extension? o.program = some e

def settings (o : Options) : Settings :=
  { memorySize := o.memory
    addressing := if o.isListing then .words else .bytes
    shiftFlag := if o.operandShiftFlag then .operand else .register
    incrementIndex := o.incrementIndex
    clockRate := o.clockRate }

end Options

end Chip8.CommandLine
