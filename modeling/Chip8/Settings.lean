import Chip8.Text.Hex
import Chip8.Decimal.Shortest

/-! Settings of an interpreter and of the machine it drives, with the limits that they have to respect.
Interpreters of the instruction set differ in what the program counter counts, in where a shift
takes its flag from, and in whether a block transfer moves the index register. -/

namespace Chip8

/-- The smallest memory that a program can expect. -/
def minMemory : Nat := 4096

/-- The largest memory that the index register can reach. -/
def maxMemory : Nat := 65536

/-- Where programs are loaded unless told otherwise. -/
def defaultProgramAddr : UInt16 := 0x200

/-- What the program counter counts. -/
inductive Addressing
  /-- The position in a list of instruction words. -/
  | words
  /-- An address in memory, where an instruction takes two bytes. -/
  | bytes
  deriving DecidableEq

namespace Addressing

/-- How far the program counter is from one instruction to the next. -/
def stride : Addressing → UInt16
  | words => 1
  | bytes => 2

def name : Addressing → String
  | words => "Instruction"
  | bytes => "Byte"

end Addressing

/-- Where a shift takes the bit that it reports. -/
inductive ShiftFlag
  /-- The bit that leaves the register. -/
  | register
  /-- The same bit of the register's number, as some older interpreters have it. -/
  | operand
  deriving DecidableEq

def ShiftFlag.name : ShiftFlag → String
  | register => "Register"
  | operand => "Operand"

structure Settings where
  memorySize : Nat := minMemory
  programAddr : UInt16 := defaultProgramAddr
  addressing : Addressing := .words
  shiftFlag : ShiftFlag := .register
  incrementIndex : Bool := false
  /-- Instructions per second; without it a program runs as fast as it can. -/
  clockRate : Option Float := none

namespace Settings

/-- Settings for a byte image that is loaded into memory. -/
def image : Settings := { addressing := .bytes }

/-- What is wrong with settings, by themselves or for the program that is to run under them. -/
inductive Defect
  | memorySize (size : Nat)
  | programAddr (addr : UInt16)
  | clockRate (rate : Float)
  | unsupportedMemory (size : Nat)
  | mismatch (program settings interpreter : Addressing)

def Defect.message : Defect → String
  | memorySize size => s!"memory size {size} outside {minMemory}..={maxMemory}"
  | programAddr addr => s!"program address {Hex.address addr} is beyond the end of memory"
  | clockRate rate => s!"clock rate {Decimal.write rate} must be positive"
  | unsupportedMemory size => s!"memory size {size} not supported"
  | mismatch program settings interpreter =>
    s!"program needs {program.name} addressing, config has {settings.name}, interpreter has {interpreter.name}"

/-- A clock can run at any finite rate above zero. -/
def clockRateValid (rate : Float) : Bool := rate.isFinite && 0 < rate

/-- The first limit that the settings break. -/
def defect? (s : Settings) : Option Defect :=
  if s.memorySize < minMemory ∨ maxMemory < s.memorySize then some (.memorySize s.memorySize)
  else if s.memorySize ≤ s.programAddr.toNat then some (.programAddr s.programAddr)
  else match s.clockRate with
    | some rate => if clockRateValid rate then none else some (.clockRate rate)
    | none => none

end Settings
end Chip8
