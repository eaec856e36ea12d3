import Chip8.Fault
import Chip8.Instruction
import Chip8.Settings
import Chip8.Text.Printable

/-! Failures: everything that can go wrong between a program's text and its last instruction, each with
its cause, the message that a person reads, and an inspected form that shows every detail. -/

namespace Chip8

/-- Why bytes could not be read, or a frame could not be shown. -/
inductive InputError
  /-- Any other cause, in its own words. -/
  | other (text : String)
  /-- An answer of the operating system, with its number and the name of its kind. -/
  | system (code : Nat) (kind text : String)
  /-- A text that is no UTF-8. -/
  | notText
  deriving DecidableEq

namespace InputError

def message : InputError → String
  | other text => text
  | system code _ text => s!"{text} (os error {code})"
  | notText => "stream did not contain valid UTF-8"

def inspect : InputError → String
  | other text => s!"Custom \x7b kind: Other, error: {Quoted.encode text} \x7d"
  | system code kind text => s!"Os \x7b code: {code}, kind: {kind}, message: {Quoted.encode text} \x7d"
  | notText => s!"Error \x7b kind: InvalidData, message: {Quoted.encode notText.message} \x7d"

end InputError

inductive Failure
  /-- A text that is not four hexadecimal digits. -/
  | malformedInstruction (text : String)
  /-- A word that no template accepts. -/
  | unknownInstruction (word : Word)
  | invalidTemplate (source : String) (defect : Template.Defect)
  /-- A template whose operands are not those that its operation takes. -/
  | operandMismatch (source : String) (opcode : Opcode) (found : List Slot)
  /-- Two templates that accept a common word. -/
  | templateCollision (first second : String) (common : Word)
  | duplicateOpcode (opcode : Opcode)
  /-- A fault of the machine, with the program counter and the word that met it. -/
  | fault (pc : UInt16) (word : Word) (fault : Fault)
  /-- An image that does not fit in memory. -/
  | load (addr : UInt16) (length : Nat)
  | settings (defect : Settings.Defect)
  | input (error : InputError)
  /-- A sum of sizes that 64 bits do not hold. Nobody handles it: the program as a whole is given up. -/
  | overflow

namespace Failure

def kind : Failure → String
  | malformedInstruction _ => "MalformedInstruction"
  | unknownInstruction _ => "UnknownInstruction"
  | invalidTemplate .. => "InvalidTemplate"
  | operandMismatch .. => "OperandMismatch"
  | templateCollision .. => "TemplateCollision"
  | duplicateOpcode _ => "DuplicateOpcode"
  | fault .. => "Fault"
  | load .. => "Load"
  | settings _ => "Config"
  | input _ => "Io"
  | overflow => "Panic"

/-- Widths in nibbles as messages list them. -/
def widths (slots : List Slot) : String :=
  "[" ++ String.intercalate ", " (slots.map fun s => toString s.width) ++ "]"

def message : Failure → String
  | malformedInstruction text => s!"malformed instruction {Quoted.encode text}: expected four hex digits"
  | unknownInstruction word => s!"unknown instruction {word.text}"
  | invalidTemplate source defect => s!"invalid template {Quoted.encode source}: {defect.reason}"
  | operandMismatch source opcode found =>
    s!"template {Quoted.encode source} yields operands {widths found}, {opcode.name} expects {widths opcode.shape}"
  | templateCollision first second word =>
    s!"templates {Quoted.encode first} and {Quoted.encode second} both match {word.text}"
  | duplicateOpcode opcode => s!"opcode {opcode.name} is bound to more than one template"
  | fault pc word f => s!"{f.message} at pc {Hex.address pc} executing {word.text}"
  | load addr length => s!"cannot load {length} bytes at {Hex.address addr}"
  | settings defect => s!"invalid configuration: {defect.message}"
  | input error => error.message
  | overflow => "attempt to add with overflow"

/-- The kind of the failure with its details: texts in quotes, numbers in decimal. -/
def inspect (failure : Failure) : String :=
  match failure with
  | malformedInstruction text => s!"{failure.kind}({Quoted.encode text})"
  | unknownInstruction word => s!"{failure.kind}({word.toNat})"
  | invalidTemplate source defect =>
    s!"{failure.kind} \x7b template: {Quoted.encode source}, reason: {Quoted.encode defect.reason} \x7d"
  | operandMismatch source opcode found =>
    s!"{failure.kind} \x7b template: {Quoted.encode source}, op: {opcode.name}, expected: {widths opcode.shape}, found: {widths found} \x7d"
  | templateCollision first second word =>
    s!"{failure.kind} \x7b first: {Quoted.encode first}, second: {Quoted.encode second}, example: {word.toNat} \x7d"
  | duplicateOpcode opcode => s!"{failure.kind}({opcode.name})"
  | fault pc word f => s!"{failure.kind} \x7b pc: {pc.toNat}, opcode: {word.toNat}, fault: {f.inspect} \x7d"
  | load addr length => s!"{failure.kind} \x7b addr: {addr.toNat}, len: {length} \x7d"
  | settings defect => s!"{failure.kind}({Quoted.encode defect.message})"
  | input error => s!"{failure.kind}({error.inspect})"
  | overflow => s!"{failure.kind}({Quoted.encode failure.message})"

end Failure
end Chip8
