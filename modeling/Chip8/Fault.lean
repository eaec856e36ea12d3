import Chip8.Text.Hex

/-! Faults: what stops a running machine. -/

namespace Chip8

inductive Fault
  /-- A call with every slot of the stack in use. -/
  | stackOverflow
  /-- A return without a call. -/
  | stackUnderflow
  /-- An access of `length` bytes at `addr` that leaves memory. -/
  | outOfBounds (addr : UInt16) (length : Nat)
  /-- An instruction that names a register past the sixteenth. -/
  | noSuchRegister (index : UInt8)
  deriving DecidableEq

namespace Fault

def kind : Fault → String
  | stackOverflow => "StackOverflow"
  | stackUnderflow => "StackUnderflow"
  | outOfBounds .. => "MemoryOutOfBounds"
  | noSuchRegister _ => "NoSuchRegister"

def message : Fault → String
  | stackOverflow => "stack overflow"
  | stackUnderflow => "stack underflow"
  | outOfBounds addr length => s!"memory access out of bounds at {Hex.address addr} (+{length} bytes)"
  | noSuchRegister index => "no register V" ++ Hex.upper 1 index.toNat

/-- The kind of the fault with its details, all in decimal. -/
def inspect (f : Fault) : String :=
  match f with
  | stackOverflow | stackUnderflow => f.kind
  | outOfBounds addr length => s!"{f.kind} \x7b addr: {addr.toNat}, len: {length} \x7d"
  | noSuchRegister index => s!"{f.kind}({index.toNat})"

end Fault
end Chip8
