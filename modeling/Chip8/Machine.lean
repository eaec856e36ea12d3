import Chip8.Memory

/-! The machine: sixteen byte registers, of which the last doubles as the flag, an index register, a
program counter, a stack of sixteen return addresses, and memory. The stack pointer is the slot of
the last address pushed; one before the first slot, which a byte writes as 255, it says that the
stack is empty. A machine is plain data, and its fields may be set to anything. -/

namespace Chip8

/-- The stack pointer of an empty stack. -/
def emptyStack : UInt8 := 0xFF

/-- The register that arithmetic reports its carry in. -/
def flagRegister : UInt8 := 0xF

structure Machine where
  v : Vector UInt8 16
  i : UInt16
  pc : UInt16
  stack : Vector UInt16 16
  sp : UInt8
  memory : Memory
  deriving DecidableEq

namespace Machine

/-- A machine that was just switched on. -/
def fresh (memory : Memory) : Machine where
  v := Vector.replicate 16 0
  i := 0
  pc := 0
  stack := Vector.replicate 16 0
  sp := emptyStack
  memory := memory

def ofMemorySize (size : Nat) : Except Failure Machine := (Memory.ofSize size).map fresh

/-- Switches the machine off and on: all is zeroed but the size of memory stays. -/
def reset (m : Machine) : Machine := fresh m.memory.clear

/-- The contents of a register; there is nothing in one past the sixteenth. -/
def register (m : Machine) (x : UInt8) : UInt8 := m.v[x.toNat]?.getD 0

def setRegister (m : Machine) (x b : UInt8) : Machine := { m with v := m.v.setIfInBounds x.toNat b }

def flag (m : Machine) : UInt8 := m.register flagRegister

def setFlag (m : Machine) (b : UInt8) : Machine := m.setRegister flagRegister b

/-- How many return addresses the stack pointer claims. -/
def depth (m : Machine) : Nat := (m.sp + 1).toNat

/-- The return addresses in use, oldest first; a stack pointer past the last slot claims them all. -/
def returnAddresses (m : Machine) : List UInt16 := m.stack.toList.take m.depth

def push (m : Machine) (addr : UInt16) : Except Fault Unit × Machine :=
  let top := m.sp + 1
  if top < 16 then (.ok (), { m with stack := m.stack.setIfInBounds top.toNat addr, sp := top })
  else (.error .stackOverflow, m)

def pop (m : Machine) : Except Fault UInt16 × Machine :=
  match m.stack[m.sp.toNat]? with
  | some addr => (.ok addr, { m with sp := m.sp - 1 })
  | none => (.error .stackUnderflow, m)

theorem push_eq_ok (m : Machine) (addr : UInt16) (h : m.sp + 1 < 16) :
    m.push addr = (.ok (), { m with stack := m.stack.setIfInBounds (m.sp + 1).toNat addr, sp := m.sp + 1 }) :=
  if_pos h

theorem push_eq_error (m : Machine) (addr : UInt16) (h : ¬m.sp + 1 < 16) : m.push addr = (.error .stackOverflow, m) :=
  if_neg h

theorem pop_eq_ok (m : Machine) (h : m.sp.toNat < 16) :
    m.pop = (.ok m.stack[m.sp.toNat], { m with sp := m.sp - 1 }) := by
  rw [pop, Vector.getElem?_eq_getElem h]

theorem pop_eq_error (m : Machine) (h : 16 ≤ m.sp.toNat) : m.pop = (.error .stackUnderflow, m) := by
  rw [pop, Vector.getElem?_eq_none h]

/-- The fault of a block transfer that would need the register with this number. -/
def missingRegister (x : Nat) : Fault := .noSuchRegister (UInt8.ofNat (min x 255))

/-- Copies the registers up to and including the one numbered `x` to memory at the index. -/
def storeRegisters (m : Machine) (x : Nat) : Except Fault Unit × Machine :=
  if x < 16 then
    match m.memory.write (m.v.toList.take (x + 1)) m.i with
    | (r, memory) => (r, { m with memory })
  else (.error (missingRegister x), m)

/-- Fills the registers up to and including the one numbered `x` from memory at the index. -/
def loadRegisters (m : Machine) (x : Nat) : Except Fault Unit × Machine :=
  if x < 16 then
    match m.memory.read m.i (x + 1) with
    | .ok block => (.ok (), { m with v := Vector.ofFn fun k => block[k.val]?.getD m.v[k] })
    | .error f => (.error f, m)
  else (.error (missingRegister x), m)

theorem loadRegisters_of_read {m : Machine} {x : Nat} {block : List UInt8} (hx : x < 16)
    (h : m.memory.read m.i (x + 1) = .ok block) :
    m.loadRegisters x = (.ok (), { m with v := Vector.ofFn fun k => block[k.val]?.getD m.v[k] }) := by
  rw [loadRegisters, if_pos hx, h]

/-! ### What a monitor shows: four lines of registers, one of pointers, one of the stack -/

/-- One register, such as `V3 0a`. -/
def registerText (m : Machine) (x : Nat) : String :=
  "V" ++ Hex.upper 1 x ++ " " ++ Hex.lower 2 (m.register (UInt8.ofNat x)).toNat

def registerLine (m : Machine) (row : Nat) : String :=
  String.intercalate "  " ((List.range 4).map fun column => m.registerText (4 * row + column))

def pointerLine (m : Machine) : String :=
  s!"I {Hex.lower 4 m.i.toNat}  PC {Hex.lower 4 m.pc.toNat}  SP {Hex.lower 2 m.sp.toNat}"

def stackLine (m : Machine) : String :=
  "stack [" ++ String.intercalate " " (m.returnAddresses.map fun a => Hex.lower 4 a.toNat) ++ "]"

def lines (m : Machine) : List String :=
  (List.range 4).map m.registerLine ++ [m.pointerLine, m.stackLine]

end Machine
end Chip8
