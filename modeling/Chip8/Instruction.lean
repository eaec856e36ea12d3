import Chip8.Opcode

/-! Instructions: an operation with its operands. `x` and `y` are register numbers, `kk` is a byte and
`nnn` an address. An instruction that was decoded names registers below sixteen and addresses below
4096; one that was made by hand may hold anything that fits its fields. -/

namespace Chip8

inductive Instruction
  | ret
  | call (nnn : UInt16)
  | skipEqImm (x kk : UInt8)
  | skipNeImm (x kk : UInt8)
  | skipEqReg (x y : UInt8)
  | skipNeReg (x y : UInt8)
  | loadImm (x kk : UInt8)
  | addImm (x kk : UInt8)
  | move (x y : UInt8)
  | or (x y : UInt8)
  | and (x y : UInt8)
  | xor (x y : UInt8)
  | addReg (x y : UInt8)
  | sub (x y : UInt8)
  | subNeg (x y : UInt8)
  | shiftRight (x y : UInt8)
  | shiftLeft (x y : UInt8)
  | random (x kk : UInt8)
  | loadIndex (nnn : UInt16)
  | addIndex (x : UInt8)
  | jumpOffset (nnn : UInt16)
  | storeRegs (x : UInt8)
  | loadRegs (x : UInt8)
  deriving DecidableEq

namespace Instruction

def opcode : Instruction → Opcode
  | ret => .ret
  | call _ => .call
  | skipEqImm .. => .skipEqImm
  | skipNeImm .. => .skipNeImm
  | skipEqReg .. => .skipEqReg
  | skipNeReg .. => .skipNeReg
  | loadImm .. => .loadImm
  | addImm .. => .addImm
  | move .. => .move
  | or .. => .or
  | and .. => .and
  | xor .. => .xor
  | addReg .. => .addReg
  | sub .. => .sub
  | subNeg .. => .subNeg
  | shiftRight .. => .shiftRight
  | shiftLeft .. => .shiftLeft
  | random .. => .random
  | loadIndex _ => .loadIndex
  | addIndex _ => .addIndex
  | jumpOffset _ => .jumpOffset
  | storeRegs _ => .storeRegs
  | loadRegs _ => .loadRegs

/-- The operands with the names of their fields, in the order of the encoding. -/
def fields : Instruction → List (String × Nat)
  | ret => []
  | call nnn | loadIndex nnn | jumpOffset nnn => [("nnn", nnn.toNat)]
  | addIndex x | storeRegs x | loadRegs x => [("x", x.toNat)]
  | skipEqImm x kk | skipNeImm x kk | loadImm x kk | addImm x kk | random x kk =>
    [("x", x.toNat), ("kk", kk.toNat)]
  | skipEqReg x y | skipNeReg x y | move x y | or x y | and x y | xor x y | addReg x y | sub x y
  | subNeg x y | shiftRight x y | shiftLeft x y => [("x", x.toNat), ("y", y.toNat)]

/-- The highest register number that the instruction names. -/
def highestRegister? : Instruction → Option UInt8
  | ret | call _ | loadIndex _ | jumpOffset _ => none
  | addIndex x | storeRegs x | loadRegs x => some x
  | skipEqImm x _ | skipNeImm x _ | loadImm x _ | addImm x _ | random x _ => some x
  | skipEqReg x y | skipNeReg x y | move x y | or x y | and x y | xor x y | addReg x y | sub x y
  | subNeg x y | shiftRight x y | shiftLeft x y => some (max x y)

theorem max_lt_iff (x y z : UInt8) : max x y < z ↔ x < z ∧ y < z := by
  have e : max x y = if x ≤ y then y else x := rfl
  rw [e]
  simp only [UInt8.lt_iff_toNat_lt, UInt8.le_iff_toNat_le]
  split <;> omega

/-! ### Written forms

The disassembly shows a register as `V` and one digit, a byte and an address in hexadecimal; a shift leaves
out the register that it does not use. The inspected form names the operation and each of its fields in
decimal. -/

def disassemble (i : Instruction) : String :=
  let register (x : UInt8) : String := "V" ++ Hex.upper 1 x.toNat
  let byte (k : UInt8) : String := "0x" ++ Hex.upper 2 k.toNat
  let address (n : UInt16) : String := "0x" ++ Hex.upper 3 n.toNat
  let m := i.opcode.mnemonic
  match i with
  | ret => m
  | call nnn => s!"{m} {address nnn}"
  | loadIndex nnn => s!"{m} I, {address nnn}"
  | jumpOffset nnn => s!"{m} V0, {address nnn}"
  | addIndex x => s!"{m} I, {register x}"
  | storeRegs x => s!"{m} [I], {register x}"
  | loadRegs x => s!"{m} {register x}, [I]"
  | skipEqImm x kk | skipNeImm x kk | loadImm x kk | addImm x kk | random x kk =>
    s!"{m} {register x}, {byte kk}"
  | skipEqReg x y | skipNeReg x y | move x y | or x y | and x y | xor x y | addReg x y | sub x y
  | subNeg x y => s!"{m} {register x}, {register y}"
  | shiftRight x _ | shiftLeft x _ => s!"{m} {register x}"

def inspect (i : Instruction) : String :=
  match i.fields with
  | [] => i.opcode.name
  | fs => i.opcode.name ++ " \x7b " ++ String.intercalate ", " (fs.map fun (n, v) => s!"{n}: {v}") ++ " \x7d"

end Instruction

namespace Opcode

/-- The instruction with the given operands, each cut to its width; none if they are too many or too
few. -/
def assemble? (op : Opcode) (operands : List Word) : Option Instruction :=
  let register (v : Word) : UInt8 := v.toUInt8 % 16
  let address (v : Word) : UInt16 := v % 4096
  match op, operands with
  | .ret, [] => some .ret
  | .call, [n] => some (.call (address n))
  | .loadIndex, [n] => some (.loadIndex (address n))
  | .jumpOffset, [n] => some (.jumpOffset (address n))
  | .addIndex, [x] => some (.addIndex (register x))
  | .storeRegs, [x] => some (.storeRegs (register x))
  | .loadRegs, [x] => some (.loadRegs (register x))
  | .skipEqImm, [x, k] => some (.skipEqImm (register x) k.toUInt8)
  | .skipNeImm, [x, k] => some (.skipNeImm (register x) k.toUInt8)
  | .loadImm, [x, k] => some (.loadImm (register x) k.toUInt8)
  | .addImm, [x, k] => some (.addImm (register x) k.toUInt8)
  | .random, [x, k] => some (.random (register x) k.toUInt8)
  | .skipEqReg, [x, y] => some (.skipEqReg (register x) (register y))
  | .skipNeReg, [x, y] => some (.skipNeReg (register x) (register y))
  | .move, [x, y] => some (.move (register x) (register y))
  | .or, [x, y] => some (.or (register x) (register y))
  | .and, [x, y] => some (.and (register x) (register y))
  | .xor, [x, y] => some (.xor (register x) (register y))
  | .addReg, [x, y] => some (.addReg (register x) (register y))
  | .sub, [x, y] => some (.sub (register x) (register y))
  | .subNeg, [x, y] => some (.subNeg (register x) (register y))
  | .shiftRight, [x, y] => some (.shiftRight (register x) (register y))
  | .shiftLeft, [x, y] => some (.shiftLeft (register x) (register y))
  | _, _ => none

/-- Assembling never names a missing register, whatever the operands are. -/
theorem register_lt_of_assemble? {op : Opcode} {operands : List Word} {i : Instruction}
    (h : op.assemble? operands = some i) : ∀ r ∈ i.highestRegister?, r < 16 := by
  have hmod (v : Word) : v.toUInt8 % 16 < 16 := UInt8.mod_lt _ (by decide)
  unfold assemble? at h
  split at h <;> cases h <;> simp [Instruction.highestRegister?, Instruction.max_lt_iff, hmod]

end Opcode
end Chip8
