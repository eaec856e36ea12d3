import Chip8.Template

/-! The operations of the instruction set: what each is called, the mnemonic it is written with, and
the operands it takes. -/

namespace Chip8

inductive Opcode
  | ret
  | call
  | skipEqImm
  | skipNeImm
  | skipEqReg
  | loadImm
  | addImm
  | move
  | or
  | and
  | xor
  | addReg
  | sub
  | shiftRight
  | subNeg
  | shiftLeft
  | skipNeReg
  | loadIndex
  | jumpOffset
  | random
  | addIndex
  | storeRegs
  | loadRegs
  deriving DecidableEq

namespace Opcode

def name : Opcode → String
  | ret => "Ret"
  | call => "Call"
  | skipEqImm => "SkipEqImm"
  | skipNeImm => "SkipNeImm"
  | skipEqReg => "SkipEqReg"
  | loadImm => "LoadImm"
  | addImm => "AddImm"
  | move => "Move"
  | or => "Or"
  | and => "And"
  | xor => "Xor"
  | addReg => "AddReg"
  | sub => "Sub"
  | shiftRight => "ShiftRight"
  | subNeg => "SubNeg"
  | shiftLeft => "ShiftLeft"
  | skipNeReg => "SkipNeReg"
  | loadIndex => "LoadIndex"
  | jumpOffset => "JumpOffset"
  | random => "Random"
  | addIndex => "AddIndex"
  | storeRegs => "StoreRegs"
  | loadRegs => "LoadRegs"

/-- The word that stands for the operation in a disassembly; several operations share one. -/
def mnemonic : Opcode → String
  | ret => "RET"
  | call => "CALL"
  | skipEqImm | skipEqReg => "SE"
  | skipNeImm | skipNeReg => "SNE"
  | loadImm | move | loadIndex | storeRegs | loadRegs => "LD"
  | addImm | addReg | addIndex => "ADD"
  | or => "OR"
  | and => "AND"
  | xor => "XOR"
  | sub => "SUB"
  | shiftRight => "SHR"
  | subNeg => "SUBN"
  | shiftLeft => "SHL"
  | jumpOffset => "JP"
  | random => "RND"

/-- The operands, in the order in which the encoding holds them. -/
def shape : Opcode → List Slot
  | ret => []
  | call | loadIndex | jumpOffset => [.address]
  | addIndex | storeRegs | loadRegs => [.register]
  | skipEqImm | skipNeImm | loadImm | addImm | random => [.register, .byte]
  | skipEqReg | move | or | and | xor | addReg | sub | shiftRight | subNeg | shiftLeft | skipNeReg =>
    [.register, .register]

end Opcode
end Chip8
