import Chip8.Failure

/-! Decoders: templates bound to operations, so that no word has two readings. A decoder is made from
definitions taken in order, and each has to be free of conflict with those before it. -/

namespace Chip8

/-- One row of an instruction set. -/
structure Binding where
  template : Template
  opcode : Opcode
  deriving DecidableEq

namespace Binding

/-- Binds an operation to a template that yields just the operands it takes. -/
def define (source : String) (opcode : Opcode) : Except Failure Binding :=
  match Template.compile source with
  | .error defect => .error (.invalidTemplate source defect)
  | .ok template =>
    if template.slots = opcode.shape then .ok ⟨template, opcode⟩
    else .error (.operandMismatch source opcode template.slots)

/-- Why the second of two bindings cannot stand beside the first. -/
def conflict? (earlier later : Binding) : Option Failure :=
  if earlier.opcode = later.opcode then some (.duplicateOpcode later.opcode)
  else (earlier.template.overlap? later.template).map
    (.templateCollision earlier.template.source later.template.source)

end Binding

structure Decoder where
  bindings : List Binding
  deriving DecidableEq

namespace Decoder

def add (d : Decoder) (definition : String × Opcode) : Except Failure Decoder := do
  let b ← Binding.define definition.1 definition.2
  match d.bindings.findSome? (·.conflict? b) with
  | some failure => .error failure
  | none => .ok ⟨d.bindings ++ [b]⟩

def ofDefinitions (definitions : List (String × Opcode)) : Except Failure Decoder :=
  definitions.foldlM add ⟨[]⟩

/-- The binding whose template accepts the word. -/
def lookup? (d : Decoder) (w : Word) : Option Binding := d.bindings.find? (·.template.accepts w)

/-- The operation of a word and the operands that it holds. -/
def operands? (d : Decoder) (w : Word) : Option (Opcode × List Word) :=
  (d.lookup? w).map fun b => (b.opcode, b.template.operands w)

def decode (d : Decoder) (w : Word) : Except Failure Instruction :=
  match (d.operands? w).bind fun (op, operands) => op.assemble? operands with
  | some i => .ok i
  | none => .error (.unknownInstruction w)

theorem decode_eq_ok_iff {d : Decoder} {w : Word} {i : Instruction} :
    d.decode w = .ok i ↔ ((d.operands? w).bind fun r => r.1.assemble? r.2) = some i := by
  unfold decode
  cases (d.operands? w).bind fun r => r.1.assemble? r.2 <;> simp

theorem error_of_decode {d : Decoder} {w : Word} {failure : Failure} (h : d.decode w = .error failure) :
    failure = .unknownInstruction w := by
  unfold decode at h
  split at h <;> cases h
  rfl

theorem register_lt_of_decode {d : Decoder} {w : Word} {i : Instruction} (h : d.decode w = .ok i) :
    ∀ r ∈ i.highestRegister?, r < 16 := by
  obtain ⟨⟨op, operands⟩, -, h⟩ := Option.bind_eq_some_iff.1 (decode_eq_ok_iff.1 h)
  exact Opcode.register_lt_of_assemble? h

/-- The standard instruction set. -/
def standardDefinitions : List (String × Opcode) := [
  ("00EE", .ret),
  ("2nnn", .call),
  ("3xkk", .skipEqImm),
  ("4xkk", .skipNeImm),
  ("5xy0", .skipEqReg),
  ("6xkk", .loadImm),
  ("7xkk", .addImm),
  ("8xy0", .move),
  ("8xy1", .or),
  ("8xy2", .and),
  ("8xy3", .xor),
  ("8xy4", .addReg),
  ("8xy5", .sub),
  ("8xy6", .shiftRight),
  ("8xy7", .subNeg),
  ("8xyE", .shiftLeft),
  ("9xy0", .skipNeReg),
  ("Annn", .loadIndex),
  ("Bnnn", .jumpOffset),
  ("Cxkk", .random),
  ("Fx1E", .addIndex),
  ("Fx55", .storeRegs),
  ("Fx65", .loadRegs)]

def standard : Except Failure Decoder := ofDefinitions standardDefinitions

end Decoder
end Chip8
