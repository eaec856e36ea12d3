import Chip8.Proofs.Effect
import Mathlib

/-! The standard instruction set, row by row. `Instruction.ofWord?` reads a word off its hexadecimal
digits, without templates; decoding agrees with it on every word, so that a standard interpreter
carries out the row that a word belongs to and does nothing besides. -/

namespace Chip8

/-- The row that a word belongs to, with `x` its second digit, `y` its third, `kk` the last two and
`nnn` the last three. -/
def Instruction.ofWord? (w : Nat) : Option Instruction :=
  let x := UInt8.ofNat (w / 0x100 % 0x10)
  let y := UInt8.ofNat (w / 0x10 % 0x10)
  let kk := UInt8.ofNat (w % 0x100)
  let nnn := UInt16.ofNat (w % 0x1000)
  match w / 0x1000 with
  | 0x0 => if w = 0x00EE then some .ret else none
  | 0x2 => some (.call nnn)
  | 0x3 => some (.skipEqImm x kk)
  | 0x4 => some (.skipNeImm x kk)
  | 0x5 => if w % 0x10 = 0 then some (.skipEqReg x y) else none
  | 0x6 => some (.loadImm x kk)
  | 0x7 => some (.addImm x kk)
  | 0x8 =>
    match w % 0x10 with
    | 0x0 => some (.move x y)
    | 0x1 => some (.or x y)
    | 0x2 => some (.and x y)
    | 0x3 => some (.xor x y)
    | 0x4 => some (.addReg x y)
    | 0x5 => some (.sub x y)
    | 0x6 => some (.shiftRight x y)
    | 0x7 => some (.subNeg x y)
    | 0xE => some (.shiftLeft x y)
    | _ => none
  | 0x9 => if w % 0x10 = 0 then some (.skipNeReg x y) else none
  | 0xA => some (.loadIndex nnn)
  | 0xB => some (.jumpOffset nnn)
  | 0xC => some (.random x kk)
  | 0xF =>
    if w % 0x100 = 0x1E then some (.addIndex x)
    else if w % 0x100 = 0x55 then some (.storeRegs x)
    else if w % 0x100 = 0x65 then some (.loadRegs x)
    else none
  | _ => none

namespace Decoder

def standardRows : List (List Segment × Opcode) :=
  let x := Segment.operand .register
  let k := Segment.operand .byte
  let n := Segment.operand .address
  [([.literal 0x0, .literal 0x0, .literal 0xE, .literal 0xE], .ret),
    ([.literal 0x2, n], .call),
    ([.literal 0x3, x, k], .skipEqImm),
    ([.literal 0x4, x, k], .skipNeImm),
    ([.literal 0x5, x, x, .literal 0x0], .skipEqReg),
    ([.literal 0x6, x, k], .loadImm),
    ([.literal 0x7, x, k], .addImm),
    ([.literal 0x8, x, x, .literal 0x0], .move),
    ([.literal 0x8, x, x, .literal 0x1], .or),
    ([.literal 0x8, x, x, .literal 0x2], .and),
    ([.literal 0x8, x, x, .literal 0x3], .xor),
    ([.literal 0x8, x, x, .literal 0x4], .addReg),
    ([.literal 0x8, x, x, .literal 0x5], .sub),
    ([.literal 0x8, x, x, .literal 0x6], .shiftRight),
    ([.literal 0x8, x, x, .literal 0x7], .subNeg),
    ([.literal 0x8, x, x, .literal 0xE], .shiftLeft),
    ([.literal 0x9, x, x, .literal 0x0], .skipNeReg),
    ([.literal 0xA, n], .loadIndex),
    ([.literal 0xB, n], .jumpOffset),
    ([.literal 0xC, x, k], .random),
    ([.literal 0xF, x, .literal 0x1, .literal 0xE], .addIndex),
    ([.literal 0xF, x, .literal 0x5, .literal 0x5], .storeRegs),
    ([.literal 0xF, x, .literal 0x6, .literal 0x5], .loadRegs)]

theorem standard_rows :
    standard.toOption.map (·.bindings.map fun b => (b.template.segments, b.opcode)) = some standardRows := by
  cbv

def fits (pattern : List (Option Nibble)) (digits : List Nibble) : Bool :=
  (pattern.zip digits).all fun (p, d) => p.all (· == d)

/-- Decoding with the rows of a decoder alone, whatever its templates were written as. -/
def readRows (digits : List Nibble) : List (List Segment × Opcode) → Option Instruction
  | [] => none
  | (segments, op) :: rows =>
    if fits (segments.flatMap Segment.pattern) digits then op.assemble? (Segment.operands segments digits)
    else readRows digits rows

theorem decode_eq_rows (d : Decoder) (w : Word) :
    (d.decode w).toOption = readRows w.nibbles (d.bindings.map fun b => (b.template.segments, b.opcode)) := by
  have h : (d.decode w).toOption = (d.operands? w).bind fun r => r.1.assemble? r.2 := by
    unfold decode
    cases (d.operands? w).bind fun r => r.1.assemble? r.2 <;> rfl
  rw [h, operands?, lookup?, Option.bind_map]
  induction d.bindings with
  | nil => rfl
  | cons b rest ih =>
    have hfits : b.template.accepts w = fits (b.template.segments.flatMap Segment.pattern) w.nibbles := rfl
    rw [List.find?_cons, List.map_cons, readRows, ← hfits, ← ih]
    cases b.template.accepts w <;> rfl

section Layouts

/-! The five layouts that the standard rows have, each read against four digits. -/

variable (a b c d p q r s : Nibble) (op : Opcode) (rows : List (List Segment × Opcode))

theorem readRows_fixed : readRows [a, b, c, d] (([.literal p, .literal q, .literal r, .literal s], op) :: rows) =
    if p = a ∧ q = b ∧ r = c ∧ s = d then op.assemble? [] else readRows [a, b, c, d] rows := by
  simp [readRows, fits, Segment.pattern, Segment.operands]

theorem readRows_address : readRows [a, b, c, d] (([.literal p, .operand .address], op) :: rows) =
    if p = a then op.assemble? [Word.ofNibbles [b, c, d]] else readRows [a, b, c, d] rows := by
  simp [readRows, fits, Segment.pattern, Segment.operands, Slot.width, List.replicate]

theorem readRows_byte :
    readRows [a, b, c, d] (([.literal p, .operand .register, .operand .byte], op) :: rows) =
      if p = a then op.assemble? [Word.ofNibbles [b], Word.ofNibbles [c, d]] else readRows [a, b, c, d] rows := by
  simp [readRows, fits, Segment.pattern, Segment.operands, Slot.width, List.replicate]

theorem readRows_registers :
    readRows [a, b, c, d] (([.literal p, .operand .register, .operand .register, .literal s], op) :: rows) =
      if p = a ∧ s = d then op.assemble? [Word.ofNibbles [b], Word.ofNibbles [c]]
      else readRows [a, b, c, d] rows := by
  simp [readRows, fits, Segment.pattern, Segment.operands, Slot.width]

theorem readRows_register :
    readRows [a, b, c, d] (([.literal p, .operand .register, .literal r, .literal s], op) :: rows) =
      if p = a ∧ r = c ∧ s = d then op.assemble? [Word.ofNibbles [b]] else readRows [a, b, c, d] rows := by
  simp [readRows, fits, Segment.pattern, Segment.operands, Slot.width]

theorem register_ofNibbles : (Word.ofNibbles [b]).toUInt8 % 16 = UInt8.ofNat b := by
  revert b; decide

theorem byte_ofNibbles : (Word.ofNibbles [c, d]).toUInt8 = UInt8.ofNat (0x10 * c + d) := by
  apply UInt8.toNat_inj.1
  simp [Word.ofNibbles]

theorem address_ofNibbles : Word.ofNibbles [b, c, d] % 4096 = UInt16.ofNat (0x100 * b + 0x10 * c + d) := by
  apply UInt16.toNat_inj.1
  have hb := b.isLt
  have hc := c.isLt
  have hd := d.isLt
  simp only [Word.ofNibbles, UInt16.toNat_ofNat', List.foldl_cons, List.foldl_nil, UInt16.toNat_mod,
    UInt16.reduceToNat]
  omega

/-- The rows of the standard set say what its reading by digits says. -/
theorem readRows_standard : readRows [a, b, c, d] standardRows =
    Instruction.ofWord? (0x1000 * a.val + 0x100 * b.val + 0x10 * c.val + d.val) := by
  have hb := b.isLt
  have hc := c.isLt
  have hd := d.isLt
  generalize hn : 0x1000 * a.val + 0x100 * b.val + 0x10 * c.val + d.val = n
  have h₁ : n / 0x1000 = a := by omega
  have h₂ : n / 0x100 % 0x10 = b := by omega
  have h₃ : n / 0x10 % 0x10 = c := by omega
  have h₄ : n % 0x10 = d := by omega
  have hkk : n % 0x100 = 0x10 * c + d := by omega
  have hnnn : n % 0x1000 = 0x100 * b + 0x10 * c + d := by omega
  simp only [Instruction.ofWord?, h₁, h₂, h₃, h₄, hkk, hnnn, standardRows, readRows_fixed, readRows_address,
    readRows_byte, readRows_registers, readRows_register, Opcode.assemble?, register_ofNibbles, byte_ofNibbles,
    address_ofNibbles]
  -- the first digit chooses the row, and where it is shared the last one or two do
  fin_cases a
  case «0» =>
    have h : (0 = b ∧ 14 = c ∧ 14 = d) ↔ n = 0x00EE := by simp only [Fin.ext_iff] at hn ⊢; omega
    simp [h, readRows]
  case «5» => fin_cases d <;> rfl
  case «8» => fin_cases d <;> rfl
  case «9» => fin_cases d <;> rfl
  case «15» =>
    have h₁ : (1 = c ∧ 14 = d) ↔ 0x10 * c.val + d.val = 0x1E := by simp only [Fin.ext_iff]; omega
    have h₂ : (5 = c ∧ 5 = d) ↔ 0x10 * c.val + d.val = 0x55 := by simp only [Fin.ext_iff]; omega
    have h₃ : (6 = c ∧ 5 = d) ↔ 0x10 * c.val + d.val = 0x65 := by simp only [Fin.ext_iff]; omega
    simp [h₁, h₂, h₃, readRows]
  all_goals rfl

end Layouts

theorem exists_standard : ∃ d, standard = .ok d := by
  cases hd : standard with
  | error f =>
    have hrows := standard_rows
    rw [hd] at hrows
    cases hrows
  | ok d => exact ⟨d, rfl⟩

theorem decode_standard_iff {d : Decoder} (hd : standard = .ok d) (w : Word) (i : Instruction) :
    d.decode w = .ok i ↔ Instruction.ofWord? w.toNat = some i := by
  have hrows : d.bindings.map (fun b => (b.template.segments, b.opcode)) = standardRows := by
    have h := standard_rows
    rw [hd] at h
    exact Option.some.inj h
  have hw : (d.decode w).toOption = Instruction.ofWord? w.toNat := by
    rw [decode_eq_rows, hrows, Word.nibbles, readRows_standard]
    have := w.toNat_lt
    congr 1
    simp only [Fin.ofNat]
    omega
  rw [← hw]
  cases d.decode w <;> simp [Except.toOption]

end Decoder

namespace Interpreter

/-- There is a standard interpreter for all settings without defects, and it is as they say. -/
theorem ofSettings_eq_ok_iff {s : Settings} {cpu : Interpreter} : ofSettings s = .ok cpu ↔
    s.defect? = none ∧ ∃ d, Decoder.standard = .ok d ∧ cpu = ⟨d, s.addressing, s.shiftFlag, s.incrementIndex⟩ := by
  obtain ⟨d, hd⟩ := Decoder.exists_standard
  rw [ofSettings, hd]
  change ofDecoder s d = .ok cpu ↔ _
  rw [ofDecoder]
  cases s.defect? <;> simp [eq_comm]

theorem decoder_of_ofSettings {s : Settings} {cpu : Interpreter} (h : ofSettings s = .ok cpu) :
    Decoder.standard = .ok cpu.decoder := by
  obtain ⟨-, d, hd, rfl⟩ := ofSettings_eq_ok_iff.1 h
  exact hd

theorem modes_of_ofSettings {s : Settings} {cpu : Interpreter} (h : ofSettings s = .ok cpu) :
    cpu.addressing = s.addressing ∧ cpu.shiftFlag = s.shiftFlag ∧ cpu.incrementIndex = s.incrementIndex := by
  obtain ⟨-, d, -, rfl⟩ := ofSettings_eq_ok_iff.1 h
  exact ⟨rfl, rfl, rfl⟩

theorem exists_ofSettings {s : Settings} (h : s.defect? = none) : ∃ cpu, ofSettings s = .ok cpu := by
  obtain ⟨d, hd⟩ := Decoder.exists_standard
  exact ⟨_, ofSettings_eq_ok_iff.2 ⟨h, d, hd, rfl⟩⟩

/-- An interpreter of the standard set is as its settings say, and it carries out the row of the word in
full and nothing else. -/
theorem dispatch_standard_iff {s : Settings} {cpu : Interpreter} (hcpu : ofSettings s = .ok cpu) (word : Word)
    (w w' : World) (d : Dispatched) :
    (cpu.addressing = s.addressing ∧ cpu.shiftFlag = s.shiftFlag ∧ cpu.incrementIndex = s.incrementIndex) ∧
      (cpu.dispatch word w = (.ok d, w') ↔ d.pc = w.machine.pc ∧ d.word = word ∧
        Instruction.ofWord? word.toNat = some d.instruction ∧
        cpu.effect w.view d.instruction = some (d.step, w'.view)) := by
  refine ⟨modes_of_ofSettings hcpu, ?_⟩
  rw [dispatch_eq_ok_iff, Decoder.decode_standard_iff (decoder_of_ofSettings hcpu)]

/-- An addition whose result and flag go to the same register leaves the flag there. -/
theorem dispatch_standard_add_flag :
    let m := ((Machine.fresh Memory.blank).setRegister 15 200).setRegister 14 100
    let w : World := ⟨m, { word := fun _ => 0 }⟩
    ∃ cpu, ofSettings { shiftFlag := .operand } = .ok cpu ∧
      (cpu.addressing = .words ∧ cpu.shiftFlag = .operand ∧ cpu.incrementIndex = false) ∧
      cpu.dispatch 0x8FE4 w =
        (.ok ⟨0, 0x8FE4, .addReg 15 14, .next⟩, { w with machine := (m.setRegister 15 44).setFlag 1 }) := by
  intro m w
  obtain ⟨cpu, hcpu⟩ := exists_ofSettings (s := { shiftFlag := .operand }) (by rfl)
  refine ⟨cpu, hcpu, (dispatch_standard_iff hcpu 0x8FE4 w w ⟨0, 0x8FE4, .addReg 15 14, .next⟩).1,
    (dispatch_standard_iff hcpu _ _ _ _).2.2 ⟨rfl, rfl, by rfl, ?_⟩⟩
  have hx : w.view.v 15 = 200 := by rfl
  have hy : w.view.v 14 = 100 := by rfl
  have hsum : cpu.effect w.view (.addReg 15 14) = some (.next, w.view.report 15 44 1) := by
    change some (Step.next, w.view.report 15 ((w.view.v 15 + w.view.v 14) % 256) (if _ then _ else _)) = _
    rw [hx, hy]
    rfl
  rw [hsum]
  exact congrArg (fun t => some (Step.next, t)) (w.view_report 15 44 1 (by decide)).symm

end Interpreter
end Chip8
