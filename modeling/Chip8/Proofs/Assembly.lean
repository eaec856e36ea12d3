import Chip8.Interpreter
import Chip8.Proofs.Rendering

/-! What a disassembly tells. Its words are a mnemonic and operands, and from these the instruction is put together
again, all but the register that a shift does not use. So no two instructions that differ in more than that are written
alike, and what stands beside them in a line of a trace is told as well. -/

namespace Chip8

namespace Word

theorem length_text (w : Word) : w.text.length = 4 := Hex.length_upper (by decide) w.toNat_lt

theorem text_injective : Function.Injective text := by
  intro w v h
  have hread := w.ofText?_text
  rw [h, v.ofText?_text] at hread
  exact (Option.some.inj hread).symm

end Word

/-- An operand as a disassembly shows it. -/
inductive Operand
  | register (x : UInt8)
  | byte (k : UInt8)
  | address (n : UInt16)
  /-- The index. -/
  | index
  /-- The memory from the index on. -/
  | block

namespace Operand

def text : Operand → String
  | register x => "V" ++ Hex.upper 1 x.toNat
  | byte k => "0x" ++ Hex.upper 2 k.toNat
  | address n => "0x" ++ Hex.upper 3 n.toNat
  | index => "I"
  | block => "[I]"

/-- The operand that a word shows. A byte has two digits, and an address more. -/
def ofText? : List Char → Option Operand
  | ['I'] => some index
  | ['[', 'I', ']'] => some block
  | 'V' :: ds => some (register (UInt8.ofNat (Hex.number ds)))
  | ['0', 'x', a, b] => some (byte (UInt8.ofNat (Hex.number [a, b])))
  | '0' :: 'x' :: ds => some (address (UInt16.ofNat (Hex.number ds)))
  | _ => none

theorem ofText?_text (o : Operand) : ofText? o.text.toList = some o := by
  cases o with
  | index | block => rfl
  | register x =>
    rw [text, String.toList_append]
    change some (register (UInt8.ofNat (Hex.number (Hex.upper 1 x.toNat).toList))) = _
    rw [Hex.number_upper, UInt8.ofNat_toNat]
  | byte k =>
    have hlength : (Hex.upper 2 k.toNat).toList.length = 2 :=
      String.length_toList.trans (Hex.length_upper (by decide) k.toNat_lt)
    have hnumber := Hex.number_upper 2 k.toNat
    rw [text, String.toList_append]
    generalize (Hex.upper 2 k.toNat).toList = ds at hlength hnumber
    obtain ⟨a, b, rfl⟩ := List.length_eq_two.1 hlength
    change some (byte (UInt8.ofNat (Hex.number [a, b]))) = _
    rw [hnumber, UInt8.ofNat_toNat]
  | address n =>
    have hlength : 3 ≤ (Hex.upper 3 n.toNat).toList.length :=
      Nat.le_trans (Hex.le_length_upper 3 n.toNat) (Nat.le_of_eq String.length_toList.symm)
    have hnumber := Hex.number_upper 3 n.toNat
    rw [text, String.toList_append]
    generalize (Hex.upper 3 n.toNat).toList = ds at hlength hnumber
    match ds, hlength with
    | a :: b :: c :: ds, _ =>
      change some (address (UInt16.ofNat (Hex.number (a :: b :: c :: ds)))) = _
      rw [hnumber, UInt16.ofNat_toNat]

end Operand

namespace Instruction

/-- The operands that a disassembly shows. -/
def operands : Instruction → List Operand
  | ret => []
  | call nnn => [.address nnn]
  | loadIndex nnn => [.index, .address nnn]
  | jumpOffset nnn => [.register 0, .address nnn]
  | addIndex x => [.index, .register x]
  | storeRegs x => [.block, .register x]
  | loadRegs x => [.register x, .block]
  | skipEqImm x kk | skipNeImm x kk | loadImm x kk | addImm x kk | random x kk => [.register x, .byte kk]
  | skipEqReg x y | skipNeReg x y | move x y | or x y | and x y | xor x y | addReg x y | sub x y
  | subNeg x y => [.register x, .register y]
  | shiftRight x _ | shiftLeft x _ => [.register x]

/-- The instruction that is written with a mnemonic and operands. -/
def assemble? (mnemonic : String) (operands : List Operand) : Option Instruction :=
  match mnemonic, operands with
  | "RET", [] => some .ret
  | "CALL", [.address nnn] => some (.call nnn)
  | "SE", [.register x, .byte kk] => some (.skipEqImm x kk)
  | "SE", [.register x, .register y] => some (.skipEqReg x y)
  | "SNE", [.register x, .byte kk] => some (.skipNeImm x kk)
  | "SNE", [.register x, .register y] => some (.skipNeReg x y)
  | "LD", [.register x, .byte kk] => some (.loadImm x kk)
  | "LD", [.register x, .register y] => some (.move x y)
  | "LD", [.index, .address nnn] => some (.loadIndex nnn)
  | "LD", [.block, .register x] => some (.storeRegs x)
  | "LD", [.register x, .block] => some (.loadRegs x)
  | "ADD", [.register x, .byte kk] => some (.addImm x kk)
  | "ADD", [.register x, .register y] => some (.addReg x y)
  | "ADD", [.index, .register x] => some (.addIndex x)
  | "OR", [.register x, .register y] => some (.or x y)
  | "AND", [.register x, .register y] => some (.and x y)
  | "XOR", [.register x, .register y] => some (.xor x y)
  | "SUB", [.register x, .register y] => some (.sub x y)
  | "SUBN", [.register x, .register y] => some (.subNeg x y)
  | "SHR", [.register x] => some (.shiftRight x 0)
  | "SHL", [.register x] => some (.shiftLeft x 0)
  | "JP", [.register 0, .address nnn] => some (.jumpOffset nnn)
  | "RND", [.register x, .byte kk] => some (.random x kk)
  | _, _ => none

/-- The instruction without what its disassembly leaves out. -/
def shown : Instruction → Instruction
  | shiftRight x _ => shiftRight x 0
  | shiftLeft x _ => shiftLeft x 0
  | i => i

theorem assemble?_operands (i : Instruction) : assemble? i.opcode.mnemonic i.operands = some i.shown := by
  cases i <;> rfl

theorem disassemble_shown (i : Instruction) : i.shown.disassemble = i.disassemble := by
  cases i <;> rfl

theorem disassemble_eq (i : Instruction) :
    i.disassemble = if i.operands = [] then i.opcode.mnemonic
      else i.opcode.mnemonic ++ " " ++ ", ".intercalate (i.operands.map Operand.text) := by
  have hzero : Hex.upper 1 0 = "0" := rfl
  rw [← String.toList_inj]
  cases i <;> simp [disassemble, operands, Operand.text, String.intercalate_cons_cons, toString, hzero]

end Instruction

/-! ### Reading a disassembly back -/

namespace Assembly

/-- What keeps the words of a line apart. -/
def isMark (c : Char) : Bool := c == ' ' || c == ','

def words (line : List Char) : List (List Char) := (line.splitOnP isMark).filter (!·.isEmpty)

structure IsWord (s : String) : Prop where
  nonempty : s.toList ≠ []
  unmarked : ∀ c ∈ s.toList, isMark c = false

theorem words_append_cons (a b : List Char) {c : Char} (hc : isMark c = true) :
    words (a ++ c :: b) = words a ++ words b := by
  rw [words, List.splitOnP_append_cons a b hc, List.filter_append]
  rfl

theorem IsWord.words_eq {s : String} (h : IsWord s) : words s.toList = [s.toList] := by
  rw [words, List.splitOnP_eq_singleton h.unmarked, List.filter_cons_of_pos (by simpa using h.nonempty)]
  rfl

theorem words_intercalate {ts : List String} (h : ∀ t ∈ ts, IsWord t) :
    words (", ".intercalate ts).toList = ts.map String.toList := by
  induction ts with
  | nil => rfl
  | cons t ts ih =>
    obtain ⟨ht, hts⟩ := List.forall_mem_cons.1 h
    cases ts with
    | nil => rw [String.intercalate_singleton, ht.words_eq, List.map_singleton]
    | cons u ts =>
      -- between a comma and the blank after it stands an empty word, which does not count
      have hsplit : (", ".intercalate (t :: u :: ts)).toList =
          t.toList ++ ',' :: ([] ++ ' ' :: (", ".intercalate (u :: ts)).toList) := by
        rw [String.intercalate_cons_cons, String.toList_append, String.toList_append, List.append_assoc]
        rfl
      rw [hsplit, words_append_cons _ _ rfl, words_append_cons _ _ rfl, ht.words_eq, ih hts]
      rfl

theorem isWord_mnemonic (op : Opcode) : IsWord op.mnemonic := by
  cases op <;> exact ⟨by decide, List.all_iff_forall_prop.1 (by decide)⟩

theorem isWord_text (o : Operand) : IsWord o.text := by
  have hdigit : ∀ w n, ∀ c ∈ (Hex.upper w n).toList, isMark c = false := Hex.forall_mem_upper (by decide)
  cases o with
  | index | block => exact ⟨by decide, List.all_iff_forall_prop.1 (by decide)⟩
  | _ =>
    refine ⟨by simp [Operand.text], ?_⟩
    rw [Operand.text, String.toList_append]
    exact List.forall_mem_append.2 ⟨List.all_iff_forall_prop.1 (by decide), hdigit _ _⟩

theorem words_disassemble (i : Instruction) :
    words i.disassemble.toList = i.opcode.mnemonic.toList :: i.operands.map (·.text.toList) := by
  have hmnemonic := (isWord_mnemonic i.opcode).words_eq
  rw [i.disassemble_eq]
  split
  · next h => rw [hmnemonic, h, List.map_nil]
  · have htexts : ∀ t ∈ i.operands.map Operand.text, IsWord t := List.forall_mem_map.2 fun o _ => isWord_text o
    rw [String.append_assoc, String.toList_append, String.toList_append]
    change words (_ ++ ' ' :: (", ".intercalate _).toList) = _
    rw [words_append_cons _ _ rfl, hmnemonic, words_intercalate htexts, List.map_map]
    rfl

/-- The instruction that the words of a line stand for. -/
def ofWords? : List (List Char) → Option Instruction
  | [] => none
  | m :: ws => (ws.mapM Operand.ofText?).bind (Instruction.assemble? (String.ofList m))

theorem mapM_ofText?_text (os : List Operand) : (os.map (·.text.toList)).mapM Operand.ofText? = some os := by
  rw [List.mapM_map, Machine.mapM_eq_some (g := id) fun o _ => o.ofText?_text, List.map_id]

/-- Disassembling loses no more than what it leaves out. -/
theorem ofWords?_disassemble (i : Instruction) : ofWords? (words i.disassemble.toList) = some i.shown := by
  rw [words_disassemble, ofWords?, mapM_ofText?_text, Option.bind_some, String.ofList_toList, i.assemble?_operands]

/-- A line with the mark of a skip stands for no instruction. -/
theorem ofWords?_disassemble_skip (i : Instruction) :
    ofWords? (words (i.disassemble ++ "  (skip)").toList) = none := by
  have hwords : words (i.disassemble ++ "  (skip)").toList = words i.disassemble.toList ++ ["(skip)".toList] := by
    rw [String.toList_append]
    change words (_ ++ ' ' :: _) = _
    rw [words_append_cons _ _ rfl]
    rfl
  rw [hwords, words_disassemble, List.cons_append, ofWords?, List.mapM_append, mapM_ofText?_text]
  rfl

end Assembly

/-! ### What is written alike -/

namespace Instruction

/-- Instructions that differ in nothing but the second register of a shift. -/
inductive Alike : Instruction → Instruction → Prop
  | refl (i : Instruction) : Alike i i
  | shiftRight (x y y' : UInt8) : Alike (shiftRight x y) (shiftRight x y')
  | shiftLeft (x y y' : UInt8) : Alike (shiftLeft x y) (shiftLeft x y')

variable {i j k : Instruction}

theorem Alike.symm (h : Alike i j) : Alike j i := by
  cases h with
  | refl => exact .refl _
  | shiftRight x y y' => exact .shiftRight x y' y
  | shiftLeft x y y' => exact .shiftLeft x y' y

theorem Alike.trans (hij : Alike i j) (hjk : Alike j k) : Alike i k := by
  cases hij with
  | refl => exact hjk
  | shiftRight x y =>
    cases hjk with
    | refl => exact .shiftRight x y _
    | shiftRight _ _ z => exact .shiftRight x y z
  | shiftLeft x y =>
    cases hjk with
    | refl => exact .shiftLeft x y _
    | shiftLeft _ _ z => exact .shiftLeft x y z

theorem alike_shown (i : Instruction) : Alike i i.shown := by
  cases i with
  | shiftRight x y => exact .shiftRight x y 0
  | shiftLeft x y => exact .shiftLeft x y 0
  | _ => exact .refl _

theorem shown_eq_iff : i.shown = j.shown ↔ Alike i j := by
  constructor
  · intro h
    have hshown : Alike i.shown j := h ▸ j.alike_shown.symm
    exact i.alike_shown.trans hshown
  · rintro (_ | _ | _) <;> rfl

theorem disassemble_eq_iff : i.disassemble = j.disassemble ↔ Alike i j := by
  rw [← shown_eq_iff]
  constructor
  · intro h
    have hread := Assembly.ofWords?_disassemble i
    rw [h, Assembly.ofWords?_disassemble] at hread
    exact (Option.some.inj hread).symm
  · intro h
    rw [← i.disassemble_shown, h, j.disassemble_shown]

theorem disassemble_skip_ne (i j : Instruction) : i.disassemble ++ "  (skip)" ≠ j.disassemble := by
  intro h
  have hread := Assembly.ofWords?_disassemble_skip i
  rw [h, Assembly.ofWords?_disassemble] at hread
  cases hread

end Instruction

namespace Dispatched

/-- An instruction with the mark of a skip after it, if one was taken. -/
def ending (i : Instruction) (s : Step) : String := i.disassemble ++ if s = .skip then "  (skip)" else ""

theorem ending_skip (i : Instruction) : ending i .skip = i.disassemble ++ "  (skip)" := rfl

theorem ending_of_ne (i : Instruction) {s : Step} (h : s ≠ .skip) : ending i s = i.disassemble := by
  rw [ending, if_neg h, String.append_empty]

theorem ending_eq_iff {i j : Instruction} {s t : Step} :
    ending i s = ending j t ↔ (s = .skip ↔ t = .skip) ∧ i.Alike j := by
  by_cases hs : s = .skip <;> by_cases ht : t = .skip
  · rw [hs, ht, ending_skip, ending_skip, String.append_left_inj, Instruction.disassemble_eq_iff]
    exact (and_iff_right Iff.rfl).symm
  · rw [hs, ending_skip, ending_of_ne j ht]
    exact iff_of_false (Instruction.disassemble_skip_ne i j) fun h => ht (h.1.1 rfl)
  · rw [ht, ending_skip, ending_of_ne i hs]
    exact iff_of_false (Instruction.disassemble_skip_ne j i).symm fun h => hs (h.1.2 rfl)
  · rw [ending_of_ne i hs, ending_of_ne j ht, Instruction.disassemble_eq_iff]
    exact (and_iff_right (iff_of_false hs ht)).symm

theorem line_eq (d : Dispatched) :
    d.line = Hex.lower 4 d.pc.toNat ++ ("  " ++ (d.word.text ++ ("  " ++ ending d.instruction d.step))) := by
  unfold line ending
  simp only [toString, String.append_assoc]

theorem line_eq_iff {d e : Dispatched} :
    d.line = e.line ↔
      d.pc = e.pc ∧ d.word = e.word ∧ (d.step = .skip ↔ e.step = .skip) ∧ d.instruction.Alike e.instruction := by
  rw [line_eq, line_eq, ← ending_eq_iff]
  constructor
  · intro h
    obtain ⟨hpc, hrest⟩ := append_inj_of_length ((length_lower_four _).trans (length_lower_four _).symm) h
    obtain ⟨hword, hrest⟩ := append_inj_of_length (d.word.length_text.trans e.word.length_text.symm)
      ((String.append_right_inj _).1 hrest)
    exact ⟨lower_four_inj.1 hpc, Word.text_injective hword, (String.append_right_inj _).1 hrest⟩
  · rintro ⟨hpc, hword, hending⟩
    rw [hpc, hword, hending]

/-- Instructions are written alike just if they are the same, the second register of a shift apart, whatever their
fields hold. Lines of a trace are alike just if besides they agree in the counter, the word and whether a skip was
taken. -/
theorem disassembly_unambiguous :
    (∀ i j : Instruction, i.disassemble = j.disassemble ↔ i.Alike j) ∧
      ∀ d e : Dispatched, d.line = e.line ↔
        d.pc = e.pc ∧ d.word = e.word ∧ (d.step = .skip ↔ e.step = .skip) ∧ d.instruction.Alike e.instruction :=
  ⟨fun _ _ => Instruction.disassemble_eq_iff, fun _ _ => line_eq_iff⟩

end Dispatched
end Chip8
