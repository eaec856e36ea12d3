import Chip8.Proofs.Checked
import Chip8.Proofs.Refusal
import Chip8.Proofs.Unambiguous

/-! How instructions fail. A word is unknown just if no template accepts it. One that is read fails on the stack or
on memory, and only where these leave it no room, and an instruction made by hand fails on its registers first. -/

namespace Chip8

/-- The numbers of the registers that an instruction names. -/
def Instruction.registers (i : Instruction) : List Nat :=
  (i.fields.filter fun field => field.1 ∈ ["x", "y"]).map Prod.snd

/-- The faults of an instruction whose registers exist. The sums are those of integers. -/
inductive Meets (m : Machine) : Instruction → Fault → Prop
  | overflow {nnn} : 16 ≤ (m.sp.toNat + 1) % 256 → Meets m (.call nnn) .stackOverflow
  | underflow : 16 ≤ m.sp.toNat → Meets m .ret .stackUnderflow
  | store {x} : m.memory.size < m.i.toNat + x.toNat + 1 → Meets m (.storeRegs x) (.outOfBounds m.i (x.toNat + 1))
  | load {x} : m.memory.size < m.i.toNat + x.toNat + 1 → Meets m (.loadRegs x) (.outOfBounds m.i (x.toNat + 1))

theorem meets_iff {w : World} {i : Instruction} {f : Fault} : Meets w.machine i f ↔ i.fault? w.view = some f := by
  have hindex : UInt16.ofNat w.view.i = w.machine.i := UInt16.ofNat_toNat
  refine ⟨fun h => ?_, ?_⟩
  · cases h with
    | overflow h => exact Instruction.fault?_call.2 ⟨h, rfl⟩
    | underflow h => exact Instruction.fault?_ret.2 ⟨h, rfl⟩
    | store h => exact (Instruction.fault?_transfer (.inl rfl)).2 ⟨Nat.le_of_lt_succ h, by rw [hindex]⟩
    | load h => exact (Instruction.fault?_transfer (.inr rfl)).2 ⟨Nat.le_of_lt_succ h, by rw [hindex]⟩
  · intro h
    cases i with
    | call nnn =>
      obtain ⟨hfault, rfl⟩ := Instruction.fault?_call.1 h
      exact .overflow hfault
    | ret =>
      obtain ⟨hfault, rfl⟩ := Instruction.fault?_ret.1 h
      exact .underflow hfault
    | storeRegs x =>
      obtain ⟨hfault, rfl⟩ := (Instruction.fault?_transfer (.inl rfl)).1 h
      rw [hindex]
      exact .store (Nat.lt_succ_of_le hfault)
    | loadRegs x =>
      obtain ⟨hfault, rfl⟩ := (Instruction.fault?_transfer (.inr rfl)).1 h
      rw [hindex]
      exact .load (Nat.lt_succ_of_le hfault)
    | _ => cases h

theorem Meets.ne_noSuchRegister {m : Machine} {i : Instruction} {f : Fault} (h : Meets m i f) (r : UInt8) :
    f ≠ .noSuchRegister r := by
  cases h <;> nofun

namespace Instruction

theorem toNat_max (x y : UInt8) : (max x y).toNat = max x.toNat y.toNat := by
  have hmax : max x y = if x ≤ y then y else x := rfl
  rw [hmax, Nat.max_def]
  simp only [UInt8.le_iff_toNat_le]
  split <;> rfl

theorem max?_registers (i : Instruction) : i.registers.max? = i.highestRegister?.map UInt8.toNat := by
  cases i <;> simp [registers, fields, highestRegister?, toNat_max]

theorem registers_lt_iff {i : Instruction} : (∀ x ∈ i.registers, x < 16) ↔ ∀ r ∈ i.highestRegister?, r < 16 := by
  cases i <;> simp [registers, fields, highestRegister?, UInt8.lt_iff_toNat_lt, toNat_max]

end Instruction

namespace Interpreter

variable {cpu : Interpreter} {i : Instruction} {w w' : World} {word : Word}

theorem apply_of_missing {r : UInt8} (h : i.highestRegister? = some r) (hr : 16 ≤ r) :
    cpu.apply i w = (.error (.noSuchRegister r), w) := by
  rw [apply, h]
  exact if_pos hr

theorem missing_or_lt (i : Instruction) :
    (∃ r, i.highestRegister? = some r ∧ 16 ≤ r) ∨ ∀ r ∈ i.highestRegister?, r < 16 := by
  by_cases h : ∀ r ∈ i.highestRegister?, r < 16
  · exact .inr h
  · push Not at h
    exact .inl (h.imp fun r hr => ⟨hr.1, UInt8.not_lt.1 hr.2⟩)

/-- An instruction is refused for its registers just if the highest of them does not exist. -/
theorem apply_eq_noSuchRegister_iff {r : UInt8} : cpu.apply i w = (.error (.noSuchRegister r), w') ↔
    w' = w ∧ i.registers.max? = some r.toNat ∧ 16 ≤ r.toNat := by
  have hmax : i.registers.max? = some r.toNat ↔ i.highestRegister? = some r := by
    rw [Instruction.max?_registers, Option.map_eq_some_iff]
    simp [UInt8.toNat_inj]
  rw [hmax]
  rcases missing_or_lt i with ⟨s, hs, hlarge⟩ | hreg
  · rw [apply_of_missing hs hlarge, hs]
    have hlarge' : 16 ≤ s.toNat := UInt8.le_iff_toNat_le.1 hlarge
    refine ⟨fun h => ?_, ?_⟩
    · obtain ⟨rfl, rfl⟩ : s = r ∧ w = w' := by simpa using h
      exact ⟨rfl, rfl, hlarge'⟩
    · rintro ⟨rfl, hsr, -⟩
      rw [Option.some.inj hsr]
  · rw [apply_eq_error_iff hreg, ← meets_iff]
    constructor
    · rintro ⟨hmeets, -⟩
      exact absurd rfl (hmeets.ne_noSuchRegister r)
    · rintro ⟨-, hr, hlarge⟩
      exact absurd (UInt8.lt_iff_toNat_lt.1 (hreg r hr)) (Nat.not_lt_of_le hlarge)

/-- Any other fault comes of an instruction whose registers exist. -/
theorem apply_eq_fault_iff {f : Fault} (hf : ∀ r, f ≠ .noSuchRegister r) : cpu.apply i w = (.error f, w') ↔
    w' = w ∧ (∀ x ∈ i.registers, x < 16) ∧ Meets w.machine i f := by
  rw [Instruction.registers_lt_iff]
  rcases missing_or_lt i with ⟨s, hs, hlarge⟩ | hreg
  · rw [apply_of_missing hs hlarge]
    refine ⟨fun h => ?_, ?_⟩
    · obtain ⟨rfl, -⟩ : .noSuchRegister s = f ∧ w = w' := by simpa using h
      exact absurd rfl (hf s)
    · rintro ⟨-, hreg, -⟩
      exact absurd (hreg s hs) (UInt8.not_lt.2 hlarge)
  · rw [apply_eq_error_iff hreg, meets_iff, and_comm, and_iff_right hreg]

theorem dispatch_eq_error_iff {f : Failure} (h : cpu.decoder.decode word = .ok i) :
    cpu.dispatch word w = (.error f, w') ↔
      w' = w ∧ ∃ fault, Meets w.machine i fault ∧ f = .fault w.machine.pc word fault := by
  have hreg := Decoder.register_lt_of_decode h
  rw [dispatch_of_decode h]
  refine ⟨fun hdispatch => ?_, ?_⟩
  · cases happly : cpu.apply i w with
    | mk r u =>
      rw [happly] at hdispatch
      cases r with
      | ok step => cases hdispatch
      | error fault =>
        obtain ⟨hfault, rfl⟩ := (apply_eq_error_iff hreg).1 happly
        cases hdispatch
        exact ⟨rfl, fault, meets_iff.2 hfault, rfl⟩
  · rintro ⟨rfl, fault, hmeets, rfl⟩
    rw [(apply_eq_error_iff hreg).2 ⟨meets_iff.1 hmeets, rfl⟩]

theorem dispatch_eq_unknown_iff {unknown : Word} :
    cpu.dispatch word w = (.error (.unknownInstruction unknown), w') ↔
      w' = w ∧ unknown = word ∧ cpu.decoder.decode word = .error (.unknownInstruction word) := by
  cases h : cpu.decoder.decode word with
  | error f =>
    obtain rfl := Decoder.error_of_decode h
    rw [dispatch_of_decode_error h]
    simp [eq_comm, and_comm]
  | ok i =>
    rw [dispatch_eq_error_iff h]
    simp

theorem accepts_eq_false_iff {definitions : List (String × Opcode)} {d : Decoder}
    (h : List.Forall₂ Binding.Defines definitions d.bindings) (word : Word) :
    (∀ b ∈ d.bindings, b.template.accepts word = false) ↔
      ∀ p ∈ definitions, ∀ t, Template.compile p.1 = .ok t → t.accepts word = false := by
  constructor
  · intro hb p hp t ht
    obtain ⟨b, hmem, hdef⟩ := Decoder.exists_of_forall₂ h hp
    cases ht.symm.trans hdef.template
    exact hb b hmem
  · intro hp b hb
    obtain ⟨p, hmem, hdef⟩ := Decoder.exists_of_forall₂ h.flip hb
    exact hp p hmem b.template hdef.template

/-- What can go wrong with a word and with an instruction, for the definitions that a decoder was made from. -/
theorem failures_diagnosed {definitions : List (String × Opcode)}
    (h : Decoder.ofDefinitions definitions = .ok cpu.decoder) (w : World) :
    (∀ word unknown w', cpu.dispatch word w = (.error (.unknownInstruction unknown), w') ↔
      w' = w ∧ unknown = word ∧
        ∀ p ∈ definitions, ∀ t, Template.compile p.1 = .ok t → t.accepts word = false) ∧
    (∀ p ∈ definitions, ∀ t, Template.compile p.1 = .ok t → ∀ word, t.accepts word = true →
      ∃ i, p.2.assemble? (t.operands word) = some i ∧ ∀ f w', cpu.dispatch word w = (.error f, w') ↔
        w' = w ∧ ∃ fault, Meets w.machine i fault ∧ f = .fault w.machine.pc word fault) ∧
    (∀ word r pc found w', cpu.dispatch word w ≠ (.error (.fault pc found (.noSuchRegister r)), w')) ∧
    ∀ i, (∀ r w', cpu.apply i w = (.error (.noSuchRegister r), w') ↔
        w' = w ∧ i.registers.max? = some r.toNat ∧ 16 ≤ r.toNat) ∧
      (∀ f, (∀ r, f ≠ .noSuchRegister r) → ∀ w', cpu.apply i w = (.error f, w') ↔
        w' = w ∧ (∀ x ∈ i.registers, x < 16) ∧ Meets w.machine i f) ∧
      cpu.applyChecked i w = some (cpu.apply i w) := by
  have hreads := Decoder.readsOnce_of_ofDefinitions h
  refine ⟨fun word unknown w' => ?_, fun p hp t ht word hword => ?_, fun word r pc found w' hdispatch => ?_,
    fun i => ⟨fun r w' => apply_eq_noSuchRegister_iff, fun f hf w' => apply_eq_fault_iff hf, applyChecked_eq cpu i w⟩⟩
  · rw [dispatch_eq_unknown_iff, hreads.unknown, accepts_eq_false_iff hreads.bindings]
  · obtain ⟨b, hb, hdef⟩ := Decoder.exists_of_forall₂ hreads.bindings hp
    cases ht.symm.trans hdef.template
    obtain ⟨i, hi, hdecode⟩ := hreads.known b hb word hword
    exact ⟨i, hdef.opcode ▸ hi, fun f w' => dispatch_eq_error_iff hdecode⟩
  · cases hdecode : cpu.decoder.decode word with
    | error f =>
      rw [dispatch_of_decode_error hdecode, Decoder.error_of_decode hdecode] at hdispatch
      cases hdispatch
    | ok i =>
      obtain ⟨-, fault, hmeets, hfault⟩ := (dispatch_eq_error_iff hdecode).1 hdispatch
      cases hfault
      exact hmeets.ne_noSuchRegister r rfl

/-- With sixteen return addresses on the stack a call fails, and without register 200 a move from it. -/
theorem failures_diagnosed_call :
    ∃ d, Decoder.ofDefinitions [("2nnn", .call), ("00EE", .ret)] = .ok d ∧
      ∀ w : World, w.machine.sp = 15 →
        (Interpreter.mk d .bytes .register false).dispatch 0x2345 w =
          (.error (.fault w.machine.pc 0x2345 .stackOverflow), w) ∧
        (Interpreter.mk d .bytes .register false).apply (.move 3 200) w = (.error (.noSuchRegister 200), w) := by
  let t : Template := ⟨"2nnn", [.literal 0x2, .operand .address], rfl⟩
  let d : Decoder := ⟨[⟨t, .call⟩, ⟨⟨"00EE", [.literal 0x0, .literal 0x0, .literal 0xE, .literal 0xE], rfl⟩, .ret⟩]⟩
  have hd : Decoder.ofDefinitions [("2nnn", .call), ("00EE", .ret)] = .ok d := by cbv
  refine ⟨d, hd, fun w hsp => ?_⟩
  have hcpu : Decoder.ofDefinitions _ = .ok (Interpreter.mk d .bytes .register false).decoder := hd
  obtain ⟨-, hknown, -, happly⟩ := failures_diagnosed hcpu w
  obtain ⟨i, hi, hdispatch⟩ := hknown ("2nnn", .call) (by simp) t (by cbv) 0x2345 (by decide)
  obtain rfl : .call 0x345 = i := Option.some.inj hi
  have hfull : 16 ≤ (w.machine.sp.toNat + 1) % 256 := by rw [hsp]; decide
  exact ⟨(hdispatch _ _).2 ⟨rfl, .stackOverflow, .overflow hfull, rfl⟩,
    ((happly (.move 3 200)).1 200 w).2 ⟨rfl, by decide, by decide⟩⟩

end Interpreter
end Chip8
