import Chip8.Proofs.Brackets
import Chip8.Proofs.Straight

/-! Words and instructions moved from a listing to an image. Positions become addresses, and calls are
rewritten to match. A view that is moved with them stays so under every instruction but jumps, which go
where their registers say, and block transfers, for which memory would have to be the same. -/

namespace Chip8

open Function (update update_self update_of_ne)

/-- Where an image has the word that a listing has at a position. -/
def relocateAddr (p : UInt16) : UInt16 := defaultProgramAddr + 2 * p

/-- The word with the target of a call relocated. -/
def Word.relocate (w : Word) : Word :=
  if w.toNat / 0x1000 = 2 then UInt16.ofNat (0x2000 + (0x200 + 2 * (w.toNat % 0x1000))) else w

namespace Instruction

/-- Works the same in an image: it is no jump and no block transfer, and what it calls has an address of twelve bits. -/
def Relocatable : Instruction → Prop
  | .jumpOffset _ | .storeRegs _ | .loadRegs _ => False
  | .call nnn => nnn ≤ 0x6FF
  | _ => True

def relocate : Instruction → Instruction
  | .call nnn => .call (relocateAddr nnn)
  | i => i

theorem Relocatable.cases {i : Instruction} (h : i.Relocatable) :
    i.Straight ∨ i = .ret ∨ ∃ nnn ≤ 0x6FF, i = .call nnn := by
  cases i with
  | jumpOffset | storeRegs | loadRegs => exact h.elim
  | call nnn => exact .inr (.inr ⟨nnn, h, rfl⟩)
  | ret => exact .inr (.inl rfl)
  | _ => exact .inl trivial

end Instruction

def Dispatched.relocate (d : Dispatched) : Dispatched where
  pc := relocateAddr d.pc
  word := d.word.relocate
  instruction := d.instruction.relocate
  step := d.step

/-- The failure of an image for that of its listing: the fault is the same, in another place. -/
def Failure.relocate : Failure → Failure
  | .fault pc word f => .fault (relocateAddr pc) word.relocate f
  | f => f

theorem toNat_relocateAddr (p : UInt16) : (relocateAddr p).toNat = (0x200 + 2 * p.toNat) % 65536 := by
  simp [relocateAddr, defaultProgramAddr, UInt16.toNat_add, UInt16.toNat_mul]

section Decoding

variable {n : Nat} {d : Decoder} {w : Word} {i : Instruction}

theorem Instruction.ofWord?_call (h : n / 0x1000 = 2) : ofWord? n = some (.call (UInt16.ofNat (n % 0x1000))) := by
  simp only [ofWord?, h]

theorem Instruction.relocate_eq (h : ofWord? n = some i) (hn : n / 0x1000 ≠ 2) : i.relocate = i := by
  cases i with
  | call nnn =>
    unfold ofWord? at h
    split at h
    case h_2 hcall => exact absurd hcall hn
    all_goals repeat' split at h
    all_goals cases h
  | _ => rfl

theorem Word.toNat_relocate (h : w.toNat / 0x1000 = 2) (hw : w.toNat % 0x1000 ≤ 0x6FF) :
    w.relocate.toNat = 0x2200 + 2 * (w.toNat % 0x1000) := by
  rw [relocate, if_pos h, UInt16.toNat_ofNat']
  omega

/-- A relocated word is decoded as the relocated instruction. -/
theorem Decoder.decode_relocate (hd : standard = .ok d) (h : d.decode w = .ok i) (hi : i.Relocatable) :
    d.decode w.relocate = .ok i.relocate := by
  rw [decode_standard_iff hd] at h ⊢
  by_cases hcall : w.toNat / 0x1000 = 2
  · cases h.symm.trans (Instruction.ofWord?_call hcall)
    have htarget : w.toNat % 0x1000 ≤ 0x6FF := by
      have hle := UInt16.le_iff_toNat_le.1 hi
      rw [UInt16.toNat_ofNat'] at hle
      change w.toNat % 0x1000 % 65536 ≤ 0x6FF at hle
      omega
    have hw := Word.toNat_relocate hcall htarget
    rw [Instruction.ofWord?_call (by omega), hw]
    refine congrArg (fun a => some (Instruction.call a)) (UInt16.toNat_inj.1 ?_)
    rw [toNat_relocateAddr, UInt16.toNat_ofNat', UInt16.toNat_ofNat']
    omega
  · rw [Word.relocate, if_neg hcall, Instruction.relocate_eq h hcall]
    exact h

theorem Decoder.relocate_of_error {f : Failure} (hd : standard = .ok d) (h : d.decode w = .error f) :
    w.relocate = w := by
  refine if_neg fun hcall => ?_
  cases h.symm.trans ((decode_standard_iff hd _ _).2 (Instruction.ofWord?_call hcall))

end Decoding

namespace View

/-- A view of an image beside a view of its listing. -/
structure Relocates (s t : View) : Prop where
  v : t.v = s.v
  i : t.i = s.i
  pc : t.pc = (0x200 + 2 * s.pc) % 65536
  sp : t.sp = s.sp
  stack : ∀ k < s.depth, t.stack k = (0x200 + 2 * s.stack k) % 65536
  random : t.random = s.random
  drawn : t.drawn = s.drawn

/-- A view of a listing of `n` words whose counter is not too far off for an image, and which returns into it. -/
structure Inside (n : Nat) (s : View) : Prop where
  pc : s.pc ≤ n + 1 ∨ s.pc ≤ 0x6FF
  stack : ∀ k < s.depth, s.stack k < n

def advance (s : View) (stride : Nat) : View := { s with pc := (s.pc + stride) % 65536 }

variable {s t : View}

theorem Relocates.advance (h : Relocates s t) : Relocates (s.advance 1) (t.advance 2) := by
  refine ⟨h.v, h.i, ?_, h.sp, h.stack, h.random, h.drawn⟩
  simp only [View.advance, h.pc]
  omega

theorem Relocates.push (h : Relocates s t) (hroom : s.depth < 16) {target target' : Nat}
    (htarget : target' = (0x200 + 2 * target) % 65536) :
    Relocates { s with stack := update s.stack s.depth s.pc, sp := s.depth, pc := target }
      { t with stack := update t.stack s.depth t.pc, sp := s.depth, pc := target' } := by
  refine ⟨h.v, h.i, htarget, rfl, fun k hk => ?_, h.random, h.drawn⟩
  change k < (s.depth + 1) % 256 at hk
  change update t.stack s.depth t.pc k = (0x200 + 2 * update s.stack s.depth s.pc k) % 65536
  by_cases htop : k = s.depth
  · rw [htop, update_self, update_self, h.pc]
  · rw [update_of_ne htop, update_of_ne htop]
    exact h.stack k (by omega)

theorem Relocates.pop (h : Relocates s t) (hsp : s.sp < 16) :
    Relocates { s with pc := s.stack s.sp, sp := (s.sp + 255) % 256 }
      { t with pc := t.stack s.sp, sp := (s.sp + 255) % 256 } := by
  have hdepth : s.depth = s.sp + 1 := by unfold depth; omega
  refine ⟨h.v, h.i, h.stack s.sp (by omega), rfl, fun k hk => h.stack k ?_, h.random, h.drawn⟩
  change k < ((s.sp + 255) % 256 + 1) % 256 at hk
  omega

end View

namespace Interpreter

/-- The same interpreter for images. -/
def forImages (cpu : Interpreter) : Interpreter := { cpu with addressing := .bytes }

variable {cpu : Interpreter} {i : Instruction} {s t s₁ : View} {st : Step}

theorem fault?_relocate (hi : i.Relocatable) (h : s.Relocates t) : i.relocate.fault? t = i.fault? s := by
  cases i with
  | storeRegs | loadRegs => exact hi.elim
  | call nnn =>
    refine Option.ext fun f => ?_
    rw [Instruction.fault?_call, ← h.sp]
    exact Instruction.fault?_call
  | ret =>
    refine Option.ext fun f => ?_
    rw [Instruction.fault?_ret, ← h.sp]
    exact Instruction.fault?_ret
  | _ => rfl

theorem effect_relocate (hcpu : cpu.addressing = .words) (hi : i.Relocatable) (h : s.Relocates t)
    (he : cpu.effect s i = some (st, s₁)) :
    ∃ t₁, cpu.forImages.effect t i.relocate = some (st, t₁) ∧ s₁.Relocates t₁ := by
  have hstride : cpu.addressing.stride.toNat = 1 := by rw [hcpu]; rfl
  have hstride' : cpu.forImages.addressing.stride.toNat = 2 := rfl
  have hmoved := h
  -- the views now differ in the counter and the stack, which only calls, returns and skips look at, and in memory
  obtain ⟨v, ti, pc, sp, stack, size, memory, programAddr, random, drawn⟩ := t
  obtain ⟨rfl, rfl, rfl, rfl, hstack, rfl, rfl⟩ := h
  cases i with
  | jumpOffset | storeRegs | loadRegs => exact hi.elim
  | skipEqImm | skipNeImm | skipEqReg | skipNeReg =>
    simp only [effect, View.skipIf, hstride, hstride', Instruction.relocate] at he ⊢
    split at he <;> cases he
    · next hc => exact ⟨_, congrArg some (if_pos hc), hmoved.advance⟩
    · next hc => exact ⟨_, congrArg some (if_neg hc), hmoved⟩
  | call nnn =>
    simp only [effect, hstride, hstride', Instruction.relocate] at he ⊢
    split at he <;> cases he
    next hroom =>
    refine ⟨_, if_pos hroom, hmoved.push hroom ?_⟩
    simp only [View.before, toNat_relocateAddr]
    omega
  | ret =>
    simp only [effect, Instruction.relocate] at he ⊢
    split at he <;> cases he
    next hsp => exact ⟨_, if_pos hsp, hmoved.pop hsp⟩
  | _ => cases he; exact ⟨_, rfl, rfl, rfl, rfl, rfl, hstack, rfl, rfl⟩

theorem flow_of_inside {n : Nat} (hi : i.Relocatable) (h : s.Inside n) (hpc : s.pc < n) (hf : i.fault? s = none) :
    (i.flow 1 s).2 ≤ n + 1 ∨ (i.flow 1 s).2 ≤ 0x6FF := by
  rcases hi.cases with hstraight | rfl | ⟨nnn, hnnn, rfl⟩
  · rcases hstraight.flow 1 s with hnext | hskip
    · rw [hnext]
      exact .inl (Nat.succ_le_succ (Nat.le_of_lt hpc))
    · rw [hskip]
      exact .inl (Nat.succ_le_succ hpc)
  · have hsp : s.sp < 16 := by
      by_contra hsp
      cases hf.symm.trans (Instruction.fault?_ret.2 ⟨Nat.le_of_not_lt hsp, rfl⟩)
    have hdepth : s.depth = s.sp + 1 := by unfold View.depth; omega
    exact .inl (Nat.succ_le_succ (Nat.le_of_lt (h.stack s.sp (by omega))))
  · exact .inr (UInt16.le_iff_toNat_le.1 hnnn)

theorem inside_of_effect {n : Nat} (hcpu : cpu.addressing = .words) (hi : i.Relocatable) (h : s.Inside n)
    (hpc : s.pc < n) (he : cpu.effect s i = some (st, s₁)) : (s₁.advance 1).Inside n := by
  have hf : i.fault? s = none := (cpu.effect_isSome_iff i s).1 (by rw [he]; rfl)
  obtain ⟨-, hflow⟩ := flow_of_effect he
  rw [show cpu.addressing.stride.toNat = 1 by rw [hcpu]; rfl] at hflow
  have hle : (s₁.advance 1).pc ≤ (i.flow 1 s).2 := Nat.le_trans (Nat.le_of_eq hflow) (Nat.mod_le _ _)
  have hstack : View.StackStep 1 s (s₁.advance 1) (some st) := (stackEffect_of_effect he).stackStep rfl
  refine ⟨(flow_of_inside hi h hpc hf).imp hle.trans hle.trans, fun k hk => ?_⟩
  cases hstack with
  | pushed hroom hdepth hslots =>
    rw [hslots, Function.update_apply]
    split
    · exact hpc
    · exact h.stack k (by omega)
  | popped hdepth hslots =>
    rw [hslots]
    exact h.stack k (by omega)
  | kept _ _ hdepth hslots =>
    rw [hslots]
    exact h.stack k (by omega)

theorem step_ne_jump (hi : i.Relocatable) (he : cpu.effect s i = some (st, s₁)) : st ≠ .jump := by
  obtain ⟨rfl, -⟩ := flow_of_effect he
  rcases hi.cases with hstraight | rfl | ⟨nnn, -, rfl⟩
  · rcases hstraight.flow cpu.addressing.stride.toNat s with hnext | hskip
    · rw [hnext]
      nofun
    · rw [hskip]
      nofun
  · nofun
  · nofun

theorem not_storesAt (hi : i.Relocatable) (a : Nat) : ¬i.relocate.StoresAt s a := by
  cases i with
  | storeRegs => exact hi.elim
  | _ => exact id

theorem pc_of_relocates {w w' : World} (h : w.view.Relocates w'.view) :
    w'.machine.pc = relocateAddr w.machine.pc :=
  UInt16.toNat_inj.1 (h.pc.trans (toNat_relocateAddr _).symm)

/-- What becomes of a word at `w`, and of the word relocated at `w'`. -/
inductive Twin (cpu : Interpreter) (word : Word) (w w' : World) : Prop
  | refused {f : Failure} : cpu.dispatch word w = (.error f, w) →
    cpu.forImages.dispatch word.relocate w' = (.error f.relocate, w') → Twin cpu word w w'
  | done {d : Dispatched} {u u' : World} : cpu.dispatch word w = (.ok d, u) →
    cpu.forImages.dispatch word.relocate w' = (.ok d.relocate, u') → d.instruction.Relocatable →
    cpu.effect w.view d.instruction = some (d.step, u.view) → u.view.Relocates u'.view →
    u'.machine.memory = w'.machine.memory → Twin cpu word w w'

theorem twin_of_relocates {word : Word} {w w' : World} (hstandard : Decoder.standard = .ok cpu.decoder)
    (hcpu : cpu.addressing = .words) (hword : ∀ i, cpu.decoder.decode word = .ok i → i.Relocatable)
    (h : w.view.Relocates w'.view) : Twin cpu word w w' := by
  cases hi : cpu.decoder.decode word with
  | error f =>
    have hi' : cpu.forImages.decoder.decode word.relocate = .error f := by
      rw [Decoder.relocate_of_error hstandard hi]
      exact hi
    obtain rfl := Decoder.error_of_decode hi
    exact .refused (dispatch_of_decode_error hi w) (dispatch_of_decode_error hi' w')
  | ok i =>
    have hreloc := hword i hi
    have hi' : cpu.forImages.decoder.decode word.relocate = .ok i.relocate :=
      Decoder.decode_relocate hstandard hi hreloc
    have hreg := Decoder.register_lt_of_decode hi
    have hreg' := Decoder.register_lt_of_decode hi'
    have hfault := fault?_relocate hreloc h
    have hdispatch := dispatch_of_decode hi w
    have hdispatch' := dispatch_of_decode hi' w'
    rw [pc_of_relocates h] at hdispatch'
    cases hf : i.fault? w.view with
    | some f =>
      rw [(apply_eq_error_iff hreg).2 ⟨hf, rfl⟩] at hdispatch
      rw [(apply_eq_error_iff hreg').2 ⟨hfault.trans hf, rfl⟩] at hdispatch'
      exact .refused hdispatch hdispatch'
    | none =>
      obtain ⟨⟨st, s⟩, he⟩ := Option.isSome_iff_exists.1 ((cpu.effect_isSome_iff i w.view).2 hf)
      obtain ⟨t, he', hview⟩ := effect_relocate hcpu hreloc h he
      obtain ⟨u, hu, rfl⟩ := apply_of_effect hreg he
      obtain ⟨u', hu', rfl⟩ := apply_of_effect hreg' he'
      rw [hu] at hdispatch
      rw [hu'] at hdispatch'
      have hmemory := memoryEffect_of_effect he'
      exact .done hdispatch hdispatch' hreloc he hview (World.memory_eq_of_view hmemory.size hmemory.programAddr
        (funext fun a => hmemory.kept a (not_storesAt hreloc a)))

end Interpreter
end Chip8
