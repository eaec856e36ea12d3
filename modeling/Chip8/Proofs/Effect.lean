import Chip8.Proofs.View

/-! The effect of every instruction as arithmetic on natural numbers. `effect` says of a view what an
instruction makes of it, and where it has to fail; `apply_view` says that the interpreter does that and
nothing else. -/

namespace Chip8

open Function (update)

/-- The answer of a computation that succeeds, with a view of the world that it leaves. -/
def succeeded {ε α : Type} : Except ε α × World → Option (α × View)
  | (.ok a, w) => some (a, w.view)
  | (.error _, _) => none

namespace View

/-- A skip passes one instruction, before whoever fetches moves on to the next. -/
def skipIf (s : View) (stride : Nat) (c : Bool) : Step × View :=
  if c then (.skip, { s with pc := (s.pc + stride) % 65536 }) else (.next, s)

/-- The counter that a fetch loop moves on to `target`. -/
def before (target stride : Nat) : Nat := (target + (65536 - stride)) % 65536

def passBlock (s : View) (cpu : Interpreter) (x : Nat) : View :=
  { s with i := if cpu.incrementIndex then (s.i + x + 1) % 65536 else s.i }

end View

namespace Interpreter

def effect (cpu : Interpreter) (s : View) (i : Instruction) : Option (Step × View) :=
  let stride := cpu.addressing.stride.toNat
  match i with
  | .loadImm x kk => some (.next, s.set x.toNat kk.toNat)
  | .addImm x kk => some (.next, s.set x.toNat ((s.v x.toNat + kk.toNat) % 256))
  | .move x y => some (.next, s.set x.toNat (s.v y.toNat))
  | .or x y => some (.next, s.set x.toNat (s.v x.toNat ||| s.v y.toNat))
  | .and x y => some (.next, s.set x.toNat (s.v x.toNat &&& s.v y.toNat))
  | .xor x y => some (.next, s.set x.toNat (s.v x.toNat ^^^ s.v y.toNat))
  | .addReg x y =>
    let sum := s.v x.toNat + s.v y.toNat
    some (.next, s.report x.toNat (sum % 256) (if 255 < sum then 1 else 0))
  | .sub x y =>
    let (a, b) := (s.v x.toNat, s.v y.toNat)
    some (.next, s.report x.toNat ((a + 256 - b) % 256) (if b < a then 1 else 0))
  | .subNeg x y =>
    let (a, b) := (s.v x.toNat, s.v y.toNat)
    some (.next, s.report x.toNat ((b + 256 - a) % 256) (if a < b then 1 else 0))
  | .shiftRight x _ =>
    let out := match cpu.shiftFlag with
      | .register => s.v x.toNat % 2
      | .operand => x.toNat &&& 1
    some (.next, s.report x.toNat (s.v x.toNat / 2) out)
  | .shiftLeft x _ =>
    let out := match cpu.shiftFlag with
      | .register => s.v x.toNat / 128
      | .operand => x.toNat &&& 0x80
    some (.next, s.report x.toNat (s.v x.toNat * 2 % 256) out)
  | .random x kk =>
    some (.next, { s.set x.toNat (s.random s.drawn % 256 &&& kk.toNat) with drawn := s.drawn + 1 })
  | .loadIndex nnn => some (.next, { s with i := nnn.toNat })
  | .addIndex x => some (.next, { s with i := (s.i + s.v x.toNat) % 65536 })
  | .skipEqImm x kk => some (s.skipIf stride (s.v x.toNat = kk.toNat))
  | .skipNeImm x kk => some (s.skipIf stride (s.v x.toNat ≠ kk.toNat))
  | .skipEqReg x y => some (s.skipIf stride (s.v x.toNat = s.v y.toNat))
  | .skipNeReg x y => some (s.skipIf stride (s.v x.toNat ≠ s.v y.toNat))
  | .jumpOffset nnn => some (.jump, { s with pc := View.before (s.v 0 + nnn.toNat) stride })
  | .call nnn =>
    -- an empty stack has its pointer at 255, one before the first slot
    let top := (s.sp + 1) % 256
    if top < 16 then
      some (.call, { s with stack := update s.stack top s.pc, sp := top, pc := View.before nnn.toNat stride })
    else none
  | .ret =>
    if s.sp < 16 then some (.ret, { s with pc := s.stack s.sp, sp := (s.sp + 255) % 256 }) else none
  | .storeRegs x =>
    if s.i + x.toNat < s.size then
      let memory a := if s.i ≤ a ∧ a ≤ s.i + x.toNat then s.v (a - s.i) else s.memory a
      some (.next, { s with memory }.passBlock cpu x.toNat)
    else none
  | .loadRegs x =>
    if s.i + x.toNat < s.size then
      let v k := if k ≤ x.toNat then s.memory (s.i + k) else s.v k
      some (.next, { s with v }.passBlock cpu x.toNat)
    else none

section Cases

variable (cpu : Interpreter) (w : World)

private theorem left_lt {x y : UInt8} (h : ∀ r ∈ some (max x y), r < 16) : x < 16 :=
  ((Instruction.max_lt_iff x y 16).1 (h _ rfl)).1

private theorem next_set {w : World} {x b : UInt8} {n : Nat} (hx : x < 16) (hb : b.toNat = n) :
    succeeded (ε := Fault) (.ok Step.next, { w with machine := w.machine.setRegister x b }) =
      some (.next, w.view.set x.toNat n) := by
  subst hb
  exact congrArg (fun t => some (Step.next, t)) (w.view_setRegister x b hx)

private theorem next_report {w : World} {x b flag : UInt8} {n f : Nat} (hx : x < 16) (hb : b.toNat = n)
    (hf : flag.toNat = f) :
    succeeded (ε := Fault) (.ok Step.next, { w with machine := (w.machine.setRegister x b).setFlag flag }) =
      some (.next, w.view.report x.toNat n f) := by
  subst hb hf
  exact congrArg (fun t => some (Step.next, t)) (w.view_report x b flag hx)

theorem toNat_toUInt8 (c : Prop) [Decidable c] : (decide c).toUInt8.toNat = if c then 1 else 0 := by
  by_cases h : c
  · rw [decide_eq_true h, if_pos h]; rfl
  · rw [decide_eq_false h, if_neg h]; rfl

theorem toNat_sub_wrap (a b : UInt8) : (a - b).toNat = (a.toNat + 256 - b.toNat) % 256 := by
  have := b.toNat_lt
  rw [UInt8.toNat_sub]
  omega

theorem view_skipIf (c : Bool) (p : Prop) [Decidable p] (h : c = true ↔ p) :
    succeeded (ε := Fault) (if c then (.ok .skip, { w with machine :=
        { w.machine with pc := w.machine.pc + cpu.addressing.stride } }) else (.ok .next, w)) =
      some (w.view.skipIf cpu.addressing.stride.toNat p) := by
  unfold View.skipIf
  by_cases hp : p
  · rw [if_pos (h.2 hp), decide_eq_true hp, if_pos rfl]
    have hpc : (w.machine.pc + cpu.addressing.stride).toNat = (w.view.pc + cpu.addressing.stride.toNat) % 65536 :=
      UInt16.toNat_add _ _
    rw [← hpc]
    rfl
  · rw [if_neg (mt h.1 hp), decide_eq_false hp]
    rfl

theorem view_passBlock (x : UInt8) :
    ({ w with machine := cpu.passBlock x w.machine } : World).view = w.view.passBlock cpu x.toNat := by
  unfold passBlock View.passBlock
  split
  · refine View.ext rfl ?_ rfl rfl rfl rfl rfl rfl rfl rfl
    change (w.machine.i + x.toUInt16 + 1).toNat = (w.machine.i.toNat + x.toNat + 1) % 65536
    simp [UInt16.toNat_add]
  · rfl

theorem view_jump (step : Step) (target : UInt16) :
    succeeded (ε := Fault) (.ok step, { w with machine :=
        { w.machine with pc := target - cpu.addressing.stride } }) =
      some (step, { w.view with pc := View.before target.toNat cpu.addressing.stride.toNat }) := by
  rw [View.before, Nat.add_comm, ← UInt16.toNat_sub]
  rfl

theorem view_call (nnn : UInt16) : succeeded (cpu.perform (.call nnn) w) = cpu.effect w.view (.call nnn) := by
  simp only [perform, effect, ← World.toNat_sp_add_one]
  by_cases h : w.machine.sp + 1 < 16
  · have htop : (w.machine.sp + 1).toNat < 16 := UInt8.lt_iff_toNat_lt.1 h
    let m := { w.machine with stack := w.machine.stack.setIfInBounds (w.machine.sp + 1).toNat w.machine.pc
                              sp := w.machine.sp + 1 }
    have hpush : ({ w with machine := m } : World).view = _ := w.view_push _ w.machine.pc h
    rw [Machine.push_eq_ok _ _ h, if_pos htop]
    refine (view_jump cpu { w with machine := m } .call nnn).trans ?_
    rw [hpush]
    rfl
  · have htop : ¬(w.machine.sp + 1).toNat < 16 := fun h' => h (UInt8.lt_iff_toNat_lt.2 h')
    rw [Machine.push_eq_error _ _ h, if_neg htop]
    rfl

theorem view_ret : succeeded (cpu.perform .ret w) = cpu.effect w.view .ret := by
  simp only [perform, effect]
  by_cases h : w.machine.sp.toNat < 16
  · rw [Machine.pop_eq_ok _ h, if_pos (show w.view.sp < 16 from h)]
    have hpc : w.view.stack w.view.sp = w.machine.stack[w.machine.sp.toNat].toNat := by
      simp [World.view, h]
    rw [← World.toNat_sp_sub_one, hpc]
    rfl
  · rw [Machine.pop_eq_error _ (Nat.le_of_not_lt h), if_neg (show ¬w.view.sp < 16 from h)]
    rfl

theorem view_storeRegs (x : UInt8) (hx : x < 16) :
    succeeded (cpu.perform (.storeRegs x) w) = cpu.effect w.view (.storeRegs x) := by
  have hx' : x.toNat < 16 := UInt8.lt_iff_toNat_lt.1 hx
  simp only [perform, effect]
  by_cases h : w.view.i + x.toNat < w.view.size
  · obtain ⟨m, hm, hv⟩ := w.view_storeRegisters x.toNat hx' h
    rw [if_pos h, hm, ← hv, ← view_passBlock]
    rfl
  · rw [if_neg h, w.storeRegisters_eq_error x.toNat hx' (Nat.le_of_not_lt h)]
    rfl

theorem view_loadRegs (x : UInt8) (hx : x < 16) :
    succeeded (cpu.perform (.loadRegs x) w) = cpu.effect w.view (.loadRegs x) := by
  have hx' : x.toNat < 16 := UInt8.lt_iff_toNat_lt.1 hx
  simp only [perform, effect]
  by_cases h : w.view.i + x.toNat < w.view.size
  · obtain ⟨m, hm, hv⟩ := w.view_loadRegisters x.toNat hx' h
    rw [if_pos h, hm, ← hv, ← view_passBlock]
    rfl
  · rw [if_neg h, w.loadRegisters_eq_error x.toNat hx' (Nat.le_of_not_lt h)]
    rfl

end Cases

theorem perform_view (cpu : Interpreter) (i : Instruction) (w : World)
    (h : ∀ r ∈ i.highestRegister?, r < 16) : succeeded (cpu.perform i w) = cpu.effect w.view i := by
  cases i with
  | loadImm x kk => exact next_set (h x rfl) rfl
  | addImm x kk => exact next_set (h x rfl) (UInt8.toNat_add _ _)
  | move x y => exact next_set (left_lt h) rfl
  | or x y => exact next_set (left_lt h) (UInt8.toNat_or _ _)
  | and x y => exact next_set (left_lt h) (UInt8.toNat_and _ _)
  | xor x y => exact next_set (left_lt h) (UInt8.toNat_xor _ _)
  | addReg x y => exact next_report (left_lt h) (UInt8.toNat_add _ _) (toNat_toUInt8 _)
  | sub x y => exact next_report (left_lt h) (toNat_sub_wrap _ _) (toNat_toUInt8 _)
  | subNeg x y => exact next_report (left_lt h) (toNat_sub_wrap _ _) (toNat_toUInt8 _)
  | shiftRight x y =>
    refine next_report (left_lt h) ?_ ?_
    · simp [Nat.shiftRight_eq_div_pow]; rfl
    · cases cpu.shiftFlag
      · simp [Nat.and_one_is_mod]; rfl
      · exact UInt8.toNat_and x 1
  | shiftLeft x y =>
    refine next_report (left_lt h) ?_ ?_
    · simp [Nat.shiftLeft_eq]; rfl
    · cases cpu.shiftFlag
      · simp [Nat.shiftRight_eq_div_pow]; rfl
      · exact UInt8.toNat_and x 0x80
  | random x kk =>
    have hb : ((w.random.word w.random.drawn).toUInt8 &&& kk).toNat =
        w.view.random w.view.drawn % 256 &&& kk.toNat := by
      rw [UInt8.toNat_and, UInt32.toNat_toUInt8]
      rfl
    have hset := next_set (w := w) (h x rfl) hb
    simp only [succeeded, Option.some.injEq, Prod.mk.injEq, true_and] at hset
    exact congrArg (fun t : View => some (Step.next, { t with drawn := w.view.drawn + 1 })) hset
  | loadIndex nnn => rfl
  | addIndex x =>
    have hi : (w.machine.i + (w.machine.register x).toUInt16).toNat = (w.view.i + w.view.v x.toNat) % 65536 := by
      rw [UInt16.toNat_add, UInt8.toNat_toUInt16]
      rfl
    simp only [effect, ← hi]
    rfl
  | skipEqImm x kk => exact view_skipIf cpu w _ _ (by rw [beq_iff_eq, ← UInt8.toNat_inj]; rfl)
  | skipNeImm x kk => exact view_skipIf cpu w _ _ (by rw [bne_iff_ne, ne_eq, ← UInt8.toNat_inj]; rfl)
  | skipEqReg x y => exact view_skipIf cpu w _ _ (by rw [beq_iff_eq, ← UInt8.toNat_inj]; rfl)
  | skipNeReg x y => exact view_skipIf cpu w _ _ (by rw [bne_iff_ne, ne_eq, ← UInt8.toNat_inj]; rfl)
  | jumpOffset nnn =>
    refine (view_jump cpu w .jump _).trans ?_
    rw [UInt16.toNat_add, UInt8.toNat_toUInt16, View.before, Nat.mod_add_mod]
    rfl
  | call nnn => exact view_call cpu w nnn
  | ret => exact view_ret cpu w
  | storeRegs x => exact view_storeRegs cpu w x (h x rfl)
  | loadRegs x => exact view_loadRegs cpu w x (h x rfl)

theorem apply_eq_perform (cpu : Interpreter) (i : Instruction) (w : World)
    (h : ∀ r ∈ i.highestRegister?, r < 16) : cpu.apply i w = cpu.perform i w := by
  unfold apply
  split
  · next r hr => rw [if_neg (UInt8.not_le.2 (h r hr))]
  · rfl

theorem apply_view (cpu : Interpreter) (i : Instruction) (w : World)
    (h : ∀ r ∈ i.highestRegister?, r < 16) : succeeded (cpu.apply i w) = cpu.effect w.view i := by
  rw [apply_eq_perform cpu i w h]
  exact perform_view cpu i w h

theorem succeeded_eq_some {ε α : Type} {r : Except ε α × World} {a : α} {w : World} :
    succeeded r = some (a, w.view) ↔ r = (.ok a, w) := by
  obtain ⟨_ | b, w'⟩ := r
  · simp [succeeded]
  · simp [succeeded, World.view_injective.eq_iff]

theorem apply_of_effect {cpu : Interpreter} {i : Instruction} {w : World} {st : Step} {s : View}
    (hreg : ∀ r ∈ i.highestRegister?, r < 16) (h : cpu.effect w.view i = some (st, s)) :
    ∃ w', cpu.apply i w = (.ok st, w') ∧ w'.view = s := by
  have hview := apply_view cpu i w hreg
  rcases ha : cpu.apply i w with ⟨_ | st', w'⟩ <;> rw [ha, h] at hview <;> cases hview
  exact ⟨w', rfl, rfl⟩

theorem lt_of_apply {cpu : Interpreter} {i : Instruction} {w w' : World} {st : Step}
    (h : cpu.apply i w = (.ok st, w')) : ∀ r ∈ i.highestRegister?, r < 16 := by
  intro r hr
  by_contra hlt
  rw [apply, Option.mem_def.1 hr] at h
  simp only [if_pos (UInt8.not_lt.1 hlt)] at h
  cases h

theorem effect_of_apply {cpu : Interpreter} {i : Instruction} {w w' : World} {st : Step}
    (h : cpu.apply i w = (.ok st, w')) : cpu.effect w.view i = some (st, w'.view) := by
  rw [← apply_view cpu i w (lt_of_apply h), h]
  rfl

/-- What a dispatched word does, from any table of instructions. -/
theorem dispatch_eq_ok_iff {cpu : Interpreter} {word : Word} {w w' : World} {d : Dispatched} :
    cpu.dispatch word w = (.ok d, w') ↔ d.pc = w.machine.pc ∧ d.word = word ∧
      cpu.decoder.decode word = .ok d.instruction ∧
      cpu.effect w.view d.instruction = some (d.step, w'.view) := by
  obtain ⟨pc, word', i, step⟩ := d
  cases hi : cpu.decoder.decode word with
  | error f => simp [dispatch_of_decode_error hi]
  | ok j =>
    have heff := apply_view cpu j w (Decoder.register_lt_of_decode hi)
    rw [dispatch_of_decode hi]
    rcases ha : cpu.apply j w with ⟨f | st, u⟩
    · rw [ha] at heff
      constructor
      · intro h; cases h
      · rintro ⟨-, -, hj, he⟩
        cases hj
        cases heff.trans he
    · rw [ha] at heff
      constructor
      · intro h; cases h; exact ⟨rfl, rfl, rfl, heff.symm⟩
      · rintro ⟨hpc, hword, hj, he⟩
        cases hj
        cases succeeded_eq_some.1 (heff.trans he)
        rw [show pc = w.machine.pc from hpc, show word' = word from hword]

/-- The three things that an instruction can do to the stack. -/
inductive StackEffect (s t : View) : Step → Prop
  | pushed : (s.sp + 1) % 256 < 16 → t.sp = (s.sp + 1) % 256 →
    t.stack = update s.stack ((s.sp + 1) % 256) s.pc → StackEffect s t .call
  | popped : s.sp < 16 → t.sp = (s.sp + 255) % 256 → t.stack = s.stack → t.pc = s.stack s.sp → StackEffect s t .ret
  | kept {st : Step} : st ≠ .call → st ≠ .ret → t.sp = s.sp → t.stack = s.stack → StackEffect s t st

theorem stackEffect_of_effect {cpu : Interpreter} {i : Instruction} {s t : View} {st : Step}
    (h : cpu.effect s i = some (st, t)) : StackEffect s t st := by
  cases i with
  | skipEqImm | skipNeImm | skipEqReg | skipNeReg =>
    simp only [effect, View.skipIf] at h
    split at h <;> cases h <;> exact .kept (by decide) (by decide) rfl rfl
  | call nnn =>
    simp only [effect] at h
    split at h <;> cases h
    exact .pushed ‹_› rfl rfl
  | ret =>
    simp only [effect] at h
    split at h <;> cases h
    exact .popped ‹_› rfl rfl rfl
  | storeRegs | loadRegs =>
    simp only [effect] at h
    split at h <;> cases h
    exact .kept (by decide) (by decide) rfl rfl
  | _ => cases h; exact .kept (by decide) (by decide) rfl rfl

end Interpreter

/-- Puts a register into memory at an address, if it is carried out. -/
def Instruction.StoresAt (i : Instruction) (s : View) (a : Nat) : Prop :=
  match i with
  | .storeRegs x => s.i ≤ a ∧ a ≤ s.i + x.toNat
  | _ => False

namespace Interpreter

/-- What an instruction leaves in memory, whose size it never changes. -/
structure MemoryEffect (i : Instruction) (s t : View) : Prop where
  size : t.size = s.size
  programAddr : t.programAddr = s.programAddr
  stored : ∀ a, i.StoresAt s a → a < s.size ∧ t.memory a = s.v (a - s.i)
  kept : ∀ a, ¬i.StoresAt s a → t.memory a = s.memory a

theorem memoryEffect_of_effect {cpu : Interpreter} {i : Instruction} {s t : View} {st : Step}
    (h : cpu.effect s i = some (st, t)) : MemoryEffect i s t := by
  cases i with
  | skipEqImm | skipNeImm | skipEqReg | skipNeReg =>
    simp only [effect, View.skipIf] at h
    split at h <;> cases h <;> exact ⟨rfl, rfl, nofun, fun _ _ => rfl⟩
  | call | ret | loadRegs =>
    simp only [effect] at h
    split at h <;> cases h
    exact ⟨rfl, rfl, nofun, fun _ _ => rfl⟩
  | storeRegs x =>
    simp only [effect] at h
    split at h <;> cases h
    next hroom => exact ⟨rfl, rfl, fun a ha => ⟨Nat.lt_of_le_of_lt ha.2 hroom, if_pos ha⟩, fun a ha => if_neg ha⟩
  | _ => cases h; exact ⟨rfl, rfl, nofun, fun _ _ => rfl⟩

section Blocks

variable {cpu : Interpreter} {i : Instruction} {w w' : World} {x : UInt8} {st : Step} {a : Nat}

theorem byte?_of_storesAt (hreg : ∀ r ∈ i.highestRegister?, r < 16) (h : cpu.effect w.view i = some (st, w'.view))
    (ha : i.StoresAt w.view a) : w'.machine.memory.byte? a = w.machine.v[a - w.machine.i.toNat]? := by
  have hmemory := memoryEffect_of_effect h
  obtain ⟨hlt, hstored⟩ := hmemory.stored a ha
  have hk : a - w.view.i < 16 := by
    cases i with
    | storeRegs x =>
      have hx : x.toNat < 16 := UInt8.lt_iff_toNat_lt.1 (hreg x rfl)
      have hle : a ≤ w.view.i + x.toNat := ha.2
      omega
    | _ => exact ha.elim
  exact World.byte?_eq_v_of_view (hmemory.size ▸ hlt) hk hstored

theorem byte?_of_not_storesAt (h : cpu.effect w.view i = some (st, w'.view)) (ha : ¬i.StoresAt w.view a) :
    w'.machine.memory.byte? a = w.machine.memory.byte? a := by
  have hmemory := memoryEffect_of_effect h
  exact World.byte?_eq_of_view hmemory.size (hmemory.kept a ha)

theorem v_of_storeRegs (h : cpu.effect w.view (.storeRegs x) = some (st, w'.view)) : w'.machine.v = w.machine.v := by
  have hview : w'.view.v = w.view.v := by
    simp only [effect] at h
    split at h
    · exact (congrArg (fun r => r.2.v) (Option.some.inj h)).symm
    · cases h
  refine Vector.ext fun k hk => ?_
  have hsame := World.v_eq_of_view (congrFun hview k)
  rw [Vector.getElem?_eq_getElem hk, Vector.getElem?_eq_getElem hk] at hsame
  exact Option.some.inj hsame

theorem v_of_loadRegs (hx : x < 16) (h : cpu.effect w.view (.loadRegs x) = some (st, w'.view)) :
    (∀ k ≤ x.toNat, w'.machine.v[k]? = w.machine.memory.byte? (w.machine.i.toNat + k)) ∧
      ∀ k, x.toNat < k → w'.machine.v[k]? = w.machine.v[k]? := by
  simp only [effect] at h
  split at h
  · next hroom =>
    have hv := congrArg (fun r => r.2.v) (Option.some.inj h)
    refine ⟨fun k hk => (World.byte?_eq_v_of_view ?_ ?_ ?_).symm, fun k hk => ?_⟩
    · exact Nat.lt_of_le_of_lt (Nat.add_le_add_left hk _) hroom
    · exact Nat.lt_of_le_of_lt hk (UInt8.lt_iff_toNat_lt.1 hx)
    · exact (if_pos hk).symm.trans (congrFun hv k)
    · exact World.v_eq_of_view ((congrFun hv k).symm.trans (if_neg (Nat.not_le_of_lt hk)))
  · cases h

end Blocks

end Interpreter
end Chip8
