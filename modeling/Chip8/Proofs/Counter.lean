import Chip8.Proofs.Effect
import Chip8.Proofs.History

/-! The program counter of a session. Instructions leave it one stride short of where control goes, and
the fetch loop makes up for that; together they are a machine whose counter is absolute, which `flow`
describes. -/

namespace Chip8

/-- What an instruction does to the flow of control, and where it goes from `s.pc`. -/
def Instruction.flow (i : Instruction) (stride : Nat) (s : View) : Step × Nat :=
  let branch (c : Bool) : Step × Nat := if c then (.skip, s.pc + 2 * stride) else (.next, s.pc + stride)
  match i with
  | .skipEqImm x kk => branch (s.v x.toNat = kk.toNat)
  | .skipNeImm x kk => branch (s.v x.toNat ≠ kk.toNat)
  | .skipEqReg x y => branch (s.v x.toNat = s.v y.toNat)
  | .skipNeReg x y => branch (s.v x.toNat ≠ s.v y.toNat)
  | .jumpOffset nnn => (.jump, s.v 0 + nnn.toNat)
  | .call nnn => (.call, nnn.toNat)
  | .ret => (.ret, s.stack s.sp + stride)
  | _ => (.next, s.pc + stride)

namespace Interpreter

theorem flow_skipIf {s t : View} {stride : Nat} {st : Step} {c : Bool} (h : s.skipIf stride c = (st, t)) :
    (if c then (Step.skip, s.pc + 2 * stride) else (.next, s.pc + stride)).1 = st ∧
      (t.pc + stride) % 65536 =
        (if c then (Step.skip, s.pc + 2 * stride) else (.next, s.pc + stride)).2 % 65536 := by
  unfold View.skipIf at h
  cases c <;> cases h
  · exact ⟨rfl, rfl⟩
  · refine ⟨rfl, ?_⟩
    simp only [if_true]
    omega

theorem before_add (target stride : Nat) (h : stride ≤ 65536) :
    (View.before target stride + stride) % 65536 = target % 65536 := by
  unfold View.before
  omega

/-- The stride that the fetch loop adds brings the counter to where control goes. -/
theorem flow_of_effect {cpu : Interpreter} {i : Instruction} {s t : View} {st : Step}
    (h : cpu.effect s i = some (st, t)) :
    (i.flow cpu.addressing.stride.toNat s).1 = st ∧
      (t.pc + cpu.addressing.stride.toNat) % 65536 = (i.flow cpu.addressing.stride.toNat s).2 % 65536 := by
  have hstride : cpu.addressing.stride.toNat ≤ 65536 := by cases cpu.addressing <;> decide
  cases i with
  | skipEqImm | skipNeImm | skipEqReg | skipNeReg => exact flow_skipIf (Option.some.inj h)
  | jumpOffset nnn => cases h; exact ⟨rfl, before_add _ _ hstride⟩
  | call nnn =>
    simp only [effect] at h
    split at h <;> cases h
    exact ⟨rfl, before_add _ _ hstride⟩
  | ret =>
    simp only [effect] at h
    split at h <;> cases h
    exact ⟨rfl, rfl⟩
  | storeRegs | loadRegs =>
    simp only [effect] at h
    split at h <;> cases h
    exact ⟨rfl, rfl⟩
  | _ => cases h; exact ⟨rfl, rfl⟩

end Interpreter
namespace Session

/-- One for a listing, whose counter is a position, and two for an image, whose counter is an address. -/
def stride (s : Session) : Nat :=
  match s.program with
  | .listing _ => 1
  | .image _ => 2

theorem stride_eq (s : Session) : s.program.addressing.stride.toNat = s.stride := by
  unfold stride
  cases s.program <;> rfl

theorem view_advance (s : Session) (w : World) :
    (s.advance w).world.view = { w.view with pc := (w.view.pc + s.stride) % 65536 } := by
  have hpc : (w.machine.pc + s.program.addressing.stride).toNat = (w.view.pc + s.stride) % 65536 := by
    rw [← stride_eq]
    exact UInt16.toNat_add _ _
  rw [← hpc]
  rfl

/-- A step is the effect of its instruction, after which the counter moves one stride on. -/
theorem effect_of_step {s s' : Session} {d : Dispatched} (h : s.step = (.ok (some d), s')) :
    ∃ t : View, s.interpreter.effect s.world.view d.instruction = some (d.step, t) ∧
      s'.world.view = { t with pc := (t.pc + s.stride) % 65536 } := by
  obtain ⟨word, w, -, hd, rfl⟩ := step_eq_some_iff.1 h
  obtain ⟨-, -, -, he⟩ := Interpreter.dispatch_eq_ok_iff.1 hd
  exact ⟨w.view, he, view_advance s w⟩

/-- Where a step takes the counter, if the interpreter counts as the program does. -/
theorem flow_of_step {s s' : Session} {d : Dispatched} (ha : s.interpreter.addressing = s.program.addressing)
    (h : s.step = (.ok (some d), s')) :
    d.step = (d.instruction.flow s.stride s.world.view).1 ∧
      s'.machine.pc.toNat = (d.instruction.flow s.stride s.world.view).2 % 65536 := by
  obtain ⟨t, he, hv⟩ := effect_of_step h
  obtain ⟨hstep, hflow⟩ := Interpreter.flow_of_effect he
  rw [ha, stride_eq] at hstep hflow
  exact ⟨hstep.symm, (congrArg View.pc hv).trans hflow⟩

theorem pushed_of_call {s s' : Session} {d : Dispatched} (h : s.step = (.ok (some d), s')) (hd : d.step = .call) :
    s'.machine.sp = s.machine.sp + 1 ∧ s'.machine.stack[s'.machine.sp.toNat]? = some s.machine.pc := by
  obtain ⟨t, he, hv⟩ := effect_of_step h
  have hstack := Interpreter.stackEffect_of_effect he
  rw [hd] at hstack
  cases hstack with
  | pushed htop hsp hslots =>
    have hsp' : s'.world.view.sp = (s.machine.sp + 1).toNat := by
      rw [hv, machine, World.toNat_sp_add_one]
      exact hsp
    have hslot : s'.world.view.stack s'.world.view.sp = s.machine.pc.toNat := by
      rw [hv]
      simp only [hslots, hsp, Function.update_self]
      rfl
    have htop' : s'.world.view.sp < 16 := by
      rw [hv]
      exact hsp ▸ htop
    exact ⟨UInt8.toNat_inj.1 hsp', (World.view_stack_eq_iff htop' _).1 hslot⟩
  | kept hne => exact absurd rfl hne

theorem popped_of_ret {s s' : Session} {d : Dispatched} (h : s.step = (.ok (some d), s')) (hd : d.step = .ret) :
    s.machine.sp < 16 ∧ s'.machine.sp = s.machine.sp - 1 := by
  obtain ⟨t, he, hv⟩ := effect_of_step h
  have hstack := Interpreter.stackEffect_of_effect he
  rw [hd] at hstack
  cases hstack with
  | popped hlt hsp =>
    have hsp' : s'.world.view.sp = (s.machine.sp - 1).toNat := by
      rw [hv, machine, World.toNat_sp_sub_one]
      exact hsp
    exact ⟨UInt8.lt_iff_toNat_lt.2 hlt, UInt8.toNat_inj.1 hsp'⟩
  | kept _ hne => exact absurd rfl hne

/-- What a step of a machine with an absolute counter is, and what it reports. -/
structure AbsoluteStep (s : Session) (d : Dispatched) (s' : Session) : Prop where
  found : d.pc = s.machine.pc
  fetched : s.fetch = .ok (some d.word)
  decoded : s.interpreter.decoder.decode d.word = .ok d.instruction
  step : d.step = (d.instruction.flow s.stride s.world.view).1
  counter : s'.machine.pc.toNat = (d.instruction.flow s.stride s.world.view).2 % 65536
  rest : ∃ t, s.interpreter.effect s.world.view d.instruction = some (d.step, t) ∧
    s'.world.view = { t with pc := s'.machine.pc.toNat }
  pushed : d.step = .call →
    s'.machine.sp = s.machine.sp + 1 ∧ s'.machine.stack[s'.machine.sp.toNat]? = some s.machine.pc
  popped : d.step = .ret → s.machine.sp < 16 ∧ s'.machine.sp = s.machine.sp - 1

/-- A session steps as a machine with an absolute counter, and the written form in which a word goes to
the interpreter makes no difference. -/
theorem step_absolute {s s' : Session} {d : Dispatched} (hs : s.Reachable) (h : s.step = (.ok (some d), s')) :
    AbsoluteStep s d s' ∧ ∀ w : Word, Word.ofText? w.text = some w := by
  obtain ⟨word, w, hf, hd, -⟩ := step_eq_some_iff.1 h
  obtain ⟨hpc, rfl, hi, -⟩ := Interpreter.dispatch_eq_ok_iff.1 hd
  obtain ⟨t, he, hv⟩ := effect_of_step h
  obtain ⟨hstep, hflow⟩ := Interpreter.flow_of_effect he
  rw [hs.addressing, stride_eq] at hstep hflow
  have hcounter : s'.machine.pc.toNat = (t.pc + s.stride) % 65536 := congrArg View.pc hv
  rw [← hcounter] at hflow hv
  exact ⟨⟨hpc, hf, hi, hstep.symm, hflow, ⟨t, he, hv⟩, pushed_of_call h, popped_of_ret h⟩, Word.ofText?_text⟩

theorem step_absolute_call :
    AbsoluteStep bracketed ⟨0, 0x2002, .call 2, .call⟩ bracketed.step.2 ∧
      ∀ w : Word, Word.ofText? w.text = some w :=
  step_absolute reachable_bracketed rfl

end Session
end Chip8
