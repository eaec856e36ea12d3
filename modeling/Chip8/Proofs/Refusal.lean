import Chip8.Proofs.Effect

/-! Which instructions fail, and how. A fault is known before anything is carried out, from the stack pointer, the index
and the size of memory, and it is all that comes of its instruction. -/

namespace Chip8

namespace Instruction

/-- The fault that an instruction meets whose registers exist. -/
def fault? (i : Instruction) (s : View) : Option Fault :=
  match i with
  | .call _ => if (s.sp + 1) % 256 < 16 then none else some .stackOverflow
  | .ret => if s.sp < 16 then none else some .stackUnderflow
  | .storeRegs x | .loadRegs x =>
    if s.i + x.toNat < s.size then none else some (.outOfBounds (UInt16.ofNat s.i) (x.toNat + 1))
  | _ => none

variable {s : View} {f : Fault}

theorem fault?_call {nnn : UInt16} :
    (call nnn).fault? s = some f ↔ 16 ≤ (s.sp + 1) % 256 ∧ f = .stackOverflow := by
  change (if _ then none else some _) = some f ↔ _
  rw [← Nat.not_lt]
  split <;> simp [*, eq_comm]

theorem fault?_ret : ret.fault? s = some f ↔ 16 ≤ s.sp ∧ f = .stackUnderflow := by
  change (if _ then none else some _) = some f ↔ _
  rw [← Nat.not_lt]
  split <;> simp [*, eq_comm]

theorem fault?_transfer {i : Instruction} {x : UInt8} (hi : i = .storeRegs x ∨ i = .loadRegs x) :
    i.fault? s = some f ↔ s.size ≤ s.i + x.toNat ∧ f = .outOfBounds (UInt16.ofNat s.i) (x.toNat + 1) := by
  have hfault : i.fault? s = if s.i + x.toNat < s.size then none
      else some (.outOfBounds (UInt16.ofNat s.i) (x.toNat + 1)) := by
    rcases hi with rfl | rfl <;> rfl
  rw [hfault, ← Nat.not_lt]
  split <;> simp [*, eq_comm]

end Instruction
namespace Interpreter

variable {cpu : Interpreter} {i : Instruction} {w w' : World} {f : Fault}

theorem perform_of_fault (hreg : ∀ r ∈ i.highestRegister?, r < 16) (h : i.fault? w.view = some f) :
    cpu.perform i w = (.error f, w) := by
  have hindex : UInt16.ofNat w.view.i = w.machine.i := UInt16.ofNat_toNat
  cases i with
  | call nnn =>
    obtain ⟨hfull, rfl⟩ := Instruction.fault?_call.1 h
    rw [← World.toNat_sp_add_one] at hfull
    rw [perform, Machine.push_eq_error _ _ fun hlt => Nat.not_lt_of_le hfull (UInt8.lt_iff_toNat_lt.1 hlt)]
  | ret =>
    obtain ⟨hempty, rfl⟩ := Instruction.fault?_ret.1 h
    rw [perform, Machine.pop_eq_error _ hempty]
  | storeRegs x =>
    obtain ⟨hroom, rfl⟩ := (Instruction.fault?_transfer (.inl rfl)).1 h
    rw [perform, w.storeRegisters_eq_error x.toNat (UInt8.lt_iff_toNat_lt.1 (hreg x rfl)) hroom, hindex]
  | loadRegs x =>
    obtain ⟨hroom, rfl⟩ := (Instruction.fault?_transfer (.inr rfl)).1 h
    rw [perform, w.loadRegisters_eq_error x.toNat (UInt8.lt_iff_toNat_lt.1 (hreg x rfl)) hroom, hindex]
  | _ => cases h

theorem effect_isSome_iff (cpu : Interpreter) (i : Instruction) (s : View) :
    (cpu.effect s i).isSome ↔ i.fault? s = none := by
  cases i with
  | call | ret | storeRegs | loadRegs =>
    simp only [effect]
    change _ ↔ (if _ then none else some _) = none
    split <;> simp
  | _ => exact ⟨fun _ => rfl, fun _ => rfl⟩

/-- An instruction fails with the fault that it meets, and only then, and leaves the world as it was. -/
theorem apply_eq_error_iff (hreg : ∀ r ∈ i.highestRegister?, r < 16) :
    cpu.apply i w = (.error f, w') ↔ i.fault? w.view = some f ∧ w' = w := by
  cases hf : i.fault? w.view with
  | none =>
    obtain ⟨⟨st, s⟩, hs⟩ := Option.isSome_iff_exists.1 ((effect_isSome_iff cpu i w.view).2 hf)
    obtain ⟨u, hu, -⟩ := apply_of_effect hreg hs
    rw [hu]
    simp
  | some g =>
    rw [apply_eq_perform cpu i w hreg, perform_of_fault hreg hf]
    simp [eq_comm]

end Interpreter
end Chip8
