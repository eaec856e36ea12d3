import Chip8.Proofs.Dispatches

/-! What memory holds in the course of many dispatches. A byte is the register that was last stored at its address,
however many dispatches ago, or else what it was in the beginning; and that is what a load brings back. -/

namespace Chip8.Interpreter

variable (cpu : Interpreter) (words : List Word) (w : World)

/-- The `n`th dispatch succeeds, and stores a register at the address. -/
def Stores (n a : Nat) : Prop :=
  ∃ d, (cpu.dispatchAll words w).1[n]? = some (.ok d) ∧ d.instruction.StoresAt (cpu.worldAfter words w n).view a

/-- Of the dispatches before the `n`th, the `j`th is the last that stores a register at the address. -/
structure LastStore (j n a : Nat) : Prop where
  before : j < n
  stores : cpu.Stores words w j a
  last : ∀ k, j < k → k < n → ¬cpu.Stores words w k a

variable {cpu words w} {j n a : Nat} {d : Dispatched}

theorem effect_of_answer (h : (cpu.dispatchAll words w).1[n]? = some (.ok d)) :
    (∀ r ∈ d.instruction.highestRegister?, r < 16) ∧
      cpu.effect (cpu.worldAfter words w n).view d.instruction =
        some (d.step, (cpu.worldAfter words w (n + 1)).view) := by
  obtain ⟨word, -, hd⟩ := dispatch_of_answer h
  obtain ⟨-, -, hdecode, heffect⟩ := dispatch_eq_ok_iff.1 hd
  exact ⟨Decoder.register_lt_of_decode hdecode, heffect⟩

theorem size_worldAfter (cpu : Interpreter) (words : List Word) (w : World) (n : Nat) :
    (cpu.worldAfter words w n).view.size = w.view.size ∧
      (cpu.worldAfter words w n).view.programAddr = w.view.programAddr := by
  induction n with
  | zero => exact ⟨rfl, rfl⟩
  | succ n ih =>
    by_cases h : ∃ d, (cpu.dispatchAll words w).1[n]? = some (.ok d)
    · obtain ⟨d, hd⟩ := h
      have hmemory := memoryEffect_of_effect (effect_of_answer hd).2
      exact ⟨hmemory.size.trans ih.1, hmemory.programAddr.trans ih.2⟩
    · rw [worldAfter_of_no_answer (not_exists.1 h)]
      exact ih

theorem byte?_of_stores (h : cpu.Stores words w n a) :
    (cpu.worldAfter words w (n + 1)).machine.memory.byte? a =
      (cpu.worldAfter words w n).machine.v[a - (cpu.worldAfter words w n).machine.i.toNat]? := by
  obtain ⟨d, hd, hstores⟩ := h
  obtain ⟨hreg, heffect⟩ := effect_of_answer hd
  exact byte?_of_storesAt hreg heffect hstores

theorem byte?_of_not_stores (h : ¬cpu.Stores words w n a) :
    (cpu.worldAfter words w (n + 1)).machine.memory.byte? a = (cpu.worldAfter words w n).machine.memory.byte? a := by
  by_cases hd : ∃ d, (cpu.dispatchAll words w).1[n]? = some (.ok d)
  · obtain ⟨d, hd⟩ := hd
    exact byte?_of_not_storesAt (effect_of_answer hd).2 fun hstores => h ⟨d, hd, hstores⟩
  · rw [worldAfter_of_no_answer (not_exists.1 hd)]

/-- A byte stays as long as nothing is stored at its address. -/
theorem byte?_of_no_store {i : Nat} (hin : i ≤ n) (h : ∀ k, i ≤ k → k < n → ¬cpu.Stores words w k a) :
    (cpu.worldAfter words w n).machine.memory.byte? a = (cpu.worldAfter words w i).machine.memory.byte? a := by
  induction hin with
  | refl => rfl
  | @step n hin ih =>
    rw [byte?_of_not_stores (h n hin (Nat.lt_succ_self n))]
    exact ih fun k hik hkn => h k hik (Nat.lt_succ_of_lt hkn)

theorem byte?_of_lastStore (h : cpu.LastStore words w j n a) :
    (cpu.worldAfter words w n).machine.memory.byte? a =
      (cpu.worldAfter words w j).machine.v[a - (cpu.worldAfter words w j).machine.i.toNat]? := by
  rw [byte?_of_no_store (Nat.succ_le_of_lt h.before) h.last]
  exact byte?_of_stores h.stores

theorem v_of_load {x : UInt8} (hd : (cpu.dispatchAll words w).1[n]? = some (.ok d))
    (hi : d.instruction = .loadRegs x) :
    (∀ k ≤ x.toNat, (cpu.worldAfter words w (n + 1)).machine.v[k]? =
        (cpu.worldAfter words w n).machine.memory.byte? ((cpu.worldAfter words w n).machine.i.toNat + k)) ∧
      ∀ k, x.toNat < k →
        (cpu.worldAfter words w (n + 1)).machine.v[k]? = (cpu.worldAfter words w n).machine.v[k]? := by
  obtain ⟨hreg, heffect⟩ := effect_of_answer hd
  rw [hi] at hreg heffect
  exact v_of_loadRegs (hreg x rfl) heffect

/-- What memory holds and loads bring back after so many dispatches. -/
structure Remembers (cpu : Interpreter) (words : List Word) (w : World) (n : Nat) : Prop where
  size : (cpu.worldAfter words w n).machine.memory.size = w.machine.memory.size
  programAddr : (cpu.worldAfter words w n).machine.memory.programAddr = w.machine.memory.programAddr
  written : ∀ j a, cpu.LastStore words w j n a →
    (cpu.worldAfter words w n).machine.memory.byte? a =
      (cpu.worldAfter words w j).machine.v[a - (cpu.worldAfter words w j).machine.i.toNat]?
  untouched : ∀ a, (∀ j < n, ¬cpu.Stores words w j a) →
    (cpu.worldAfter words w n).machine.memory.byte? a = w.machine.memory.byte? a
  loaded : ∀ d x, (cpu.dispatchAll words w).1[n]? = some (.ok d) → d.instruction = .loadRegs x →
    (∀ k ≤ x.toNat, (cpu.worldAfter words w (n + 1)).machine.v[k]? =
        (cpu.worldAfter words w n).machine.memory.byte? ((cpu.worldAfter words w n).machine.i.toNat + k)) ∧
      ∀ k, x.toNat < k →
        (cpu.worldAfter words w (n + 1)).machine.v[k]? = (cpu.worldAfter words w n).machine.v[k]?
  broughtBack : ∀ d x, (cpu.dispatchAll words w).1[n]? = some (.ok d) → d.instruction = .loadRegs x →
    ∀ k ≤ x.toNat, ∀ j, cpu.LastStore words w j n ((cpu.worldAfter words w n).machine.i.toNat + k) →
      (cpu.worldAfter words w (n + 1)).machine.v[k]? = (cpu.worldAfter words w j).machine.v[
        (cpu.worldAfter words w n).machine.i.toNat + k - (cpu.worldAfter words w j).machine.i.toNat]?

theorem memory_last_writer (cpu : Interpreter) (words : List Word) (w : World) (n : Nat) :
    cpu.Remembers words w n := by
  obtain ⟨hsize, haddr⟩ := cpu.size_worldAfter words w n
  refine ⟨hsize, UInt16.toNat_inj.1 haddr, fun j a => byte?_of_lastStore, fun a h => ?_, fun d x => v_of_load, ?_⟩
  · exact byte?_of_no_store (Nat.zero_le n) fun k _ => h k
  · intro d x hd hi k hk j hj
    rw [(v_of_load hd hi).1 k hk]
    exact byte?_of_lastStore hj

/-- An interpreter of block transfers alone. -/
def transfers : Interpreter where
  decoder := ⟨[⟨⟨"Fx55", [.literal 0xF, .operand .register, .literal 0x5, .literal 0x5], rfl⟩, .storeRegs⟩,
    ⟨⟨"Fx65", [.literal 0xF, .operand .register, .literal 0x6, .literal 0x5], rfl⟩, .loadRegs⟩]⟩
  addressing := .words
  shiftFlag := .register
  incrementIndex := false

set_option maxRecDepth 40000 in
/-- A store that ends with the last byte of memory, one that would pass it, and a load. -/
theorem memory_last_writer_atEnd :
    let words : List Word := [0xF155, 0xF255, 0xF165]
    let w : World := ⟨{ Machine.fresh Memory.blank with v := Vector.replicate 16 7, i := 0xFFE }, ⟨fun _ => 0, 0⟩⟩
    (transfers.dispatchAll words w).1[1]? = some (.error (.fault 0 0xF255 (.outOfBounds 0xFFE 3))) ∧
      transfers.LastStore words w 0 2 0xFFF ∧ (transfers.worldAfter words w 3).machine.v[1]? = some 7 := by
  intro words w
  have hstore : (transfers.dispatchAll words w).1[0]? = some (.ok ⟨0, 0xF155, .storeRegs 1, .next⟩) := rfl
  have hfail : (transfers.dispatchAll words w).1[1]? = some (.error (.fault 0 0xF255 (.outOfBounds 0xFFE 3))) := rfl
  have hload : (transfers.dispatchAll words w).1[2]? = some (.ok ⟨0, 0xF165, .loadRegs 1, .next⟩) := rfl
  have hlast : transfers.LastStore words w 0 2 0xFFF := by
    refine ⟨by decide, ⟨_, hstore, ?_⟩, fun k hk hk' => ?_⟩
    · change (0xFFE : Nat) ≤ 0xFFF ∧ (0xFFF : Nat) ≤ 0xFFE + 1
      decide
    · obtain rfl : k = 1 := by omega
      rintro ⟨d, hd, -⟩
      cases hfail.symm.trans hd
  have h := memory_last_writer transfers words w 2
  exact ⟨hfail, hlast, h.broughtBack _ 1 hload rfl 1 (by decide) 0 hlast⟩

end Chip8.Interpreter
