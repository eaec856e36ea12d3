import Chip8.Proofs.Atomic
import Chip8.Proofs.Effect

/-! Block transfers under a moving index. Each moves the index past its own block, so that consecutive transfers run
through memory without a gap: what a list of them stores stands there as one string of bytes, and loads of the same
blocks from the same address bring back each of them. -/

namespace Chip8

/-- The registers up to and including the one numbered `x`. -/
def Machine.block (m : Machine) (x : UInt8) : List UInt8 := m.v.toList.take (x.toNat + 1)

theorem Machine.length_block (m : Machine) {x : UInt8} (hx : x < 16) : (m.block x).length = x.toNat + 1 := by
  have hlt : x.toNat < 16 := UInt8.lt_iff_toNat_lt.1 hx
  unfold block
  rw [List.length_take, Vector.length_toList]
  omega

theorem Machine.getElem?_block (m : Machine) {x : UInt8} {k : Nat} (hk : k < x.toNat + 1) :
    (m.block x)[k]? = m.v[k]? := by
  unfold block
  rw [List.getElem?_take_of_lt hk, Vector.getElem?_toList]

namespace Instruction

/-- The last register of the block that a transfer moves. -/
def block? : Instruction → Option UInt8
  | .storeRegs x | .loadRegs x => some x
  | _ => none

/-- Has no way to move the index or to write memory. -/
def Bystands : Instruction → Prop
  | .storeRegs _ | .loadRegs _ | .loadIndex _ | .addIndex _ => False
  | _ => True

/-- How many bytes the transfers in a list move. -/
def extent (is : List Instruction) : Nat := (is.filterMap block?).foldr (fun x n => x.toNat + 1 + n) 0

end Instruction

/-- An instruction as it was applied, between two worlds. -/
structure Applied where
  instruction : Instruction
  before : World
  answer : Except Fault Step
  after : World

/-- The block that went to memory, or that came from there. -/
def Applied.block? (a : Applied) : Option (List UInt8) :=
  match a.instruction with
  | .storeRegs x => some (a.before.machine.block x)
  | .loadRegs x => some (a.after.machine.block x)
  | _ => none

namespace Interpreter

/-- Instructions applied one after another, whatever becomes of each, and the world that they leave. -/
def applyAll (cpu : Interpreter) : List Instruction → World → List Applied × World
  | [], w => ([], w)
  | i :: is, w =>
    match cpu.apply i w with
    | (answer, next) =>
      match applyAll cpu is next with
      | (rest, last) => (⟨i, w, answer, next⟩ :: rest, last)

/-- The blocks that a list of instructions transfers, in their order. -/
def blocks (cpu : Interpreter) (is : List Instruction) (w : World) : List (List UInt8) :=
  (cpu.applyAll is w).1.filterMap Applied.block?

/-- Transfers of registers that exist. The instructions between them, as they are applied, leave the index and memory
alone. -/
structure Streams (cpu : Interpreter) (is : List Instruction) (w : World) : Prop where
  registers : ∀ i ∈ is, ∀ x ∈ i.block?, x < 16
  between : ∀ a ∈ (cpu.applyAll is w).1, a.instruction.block? = none →
    a.after.machine.i = a.before.machine.i ∧ a.after.machine.memory = a.before.machine.memory

variable {cpu : Interpreter} {i : Instruction} {is : List Instruction} {w w' : World} {x : UInt8} {st : Step} {n : Nat}

/-! ### One instruction -/

theorem memory_apply (h : ∀ x, i ≠ .storeRegs x) (w : World) :
    (cpu.apply i w).2.machine.memory = w.machine.memory := by
  rcases ha : cpu.apply i w with ⟨f | st, w'⟩
  · rw [cpu.atomic_apply i w f w' ha]
  · have heffect := memoryEffect_of_effect (effect_of_apply ha)
    refine World.memory_eq_of_view heffect.size heffect.programAddr (funext fun a => heffect.kept a ?_)
    cases i with
    | storeRegs x => exact absurd rfl (h x)
    | _ => exact not_false

theorem index_of_bystands {s t : View} (hi : i.Bystands) (h : cpu.effect s i = some (st, t)) : t.i = s.i := by
  cases i with
  | storeRegs | loadRegs | loadIndex | addIndex => exact hi.elim
  | skipEqImm | skipNeImm | skipEqReg | skipNeReg =>
    simp only [effect, View.skipIf] at h
    split at h <;> cases h <;> rfl
  | call | ret =>
    simp only [effect] at h
    split at h <;> cases h
    rfl
  | _ => cases h; rfl

theorem apply_of_bystands (hi : i.Bystands) (w : World) :
    (cpu.apply i w).2.machine.i = w.machine.i ∧ (cpu.apply i w).2.machine.memory = w.machine.memory := by
  refine ⟨?_, memory_apply (fun x hx => ?_) w⟩
  · rcases ha : cpu.apply i w with ⟨f | st, w'⟩
    · rw [cpu.atomic_apply i w f w' ha]
    · exact UInt16.toNat_inj.1 (index_of_bystands hi (effect_of_apply ha))
  · rw [hx] at hi
    exact hi

/-- What a transfer that has room does: it moves the index past the block, which memory and registers then share. -/
structure Transfers (cpu : Interpreter) (i : Instruction) (x : UInt8) (w w' : World) : Prop where
  applied : cpu.apply i w = (.ok .next, w')
  index : w'.machine.i.toNat = (w.machine.i.toNat + (x.toNat + 1)) % 65536
  size : w'.machine.memory.size = w.machine.memory.size
  inside : ∀ k ≤ x.toNat, w'.machine.memory.byte? (w.machine.i.toNat + k) = w'.machine.v[k]?
  outside : ∀ a, a < w.machine.i.toNat ∨ w.machine.i.toNat + x.toNat < a →
    w'.machine.memory.byte? a = w.machine.memory.byte? a
  above : ∀ k, x.toNat < k → w'.machine.v[k]? = w.machine.v[k]?
  block : (⟨i, w, .ok .next, w'⟩ : Applied).block? = some (w'.machine.block x)

theorem highestRegister_of_block (hi : i.block? = some x) : i.highestRegister? = some x := by
  cases i with
  | storeRegs y | loadRegs y => exact hi
  | _ => cases hi

theorem lt_of_block (hi : i.block? = some x) (hx : x < 16) : ∀ r ∈ i.highestRegister?, r < 16 := by
  intro r hr
  rw [highestRegister_of_block hi] at hr
  cases hr
  exact hx

theorem exists_apply (cpu : Interpreter) (hi : i.block? = some x) (hx : x < 16)
    (hroom : w.machine.i.toNat + x.toNat < w.machine.memory.size) : ∃ w', cpu.apply i w = (.ok .next, w') := by
  have heffect : ∃ t, cpu.effect w.view i = some (.next, t) := by
    cases i with
    | storeRegs y | loadRegs y => cases hi; exact ⟨_, if_pos hroom⟩
    | _ => cases hi
  obtain ⟨t, ht⟩ := heffect
  obtain ⟨w', happly, -⟩ := apply_of_effect (lt_of_block hi hx) ht
  exact ⟨w', happly⟩

theorem index_of_block {s t : View} (hinc : cpu.incrementIndex = true) (hi : i.block? = some x)
    (h : cpu.effect s i = some (st, t)) : t.i = (s.i + (x.toNat + 1)) % 65536 := by
  cases i with
  | storeRegs y | loadRegs y =>
    cases hi
    simp only [effect, View.passBlock, hinc, if_true] at h
    split at h <;> cases h
    rfl
  | _ => cases hi

theorem storeRegs_transfers (hinc : cpu.incrementIndex = true) (h : cpu.apply (.storeRegs x) w = (.ok .next, w')) :
    Transfers cpu (.storeRegs x) x w w' := by
  have heffect := effect_of_apply h
  have hmemory := memoryEffect_of_effect heffect
  have hv := v_of_storeRegs heffect
  refine ⟨h, index_of_block hinc rfl heffect, hmemory.size, fun k hk => ?_, fun a ha => ?_, fun k _ => by rw [hv], ?_⟩
  · have hbyte := byte?_of_storesAt (lt_of_apply h) heffect ⟨Nat.le_add_right .., Nat.add_le_add_left hk _⟩
    rw [hv]
    rwa [show w.view.i = w.machine.i.toNat from rfl, Nat.add_sub_cancel_left] at hbyte
  · refine byte?_of_not_storesAt heffect fun hin => ?_
    have hle : w.machine.i.toNat ≤ a ∧ a ≤ w.machine.i.toNat + x.toNat := hin
    omega
  · simp only [Applied.block?, Machine.block, hv]

theorem loadRegs_transfers (hinc : cpu.incrementIndex = true) (h : cpu.apply (.loadRegs x) w = (.ok .next, w')) :
    Transfers cpu (.loadRegs x) x w w' := by
  have heffect := effect_of_apply h
  have hmemory := memoryEffect_of_effect heffect
  have hkept (a : Nat) : w'.machine.memory.byte? a = w.machine.memory.byte? a := byte?_of_not_storesAt heffect not_false
  obtain ⟨hloaded, habove⟩ := v_of_loadRegs (lt_of_apply h x rfl) heffect
  exact ⟨h, index_of_block hinc rfl heffect, hmemory.size, fun k hk => (hkept _).trans (hloaded k hk).symm,
    fun a _ => hkept a, habove, rfl⟩

theorem exists_transfers (hinc : cpu.incrementIndex = true) (hi : i.block? = some x) (hx : x < 16)
    (hroom : w.machine.i.toNat + x.toNat < w.machine.memory.size) : ∃ w', Transfers cpu i x w w' := by
  obtain ⟨w', happly⟩ := exists_apply cpu hi hx hroom
  cases i with
  | storeRegs y => cases hi; exact ⟨w', storeRegs_transfers hinc happly⟩
  | loadRegs y => cases hi; exact ⟨w', loadRegs_transfers hinc happly⟩
  | _ => cases hi

/-- A transfer without room is refused, and nothing has moved. -/
theorem apply_of_no_room (hi : i.block? = some x) (hx : x < 16)
    (hroom : w.machine.memory.size < w.machine.i.toNat + x.toNat + 1) :
    cpu.apply i w = (.error (.outOfBounds w.machine.i (x.toNat + 1)), w) := by
  have hx' : x.toNat < 16 := UInt8.lt_iff_toNat_lt.1 hx
  have hfull : w.view.size ≤ w.view.i + x.toNat := Nat.le_of_lt_succ hroom
  rw [apply_eq_perform cpu i w (lt_of_block hi hx)]
  cases i with
  | storeRegs y => cases hi; simp only [perform, w.storeRegisters_eq_error x.toNat hx' hfull]
  | loadRegs y => cases hi; simp only [perform, w.loadRegisters_eq_error x.toNat hx' hfull]
  | _ => cases hi

/-! ### Lists of instructions -/

/-- What came of a list of transfers that has room. Memory holds their blocks one behind the other, where the index
was; the index stands behind the last of them, and a transfer from there that has no room is refused. -/
structure Streamed (cpu : Interpreter) (is : List Instruction) (w w' : World) : Prop where
  answered : ∀ a ∈ (cpu.applyAll is w).1, ∀ x ∈ a.instruction.block?, a.answer = .ok .next
  index : w'.machine.i.toNat = (w.machine.i.toNat + Instruction.extent is) % 65536
  size : w'.machine.memory.size = w.machine.memory.size
  lengths : (cpu.blocks is w).map List.length = (is.filterMap Instruction.block?).map fun x => x.toNat + 1
  inside : ∀ k < Instruction.extent is,
    w'.machine.memory.byte? (w.machine.i.toNat + k) = (cpu.blocks is w).flatten[k]?
  outside : ∀ a, a < w.machine.i.toNat ∨ w.machine.i.toNat + Instruction.extent is ≤ a →
    w'.machine.memory.byte? a = w.machine.memory.byte? a
  above : ∀ a ∈ (cpu.applyAll is w).1, ∀ x ∈ a.instruction.block?, ∀ k, x.toNat < k →
    a.after.machine.v[k]? = a.before.machine.v[k]?
  full : w.machine.i.toNat + Instruction.extent is < 65536 → ∀ i, ∀ x ∈ i.block?, x < 16 →
    w.machine.memory.size < w.machine.i.toNat + Instruction.extent is + x.toNat + 1 →
    cpu.apply i w' = (.error (.outOfBounds w'.machine.i (x.toNat + 1)), w')

theorem extent_cons_of_none (hi : i.block? = none) : Instruction.extent (i :: is) = Instruction.extent is := by
  unfold Instruction.extent
  rw [List.filterMap_cons_none hi]

theorem extent_cons_of_some (hi : i.block? = some x) :
    Instruction.extent (i :: is) = x.toNat + 1 + Instruction.extent is := by
  unfold Instruction.extent
  rw [List.filterMap_cons_some hi, List.foldr_cons]

theorem extent_congr {js : List Instruction}
    (h : js.filterMap Instruction.block? = is.filterMap Instruction.block?) :
    Instruction.extent js = Instruction.extent is := by
  unfold Instruction.extent
  rw [h]

theorem block_of_none (hi : i.block? = none) (w w' : World) (r : Except Fault Step) :
    (⟨i, w, r, w'⟩ : Applied).block? = none := by
  cases i with
  | storeRegs x | loadRegs x => cases hi
  | _ => rfl

theorem fst_applyAll_cons (cpu : Interpreter) (i : Instruction) (is : List Instruction) (w : World) :
    (cpu.applyAll (i :: is) w).1 =
      ⟨i, w, (cpu.apply i w).1, (cpu.apply i w).2⟩ :: (cpu.applyAll is (cpu.apply i w).2).1 := rfl

theorem snd_applyAll_cons (cpu : Interpreter) (i : Instruction) (is : List Instruction) (w : World) :
    (cpu.applyAll (i :: is) w).2 = (cpu.applyAll is (cpu.apply i w).2).2 := rfl

theorem blocks_cons_of_none (cpu : Interpreter) (hi : i.block? = none) (is : List Instruction) (w : World) :
    cpu.blocks (i :: is) w = cpu.blocks is (cpu.apply i w).2 := by
  unfold blocks
  rw [fst_applyAll_cons, List.filterMap_cons_none (block_of_none hi ..)]

theorem Transfers.blocks_cons {u : World} (h : cpu.Transfers i x w u) (is : List Instruction) :
    cpu.blocks (i :: is) w = u.machine.block x :: cpu.blocks is u := by
  unfold blocks
  rw [fst_applyAll_cons, h.applied]
  exact List.filterMap_cons_some h.block

theorem Streams.head (h : cpu.Streams (i :: is) w) (hi : i.block? = none) :
    (cpu.apply i w).2.machine.i = w.machine.i ∧ (cpu.apply i w).2.machine.memory = w.machine.memory := by
  have hbetween := h.between
  rw [fst_applyAll_cons] at hbetween
  exact hbetween _ List.mem_cons_self hi

theorem Streams.tail (h : cpu.Streams (i :: is) w) : cpu.Streams is (cpu.apply i w).2 where
  registers j hj := h.registers j (List.mem_cons_of_mem _ hj)
  between a ha := h.between a (List.mem_cons_of_mem _ ha)

theorem Streamed.between {u : World} (hi : i.block? = none) (hu : (cpu.apply i w).2 = u)
    (hindex : u.machine.i = w.machine.i) (hmemory : u.machine.memory = w.machine.memory)
    (h : cpu.Streamed is u w') : cpu.Streamed (i :: is) w w' := by
  subst hu
  have hblocks := cpu.blocks_cons_of_none hi is w
  have hhead (P : UInt8 → Prop) : ∀ x ∈ i.block?, P x := fun x hx => absurd (hi.symm.trans hx) nofun
  obtain ⟨hanswered, hix, hsize, hlengths, hinside, houtside, habove, hfull⟩ := h
  rw [hindex] at hix hinside
  rw [hmemory] at hsize
  rw [hindex, hmemory] at houtside hfull
  rw [← extent_cons_of_none hi] at hix hinside houtside hfull
  refine ⟨?_, hix, hsize, ?_, hblocks ▸ hinside, houtside, ?_, hfull⟩
  · rw [fst_applyAll_cons]
    exact List.forall_mem_cons.2 ⟨hhead _, hanswered⟩
  · rw [hblocks, hlengths, List.filterMap_cons_none hi]
  · rw [fst_applyAll_cons]
    exact List.forall_mem_cons.2 ⟨hhead _, habove⟩

/-- A transfer that ends with the last byte that can be addressed moves the index around to zero, but then nothing more
is transferred. -/
theorem Transfers.next_cases {u : World} (hstep : cpu.Transfers i x w u)
    (hroom : w.machine.i.toNat + (x.toNat + 1 + n) ≤ w.machine.memory.size) :
    u.machine.i.toNat = w.machine.i.toNat + (x.toNat + 1) ∧ w.machine.i.toNat + (x.toNat + 1) < 65536 ∨
      u.machine.i.toNat = 0 ∧ n = 0 ∧ w.machine.i.toNat + (x.toNat + 1) = 65536 := by
  have hindex := hstep.index
  have hmax : w.machine.memory.size ≤ 65536 := w.machine.memory.size_le
  omega

theorem Streamed.transfer {u : World} (hi : i.block? = some x) (hstep : cpu.Transfers i x w u)
    (hroom : w.machine.i.toNat + (x.toNat + 1 + Instruction.extent is) ≤ w.machine.memory.size)
    (hx : x < 16) (h : cpu.Streamed is u w') : cpu.Streamed (i :: is) w w' := by
  have hnext := hstep.next_cases hroom
  have hlength := u.machine.length_block hx
  have hblocks := hstep.blocks_cons is
  have hhead (P : UInt8 → Prop) (hP : P x) : ∀ y ∈ i.block?, P y := fun y hy => by
    cases hi.symm.trans hy
    exact hP
  refine ⟨?_, ?_, h.size.trans hstep.size, ?_, fun k hk => ?_, fun a ha => ?_, ?_, fun hlt j y hj hy hfull => ?_⟩
  · rw [fst_applyAll_cons, hstep.applied]
    exact List.forall_mem_cons.2 ⟨hhead _ rfl, h.answered⟩
  · rw [h.index, extent_cons_of_some hi]
    omega
  · rw [hblocks, List.map_cons, h.lengths, hlength, List.filterMap_cons_some hi, List.map_cons]
  · rw [extent_cons_of_some hi] at hk
    rw [hblocks, List.flatten_cons]
    by_cases hkx : k < x.toNat + 1
    · -- the transfers that follow stay behind this block
      have hafter := h.outside (w.machine.i.toNat + k) (by omega)
      rw [List.getElem?_append_left (by omega), hafter, hstep.inside k (Nat.le_of_lt_succ hkx),
        u.machine.getElem?_block hkx]
    · have hin := h.inside (k - (x.toNat + 1)) (by omega)
      rw [List.getElem?_append_right (by omega), hlength, ← hin]
      congr 1
      omega
  · rw [extent_cons_of_some hi] at ha
    exact (h.outside a (by omega)).trans (hstep.outside a (by omega))
  · rw [fst_applyAll_cons, hstep.applied]
    exact List.forall_mem_cons.2 ⟨hhead _ hstep.above, h.above⟩
  · rw [extent_cons_of_some hi] at hlt hfull
    refine h.full (by omega) j y hj hy ?_
    rw [hstep.size]
    omega

theorem streamed (hinc : cpu.incrementIndex = true) (hs : cpu.Streams is w)
    (hroom : w.machine.i.toNat + Instruction.extent is ≤ w.machine.memory.size) :
    cpu.Streamed is w (cpu.applyAll is w).2 := by
  induction is generalizing w with
  | nil =>
    have hindex : w.machine.i.toNat % 65536 = w.machine.i.toNat := Nat.mod_eq_of_lt w.machine.i.toNat_lt
    exact
      { answered := fun a ha => absurd ha List.not_mem_nil
        index := hindex.symm
        size := rfl
        lengths := rfl
        inside := fun k hk => absurd hk (Nat.not_lt_zero k)
        outside := fun _ _ => rfl
        above := fun a ha => absurd ha List.not_mem_nil
        full := fun _ i x hi hx hfull => apply_of_no_room hi hx hfull }
  | cons i is ih =>
    cases hi : i.block? with
    | none =>
      obtain ⟨hindex, hmemory⟩ := hs.head hi
      rw [snd_applyAll_cons]
      refine Streamed.between hi rfl hindex hmemory (ih hs.tail ?_)
      rw [extent_cons_of_none hi] at hroom
      rw [hindex, hmemory]
      exact hroom
    | some x =>
      have hx := hs.registers i List.mem_cons_self x hi
      rw [extent_cons_of_some hi] at hroom
      obtain ⟨u, hstep⟩ := exists_transfers hinc hi hx (w := w) (by omega)
      have hu : (cpu.apply i w).2 = u := congrArg Prod.snd hstep.applied
      have htail : cpu.Streams is u := hu ▸ hs.tail
      have hnext := hstep.next_cases hroom
      have h := ih htail (by rw [hstep.size]; omega)
      rw [snd_applyAll_cons, hstep.applied]
      exact h.transfer hi hstep hroom hx

theorem memory_applyAll (h : ∀ x, Instruction.storeRegs x ∉ is) (w : World) :
    (cpu.applyAll is w).2.machine.memory = w.machine.memory := by
  induction is generalizing w with
  | nil => rfl
  | cons i is ih =>
    rw [snd_applyAll_cons]
    refine (ih (fun x hx => h x (List.mem_cons_of_mem _ hx)) _).trans (memory_apply (fun x hx => h x ?_) w)
    rw [hx]
    exact List.mem_cons_self

theorem Streamed.length_flatten (h : cpu.Streamed is w w') :
    (cpu.blocks is w).flatten.length = Instruction.extent is := by
  rw [List.length_flatten, h.lengths, List.sum_eq_foldr, List.foldr_map]
  rfl

/-- Transfers of blocks of the same lengths, from the same address, that leave the same memory had the same blocks. -/
theorem Streamed.blocks_eq {js : List Instruction} {u u' : World} (h : cpu.Streamed is w w')
    (h' : cpu.Streamed js u u') (hregs : js.filterMap Instruction.block? = is.filterMap Instruction.block?)
    (hindex : u.machine.i = w.machine.i) (hmemory : u'.machine.memory = w'.machine.memory) :
    cpu.blocks js u = cpu.blocks is w := by
  have hextent := extent_congr hregs
  refine List.eq_iff_flatten_eq.2 ⟨List.ext_getElem? fun k => ?_, by rw [h'.lengths, h.lengths, hregs]⟩
  by_cases hk : k < Instruction.extent is
  · rw [← h.inside k hk, ← h'.inside k (hextent ▸ hk), hindex, hmemory]
  · have hlen : (cpu.blocks is w).flatten.length ≤ k := h.length_flatten ▸ Nat.le_of_not_lt hk
    have hlen' : (cpu.blocks js u).flatten.length ≤ k := h'.length_flatten ▸ hextent ▸ Nat.le_of_not_lt hk
    rw [List.getElem?_eq_none hlen, List.getElem?_eq_none hlen']

theorem streams_of_bystands (h : ∀ i ∈ is, i.Bystands ∨ ∃ x < 16, i.block? = some x) (w : World) :
    cpu.Streams is w := by
  constructor
  · intro i hi x hx
    obtain hstands | ⟨y, hy, hblock⟩ := h i hi
    · cases i with
      | storeRegs | loadRegs => exact hstands.elim
      | _ => cases hx
    · cases hblock.symm.trans hx
      exact hy
  · induction is generalizing w with
    | nil => exact fun a ha => absurd ha List.not_mem_nil
    | cons i is ih =>
      rw [fst_applyAll_cons]
      refine List.forall_mem_cons.2 ⟨fun hnone => ?_, ih (fun j hj => h j (List.mem_cons_of_mem _ hj)) _⟩
      obtain hstands | ⟨y, hy, hblock⟩ := h i List.mem_cons_self
      · exact apply_of_bystands hstands w
      · cases hnone.symm.trans hblock

/-- Consecutive transfers that end in memory run through it without a gap, and loads of the same blocks from the same
address bring them back. -/
theorem transfers_stream (hinc : cpu.incrementIndex = true) (hs : cpu.Streams is w)
    (hroom : w.machine.i.toNat + Instruction.extent is ≤ w.machine.memory.size) :
    cpu.Streamed is w (cpu.applyAll is w).2 ∧
      ∀ js u, cpu.Streams js u → js.filterMap Instruction.block? = is.filterMap Instruction.block? →
        (∀ x, .storeRegs x ∉ js) → u.machine.i = w.machine.i →
        u.machine.memory = (cpu.applyAll is w).2.machine.memory →
        cpu.Streamed js u (cpu.applyAll js u).2 ∧
          (cpu.applyAll js u).2.machine.memory = u.machine.memory ∧ cpu.blocks js u = cpu.blocks is w := by
  have hstored := streamed hinc hs hroom
  refine ⟨hstored, fun js u hjs hregs hloads hindex hmemory => ?_⟩
  have hextent := extent_congr hregs
  have hkept : (cpu.applyAll js u).2.machine.memory = u.machine.memory := memory_applyAll hloads u
  have hloaded := streamed hinc hjs (by rw [hextent, hindex, hmemory, hstored.size]; exact hroom)
  exact ⟨hloaded, hkept, hstored.blocks_eq hloaded hregs hindex (hkept.trans hmemory)⟩

set_option maxRecDepth 40000 in
/-- Two stores up to the last byte of memory, with an addition between them, and two loads of what they stored. -/
theorem transfers_stream_to_end :
    let cpu : Interpreter := ⟨⟨[]⟩, .words, .register, true⟩
    let w : World := ⟨{ Machine.fresh Memory.blank with v := Vector.replicate 16 7, i := 0xFF9 }, ⟨fun _ => 0, 0⟩⟩
    let stores : List Instruction := [.storeRegs 3, .addImm 0 1, .storeRegs 2]
    let loads : List Instruction := [.loadRegs 3, .loadRegs 2]
    let stored := (cpu.applyAll stores w).2
    let u : World := { stored with machine := { stored.machine with i := 0xFF9 } }
    cpu.blocks stores w = [[7, 7, 7, 7], [8, 7, 7]] ∧ cpu.blocks loads u = [[7, 7, 7, 7], [8, 7, 7]] ∧
      stored.machine.i = 0x1000 ∧
      cpu.apply (.storeRegs 0) stored = (.error (.outOfBounds stored.machine.i 1), stored) := by
  intro cpu w stores loads
  generalize hw : (cpu.applyAll stores w).2 = left
  intro stored u
  have hstores : ∀ i ∈ stores, i.Bystands ∨ ∃ x < 16, i.block? = some x := by
    simp [stores, Instruction.Bystands, Instruction.block?]
  have hloads : ∀ i ∈ loads, i.Bystands ∨ ∃ x < 16, i.block? = some x := by
    simp [loads, Instruction.Bystands, Instruction.block?]
  have hroom : w.machine.i.toNat + Instruction.extent stores ≤ w.machine.memory.size := by
    rw [show w.machine.memory.size = 4096 from Array.size_replicate]
    decide
  have hstreams : cpu.Streams stores w := streams_of_bystands hstores w
  obtain ⟨hstored, hback⟩ := transfers_stream rfl hstreams hroom
  rw [hw] at hstored hback
  obtain ⟨-, -, hblocks⟩ := hback loads u (streams_of_bystands hloads u) rfl (by simp [loads]) rfl rfl
  have hvalues : cpu.blocks stores w = [[7, 7, 7, 7], [8, 7, 7]] := rfl
  have hfull : w.machine.memory.size < w.machine.i.toNat + Instruction.extent stores + 0 + 1 := by
    rw [show w.machine.memory.size = 4096 from Array.size_replicate]
    decide
  exact ⟨hvalues, hblocks.trans hvalues, UInt16.toNat_inj.1 (hstored.index.trans (by decide)),
    hstored.full (by decide) (.storeRegs 0) 0 rfl (by decide) hfull⟩

end Interpreter
end Chip8
