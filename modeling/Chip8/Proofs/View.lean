import Chip8.Interpreter
import Mathlib.Logic.Function.Basic
import Mathlib.Tactic.Set
import Mathlib.Tactic.SplitIfs

/-! A view shows a world in plain numbers, one field for each part of the state, and zero where a row
of registers, slots or bytes has ended. It leaves nothing out, so that an equation between views says
what changed and also that nothing else did. -/

namespace Chip8

open Function (update update_apply)

@[ext]
structure View where
  v : Nat → Nat
  i : Nat
  pc : Nat
  sp : Nat
  stack : Nat → Nat
  size : Nat
  memory : Nat → Nat
  programAddr : Nat
  random : Nat → Nat
  drawn : Nat

namespace View

def set (s : View) (x b : Nat) : View := { s with v := update s.v x b }

/-- A result with its flag, which stays where both go to the flag register. -/
def report (s : View) (x b flag : Nat) : View := (s.set x b).set 15 flag

end View

section Rows

variable {α : Type} {n : Nat} {u v : Vector α n} (a : α)

private theorem eq_of_getD (h : ∀ k : Nat, u[k]?.getD a = v[k]?.getD a) : u = v := by
  apply Vector.ext
  intro k hk
  simpa [hk] using h k

private theorem getD_setIfInBounds (f : α → Nat) {k : Nat} (hk : k < n) (b : α) :
    (fun j : Nat => f ((u.setIfInBounds k b)[j]?.getD a)) = update (fun j => f (u[j]?.getD a)) k (f b) := by
  funext j
  rw [update_apply, Vector.getElem?_setIfInBounds]
  by_cases hj : j = k
  · subst hj; simp [hk]
  · simp [hj, Ne.symm hj]

end Rows

namespace World

def view (w : World) : View where
  v k := (w.machine.v[k]?.getD 0).toNat
  i := w.machine.i.toNat
  pc := w.machine.pc.toNat
  sp := w.machine.sp.toNat
  stack k := (w.machine.stack[k]?.getD 0).toNat
  size := w.machine.memory.size
  memory a := ((w.machine.memory.byte? a).getD 0).toNat
  programAddr := w.machine.memory.programAddr.toNat
  random n := (w.random.word n).toNat
  drawn := w.random.drawn

theorem view_injective : Function.Injective view := by
  rintro ⟨⟨v, i, pc, stack, sp, memory⟩, ⟨word, drawn⟩⟩
    ⟨⟨v', i', pc', stack', sp', memory'⟩, ⟨word', drawn'⟩⟩ h
  simp only [view, View.mk.injEq, UInt8.toNat_inj, UInt16.toNat_inj, UInt32.toNat_inj, funext_iff] at h
  obtain ⟨hv, rfl, rfl, rfl, hstack, hsize, hbytes, haddr, hword, rfl⟩ := h
  obtain rfl := eq_of_getD 0 hv
  obtain rfl := eq_of_getD 0 hstack
  obtain rfl := Memory.eq_of_bytes hsize haddr hbytes
  obtain rfl := funext hword
  rfl

theorem toNat_sp_add_one (w : World) : (w.machine.sp + 1).toNat = (w.view.sp + 1) % 256 := UInt8.toNat_add _ _

theorem toNat_sp_sub_one (w : World) : (w.machine.sp - 1).toNat = (w.view.sp + 255) % 256 := by
  rw [UInt8.toNat_sub, Nat.add_comm]
  rfl

theorem view_stack_eq_iff {w : World} {k : Nat} (hk : k < 16) (addr : UInt16) :
    w.view.stack k = addr.toNat ↔ w.machine.stack[k]? = some addr := by
  simp only [view, Vector.getElem?_eq_getElem hk, Option.getD_some, UInt16.toNat_inj, Option.some.injEq]

theorem view_setRegister (w : World) (x b : UInt8) (hx : x < 16) :
    ({ w with machine := w.machine.setRegister x b } : World).view = w.view.set x.toNat b.toNat :=
  View.ext (getD_setIfInBounds 0 UInt8.toNat (UInt8.lt_iff_toNat_lt.1 hx) b) rfl rfl rfl rfl rfl rfl rfl rfl rfl

theorem view_report (w : World) (x b flag : UInt8) (hx : x < 16) :
    ({ w with machine := (w.machine.setRegister x b).setFlag flag } : World).view =
      w.view.report x.toNat b.toNat flag.toNat := by
  have h := view_setRegister { w with machine := w.machine.setRegister x b } flagRegister flag (by decide)
  rw [view_setRegister w x b hx] at h
  exact h

theorem view_push (w : World) (top : UInt8) (addr : UInt16) (h : top < 16) :
    ({ w with machine := { w.machine with stack := w.machine.stack.setIfInBounds top.toNat addr, sp := top } } :
      World).view = { w.view with stack := update w.view.stack top.toNat addr.toNat, sp := top.toNat } :=
  View.ext rfl rfl rfl rfl (getD_setIfInBounds 0 UInt16.toNat (UInt8.lt_iff_toNat_lt.1 h) addr) rfl rfl rfl rfl rfl

theorem view_storeRegisters (w : World) (x : Nat) (hx : x < 16) (h : w.view.i + x < w.view.size) :
    ∃ m, w.machine.storeRegisters x = (.ok (), m) ∧ ({ w with machine := m } : World).view =
      { w.view with memory := fun a => if w.view.i ≤ a ∧ a ≤ w.view.i + x then w.view.v (a - w.view.i)
                                       else w.view.memory a } := by
  set data := w.machine.v.toList.take (x + 1) with hdata
  have hlen : data.length = x + 1 := by simp [hdata]; omega
  have hroom : w.machine.i.toNat + data.length ≤ w.machine.memory.size := by rw [hlen]; exact h
  refine ⟨{ w.machine with memory := (w.machine.memory.write data w.machine.i).2 }, ?_, ?_⟩
  · rw [Machine.storeRegisters, if_pos hx, ← Memory.write_eq_ok _ _ _ hroom]
  · refine View.ext rfl rfl rfl rfl rfl (Memory.size_write ..) ?_
      (congrArg UInt16.toNat (Memory.programAddr_write ..)) rfl rfl
    funext a
    change (((w.machine.memory.write data w.machine.i).2.byte? a).getD 0).toNat = if _ then _ else _
    rw [Memory.byte?_write _ _ _ _ hroom, hlen]
    by_cases ha : w.view.i ≤ a ∧ a ≤ w.view.i + x
    · have hlt : a - w.machine.i.toNat < x + 1 := show a - w.view.i < x + 1 by omega
      rw [if_pos ha, if_pos ⟨ha.1, Nat.lt_succ_of_le ha.2⟩, hdata, List.getElem?_take_of_lt hlt, Vector.getElem?_toList]
      rfl
    · rw [if_neg ha, if_neg fun h' => ha ⟨h'.1, Nat.le_of_lt_succ h'.2⟩]
      rfl

theorem storeRegisters_eq_error (w : World) (x : Nat) (hx : x < 16) (h : w.view.size ≤ w.view.i + x) :
    w.machine.storeRegisters x = (.error (.outOfBounds w.machine.i (x + 1)), w.machine) := by
  have hlen : (w.machine.v.toList.take (x + 1)).length = x + 1 := by simp; omega
  rw [Machine.storeRegisters, if_pos hx, Memory.write_eq_error _ _ _ (by rw [hlen]; exact Nat.lt_succ_of_le h), hlen]

theorem view_loadRegisters (w : World) (x : Nat) (hx : x < 16) (h : w.view.i + x < w.view.size) :
    ∃ m, w.machine.loadRegisters x = (.ok (), m) ∧ ({ w with machine := m } : World).view =
      { w.view with v := fun k => if k ≤ x then w.view.memory (w.view.i + k) else w.view.v k } := by
  obtain ⟨block, hread, hlen, hblock⟩ := Memory.read_eq_ok w.machine.memory w.machine.i (x + 1) h
  refine ⟨_, Machine.loadRegisters_of_read hx hread, View.ext ?_ rfl rfl rfl rfl rfl rfl rfl rfl rfl⟩
  funext k
  change ((Vector.ofFn fun k : Fin 16 => block[k.val]?.getD w.machine.v[k])[k]?.getD 0).toNat = if _ then _ else _
  by_cases hk : k < 16
  · rw [Vector.getElem?_eq_getElem hk, Option.getD_some, Vector.getElem_ofFn]
    by_cases hkx : k ≤ x
    · obtain ⟨b, hb⟩ := Memory.byte?_eq_some w.machine.memory (w.view.i + k) (Nat.lt_of_le_of_lt (by omega) h)
      rw [if_pos hkx, hblock k (Nat.lt_succ_of_le hkx)]
      simp only [view] at hb ⊢
      rw [hb]
      rfl
    · rw [if_neg hkx, List.getElem?_eq_none (show block.length ≤ k by omega)]
      simp [view, hk]
  · rw [Vector.getElem?_eq_none (by omega), if_neg (by omega)]
    simp [view, hk]

theorem loadRegisters_eq_error (w : World) (x : Nat) (hx : x < 16) (h : w.view.size ≤ w.view.i + x) :
    w.machine.loadRegisters x = (.error (.outOfBounds w.machine.i (x + 1)), w.machine) := by
  rw [Machine.loadRegisters, if_pos hx, Memory.read_eq_error _ _ _ (Nat.lt_succ_of_le h)]

theorem eq_of_getD_toNat {o o' : Option UInt8} (hs : o.isSome = o'.isSome)
    (h : (o.getD 0).toNat = (o'.getD 0).toNat) : o = o' := by
  cases o <;> cases o' <;> simp_all [UInt8.toNat_inj]

theorem isSome_byte? (w : World) (a : Nat) : (w.machine.memory.byte? a).isSome = decide (a < w.view.size) := by
  change (w.machine.memory.bytes[a]?).isSome = decide (a < w.machine.memory.bytes.size)
  by_cases h : a < w.machine.memory.bytes.size <;> simp [h]

theorem isSome_v (w : World) (k : Nat) : (w.machine.v[k]?).isSome = decide (k < 16) := by
  by_cases h : k < 16 <;> simp [h]

/-- Registers and bytes can be compared in views, where they are numbers. -/
theorem byte?_eq_of_view {w w' : World} {a : Nat} (hs : w.view.size = w'.view.size)
    (h : w.view.memory a = w'.view.memory a) : w.machine.memory.byte? a = w'.machine.memory.byte? a :=
  eq_of_getD_toNat (by rw [isSome_byte?, isSome_byte?, hs]) h

theorem byte?_eq_v_of_view {w w' : World} {a k : Nat} (ha : a < w.view.size) (hk : k < 16)
    (h : w.view.memory a = w'.view.v k) : w.machine.memory.byte? a = w'.machine.v[k]? :=
  eq_of_getD_toNat (by rw [isSome_byte?, isSome_v, decide_eq_true ha, decide_eq_true hk]) h

theorem v_eq_of_view {w w' : World} {k : Nat} (h : w.view.v k = w'.view.v k) :
    w.machine.v[k]? = w'.machine.v[k]? :=
  eq_of_getD_toNat (by rw [isSome_v, isSome_v]) h

theorem memory_eq_of_view {w w' : World} (hs : w.view.size = w'.view.size)
    (ha : w.view.programAddr = w'.view.programAddr) (hm : w.view.memory = w'.view.memory) :
    w.machine.memory = w'.machine.memory :=
  Memory.eq_of_bytes hs (UInt16.toNat_inj.1 ha) fun a => UInt8.toNat_inj.1 (congrFun hm a)

end World
end Chip8
