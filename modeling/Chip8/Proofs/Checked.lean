import Chip8.Interpreter

/-! The interpreter with every index checked. Here an access to a register, a stack slot or a byte that does not
exist has no outcome at all, so an outcome says that none was made. -/

namespace Chip8

/-- So many bytes of a row from `a` on. -/
def cells? (row : Array UInt8) (a : Nat) : Nat → Option (List UInt8)
  | 0 => some []
  | n + 1 => do return (← row[a]?) :: (← cells? row (a + 1) n)

/-- A row with bytes put at `a` and after it. -/
def place? (row : Array UInt8) (a : Nat) : List UInt8 → Option { r : Array UInt8 // r.size = row.size }
  | [] => some ⟨row, rfl⟩
  | b :: data =>
    if h : a < row.size then
      (place? (row.set a b) (a + 1) data).map fun r => ⟨r.1, r.2.trans (Array.size_set h)⟩
    else none

namespace Memory

def readChecked (m : Memory) (addr : UInt16) (length : Nat) : Option (Except Fault (List UInt8)) :=
  if m.holds addr length then (cells? m.bytes addr.toNat length).map .ok
  else some (.error (.outOfBounds addr length))

def writeChecked (m : Memory) (data : List UInt8) (addr : UInt16) : Option (Except Fault Unit × Memory) :=
  if m.holds addr data.length then
    (place? m.bytes addr.toNat data).map fun r =>
      (.ok (), { m with
        bytes := r.1
        le_size := by simpa [r.2] using m.le_size
        size_le := by simpa [r.2] using m.size_le })
  else some (.error (.outOfBounds addr data.length), m)

end Memory

namespace Machine

def registerChecked (m : Machine) (x : UInt8) : Option UInt8 := m.v[x.toNat]?

def setRegisterChecked (m : Machine) (x b : UInt8) : Option Machine :=
  if h : x.toNat < 16 then some { m with v := m.v.set x.toNat b h } else none

def pushChecked (m : Machine) (addr : UInt16) : Option (Except Fault Unit × Machine) :=
  let top := m.sp + 1
  if top < 16 then
    if h : top.toNat < 16 then some (.ok (), { m with stack := m.stack.set top.toNat addr h, sp := top }) else none
  else some (.error .stackOverflow, m)

def popChecked (m : Machine) : Option (Except Fault UInt16 × Machine) :=
  if 16 ≤ m.sp then some (.error .stackUnderflow, m)
  else m.stack[m.sp.toNat]?.map fun addr => (.ok addr, { m with sp := m.sp - 1 })

def storeRegistersChecked (m : Machine) (x : Nat) : Option (Except Fault Unit × Machine) :=
  if x < 16 then do
    let block ← cells? m.v.toArray 0 (x + 1)
    let (r, memory) ← m.memory.writeChecked block m.i
    return (r, { m with memory })
  else some (.error (missingRegister x), m)

def loadRegistersChecked (m : Machine) (x : Nat) : Option (Except Fault Unit × Machine) :=
  if x < 16 then do
    match ← m.memory.readChecked m.i (x + 1) with
    | .ok block => (place? m.v.toArray 0 block).map fun r => (.ok (), { m with v := ⟨r.1, r.2.trans m.v.size_toArray⟩ })
    | .error f => return (.error f, m)
  else some (.error (missingRegister x), m)

end Machine

namespace Interpreter

def performChecked (cpu : Interpreter) (i : Instruction) (w : World) : Option (Except Fault Step × World) :=
  let m := w.machine
  let stride := cpu.addressing.stride
  let done (m : Machine) : Option (Except Fault Step × World) := some (.ok .next, { w with machine := m })
  let skipIf (holds : Bool) : Option (Except Fault Step × World) :=
    some (if holds then (.ok .skip, { w with machine := { m with pc := m.pc + stride } })
      else (.ok .next, { w with machine := m }))
  let combine (x y : UInt8) (f : UInt8 → UInt8 → UInt8) : Option (Except Fault Step × World) := do
    done (← m.setRegisterChecked x (f (← m.registerChecked x) (← m.registerChecked y)))
  let report (x y : UInt8) (f : UInt8 → UInt8 → UInt8) (flag : UInt8 → UInt8 → Bool) :
      Option (Except Fault Step × World) := do
    let (a, b) := (← m.registerChecked x, ← m.registerChecked y)
    done (← (← m.setRegisterChecked x (f a b)).setRegisterChecked flagRegister (flag a b).toUInt8)
  let shift (x : UInt8) (f : UInt8 → UInt8) (out : UInt8 → UInt8) : Option (Except Fault Step × World) := do
    let a ← m.registerChecked x
    done (← (← m.setRegisterChecked x (f a)).setRegisterChecked flagRegister (out a))
  let transfer (x : UInt8) : Except Fault Unit × Machine → Option (Except Fault Step × World)
    | (.ok (), m) => done (cpu.passBlock x m)
    | (.error f, m) => some (.error f, { w with machine := m })
  match i with
  | .loadImm x kk => do done (← m.setRegisterChecked x kk)
  | .addImm x kk => do done (← m.setRegisterChecked x ((← m.registerChecked x) + kk))
  | .move x y => do done (← m.setRegisterChecked x (← m.registerChecked y))
  | .or x y => combine x y (· ||| ·)
  | .and x y => combine x y (· &&& ·)
  | .xor x y => combine x y (· ^^^ ·)
  | .addReg x y => report x y (· + ·) fun a b => 255 < a.toNat + b.toNat
  | .sub x y => report x y (· - ·) fun a b => b < a
  | .subNeg x y => report x y (fun a b => b - a) fun a b => a < b
  | .shiftRight x _ => shift x (· >>> 1) fun a => match cpu.shiftFlag with
    | .register => a &&& 1
    | .operand => x &&& 1
  | .shiftLeft x _ => shift x (· <<< 1) fun a => match cpu.shiftFlag with
    | .register => a >>> 7
    | .operand => x &&& 0x80
  | .random x kk => do
    let (r, random) := w.random.draw
    return (.ok .next, { machine := ← m.setRegisterChecked x (r.toUInt8 &&& kk), random })
  | .loadIndex nnn => done { m with i := nnn }
  | .addIndex x => do done { m with i := m.i + (← m.registerChecked x).toUInt16 }
  | .skipEqImm x kk => do skipIf ((← m.registerChecked x) == kk)
  | .skipNeImm x kk => do skipIf ((← m.registerChecked x) != kk)
  | .skipEqReg x y => do skipIf ((← m.registerChecked x) == (← m.registerChecked y))
  | .skipNeReg x y => do skipIf ((← m.registerChecked x) != (← m.registerChecked y))
  | .jumpOffset nnn => do
    return (.ok .jump, { w with machine := { m with pc := (← m.registerChecked 0).toUInt16 + nnn - stride } })
  | .call nnn => do
    match ← m.pushChecked m.pc with
    | (.ok (), m) => return (.ok .call, { w with machine := { m with pc := nnn - stride } })
    | (.error f, m) => return (.error f, { w with machine := m })
  | .ret => do
    match ← m.popChecked with
    | (.ok addr, m) => return (.ok .ret, { w with machine := { m with pc := addr } })
    | (.error f, m) => return (.error f, { w with machine := m })
  | .storeRegs x => do transfer x (← m.storeRegistersChecked x.toNat)
  | .loadRegs x => do transfer x (← m.loadRegistersChecked x.toNat)

def applyChecked (cpu : Interpreter) (i : Instruction) (w : World) : Option (Except Fault Step × World) :=
  match i.highestRegister? with
  | some r => if 16 ≤ r then some (.error (.noSuchRegister r), w) else cpu.performChecked i w
  | none => cpu.performChecked i w

end Interpreter

/-! ### No index is out of range -/

theorem cells?_eq {row : Array UInt8} {a n : Nat} (h : a + n ≤ row.size) :
    cells? row a n = some (row.extract a (a + n)).toList := by
  induction n generalizing a with
  | zero => simp [cells?]
  | succ n ih =>
    have ha : a < row.size := by omega
    rw [cells?, Array.getElem?_eq_getElem ha, ih (by omega)]
    refine congrArg some (List.ext_getElem? fun k => ?_)
    cases k with
    | zero => simp [ha]
    | succ k =>
      rw [List.getElem?_cons_succ]
      grind

theorem place?_eq {row : Array UInt8} {a : Nat} {data : List UInt8} (h : a + data.length ≤ row.size) :
    place? row a data = some ⟨Memory.overwrite row a data, Memory.size_overwrite row a data⟩ := by
  induction data generalizing row a with
  | nil => rfl
  | cons b data ih =>
    rw [List.length_cons] at h
    have ha : a < row.size := by omega
    rw [place?, dif_pos ha, ih (by rw [Array.size_set]; omega)]
    simp [Memory.overwrite, Array.setIfInBounds, ha]

namespace Memory

theorem readChecked_eq (m : Memory) (addr : UInt16) (length : Nat) :
    m.readChecked addr length = some (m.read addr length) := by
  rw [readChecked, read]
  split
  · next h =>
    rw [cells?_eq (of_decide_eq_true h)]
    rfl
  · rfl

theorem writeChecked_eq (m : Memory) (data : List UInt8) (addr : UInt16) :
    m.writeChecked data addr = some (m.write data addr) := by
  rw [writeChecked, write]
  split
  · next h =>
    rw [place?_eq (of_decide_eq_true h)]
    rfl
  · rfl

theorem length_of_read {m : Memory} {addr : UInt16} {length : Nat} {block : List UInt8}
    (h : m.read addr length = .ok block) : block.length = length := by
  rcases Nat.lt_or_ge m.size (addr.toNat + length) with hsize | hsize
  · rw [read_eq_error m addr length hsize] at h
    cases h
  · obtain ⟨block', hblock, hlength, -⟩ := read_eq_ok m addr length hsize
    cases h.symm.trans hblock
    exact hlength

end Memory

theorem set_eq_setIfInBounds {α : Type} {n k : Nat} (v : Vector α n) (h : k < n) (b : α) :
    v.set k b h = v.setIfInBounds k b := by
  apply Vector.ext
  intro j hj
  rw [Vector.getElem_set, Vector.getElem_setIfInBounds]

namespace Machine

variable (m : Machine) {x : UInt8}

theorem registerChecked_eq (hx : x < 16) : m.registerChecked x = some (m.register x) := by
  have hlt : x.toNat < 16 := UInt8.lt_iff_toNat_lt.1 hx
  rw [registerChecked, register, Vector.getElem?_eq_getElem hlt, Option.getD_some]

theorem setRegisterChecked_eq (hx : x < 16) (b : UInt8) : m.setRegisterChecked x b = some (m.setRegister x b) := by
  have hlt : x.toNat < 16 := UInt8.lt_iff_toNat_lt.1 hx
  rw [setRegisterChecked, dif_pos hlt, set_eq_setIfInBounds, setRegister]

theorem pushChecked_eq (addr : UInt16) : m.pushChecked addr = some (m.push addr) := by
  rw [pushChecked, push]
  split
  · next h =>
    have hlt : (m.sp + 1).toNat < 16 := UInt8.lt_iff_toNat_lt.1 h
    rw [dif_pos hlt, set_eq_setIfInBounds]
  · rfl

theorem popChecked_eq : m.popChecked = some m.pop := by
  rw [popChecked]
  split
  · next h => rw [pop_eq_error m (UInt8.le_iff_toNat_le.1 h)]
  · next h =>
    have hlt : m.sp.toNat < 16 := Nat.lt_of_not_le fun hle => h (UInt8.le_iff_toNat_le.2 hle)
    rw [pop_eq_ok m hlt, Vector.getElem?_eq_getElem hlt, Option.map_some]

theorem storeRegistersChecked_eq (x : Nat) : m.storeRegistersChecked x = some (m.storeRegisters x) := by
  rw [storeRegistersChecked, storeRegisters]
  split
  · next hx =>
    have hblock : cells? m.v.toArray 0 (x + 1) = some (m.v.toList.take (x + 1)) := by
      rw [cells?_eq (by simp; omega), Array.toList_extract]
      simp [Vector.toList]
    simp [hblock, Memory.writeChecked_eq]
  · rfl

/-- A block from memory lands in the registers that it is read for. -/
theorem overwrite_registers {block : List UInt8} (h : block.length ≤ 16) :
    Memory.overwrite m.v.toArray 0 block = (Vector.ofFn fun k : Fin 16 => block[k.val]?.getD m.v[k]).toArray := by
  apply Array.ext_getElem?
  intro k
  rw [Memory.getElem?_overwrite _ _ _ _ (by simpa using h)]
  simp only [Nat.zero_le, true_and, Nat.zero_add, Nat.sub_zero]
  split
  · next hk => simp [hk, Nat.lt_of_lt_of_le hk h]
  · next hk => by_cases hlast : k < 16 <;> simp [hlast, hk]

theorem loadRegistersChecked_eq (x : Nat) : m.loadRegistersChecked x = some (m.loadRegisters x) := by
  rw [loadRegistersChecked, loadRegisters]
  split
  · next hx =>
    rw [Memory.readChecked_eq]
    cases hread : m.memory.read m.i (x + 1) with
    | error f => rfl
    | ok block =>
      have hlength : block.length ≤ 16 := Memory.length_of_read hread ▸ hx
      have hplace : place? m.v.toArray 0 block = _ := place?_eq (by simpa using hlength)
      simp [hplace, overwrite_registers m hlength]
  · rfl

end Machine

namespace Interpreter

variable {cpu : Interpreter} {i : Instruction}

theorem performChecked_eq (h : ∀ r ∈ i.highestRegister?, r < 16) (w : World) :
    cpu.performChecked i w = some (cpu.perform i w) := by
  have hflag : flagRegister < 16 := by decide
  cases i with
  | loadIndex nnn => rfl
  | jumpOffset nnn => simp [performChecked, perform, Machine.registerChecked_eq]
  | call nnn =>
    simp only [performChecked, perform, Machine.pushChecked_eq]
    rcases w.machine.push w.machine.pc with ⟨_ | _, m⟩ <;> rfl
  | ret =>
    simp only [performChecked, perform, Machine.popChecked_eq]
    rcases w.machine.pop with ⟨_ | _, m⟩ <;> rfl
  | storeRegs x =>
    simp only [performChecked, perform, Machine.storeRegistersChecked_eq]
    rcases w.machine.storeRegisters x.toNat with ⟨_ | _, m⟩ <;> rfl
  | loadRegs x =>
    simp only [performChecked, perform, Machine.loadRegistersChecked_eq]
    rcases w.machine.loadRegisters x.toNat with ⟨_ | _, m⟩ <;> rfl
  | skipEqImm x kk | skipNeImm x kk | loadImm x kk | addImm x kk | random x kk | addIndex x =>
    have hx : x < 16 := h x rfl
    simp [performChecked, perform, Machine.registerChecked_eq, Machine.setRegisterChecked_eq, hx]
  | shiftRight x y | shiftLeft x y =>
    have hx : x < 16 := ((Instruction.max_lt_iff x y 16).1 (h (max x y) rfl)).1
    simp only [performChecked, perform, Machine.registerChecked_eq, Machine.setRegisterChecked_eq, Machine.setFlag, hx,
      hflag]
    cases cpu.shiftFlag <;> rfl
  | _ x y =>
    obtain ⟨hx, hy⟩ := (Instruction.max_lt_iff x y 16).1 (h (max x y) rfl)
    simp [performChecked, perform, Machine.registerChecked_eq, Machine.setRegisterChecked_eq, Machine.setFlag, hx, hy,
      hflag]

/-- Applying an instruction has an outcome with every index checked, and it is the outcome. -/
theorem applyChecked_eq (cpu : Interpreter) (i : Instruction) (w : World) :
    cpu.applyChecked i w = some (cpu.apply i w) := by
  rw [applyChecked, apply]
  cases hi : i.highestRegister? with
  | none => exact performChecked_eq (by simp [hi]) w
  | some r =>
    by_cases hr : 16 ≤ r
    · simp [hr]
    · have hreg : ∀ r ∈ i.highestRegister?, r < 16 := by simpa [hi, UInt8.not_le] using hr
      simp [hr, performChecked_eq hreg]

end Interpreter
end Chip8
