import Chip8.Proofs.Atomic

/-! The call stack as a list. Sixteen slots and a pointer, which stands one before the first slot while the stack is
empty, answer every sequence of pushes and pops like a list of at most sixteen return addresses. From any other pointer
both are refused. -/

namespace Chip8

/-- What is asked of a stack. -/
inductive StackCall
  | push (addr : UInt16)
  | pop

/-- The answers to calls one after another, whatever becomes of each, and what they leave. A push that is answered
brings nothing back. -/
def StackCall.answers {σ : Type} (answer : σ → StackCall → Except Fault (Option UInt16) × σ) :
    List StackCall → σ → List (Except Fault (Option UInt16)) × σ
  | [], s => ([], s)
  | c :: calls, s =>
    ((answer s c).1 :: (answers answer calls (answer s c).2).1, (answers answer calls (answer s c).2).2)

/-- Return addresses, the oldest first. -/
structure Frames where
  addrs : List UInt16
  length_le : addrs.length ≤ 16

namespace Frames

def concat (s : Frames) (addr : UInt16) (h : s.addrs.length < 16) : Frames where
  addrs := s.addrs ++ [addr]
  length_le := by rw [List.length_append]; exact h

def dropLast (s : Frames) : Frames where
  addrs := s.addrs.dropLast
  length_le := by rw [List.length_dropLast]; exact Nat.le_trans (Nat.sub_le ..) s.length_le

/-- A list takes an address behind its last as long as it has fewer than sixteen, and gives back the last. -/
def answer (s : Frames) : StackCall → Except Fault (Option UInt16) × Frames
  | .push addr => if h : s.addrs.length < 16 then (.ok none, s.concat addr h) else (.error .stackOverflow, s)
  | .pop =>
    match s.addrs.getLast? with
    | some addr => (.ok (some addr), s.dropLast)
    | none => (.error .stackUnderflow, s)

def answerAll (s : Frames) (calls : List StackCall) : List (Except Fault (Option UInt16)) × Frames :=
  StackCall.answers answer calls s

end Frames

namespace Machine

def answer (m : Machine) : StackCall → Except Fault (Option UInt16) × Machine
  | .push addr => ((m.push addr).1.map fun () => none, (m.push addr).2)
  | .pop => (m.pop.1.map some, m.pop.2)

def answerAll (m : Machine) (calls : List StackCall) : List (Except Fault (Option UInt16)) × Machine :=
  StackCall.answers answer calls m

/-- The stack pointer stands on a slot, or before the first. -/
def OnStack (m : Machine) : Prop := m.sp.toNat < 16 ∨ m.sp = emptyStack

/-- The slots in use are the addresses of the list. -/
structure Holds (m : Machine) (s : Frames) : Prop where
  depth : m.depth = s.addrs.length
  slots : m.stack.toList.take m.depth = s.addrs

/-- The parts that have nothing to do with the stack. -/
structure SameElsewhere (m m' : Machine) : Prop where
  v : m'.v = m.v
  i : m'.i = m.i
  pc : m'.pc = m.pc
  memory : m'.memory = m.memory

variable {m : Machine} {s : Frames}

theorem depth_eq (m : Machine) : m.depth = (m.sp.toNat + 1) % 256 := UInt8.toNat_add _ _

theorem onStack_iff : m.OnStack ↔ m.depth ≤ 16 := by
  have hlt := m.sp.toNat_lt
  unfold OnStack
  rw [depth_eq, ← UInt8.toNat_inj]
  change (_ ∨ m.sp.toNat = 255) ↔ _
  omega

theorem exists_holds (h : m.OnStack) : ∃ s : Frames, s.addrs = m.returnAddresses ∧ m.Holds s := by
  have hdepth := onStack_iff.1 h
  have hlength : m.returnAddresses.length = m.depth := by
    unfold returnAddresses
    rw [List.length_take, Vector.length_toList, Nat.min_eq_left hdepth]
  exact ⟨⟨m.returnAddresses, hlength ▸ hdepth⟩, rfl, hlength.symm, rfl⟩

/-- An address goes to the slot behind those in use, and the pointer to that slot. -/
theorem push_of_room (h : m.depth < 16) (addr : UInt16) :
    m.push addr = (.ok (), { m with stack := m.stack.setIfInBounds m.depth addr, sp := m.sp + 1 }) :=
  m.push_eq_ok addr (UInt8.lt_iff_toNat_lt.2 h)

theorem push_of_full (h : 16 ≤ m.depth) (addr : UInt16) : m.push addr = (.error .stackOverflow, m) :=
  m.push_eq_error addr fun hlt => Nat.not_lt_of_le h (UInt8.lt_iff_toNat_lt.1 hlt)

/-- The slot that is read back is the last of those in use. -/
theorem pop_of_frames (h : m.OnStack) (hpos : 0 < m.depth) :
    ∃ addr, m.stack[m.depth - 1]? = some addr ∧ m.pop = (.ok addr, { m with sp := m.sp - 1 }) := by
  have hsp : m.sp.toNat = m.depth - 1 := by
    have hdepth := onStack_iff.1 h
    have hlt := m.sp.toNat_lt
    rw [depth_eq] at hdepth hpos ⊢
    omega
  have hslot : m.sp.toNat < 16 := by
    have hdepth := onStack_iff.1 h
    omega
  refine ⟨m.stack[m.sp.toNat], ?_, m.pop_eq_ok hslot⟩
  rw [← hsp]
  exact Vector.getElem?_eq_getElem hslot

theorem pop_of_empty (h : m.depth = 0) : m.pop = (.error .stackUnderflow, m) := by
  refine m.pop_eq_error ?_
  rw [depth_eq] at h
  omega

theorem push_of_not_onStack (h : ¬m.OnStack) (addr : UInt16) : m.push addr = (.error .stackOverflow, m) := by
  refine push_of_full ?_ addr
  rw [onStack_iff] at h
  omega

theorem pop_of_not_onStack (h : ¬m.OnStack) : m.pop = (.error .stackUnderflow, m) :=
  m.pop_eq_error (Nat.le_of_not_lt fun hlt => h (.inl hlt))

/-! ### One call -/

theorem Holds.onStack (h : m.Holds s) : m.OnStack := by
  rw [onStack_iff, h.depth]
  exact s.length_le

theorem Holds.pushed (h : m.Holds s) (addr : UInt16) (hroom : s.addrs.length < 16) :
    ({ m with stack := m.stack.setIfInBounds m.depth addr, sp := m.sp + 1 } : Machine).Holds (s.concat addr hroom) := by
  have hlt : m.depth < 16 := h.depth ▸ hroom
  have hnext : (m.sp + 1 + 1).toNat = m.depth + 1 := by
    have hadd : (m.sp + 1 + 1).toNat = (m.depth + 1) % 256 := UInt8.toNat_add _ _
    omega
  refine ⟨hnext.trans ?_, ?_⟩
  · change m.depth + 1 = (s.addrs ++ [addr]).length
    rw [h.depth, List.length_append, List.length_singleton]
  · change (m.stack.setIfInBounds m.depth addr).toList.take (m.sp + 1 + 1).toNat = s.addrs ++ [addr]
    rw [hnext, Vector.toList_setIfInBounds, List.take_add_one, List.take_set_of_le (Nat.le_refl _), h.slots,
      List.getElem?_set_self (by simpa using hlt), Option.toList_some]

theorem Holds.popped (h : m.Holds s) (hpos : 0 < m.depth) :
    ({ m with sp := m.sp - 1 } : Machine).Holds s.dropLast := by
  have hprev : (m.sp - 1 + 1).toNat = m.depth - 1 := by
    have hdepth := onStack_iff.1 h.onStack
    have hlt := m.sp.toNat_lt
    rw [UInt8.sub_add_cancel]
    rw [depth_eq] at hdepth hpos ⊢
    omega
  refine ⟨hprev.trans ?_, ?_⟩
  · change m.depth - 1 = s.addrs.dropLast.length
    rw [h.depth, List.length_dropLast]
  · change m.stack.toList.take (m.sp - 1 + 1).toNat = s.addrs.dropLast
    have hle := onStack_iff.1 h.onStack
    rw [hprev, ← h.slots, List.dropLast_eq_take, List.take_take, List.length_take, Vector.length_toList,
      Nat.min_eq_left hle, Nat.min_eq_left (Nat.sub_le _ _)]

/-- The slot that a pop reads holds the last address of the list. -/
theorem Holds.getLast? (h : m.Holds s) (hpos : 0 < m.depth) : s.addrs.getLast? = m.stack[m.depth - 1]? := by
  rw [List.getLast?_eq_getElem?, ← h.depth, ← h.slots, List.getElem?_take_of_lt (Nat.sub_lt hpos Nat.one_pos),
    Vector.getElem?_toList]

theorem Holds.answer (h : m.Holds s) (c : StackCall) :
    (m.answer c).1 = (s.answer c).1 ∧ (m.answer c).2.Holds (s.answer c).2 := by
  have hdepth := h.depth
  cases c with
  | push addr =>
    unfold Machine.answer Frames.answer
    by_cases hroom : s.addrs.length < 16
    · simp only [dif_pos hroom, push_of_room (hdepth ▸ hroom)]
      exact ⟨rfl, h.pushed addr hroom⟩
    · simp only [dif_neg hroom, push_of_full (hdepth ▸ Nat.le_of_not_lt hroom)]
      exact ⟨rfl, h⟩
  | pop =>
    unfold Machine.answer Frames.answer
    by_cases hpos : 0 < m.depth
    · obtain ⟨addr, hslot, hpop⟩ := pop_of_frames h.onStack hpos
      simp only [(h.getLast? hpos).trans hslot, hpop]
      exact ⟨rfl, h.popped hpos⟩
    · have hzero : m.depth = 0 := Nat.eq_zero_of_not_pos hpos
      have hnil : s.addrs = [] := List.eq_nil_of_length_eq_zero (hdepth ▸ hzero)
      simp only [hnil, List.getLast?_nil, pop_of_empty hzero]
      exact ⟨rfl, h⟩

theorem SameElsewhere.refl (m : Machine) : SameElsewhere m m := ⟨rfl, rfl, rfl, rfl⟩

theorem SameElsewhere.trans {a b c : Machine} (h : SameElsewhere a b) (h' : SameElsewhere b c) : SameElsewhere a c :=
  ⟨h'.v.trans h.v, h'.i.trans h.i, h'.pc.trans h.pc, h'.memory.trans h.memory⟩

theorem sameElsewhere_answer (m : Machine) (c : StackCall) : SameElsewhere m (m.answer c).2 := by
  cases c with
  | push addr =>
    unfold answer push
    dsimp only
    split <;> exact ⟨rfl, rfl, rfl, rfl⟩
  | pop =>
    unfold answer pop
    dsimp only
    split <;> exact ⟨rfl, rfl, rfl, rfl⟩

theorem atomic_answer (c : StackCall) : Atomic fun m : Machine => m.answer c := by
  intro m f m' h
  cases c with
  | push addr =>
    rcases hp : m.push addr with ⟨_ | _, m₁⟩ <;> simp only [answer, hp] at h <;> cases h
    exact atomic_push addr _ _ _ hp
  | pop =>
    rcases hp : m.pop with ⟨_ | _, m₁⟩ <;> simp only [answer, hp] at h <;> cases h
    exact atomic_pop _ _ _ hp

/-! ### Sequences of calls -/

theorem Holds.answerAll (h : m.Holds s) (calls : List StackCall) :
    (m.answerAll calls).1 = (s.answerAll calls).1 ∧ (m.answerAll calls).2.Holds (s.answerAll calls).2 := by
  induction calls generalizing m s with
  | nil => exact ⟨rfl, h⟩
  | cons c calls ih =>
    obtain ⟨hanswer, hnext⟩ := h.answer c
    obtain ⟨hanswers, hlast⟩ := ih hnext
    exact ⟨List.cons_eq_cons.2 ⟨hanswer, hanswers⟩, hlast⟩

theorem sameElsewhere_answerAll (m : Machine) (calls : List StackCall) : SameElsewhere m (m.answerAll calls).2 := by
  induction calls generalizing m with
  | nil => exact .refl m
  | cons c calls ih => exact (sameElsewhere_answer m c).trans (ih _)

/-- How a machine and a list of return addresses stand after the same calls, and what the machine says to the next. -/
structure Agrees (m : Machine) (s : Frames) (calls : List StackCall) : Prop where
  answers : (m.answerAll calls).1 = (s.answerAll calls).1
  holds : (m.answerAll calls).2.Holds (s.answerAll calls).2
  pointer : (m.answerAll calls).2.OnStack
  elsewhere : SameElsewhere m (m.answerAll calls).2
  full : ∀ addr, ((m.answerAll calls).2.push addr).1 = .error .stackOverflow ↔ (s.answerAll calls).2.addrs.length = 16
  empty : (m.answerAll calls).2.pop.1 = .error .stackUnderflow ↔ (s.answerAll calls).2.addrs = []
  last : ∀ addr, (m.answerAll calls).2.pop.1 = .ok addr ↔ (s.answerAll calls).2.addrs.getLast? = some addr
  refused : ∀ c f, ((m.answerAll calls).2.answer c).1 = .error f →
    ((m.answerAll calls).2.answer c).2 = (m.answerAll calls).2

theorem Holds.push_eq_error_iff (h : m.Holds s) (addr : UInt16) :
    (m.push addr).1 = .error .stackOverflow ↔ s.addrs.length = 16 := by
  have hle := s.length_le
  by_cases hroom : s.addrs.length < 16
  · rw [push_of_room (h.depth ▸ hroom)]
    exact ⟨nofun, fun hfull => by omega⟩
  · rw [push_of_full (h.depth ▸ Nat.le_of_not_lt hroom)]
    exact ⟨fun _ => by omega, fun _ => rfl⟩

theorem Holds.pop_eq (h : m.Holds s) :
    m.pop.1 = s.addrs.getLast?.elim (.error .stackUnderflow) .ok := by
  by_cases hpos : 0 < m.depth
  · obtain ⟨addr, hslot, hpop⟩ := pop_of_frames h.onStack hpos
    rw [h.getLast? hpos, hslot, hpop]
    rfl
  · have hzero : m.depth = 0 := Nat.eq_zero_of_not_pos hpos
    have hnil : s.addrs = [] := List.eq_nil_of_length_eq_zero (h.depth ▸ hzero)
    rw [hnil, pop_of_empty hzero]
    rfl

theorem Holds.agrees (h : m.Holds s) (calls : List StackCall) : m.Agrees s calls := by
  obtain ⟨hanswers, hlast⟩ := h.answerAll calls
  have hpop := hlast.pop_eq
  refine ⟨hanswers, hlast, hlast.onStack, sameElsewhere_answerAll m calls, hlast.push_eq_error_iff, ?_, fun addr => ?_,
    fun c f hf => atomic_answer c _ f _ (Prod.ext hf rfl)⟩
  · have hnil : (s.answerAll calls).2.addrs = [] ↔ (s.answerAll calls).2.addrs.getLast? = none :=
      List.getLast?_eq_none_iff.symm
    rw [hpop, hnil]
    cases (s.answerAll calls).2.addrs.getLast? <;> simp
  · rw [hpop]
    cases (s.answerAll calls).2.addrs.getLast? <;> simp

/-- From a pointer on the stack, every sequence of calls is answered as by the list of the addresses in use; from any
other, neither call is. -/
theorem calls_agree (m : Machine) :
    (m.OnStack → ∃ s : Frames, s.addrs = m.returnAddresses ∧ ∀ calls, m.Agrees s calls) ∧
      (¬m.OnStack → (∀ addr, m.push addr = (.error .stackOverflow, m)) ∧ m.pop = (.error .stackUnderflow, m)) := by
  refine ⟨fun h => ?_, fun h => ⟨push_of_not_onStack h, pop_of_not_onStack h⟩⟩
  obtain ⟨s, hs, hm⟩ := exists_holds h
  exact ⟨s, hs, hm.agrees⟩

/-- A stack with one slot left, and one whose pointer stands behind all of them. -/
theorem calls_agree_last_slot :
    let m : Machine := { Machine.fresh Memory.blank with sp := 14 }
    let calls : List StackCall := [.push 7, .push 8, .pop, .pop]
    (m.answerAll calls).1 = [.ok none, .error .stackOverflow, .ok (some 7), .ok (some 0)] ∧
      (m.answerAll calls).2.depth = 14 ∧
      ({ m with sp := 64 } : Machine).pop = (.error .stackUnderflow, { m with sp := 64 }) := by
  intro m calls
  obtain ⟨s, hs, hagrees⟩ := (calls_agree m).1 (.inl (by decide))
  have haddrs : m.returnAddresses = List.replicate 15 0 := rfl
  obtain rfl : s = ⟨List.replicate 15 0, by decide⟩ := by
    cases s
    simp only [Frames.mk.injEq]
    exact hs.trans haddrs
  have h := hagrees calls
  have hcorrupt := (calls_agree { m with sp := 64 }).2 (by unfold OnStack; decide)
  exact ⟨h.answers, h.holds.depth, hcorrupt.2⟩

end Machine
end Chip8
