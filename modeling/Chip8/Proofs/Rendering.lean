import Chip8.Machine
import Chip8.Proofs.Numerals

/-! What the lines of a machine tell. There are six of them whatever the stack pointer says, and they show
the registers, the pointers and the return addresses in use, each in a place of its own: two machines look
alike just when they agree in those. -/

namespace Chip8

theorem append_inj_of_length {a b c d : String} (hlength : a.length = b.length) (h : a ++ c = b ++ d) :
    a = b ∧ c = d := by
  have hlists := congrArg String.toList h
  rw [String.toList_append, String.toList_append] at hlists
  obtain ⟨hab, hcd⟩ := List.append_inj hlists (by rwa [String.length_toList, String.length_toList])
  exact ⟨String.toList_inj.1 hab, String.toList_inj.1 hcd⟩

/-- Texts with something between them are told apart as long as each is as long as the one across from it. -/
theorem eq_of_intercalate {sep : String} {ps qs : List String} (hlength : ps.map String.length = qs.map String.length)
    (h : sep.intercalate ps = sep.intercalate qs) : ps = qs := by
  induction ps generalizing qs with
  | nil => exact (List.map_eq_nil_iff.1 hlength.symm).symm
  | cons p ps ih =>
    obtain ⟨q, qs, rfl⟩ := List.exists_cons_of_length_pos (l := qs) (by
      rw [← List.length_map String.length, ← hlength]
      exact Nat.succ_pos _)
    obtain ⟨hpq, hrest⟩ := List.cons.inj hlength
    cases ps with
    | nil =>
      obtain rfl := List.map_eq_nil_iff.1 hrest.symm
      rwa [String.intercalate_singleton, String.intercalate_singleton, ← List.singleton_inj] at h
    | cons p' ps =>
      obtain ⟨q', qs, rfl⟩ := List.exists_cons_of_length_pos (l := qs) (by
        rw [← List.length_map String.length, ← hrest]
        exact Nat.succ_pos _)
      rw [String.intercalate_cons_cons, String.intercalate_cons_cons, String.append_assoc, String.append_assoc] at h
      obtain ⟨rfl, htail⟩ := append_inj_of_length hpq h
      rw [ih hrest ((String.append_right_inj sep).1 htail)]

theorem lower_two_inj {a b : UInt8} : Hex.lower 2 a.toNat = Hex.lower 2 b.toNat ↔ a = b :=
  (Hex.lower_injective 2).eq_iff.trans UInt8.toNat_inj

theorem lower_four_inj {a b : UInt16} : Hex.lower 4 a.toNat = Hex.lower 4 b.toNat ↔ a = b :=
  (Hex.lower_injective 4).eq_iff.trans UInt16.toNat_inj

theorem length_lower_two (b : UInt8) : (Hex.lower 2 b.toNat).length = 2 := Hex.length_lower (by decide) b.toNat_lt

theorem length_lower_four (a : UInt16) : (Hex.lower 4 a.toNat).length = 4 := Hex.length_lower (by decide) a.toNat_lt

namespace Machine

variable {m m' : Machine}

theorem register_ofNat (m : Machine) {x : Nat} (hx : x < 16) : m.register (UInt8.ofNat x) = m.v[x] := by
  have hmod : (UInt8.ofNat x).toNat = x := UInt8.toNat_ofNat_of_lt' (by unfold UInt8.size; omega)
  unfold register
  rw [hmod, Vector.getElem?_eq_getElem hx, Option.getD_some]

theorem v_eq_iff : m.v = m'.v ↔ ∀ x < 16, m.register (UInt8.ofNat x) = m'.register (UInt8.ofNat x) := by
  constructor
  · intro h x _
    unfold register
    rw [h]
  · intro h
    apply Vector.ext
    intro x hx
    have hreg := h x hx
    rwa [register_ofNat m hx, register_ofNat m' hx] at hreg

theorem registerText_inj (x : Nat) :
    m.registerText x = m'.registerText x ↔ m.register (UInt8.ofNat x) = m'.register (UInt8.ofNat x) := by
  unfold registerText
  rw [String.append_right_inj, lower_two_inj]

theorem registerLine_inj (row : Nat) :
    m.registerLine row = m'.registerLine row ↔
      ∀ column < 4, m.register (UInt8.ofNat (4 * row + column)) = m'.register (UInt8.ofNat (4 * row + column)) := by
  have hlength : ∀ x, (m.registerText x).length = (m'.registerText x).length := by
    intro x
    unfold registerText
    simp only [String.length_append, length_lower_two]
  unfold registerLine
  constructor
  · intro h column hcolumn
    have htexts := eq_of_intercalate (by simp [hlength]) h
    exact (registerText_inj _).1 (List.map_inj_left.1 htexts column (List.mem_range.2 hcolumn))
  · intro h
    congr 1
    exact List.map_inj_left.2 fun column hcolumn => (registerText_inj _).2 (h column (List.mem_range.1 hcolumn))

theorem registerLines_inj : (List.range 4).map m.registerLine = (List.range 4).map m'.registerLine ↔ m.v = m'.v := by
  rw [v_eq_iff, List.map_inj_left]
  constructor
  · intro h x hx
    have hline := (registerLine_inj (x / 4)).1 (h (x / 4) (List.mem_range.2 (by omega))) (x % 4) (by omega)
    rwa [Nat.div_add_mod] at hline
  · intro h row hrow
    have hlt := List.mem_range.1 hrow
    exact (registerLine_inj row).2 fun column hcolumn => h _ (by omega)

theorem pointerLine_inj : m.pointerLine = m'.pointerLine ↔ m.i = m'.i ∧ m.pc = m'.pc ∧ m.sp = m'.sp := by
  unfold pointerLine
  constructor
  · intro h
    simp only [toString, String.append_assoc, String.append_right_inj] at h
    obtain ⟨hi, hrest⟩ := append_inj_of_length ((length_lower_four _).trans (length_lower_four _).symm) h
    obtain ⟨hpc, hrest⟩ := append_inj_of_length ((length_lower_four _).trans (length_lower_four _).symm)
      ((String.append_right_inj _).1 hrest)
    exact ⟨lower_four_inj.1 hi, lower_four_inj.1 hpc, lower_two_inj.1 ((String.append_right_inj _).1 hrest)⟩
  · rintro ⟨hi, hpc, hsp⟩
    rw [hi, hpc, hsp]

theorem stackLine_inj (hlength : m.returnAddresses.length = m'.returnAddresses.length) :
    m.stackLine = m'.stackLine ↔ m.returnAddresses = m'.returnAddresses := by
  unfold stackLine
  rw [String.append_left_inj, String.append_right_inj]
  constructor
  · intro h
    have hlengths : (m.returnAddresses.map fun a => Hex.lower 4 a.toNat).map String.length =
        (m'.returnAddresses.map fun a => Hex.lower 4 a.toNat).map String.length := by
      simp only [List.map_map, Function.comp_def, length_lower_four, List.map_const', hlength]
    refine List.map_injective_iff.2 (fun a b => lower_four_inj.1) (eq_of_intercalate hlengths h)
  · intro h
    rw [h]

/-- The slots in use, up to the last slot that there is. -/
theorem returnAddresses_inj (hsp : m.sp = m'.sp) :
    m.returnAddresses = m'.returnAddresses ↔ ∀ k < min m.depth 16, m.stack[k]? = m'.stack[k]? := by
  have hdepth : m'.depth = m.depth := by
    unfold depth
    rw [hsp]
  unfold returnAddresses
  rw [hdepth]
  constructor
  · intro h k hk
    have hslot := congrArg (fun l : List UInt16 => l[k]?) h
    have hlt : k < m.depth := by omega
    simpa only [List.getElem?_take_of_lt hlt, Vector.getElem?_toList] using hslot
  · intro h
    apply List.ext_getElem?
    intro k
    rw [List.getElem?_take, List.getElem?_take, Vector.getElem?_toList, Vector.getElem?_toList]
    split
    · by_cases hk : k < 16
      · exact h k (by omega)
      · rw [Vector.getElem?_eq_none (by omega), Vector.getElem?_eq_none (by omega)]
    · rfl

theorem lines_eq_iff : m.lines = m'.lines ↔ m.v = m'.v ∧ m.i = m'.i ∧ m.pc = m'.pc ∧ m.sp = m'.sp ∧
    ∀ k < min m.depth 16, m.stack[k]? = m'.stack[k]? := by
  have hcut : m.lines = m'.lines ↔ (List.range 4).map m.registerLine = (List.range 4).map m'.registerLine ∧
      m.pointerLine = m'.pointerLine ∧ m.stackLine = m'.stackLine := by
    unfold lines
    rw [List.append_eq_append_iff_of_size_eq_left (by rw [List.length_map, List.length_map]), List.cons_eq_cons,
      List.singleton_inj]
  rw [hcut, registerLines_inj, pointerLine_inj, and_assoc, and_assoc]
  -- the pointers tell how many return addresses there are to compare
  refine and_congr_right fun _ => and_congr_right fun _ => and_congr_right fun _ => and_congr_right fun hsp => ?_
  have hlength : m.returnAddresses.length = m'.returnAddresses.length := by
    unfold returnAddresses depth
    rw [hsp, List.length_take, List.length_take, Vector.length_toList, Vector.length_toList]
  rw [stackLine_inj hlength, returnAddresses_inj hsp]

/-! ### No index is out of range -/

/-- The first so many elements of a row, which has to have them. -/
def front? {α : Type} {n : Nat} (row : Vector α n) (k : Nat) : Option (List α) :=
  if k ≤ n then some (row.toList.take k) else none

def registerTextChecked (m : Machine) (x : Nat) : Option String :=
  (m.v[x]?).map fun b => "V" ++ Hex.upper 1 x ++ " " ++ Hex.lower 2 b.toNat

/-- The lines, where an access to a register or a slot that does not exist yields none at all. -/
def linesChecked (m : Machine) : Option (List String) := do
  let registers ← (List.range 4).mapM fun row =>
    ((List.range 4).mapM fun column => m.registerTextChecked (4 * row + column)).map (String.intercalate "  ")
  let frames ← front? m.stack (min m.depth m.stack.size)
  let stack := "stack [" ++ String.intercalate " " (frames.map fun a => Hex.lower 4 a.toNat) ++ "]"
  return registers ++ [m.pointerLine, stack]

theorem mapM_eq_some {α β : Type} {f : α → Option β} {g : α → β} {l : List α} (h : ∀ a ∈ l, f a = some (g a)) :
    l.mapM f = some (l.map g) := by
  induction l with
  | nil => rfl
  | cons a l ih =>
    rw [List.mapM_cons, h a List.mem_cons_self, ih fun b hb => h b (List.mem_cons_of_mem a hb)]
    rfl

theorem registerTextChecked_eq (m : Machine) {x : Nat} (hx : x < 16) :
    m.registerTextChecked x = some (m.registerText x) := by
  unfold registerTextChecked registerText
  rw [Vector.getElem?_eq_getElem hx, register_ofNat m hx, Option.map_some]

theorem front?_returnAddresses (m : Machine) : front? m.stack (min m.depth m.stack.size) = some m.returnAddresses := by
  unfold front? returnAddresses
  rw [if_pos (Nat.min_le_right _ _), Option.some.injEq, List.take_eq_take_iff, Vector.length_toList]
  exact Nat.min_eq_left (Nat.min_le_right _ _)

theorem linesChecked_eq (m : Machine) : m.linesChecked = some m.lines := by
  have htexts : ∀ row < 4, (List.range 4).mapM (fun column => m.registerTextChecked (4 * row + column)) =
      some ((List.range 4).map fun column => m.registerText (4 * row + column)) := by
    intro row hrow
    refine mapM_eq_some fun column hcolumn => m.registerTextChecked_eq ?_
    have hlt := List.mem_range.1 hcolumn
    omega
  have hregisters : (List.range 4).mapM (fun row =>
      ((List.range 4).mapM fun column => m.registerTextChecked (4 * row + column)).map (String.intercalate "  ")) =
        some ((List.range 4).map m.registerLine) := by
    refine mapM_eq_some fun row hrow => ?_
    rw [htexts row (List.mem_range.1 hrow)]
    rfl
  unfold linesChecked
  rw [hregisters, front?_returnAddresses]
  rfl

/-- Whatever its stack pointer, a machine has six lines, and they tell its registers, its pointers and the return
addresses in use, and nothing else. -/
theorem lines_faithful :
    (∀ m : Machine, m.linesChecked = some m.lines ∧ m.lines.length = 6) ∧
      ∀ m m' : Machine, m.lines = m'.lines ↔ m.v = m'.v ∧ m.i = m'.i ∧ m.pc = m'.pc ∧ m.sp = m'.sp ∧
        ∀ k < min m.depth 16, m.stack[k]? = m'.stack[k]? :=
  ⟨fun m => ⟨m.linesChecked_eq, rfl⟩, fun _ _ => lines_eq_iff⟩

end Machine
end Chip8
