import Chip8.Word
import Mathlib.Data.Bool.AllAny
import Mathlib.Data.List.Basic

/-! Hexadecimal digits as they stand in a text. A digit is one of sixteen letters in either case, its value
is its place among them, and a text of four is read as the word of their values. -/

namespace Chip8.Hex

/-- The sixteen digits in order, in lower case. -/
def digits : List Char := ['0', '1', '2', '3', '4', '5', '6', '7', '8', '9', 'a', 'b', 'c', 'd', 'e', 'f']

/-- The value of a row of hexadecimal digits of either case. -/
def number (cs : List Char) : Nat := cs.foldl (fun n c => 16 * n + digits.idxOf c.toLower) 0

theorem toLower_of_not_ascii {c : Char} (h : 128 ≤ c.toNat) : c.toLower = c := by
  unfold Char.toLower
  split
  · next hupper =>
    have hz : c.toNat ≤ 90 := hupper.2
    omega
  · rfl

theorem lt_of_mem_digits {c : Char} (h : c ∈ digits) : c.toNat < 128 := by
  -- over the list: as a statement about characters it would be decided at each of them
  have hall : ∀ d ∈ digits, d.toNat < 128 := List.all_iff_forall_prop.1 (by decide)
  exact hall c h

theorem of_ascii {p : Char → Prop} (h : ∀ n < 128, p (Char.ofNat n)) {c : Char} (hc : c.toNat < 128) : p c := by
  rw [← Char.ofNat_toNat c]
  exact h c.toNat hc

/-- A digit is read by its place among the sixteen, whatever its case. -/
theorem digit?_eq (c : Char) :
    digit? c = if c.toLower ∈ digits then some (Fin.ofNat 16 (digits.idxOf c.toLower)) else none := by
  by_cases hc : c.toNat < 128
  · refine of_ascii (p := fun c => digit? c = if c.toLower ∈ digits then
      some (Fin.ofNat 16 (digits.idxOf c.toLower)) else none) ?_ hc
    decide +kernel
  · have hlarge : 128 ≤ c.toNat := Nat.le_of_not_lt hc
    have hle (d : Char) (hd : d.toNat < 128) : ¬c ≤ d := fun hcd => hc (Nat.lt_of_le_of_lt hcd hd)
    rw [if_neg fun h => hc (lt_of_mem_digits (toLower_of_not_ascii hlarge ▸ h)), digit?,
      if_neg fun h => hle '9' (by decide) h.2, if_neg fun h => hle 'f' (by decide) h.2,
      if_neg fun h => hle 'F' (by decide) h.2]

theorem digit?_eq_some_iff {c : Char} {d : Nibble} :
    digit? c = some d ↔ c.toLower ∈ digits ∧ digits.idxOf c.toLower = d.val := by
  rw [digit?_eq]
  split
  · next h =>
    have hlt : digits.idxOf c.toLower < 16 := List.idxOf_lt_length_of_mem h
    rw [Option.some.injEq, Fin.ext_iff, Fin.val_ofNat, Nat.mod_eq_of_lt hlt, and_iff_right h]
  · next h => simp [h]

theorem map_digit?_eq {cs : List Char} (h : ∀ c ∈ cs, c.toLower ∈ digits) :
    cs.map digit? = (cs.map fun c => Fin.ofNat 16 (digits.idxOf c.toLower)).map some := by
  rw [List.map_map]
  exact List.map_congr_left fun c hc => by rw [digit?_eq, if_pos (h c hc), Function.comp]

theorem mem_digits_of_map {cs : List Char} {ds : List Nibble} (h : cs.map digit? = ds.map some) :
    ∀ c ∈ cs, c.toLower ∈ digits := by
  intro c hc
  have hmem : digit? c ∈ ds.map some := h ▸ List.mem_map_of_mem hc
  obtain ⟨d, -, hd⟩ := List.mem_map.1 hmem
  exact (digit?_eq_some_iff.1 hd.symm).1

theorem toLower_toLower (c : Char) : c.toLower.toLower = c.toLower := by
  by_cases hc : c.toNat < 128
  · exact of_ascii (p := fun c => c.toLower.toLower = c.toLower) (by decide +kernel) hc
  · rw [toLower_of_not_ascii (Nat.le_of_not_lt hc), toLower_of_not_ascii (Nat.le_of_not_lt hc)]

end Hex

namespace Word

theorem length_nibbles (w : Word) : w.nibbles.length = 4 := rfl

theorem nibbles_ofNibbles {ds : List Nibble} (h : ds.length = 4) : (ofNibbles ds).nibbles = ds := by
  match ds, h with
  | [a, b, c, d], _ =>
    have ha := a.isLt
    have hb := b.isLt
    have hc := c.isLt
    have hd := d.isLt
    simp only [ofNibbles, nibbles, List.foldl_cons, List.foldl_nil, UInt16.toNat_ofNat', List.cons.injEq,
      Fin.ext_iff, Fin.ofNat, and_true]
    omega

theorem ofText?_of_length_ne {s : String} (h : s.toList.length ≠ 4) : ofText? s = none := by
  rw [ofText?]
  generalize s.toList = cs at h ⊢
  rcases cs with _ | ⟨a, _ | ⟨b, _ | ⟨c, _ | ⟨d, _ | ⟨e, r⟩⟩⟩⟩⟩
  case cons.cons.cons.cons.nil => exact absurd rfl h
  all_goals rfl

/-- A word is read from just the texts whose digits are those of the word. -/
theorem ofText?_eq_some_iff {s : String} {w : Word} :
    ofText? s = some w ↔ s.toList.map Hex.digit? = w.nibbles.map some := by
  by_cases hlength : s.toList.length = 4
  · obtain ⟨a, b, c, d, hs⟩ := List.length_eq_four.1 hlength
    rw [ofText?, hs]
    constructor
    · intro h
      simp only [Option.bind_eq_bind, Option.bind_eq_some_iff, Option.pure_def, Option.some.injEq] at h
      obtain ⟨p, hp, q, hq, r, hr, t, ht, rfl⟩ := h
      rw [nibbles_ofNibbles rfl]
      simp [hp, hq, hr, ht]
    · intro h
      simp only [List.map_cons, List.map_nil, nibbles, List.cons.injEq, and_true] at h
      obtain ⟨ha, hb, hc, hd⟩ := h
      simp only [ha, hb, hc, hd, Option.bind_eq_bind, Option.bind_some, Option.pure_def, Option.some.injEq]
      exact ofNibbles_nibbles w
  · rw [ofText?_of_length_ne hlength]
    constructor
    · intro h
      cases h
    · intro h
      have hfour : s.toList.length = 4 := by
        rw [← List.length_map Hex.digit?, h, List.length_map, length_nibbles]
      exact absurd hfour hlength

end Word
end Chip8
