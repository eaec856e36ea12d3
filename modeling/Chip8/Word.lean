import Chip8.Text.Hex

/-! Instruction words. A word is four nibbles, the most significant first, and is written as four
hexadecimal digits. -/

namespace Chip8

abbrev Word := UInt16

namespace Word

def nibbles (w : Word) : List Nibble :=
  [Fin.ofNat 16 (w.toNat / 4096), Fin.ofNat 16 (w.toNat / 256), Fin.ofNat 16 (w.toNat / 16),
    Fin.ofNat 16 w.toNat]

/-- The number that a row of nibbles writes, the first being the most significant. -/
def ofNibbles (ds : List Nibble) : Word :=
  UInt16.ofNat (ds.foldl (fun n d => 16 * n + d.val) 0)

theorem ofNibbles_nibbles (w : Word) : ofNibbles w.nibbles = w := by
  apply UInt16.toNat_inj.1
  have := w.toNat_lt
  simp only [ofNibbles, nibbles, Fin.ofNat, List.foldl_cons, List.foldl_nil, UInt16.toNat_ofNat']
  omega

/-- A word is the pair of its bytes, the high one first. -/
def ofBytes (high low : UInt8) : Word := UInt16.ofNat (256 * high.toNat + low.toNat)

theorem toNat_ofBytes (high low : UInt8) : (ofBytes high low).toNat = 256 * high.toNat + low.toNat := by
  have := high.toNat_lt
  have := low.toNat_lt
  rw [ofBytes, UInt16.toNat_ofNat']
  omega

/-- Four digits in upper case. -/
def text (w : Word) : String := Hex.upper 4 w.toNat

/-- Reads exactly four hexadecimal digits of either case, and nothing around them. -/
def ofText? (s : String) : Option Word :=
  match s.toList with
  | [a, b, c, d] => do return ofNibbles [← Hex.digit? a, ← Hex.digit? b, ← Hex.digit? c, ← Hex.digit? d]
  | _ => none

/-- The written form of a word is read back as that word. -/
theorem ofText?_text (w : Word) : ofText? w.text = some w := by
  have hw := w.toNat_lt
  rw [ofText?, text, Hex.toList_upper_four w.toNat hw]
  simp only [List.map_cons, List.map_nil]
  rw [Hex.digit?_toUpper_digitChar _ (by omega), Hex.digit?_toUpper_digitChar _ (by omega),
    Hex.digit?_toUpper_digitChar _ (by omega), Hex.digit?_toUpper_digitChar _ (by omega)]
  refine congrArg some (Eq.trans ?_ (ofNibbles_nibbles w))
  simp [nibbles, Fin.ofNat]

end Word
end Chip8
