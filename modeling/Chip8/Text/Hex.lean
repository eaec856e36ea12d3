/-! Hexadecimal text. A digit is read in either letter case. A number is written with the fewest
digits, all of one case, and padded with zeros on the left up to a width. -/

namespace Chip8

/-- Half a byte, the value of one hexadecimal digit. -/
abbrev Nibble := Fin 16

-- with the zero of numerals, which is the one that `Fin` asks for
instance Nibble.neZero : @NeZero Nat Zero.ofOfNat0 16 := ⟨Nat.succ_ne_zero 15⟩

namespace Hex

/-- The value of an ASCII hexadecimal digit. -/
def digit? (c : Char) : Option Nibble :=
  if '0' ≤ c ∧ c ≤ '9' then some (Fin.ofNat 16 (c.toNat - '0'.toNat))
  else if 'a' ≤ c ∧ c ≤ 'f' then some (Fin.ofNat 16 (c.toNat - 'a'.toNat + 10))
  else if 'A' ≤ c ∧ c ≤ 'F' then some (Fin.ofNat 16 (c.toNat - 'A'.toNat + 10))
  else none

/-- Lower-case digits, at least `width` of them. -/
def lower (width n : Nat) : String :=
  String.ofList ((Nat.toDigits 16 n).leftpad width '0')

/-- Upper-case digits, at least `width` of them. -/
def upper (width n : Nat) : String :=
  String.ofList (((Nat.toDigits 16 n).map Char.toUpper).leftpad width '0')

theorem digit?_toUpper_digitChar (n : Nat) (h : n < 16) :
    digit? (Nat.digitChar n).toUpper = some (Fin.ofNat 16 n) := by
  revert n; decide

/-- Padding to one more place leaves the last digit to the last place, whichever case it is in. -/
theorem leftpad_toDigits_succ (f : Char → Char) (hf : f '0' = '0') (k n : Nat) (hk : 0 < k) :
    ((Nat.toDigits 16 n).map f).leftpad (k + 1) '0' =
      ((Nat.toDigits 16 (n / 16)).map f).leftpad k '0' ++ [f (Nat.digitChar (n % 16))] := by
  by_cases h : n < 16
  · obtain ⟨j, rfl⟩ : ∃ j, k = j + 1 := ⟨k - 1, by omega⟩
    rw [Nat.toDigits_of_lt_base h, Nat.div_eq_of_lt h, Nat.mod_eq_of_lt h, Nat.toDigits_zero]
    simp [List.leftpad, hf, List.replicate_succ']
  · rw [Nat.toDigits_of_base_le (by decide) (Nat.le_of_not_lt h)]
    simp [List.leftpad]

theorem toList_upper_four (n : Nat) (h : n < 65536) :
    (upper 4 n).toList =
      [n / 4096, n / 256 % 16, n / 16 % 16, n % 16].map fun k => (Nat.digitChar k).toUpper := by
  have hlast : ((Nat.toDigits 16 (n / 16 / 16 / 16)).map Char.toUpper).leftpad 1 '0' =
      [(Nat.digitChar (n / 4096)).toUpper] := by
    rw [Nat.div_div_eq_div_mul, Nat.div_div_eq_div_mul, Nat.toDigits_of_lt_base (by omega)]
    rfl
  have hdiv : n / 16 / 16 = n / 256 := Nat.div_div_eq_div_mul n 16 16
  rw [upper, String.toList_ofList, leftpad_toDigits_succ _ rfl 3 _ (by decide),
    leftpad_toDigits_succ _ rfl 2 _ (by decide), leftpad_toDigits_succ _ rfl 1 _ (by decide), hlast, hdiv]
  rfl

/-- A 16-bit address as messages show it, such as `0x0200`. -/
def address (a : UInt16) : String := "0x" ++ lower 4 a.toNat

end Hex
end Chip8
