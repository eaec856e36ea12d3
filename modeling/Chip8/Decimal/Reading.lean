import Chip8.Decimal.Nearest

/-! Decimal numerals as an option's value writes them: an unsigned integer of at most 64 bits, or a
floating-point number, rounded correctly. Nothing may stand around a numeral. -/

namespace Chip8.Decimal

/-- The value of a row of ASCII digits, which may be empty. -/
def digits? (cs : List Char) : Option Nat :=
  if cs.all Char.isDigit then some (Nat.ofDigitChars 10 cs 0) else none

/-- Digits below `2 ^ 64`, after an optional plus sign. -/
def readNat? (s : String) : Option Nat := do
  let cs := match s.toList with
    | '+' :: r => r
    | r => r
  let n ← if cs.isEmpty then none else digits? cs
  if n < UInt64.size then some n else none

/-- The number that follows the letter of an exponent, its sign optional. -/
def exponent? : List Char → Option Int
  | [] => none
  | ['+'] => none
  | ['-'] => none
  | '+' :: r => (digits? r).map Int.ofNat
  | '-' :: r => (digits? r).map fun n => -Int.ofNat n
  | r => (digits? r).map Int.ofNat

/-- A number without its sign: digits with at most one point among or beside them, then perhaps an
exponent; or the name of an infinity or of not-a-number, in any letter case. -/
def readUnsigned? (cs : List Char) : Option Float :=
  let named := String.ofList (cs.map Char.toLower)
  if named = "inf" ∨ named = "infinity" then some (Float.ofBits positiveInfinity)
  else if named = "nan" then some (Float.ofBits quietNaN)
  else
    let whole := cs.takeWhile Char.isDigit
    let afterWhole := cs.dropWhile Char.isDigit
    let fraction := match afterWhole with
      | '.' :: r => r.takeWhile Char.isDigit
      | _ => []
    let afterFraction := match afterWhole with
      | '.' :: r => r.dropWhile Char.isDigit
      | r => r
    let shift := match afterFraction with
      | [] => some 0
      | 'e' :: r => exponent? r
      | 'E' :: r => exponent? r
      | _ => none
    if whole.isEmpty && fraction.isEmpty then none
    else shift.map fun e =>
      nearestDecimal (Nat.ofDigitChars 10 (whole ++ fraction) 0) (e - fraction.length)

def readFloat? (s : String) : Option Float :=
  match s.toList with
  | '-' :: r => (readUnsigned? r).map Float.neg
  | '+' :: r => readUnsigned? r
  | r => readUnsigned? r

end Chip8.Decimal
