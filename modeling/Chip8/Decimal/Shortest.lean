import Chip8.Decimal.Nearest

/-! The shortest decimal of a double: of the multiples of a power of ten that round to it, the nearest
one on the coarsest grid that has any. It is written out in full, without an exponent. -/

namespace Chip8.Decimal

/-- A positive finite double and the reals that round to it, all in the unit `2 ^ exponent`. -/
structure Rounding where
  lower : Nat
  value : Nat
  upper : Nat
  exponent : Int
  closed : Bool

/-- The interval ends halfway to the neighbours, and below a power of two the neighbour is half as far.
Its ends belong to it if the significand is even. -/
def Rounding.ofBits (bits : UInt64) : Rounding :=
  let field := bits.toNat / Nat.pow 2 52 % Nat.pow 2 11
  let fraction := bits.toNat % Nat.pow 2 52
  let m := if field = 0 then fraction else Nat.pow 2 52 + fraction
  { lower := if fraction = 0 ∧ 1 < field then 4 * m - 1 else 4 * m - 2
    value := 4 * m
    upper := 4 * m + 2
    exponent := (max field 1 : Nat) - 1077
    closed := m % 2 = 0 }

/-- The multiple of `10 ^ k` nearest to the value among those in the interval, as a count of
`10 ^ k`. Of two that are equally near, the greater. -/
def Rounding.onGrid? (r : Rounding) (k : Int) : Option Nat :=
  let scale (n : Nat) : Nat := n * Nat.pow 2 r.exponent.toNat * Nat.pow 10 (-k).toNat
  let step := Nat.pow 10 k.toNat * Nat.pow 2 (-r.exponent).toNat
  let within (d : Nat) : Bool :=
    if r.closed then scale r.lower ≤ d * step && d * step ≤ scale r.upper
    else scale r.lower < d * step && d * step < scale r.upper
  let below := scale r.value / step
  let above := below + 1
  let aboveNearer := above * step - scale r.value ≤ scale r.value - below * step
  if within above && (aboveNearer || !within below) then some above
  else if within below then some below
  else none

/-- Digits and exponent of the shortest decimal; the finest grid tried is below every double. -/
def Rounding.shortest (r : Rounding) : Nat × Int :=
  ((List.range 660).findSome? fun (j : Nat) => (r.onGrid? (310 - j)).map (·, 310 - (j : Int))).getD (0, 0)

/-- The decimal `digits * 10 ^ exponent` without an exponent. -/
def positional (digits : Nat) (exponent : Int) : String :=
  let ds := Nat.toDigits 10 digits
  let places := (-exponent).toNat
  if places = 0 then String.ofList (ds ++ List.replicate exponent.toNat '0')
  else
    let padded := ds.leftpad (places + 1) '0'
    String.ofList (padded.take (padded.length - places) ++ '.' :: padded.drop (padded.length - places))

def write (x : Float) : String :=
  let bits := x.toBits
  let magnitude := bits % signBit
  if positiveInfinity < magnitude then "NaN"
  else
    let sign := if signBit ≤ bits then "-" else ""
    if magnitude = positiveInfinity then sign ++ "inf"
    else if magnitude = 0 then sign ++ "0"
    else
      let (digits, exponent) := (Rounding.ofBits magnitude).shortest
      sign ++ positional digits exponent

end Chip8.Decimal
