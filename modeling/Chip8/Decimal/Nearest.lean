/-! The double nearest to a fraction. A finite double is `m * 2 ^ q` with `m < 2 ^ 53`; the exponent is
the least that leaves so few bits, but never below the subnormal one, and a half goes to even. -/

namespace Chip8.Decimal

/-- The quotient rounded to the nearest integer, a half to the even one. -/
def roundDiv (num den : Nat) : Nat :=
  let d := num / den
  let r := 2 * (num % den)
  if r < den ∨ (r = den ∧ d % 2 = 0) then d else d + 1

def positiveInfinity : UInt64 := 0x7FF0000000000000

def quietNaN : UInt64 := 0x7FF8000000000000

def signBit : UInt64 := 0x8000000000000000

/-- The bits of the double nearest to `num / den`, infinite past the greatest finite one. -/
def nearestBits (num den : Nat) : UInt64 :=
  let guess : Int := (num.log2 : Int) - (den.log2 : Int) - 53
  let quotient (q : Int) : Nat × Nat := (num * Nat.pow 2 (-q).toNat, den * Nat.pow 2 q.toNat)
  let fits (q : Int) : Bool := (quotient q).1 / (quotient q).2 < Nat.pow 2 53
  let q := max (if fits guess then guess else guess + 1) (-1074)
  let m := roundDiv (quotient q).1 (quotient q).2
  -- a significand rounded up to `2 ^ 53` carries into the exponent field by itself
  let bits := if m < Nat.pow 2 52 then m else (q + 1075).toNat * Nat.pow 2 52 + (m - Nat.pow 2 52)
  if bits < positiveInfinity.toNat then UInt64.ofNat bits else positiveInfinity

/-- The nearest double to `digits * 10 ^ exponent`. Outside the range of doubles the power of ten is
not computed: 310 digits before the point are too many, and 330 zeros after it leave nothing. -/
def nearestDecimal (digits : Nat) (exponent : Int) : Float :=
  let places := (Nat.toDigits 10 digits).length + exponent
  if digits = 0 ∨ places < -330 then 0
  else if 310 < places then Float.ofBits positiveInfinity
  else Float.ofBits (nearestBits (digits * Nat.pow 10 exponent.toNat) (Nat.pow 10 (-exponent).toNat))

end Chip8.Decimal
