/-!
# Doubles as scaled integers

A finite double is `mantissa * 2 ^ exponent` with a sign.  `Double.ofFloat` takes a number
apart, and `nearest` goes the other way: it gives the double closest to a fraction, a tie going
to the even mantissa, or none if the fraction is too large for any.  Both work on natural numbers
only, so nothing is rounded on the way.
-/

namespace NetDiagram.Decimal

/-- The parts of a double. -/
inductive Double where
  | nan
  | infinite (negative : Bool)
  /-- The number `mantissa * 2 ^ exponent`; `narrow` says that the gap to the next smaller double
  is half of the gap to the next larger one. -/
  | finite (negative : Bool) (mantissa : Nat) (exponent : Int) (narrow : Bool)
deriving DecidableEq, Repr

/-- Takes a double apart. -/
def Double.ofFloat (x : Float) : Double :=
  let bits := x.toBits.toNat
  let negative := bits / Nat.pow 2 63 == 1
  let scale : Nat := bits / Nat.pow 2 52 % Nat.pow 2 11
  let fraction := bits % Nat.pow 2 52
  if scale == 2047 then
    if fraction == 0 then .infinite negative else .nan
  else if scale == 0 then .finite negative fraction (-1074) false
  else
    .finite negative (Nat.pow 2 52 + fraction) ((scale : Int) - 1075) (fraction == 0 && 1 < scale)

/-- The quotient rounded to the nearest integer, a tie going to the even one. -/
def roundDiv (num den : Nat) : Nat :=
  let q := num / den
  let r := num % den
  if 2 * r < den then q
  else if den < 2 * r then q + 1
  else if q % 2 == 0 then q else q + 1

/-- The fraction `num / den` divided by `2 ^ e`, as a pair of naturals. -/
def scaleDown (num den : Nat) (e : Int) : Nat × Nat :=
  if e < 0 then (num * Nat.pow 2 e.natAbs, den) else (num, den * Nat.pow 2 e.natAbs)

/-- The power of two at or below a positive fraction. -/
def binaryOrder (num den : Nat) : Int :=
  let guess : Int := num.log2 - den.log2
  let (n, d) := scaleDown num den guess
  if d ≤ n then guess else guess - 1

/-- The bits of the positive double nearest to a positive fraction, or none if the fraction
exceeds the largest double. -/
def nearestBits (num den : Nat) : Option Nat :=
  let e := max (-1074) (binaryOrder num den - 52)
  let (n, d) := scaleDown num den e
  let mantissa := roundDiv n d
  let bits := if mantissa < Nat.pow 2 52 then mantissa
    else (e + 1075).toNat * Nat.pow 2 52 + (mantissa - Nat.pow 2 52)
  if bits < 2047 * Nat.pow 2 52 then some bits else none

/-- The double nearest to the fraction `num / den` with the given sign. -/
def nearest (negative : Bool) (num den : Nat) : Option Float :=
  let bits := if num == 0 then some 0 else nearestBits num den
  bits.map fun b => Float.ofBits (UInt64.ofNat (if negative then Nat.pow 2 63 + b else b))

/-- The double nearest to an integer. -/
def ofInt (n : Int) : Option Float :=
  nearest (n < 0) n.natAbs 1

/-- The double nearest to `digits * 10 ^ exponent`, or none if that is too large.  Exponents far
outside the range of doubles are settled without computing the power. -/
def ofDecimal (negative : Bool) (digits : Nat) (exponent : Int) : Option Float :=
  let order : Int := (Nat.toDigits 10 digits).length + exponent
  if digits == 0 || order < -400 then nearest negative 0 1
  else if 400 < order then none
  else if exponent < 0 then nearest negative digits (Nat.pow 10 exponent.natAbs)
  else nearest negative (digits * Nat.pow 10 exponent.natAbs) 1

end NetDiagram.Decimal
