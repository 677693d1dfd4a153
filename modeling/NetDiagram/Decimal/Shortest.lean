import NetDiagram.Decimal.Double

/-!
# The fewest digits that read back

Every real number near a double is read as that double, so a double may be written by any
decimal in the interval of numbers that round to it.  `shortest` takes the coarsest power of ten
of which a multiple lies in the interval, and of those multiples the one nearest to the double.
-/

namespace NetDiagram.Decimal

/-- The decimal number `digits * 10 ^ exponent`. -/
structure Digits where
  digits : Nat
  exponent : Int
deriving DecidableEq, Repr

/-- The numbers that round to a double, over a common denominator: those between `low` and `high`,
the ends included or not.  The double itself is `mid`. -/
structure Interval where
  low : Nat
  mid : Nat
  high : Nat
  den : Nat
  closed : Bool
deriving DecidableEq, Repr

/-- The interval of the numbers that round to `mantissa * 2 ^ exponent`. -/
def Interval.around (mantissa : Nat) (exponent : Int) (narrow : Bool) : Interval :=
  let up := if exponent < 2 then 1 else Nat.pow 2 (exponent - 2).natAbs
  let down := if exponent < 2 then Nat.pow 2 (2 - exponent).natAbs else 1
  { low := (4 * mantissa - (if narrow then 1 else 2)) * up
    mid := 4 * mantissa * up
    high := (4 * mantissa + 2) * up
    den := down
    closed := mantissa % 2 == 0 }

/-- Whether `n / d` is one of the numbers of the interval. -/
def Interval.holds (i : Interval) (n d : Nat) : Bool :=
  if i.closed then i.low * d ≤ n * i.den && n * i.den ≤ i.high * d
  else i.low * d < n * i.den && n * i.den < i.high * d

/-- The multiple of `10 ^ exponent` in the interval that is nearest to its double; of two equally
near ones the larger. -/
def Interval.onGrid? (i : Interval) (exponent : Int) : Option Digits :=
  let up := if exponent < 0 then 1 else Nat.pow 10 exponent.natAbs
  let down := if exponent < 0 then Nat.pow 10 exponent.natAbs else 1
  let below := i.mid * down / (i.den * up)
  let rest := i.mid * down % (i.den * up)
  let lower := i.holds (below * up) down
  let upper := i.holds ((below + 1) * up) down
  let nearer := if lower && upper then i.den * up ≤ 2 * rest else upper
  if nearer then some ⟨below + 1, exponent⟩
  else if lower && below != 0 then some ⟨below, exponent⟩
  else none

/-- The shortest decimal that reads back as the positive number `mantissa * 2 ^ exponent`. -/
def shortest (mantissa : Nat) (exponent : Int) (narrow : Bool) : Digits :=
  let i := Interval.around mantissa exponent narrow
  let top : Int := (Nat.toDigits 10 (i.high / i.den)).length
  let grids := (List.range (top.natAbs + 1100)).map fun (k : Nat) => top - k
  (grids.findSome? i.onGrid?).getD ⟨0, 0⟩

end NetDiagram.Decimal
