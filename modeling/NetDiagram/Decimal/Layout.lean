import NetDiagram.Decimal.Shortest

/-!
# Writing numbers

A number is written with the fewest digits that read back, always with a point or an exponent.
A layout says which numbers are written positionally; the others have one digit before the point
and an exponent.
-/

namespace NetDiagram.Decimal

/-- Which powers of ten of the leading digit are written positionally. -/
structure Layout where
  positional : Int → Bool

/-- Numbers of a document: positional from `0.0001` up to, and not including, `10 ^ 16`. -/
def Layout.document : Layout :=
  ⟨fun order => -4 ≤ order && order < 16⟩

/-- Numbers inside messages: always positional. -/
def Layout.message : Layout :=
  ⟨fun _ => true⟩

/-- The decimal written positionally, with at least one digit on each side of the point. -/
def Digits.positional (d : Digits) : String :=
  let ds := Nat.toDigits 10 d.digits
  if 0 ≤ d.exponent then
    String.ofList (ds ++ List.replicate d.exponent.natAbs '0') ++ ".0"
  else
    let places := d.exponent.natAbs
    let padded := List.replicate (places + 1 - ds.length) '0' ++ ds
    String.ofList (padded.take (padded.length - places)) ++ "." ++
      String.ofList (padded.drop (padded.length - places))

/-- The power of ten of the leading digit. -/
def Digits.order (d : Digits) : Int :=
  (Nat.toDigits 10 d.digits).length - 1 + d.exponent

/-- The decimal written with one digit before the point and an exponent. -/
def Digits.scientific (d : Digits) : String :=
  let ds := Nat.toDigits 10 d.digits
  let fraction := if ds.length ≤ 1 then "" else "." ++ String.ofList (ds.drop 1)
  String.ofList (ds.take 1) ++ fraction ++ "e" ++ toString d.order

/-- The text of a number. -/
def Layout.write (l : Layout) (x : Float) : String :=
  match Double.ofFloat x with
  | .nan => "NaN"
  | .infinite negative => if negative then "-inf" else "inf"
  | .finite negative mantissa exponent narrow =>
    let sign := if negative then "-" else ""
    if mantissa == 0 then sign ++ "0.0"
    else
      let d := shortest mantissa exponent narrow
      sign ++ (if l.positional d.order then d.positional else d.scientific)

end NetDiagram.Decimal
