import NetDiagram.Decimal.Double
import NetDiagram.Text.Blank
import NetDiagram.Toml.Date

/-!
# Scalars of a TOML text

Besides quoted strings a value may be a truth value, an integer, a decimal number, or a date.  The
first character tells which of these a run of characters can be.  An integer may be given in
another radix; underscores may stand between digits.

The form of a scalar is checked before its value is taken: an integer without digits after `0x`,
or with a stray hexadecimal digit after an underscore, is still a scalar, though one that stands
for no number.
-/

namespace NetDiagram.Toml

/-- The values that have no parts. -/
inductive Scalar where
  | text (s : String)
  /-- An integer; none if its digits stand for no number. -/
  | integer (n : Option Int)
  /-- A decimal; none if it is too large. -/
  | decimal (x : Option Float)
  | boolean (b : Bool)
  | dateTime
deriving Repr

/-! ## Digits -/

/-- The value of a digit in a radix of at most sixteen. -/
def digit? (radix : Nat) (c : Char) : Option Nat :=
  let n := if 'a' ≤ c && c ≤ 'f' then c.toNat - 'a'.toNat + 10
    else if 'A' ≤ c && c ≤ 'F' then c.toNat - 'A'.toNat + 10
    else if '0' ≤ c && c ≤ '9' then c.toNat - '0'.toNat
    else 16
  if n < radix then some n else none

/-- The number that a nonempty list of digits stands for. -/
def number? (radix : Nat) : List Char → Option Nat
  | [] => none
  | cs => cs.foldlM (fun n c => (digit? radix c).map (radix * n + ·)) 0

/-- The list without its sign, and whether the sign is a minus. -/
def splitSign : List Char → Bool × List Char
  | '-' :: cs => (true, cs)
  | '+' :: cs => (false, cs)
  | cs => (false, cs)

/-- The integer that a list of digits with an optional sign stands for. -/
def integer? (radix : Nat) (cs : List Char) : Option Int :=
  let (negative, digits) := splitSign cs
  (number? radix digits).map fun n => if negative then -n else n

/-! ## Underscores -/

/-- Whether a piece between underscores meets them with digits.  The piece is the first one of the
whole scalar, the last one, both or neither. -/
def pieceMeets (isDigit : Char → Bool) (first last : Bool) (piece : List Char) : Bool :=
  (first || isDigit (piece.headD '0')) &&
    (last || isDigit (piece.getLastD '0')) &&
    (first || last || !piece.isEmpty)

/-- Checks the pieces after the first one. -/
def piecesMeet (isDigit : Char → Bool) : List (List Char) → Bool
  | [] => true
  | [piece] => pieceMeets isDigit false true piece
  | piece :: pieces => pieceMeets isDigit false false piece && piecesMeet isDigit pieces

/-- The list without its underscores, if each of them stands between digits.  `whole` says that
the list is the whole scalar and not only what follows a radix. -/
def dropUnderscores? (isDigit : Char → Bool) (whole : Bool) (cs : List Char) :
    Option (List Char) :=
  match Text.segments (· == '_') cs with
  | [] | [_] => some cs
  | piece :: pieces =>
    if cs.head? == some '_' || cs.getLast? == some '_' then none
    else if pieceMeets isDigit whole false piece && piecesMeet isDigit pieces then
      some (cs.filter (· != '_'))
    else none

/-! ## Decimals -/

/-- Splits a list after the digits and underscores at its start. -/
def spanDigits (cs : List Char) : List Char × List Char :=
  cs.span fun c => c.isDigit || c == '_'

/-- Whether a list of digits and underscores has a digit, and no superfluous zero at its start
unless `zeros` are allowed there. -/
def isDigits (zeros : Bool) (cs : List Char) : Bool :=
  let count := (cs.filter Char.isDigit).length
  1 ≤ count && (zeros || count == 1 || cs.head? != some '0')

/-- Whether the list is empty or an exponent. -/
def isExponent : List Char → Bool
  | [] => true
  | c :: cs =>
    let digits := match cs with
      | '+' :: ds | '-' :: ds => ds
      | ds => ds
    (c == 'e' || c == 'E') && isDigits true (spanDigits digits).1 &&
      (spanDigits digits).2.isEmpty

/-- Whether the list has the form of an unsigned decimal. -/
def isDecimal (cs : List Char) : Bool :=
  let (whole, rest) := spanDigits cs
  isDigits false whole &&
    match rest with
    | '.' :: rest =>
      let (fraction, rest) := spanDigits rest
      isDigits true fraction && isExponent rest
    | rest => isExponent rest

/-- The number that a decimal without underscores stands for. -/
def decimalValue (cs : List Char) : Option Float :=
  let (negative, cs) := splitSign cs
  let (whole, rest) := cs.span Char.isDigit
  let (fraction, rest) := match rest with
    | '.' :: rest => rest.span Char.isDigit
    | rest => ([], rest)
  let exponent : Int := (integer? 10 (rest.drop 1)).getD 0
  let digits := (number? 10 (whole ++ fraction)).getD 0
  Decimal.ofDecimal negative digits (exponent - fraction.length)

/-- The infinite double. -/
def infinity (negative : Bool) : Float :=
  Float.ofBits (if negative then 0xFFF0000000000000 else 0x7FF0000000000000)

/-- The double that is not a number. -/
def notANumber : Float :=
  Float.ofBits 0x7FF8000000000000

/-! ## Scalars -/

/-- A date, a decimal or an integer; `body` is the scalar without its sign. -/
def readNumber? (body scalar : List Char) : Option Scalar :=
  let rest := body.dropWhile Char.isDigit
  if rest.head? == some '-' || rest.head? == some ':' then
    if isDateTime scalar then some .dateTime else none
  else if rest.contains '.' || rest.contains 'e' || rest.contains 'E' then
    if isDecimal body then
      (dropUnderscores? Char.isDigit true scalar).map fun cs => .decimal (decimalValue cs)
    else none
  else if rest.isEmpty || rest.head? == some '_' then
    if body.head? == some '0' then none
    else
      (dropUnderscores? (fun c => (digit? 16 c).isSome) true scalar).map fun cs =>
        .integer (integer? 10 cs)
  else none

/-- An integer in a given radix; `cs` is what follows the letter of the radix. -/
def readRadix? (radix : Nat) (cs : List Char) : Option Scalar :=
  if cs.all fun c => (digit? radix c).isSome || c == '_' then
    (dropUnderscores? (fun c => (digit? 16 c).isSome) false cs).map fun ds =>
      .integer (integer? radix ds)
  else none

/-- A number that starts with zero. -/
def readZero? (signed : Bool) (body scalar : List Char) : Option Scalar :=
  match body with
  | [_] => some (.integer (some 0))
  | _ :: 'x' :: cs => if signed then none else readRadix? 16 cs
  | _ :: 'o' :: cs => if signed then none else readRadix? 8 cs
  | _ :: 'b' :: cs => if signed then none else readRadix? 2 cs
  | _ => readNumber? body scalar

/-- The scalar that a run of characters stands for. -/
def readScalar? (scalar : List Char) : Option Scalar :=
  let body := (splitSign scalar).2
  let signed := body.length < scalar.length
  match body with
  | [] => none
  | c :: _ =>
    if c == '0' then readZero? signed body scalar
    else if c.isDigit || c == '_' then readNumber? body scalar
    else if body == ['i', 'n', 'f'] then
      some (.decimal (some (infinity (splitSign scalar).1)))
    else if body == ['n', 'a', 'n'] then some (.decimal (some notANumber))
    else if signed then none
    else if body == ['t', 'r', 'u', 'e'] then some (.boolean true)
    else if body == ['f', 'a', 'l', 's', 'e'] then some (.boolean false)
    else none

end NetDiagram.Toml
