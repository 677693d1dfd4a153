import NetDiagram.Decimal.Layout
import NetDiagram.Text.Quoted
import NetDiagram.Toml.Node

/-!
# Values that do not fit

A table of values may have the right syntax and still not be what is asked for.  A `Misfit` says
what does not fit, and where.
-/

namespace NetDiagram.Record

/-- What stands in the place of something else. -/
inductive Found where
  | integer (n : Int)
  /-- An integer of more than 64 bits; the second is the name of the least type that holds it. -/
  | wide (n : Int) (type : String)
  | decimal (x : Float)
  | boolean (b : Bool)
  | text (s : String)
  | sequence
  | map

/-- What was found, in words. -/
def Found.describe : Found → String
  | integer n => "integer `" ++ toString n ++ "`"
  | wide n type => "integer `" ++ toString n ++ "` as " ++ type
  | decimal x => "floating point `" ++ Decimal.Layout.message.write x ++ "`"
  | boolean b => "boolean `" ++ (if b then "true" else "false") ++ "`"
  | text s => "string " ++ Text.display s
  | sequence => "sequence"
  | map => "map"

/-- Why a value does not fit. -/
inductive Cause where
  | wrongType (found : Found) (expected : String)
  | unknownField (name : String) (known : List String)
  | missingField (name : String)
  | tooShort (length : Nat) (record : String) (size : Nat)
  | unknownVariant (name : String) (known : List String)
  | noVariant (type : String)
  | integerOverflow
  | decimalOverflow
  | notStringOrTable
  | noVariantGiven
  | manyVariantsGiven
  | tableNotEmpty
  | arrayNotEmpty
  | notATable (found : String)

/-- Names between backquotes, divided by commas. -/
def listNames (names : List String) : String :=
  ", ".intercalate (names.map fun name => "`" ++ name ++ "`")

/-- The cause in words. -/
def Cause.message : Cause → String
  | wrongType found expected => "invalid type: " ++ found.describe ++ ", expected " ++ expected
  | unknownField name known =>
    "unknown field `" ++ name ++ "`, expected one of " ++ listNames known
  | missingField name => "missing field `" ++ name ++ "`"
  | tooShort length record size =>
    "invalid length " ++ toString length ++ ", expected struct " ++ record ++ " with " ++
      toString size ++ " elements"
  | unknownVariant name known =>
    "unknown variant `" ++ name ++ "`, expected one of " ++ listNames known
  | noVariant type => "data did not match any variant of untagged enum " ++ type
  | integerOverflow => "integer number overflowed"
  | decimalOverflow => "floating-point number overflowed"
  | notStringOrTable => "wanted string or table"
  | noVariantGiven => "wanted exactly 1 element, found 0 elements"
  | manyVariantsGiven => "wanted exactly 1 element, more than 1 element"
  | tableNotEmpty => "expected empty table"
  | arrayNotEmpty => "expected empty array"
  | notATable found => "expected table, found " ++ found

/-- A value that does not fit, and its place, if that is settled.  A misfit without a place takes
that of the innermost table entry or record around it. -/
structure Misfit where
  span : Option Span
  cause : Cause

/-- The misfit with the given place, unless it has one. -/
def Misfit.within (span : Span) (m : Misfit) : Misfit :=
  { m with span := m.span.or (some span) }

/-- What an integer is found as: one of 64 bits, a wider one, or none at all. -/
def foundInteger? (n : Int) : Option Found :=
  if -Int.pow 2 63 ≤ n && n < Int.pow 2 64 then some (.integer n)
  else if -Int.pow 2 127 ≤ n && n < Int.pow 2 127 then some (.wide n "i128")
  else if 0 ≤ n && n < Int.pow 2 128 then some (.wide n "u128")
  else none

/-- What a value is found as.  An integer or a decimal that stands for no number does not fit
anywhere. -/
def found (node : Toml.Node) : Except Misfit Found :=
  match node with
  | .scalar _ (.text s) => .ok (.text s)
  | .scalar span (.integer n) =>
    match n.bind foundInteger? with
    | some found => .ok found
    | none => .error ⟨some span, .integerOverflow⟩
  | .scalar span (.decimal x) =>
    match x with
    | some x => .ok (.decimal x)
    | none => .error ⟨some span, .decimalOverflow⟩
  | .scalar _ (.boolean b) => .ok (.boolean b)
  | .scalar _ .dateTime => .ok .map
  | .array _ _ _ => .ok .sequence
  | .table _ _ _ => .ok .map

/-- The misfit of a value that has another type than the expected one. -/
def wrongType {α : Type} (node : Toml.Node) (expected : String) : Except Misfit α :=
  match found node with
  | .ok found => .error ⟨some node.span, .wrongType found expected⟩
  | .error misfit => .error misfit

end NetDiagram.Record
