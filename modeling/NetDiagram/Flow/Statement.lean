/-!
# Statements

A statement of the build method constructs an object and may call it at once:
`variable = source.Class(arguments)(call)`.
-/

namespace NetDiagram.Flow

/-- A line of the build method. -/
structure Statement where
  var : String
  source : String
  className : String
  args : String
  call : Option String := none
deriving DecidableEq, Repr

/-- The statement as text; without a variable there is no assignment, without a call no call. -/
def Statement.text (s : Statement) : String :=
  let assignment := if s.var == "" then "" else s.var ++ " = "
  let call := match s.call with
    | some call => "(" ++ call ++ ")"
    | none => ""
  assignment ++ s.source ++ "." ++ s.className ++ "(" ++ s.args ++ ")" ++ call

end NetDiagram.Flow
