import NetDiagram.Text.Alphanumeric
import NetDiagram.Text.CaseMap

/-!
# Names of the generated class and its file

The class is named after the configured name: capitalized, and then stripped of all characters
that cannot stand in a name.  The file is named after the class.
-/

namespace NetDiagram.Module

/-- Whether the character may stand in the name of a class. -/
def isTitleChar (c : Char) : Bool :=
  Text.isAlphanumeric c || c == '_'

/-- Whether the character is one of `0` to `9`. -/
def isDigit (c : Char) : Bool :=
  '0' ≤ c && c ≤ '9'

/-- The name for a class that has no usable name. -/
def fallbackTitle : String :=
  "Model"

/-- The name of the class.  A name that would start with a digit starts with an underscore. -/
def title (name : String) : String :=
  match (Text.capitalizeChars name.toList).filter isTitleChar with
  | [] => fallbackTitle
  | c :: cs => String.ofList (if isDigit c then '_' :: c :: cs else c :: cs)

/-- The name of the file that holds a class. -/
def fileName (title : String) : String :=
  Text.lowercase title ++ ".py"

end NetDiagram.Module
