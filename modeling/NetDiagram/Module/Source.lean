import NetDiagram.Flow.Compilation
import NetDiagram.Module.Settings
import NetDiagram.Module.Title
import NetDiagram.Text.Wrap

/-!
# The text of the generated module

The module has a header comment, one import line for each group that its statements use, and a
class with an optional docstring, a constructor that stores its parameters, and a build method
that holds the statements and returns the models.
-/

namespace NetDiagram.Module

/-- One step of indentation. -/
def tab : String :=
  "    "

/-- The width of a line that a docstring keeps to. -/
def lineWidth : Nat :=
  80

/-- The mark that opens and closes a docstring. -/
def docstringMark : String :=
  "\"\"\""

/-- Puts the mark before the first line and after the last. -/
def encloseLines : List String → List String
  | [] => []
  | [line] => [docstringMark ++ line ++ docstringMark]
  | first :: rest =>
    (docstringMark ++ first) :: (rest.dropLast ++ [rest.getLastD "" ++ docstringMark])

/-- The lines of a docstring; a comment without words has none. -/
def docstring (comment : String) : List String :=
  let width := lineWidth - tab.utf8ByteSize - 2 * docstringMark.utf8ByteSize
  (encloseLines (Text.wrap comment width)).map (tab ++ ·)

/-- The lines of the constructor. -/
def constructorLines : List String → List String
  | [] => [tab ++ "def __init__(self):", tab ++ tab ++ "pass"]
  | names =>
    (tab ++ "def __init__(self, " ++ ", ".intercalate names ++ "):") ::
      names.map fun name => tab ++ tab ++ "self." ++ name ++ " = " ++ name

/-- The lines before the first import. -/
def headerLines (title author date : String) : List String :=
  ["# -*- coding: utf-8 -*-",
    "#",
    "# " ++ fileName title,
    "# Created by " ++ author ++ " on " ++ date,
    "#",
    "# " ++ title ++ " was built with Karken: KMB",
    "# A Keras Model Builder Tool.",
    "#",
    ""]

/-- The lines of the module. -/
def moduleLines (s : Settings) (date : String) (c : Flow.Compilation) : List String :=
  headerLines (title s.name) (Text.capitalize s.author) date ++
    c.sources.map ("from keras import " ++ ·) ++
    ["", "", "class " ++ title s.name ++ ":"] ++
    (match s.comment with
      | some comment => docstring comment
      | none => []) ++
    [""] ++
    constructorLines c.placeholders ++
    ["", tab ++ "def build(self):"] ++
    c.lines.map (tab ++ tab ++ ·) ++
    ["", Text.trimEnd (tab ++ tab ++ "return " ++ ", ".intercalate c.endpoints)]

/-- The text of the module. -/
def moduleText (s : Settings) (date : String) (c : Flow.Compilation) : String :=
  "\n".intercalate (moduleLines s date c) ++ "\n"

end NetDiagram.Module
