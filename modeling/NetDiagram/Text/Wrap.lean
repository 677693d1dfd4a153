import NetDiagram.Text.Blank

/-!
# Wrapping words into lines

A comment is broken into lines greedily: a word joins the current line as long as the line, one
space and the word fit the width, which is counted in bytes.  A word that is longer than the
width has a line of its own.
-/

namespace NetDiagram.Text

/-- The lines that start with the given line and continue with the given words. -/
def wrapFrom (width : Nat) (line : String) : List String → List String
  | [] => [line]
  | w :: ws =>
    if width < line.utf8ByteSize + 1 + w.utf8ByteSize then line :: wrapFrom width w ws
    else wrapFrom width (line ++ " " ++ w) ws

/-- The words, broken into lines. -/
def wrapWords (width : Nat) : List String → List String
  | [] => []
  | w :: ws => wrapFrom width w ws

/-- The words of the text, broken into lines of at most `width` bytes where that is possible. -/
def wrap (s : String) (width : Nat) : List String :=
  wrapWords width (words s)

end NetDiagram.Text
