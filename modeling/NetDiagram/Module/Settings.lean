/-!
# Settings

What a user may choose about the generated class: its name, its author and a comment.  All three
are free text.
-/

namespace NetDiagram.Module

/-- The choices about the generated class. -/
structure Settings where
  name : String := "Model"
  author : String := "anonymous"
  comment : Option String := none
deriving DecidableEq, Repr

/-- Replaces the choices that are given. -/
def Settings.override (s : Settings) (name author comment : Option String) : Settings where
  name := name.getD s.name
  author := author.getD s.author
  comment := comment.or s.comment

end NetDiagram.Module
