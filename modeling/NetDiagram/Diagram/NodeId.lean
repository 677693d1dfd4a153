import NetDiagram.Text.Blank

/-!
# Identifiers of entities

An id is a text without blanks at its ends.  Two ids are equal exactly when their texts are, so
`" 42 "` and `"42"` name the same entity.
-/

namespace NetDiagram

/-- The name of an entity inside its document. -/
structure NodeId where
  text : String
  trimmed : Text.trim text = text
deriving DecidableEq

namespace NodeId

/-- The id that a text names, blanks at its ends aside. -/
def ofText (s : String) : NodeId :=
  ⟨Text.trim s, Text.trim_trim s⟩

@[simp]
theorem text_ofText (s : String) : (ofText s).text = Text.trim s :=
  rfl

@[simp]
theorem ofText_text (id : NodeId) : ofText id.text = id := by
  obtain ⟨s, h⟩ := id
  simp [ofText, h]

instance : Repr NodeId where
  reprPrec id n := reprPrec id.text n

instance : Inhabited NodeId := ⟨ofText ""⟩

end NodeId

end NetDiagram
