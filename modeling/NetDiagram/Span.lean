/-!
# Places in a text

A span is a half-open range of byte offsets.  Its end never precedes its start: a range given
the wrong way round is empty at its start.
-/

namespace NetDiagram

/-- The bytes from `start` up to, and not including, `stop`. -/
structure Span where
  start : Nat
  stop : Nat
  start_le_stop : start ≤ stop := by omega
deriving DecidableEq, Repr

namespace Span

/-- The span of a range; a range that ends before it starts is empty at its start. -/
def ofRange (start stop : Nat) : Span where
  start := start
  stop := max start stop
  start_le_stop := Nat.le_max_left start stop

/-- The number of bytes. -/
def length (s : Span) : Nat :=
  s.stop - s.start

/-- Whether the span holds no byte. -/
def isEmpty (s : Span) : Bool :=
  s.start == s.stop

instance : Inhabited Span := ⟨ofRange 0 0⟩

/-- The span from the start of the first to the end of the second. -/
def join (s t : Span) : Span :=
  ofRange s.start t.stop

end Span

end NetDiagram
