import NetDiagram.Span
import NetDiagram.Toml.Scalar

/-!
# Values and tables of a TOML text

A text stands for a table of values.  Every value and every key knows its place in the text; the
entries of a table are kept in the order of their keys.

How a table came about decides what may still be added to it.  A table that is only implied by a
longer header may get a header of its own, and headers may go through any table that is not
inline.  Dotted keys may only extend tables that have no header of their own, and a table that
they extend can no longer get one.  An array of tables, each with a header of its own, grows by
further headers; no other array grows.
-/

namespace NetDiagram.Toml

/-- What makes a text no TOML text. -/
inductive SyntaxError where
  /-- A token where none of its kind may stand. -/
  | unexpected
  /-- The text ends too early. -/
  | unfinished
  /-- A string, key or other scalar that is not well formed. -/
  | badScalar
  /-- A control character in a comment, or a carriage return without a line feed. -/
  | badCharacter
  /-- A key or table that is defined twice, or extends what cannot be extended. -/
  | duplicate
  /-- Arrays and inline tables inside one another more than eighty deep, or a key of more than
  eighty parts. -/
  | tooDeep
deriving DecidableEq, Repr

/-- A key with its place. -/
structure Key where
  text : String
  span : Span
deriving DecidableEq, Repr

/-- How a table came about. -/
inductive TableKind where
  /-- Named only on the way to another table by a header. -/
  | implied
  /-- Named on the way to a value by a dotted key, though it may have been implied before. -/
  | dotted
  /-- By a header, or the whole text. -/
  | defined
  /-- Written as a value. -/
  | inline
deriving DecidableEq, Repr

/-- A value with its place. -/
inductive Node where
  | scalar (span : Span) (value : Scalar)
  /-- An array; `ofTables` if its items have headers of their own. -/
  | array (span : Span) (ofTables : Bool) (items : List Node)
  | table (span : Span) (kind : TableKind) (entries : List (Key × Node))

instance : Inhabited Node := ⟨.table default .defined []⟩

/-- The place of a value. -/
def Node.span : Node → Span
  | scalar span _ => span
  | array span _ _ => span
  | table span _ _ => span

/-- The entries of a table in the order of their keys. -/
abbrev Entries :=
  List (Key × Node)

namespace Entries

/-- The value of a key. -/
def get? (es : Entries) (key : String) : Option Node :=
  (es.find? (·.1.text == key)).map (·.2)

/-- Adds an entry at its place in the order; an entry of the same key is replaced, key and all. -/
def put (es : Entries) (key : Key) (node : Node) : Entries :=
  match es with
  | [] => [(key, node)]
  | e :: rest =>
    if key.text < e.1.text then (key, node) :: e :: rest
    else if key.text == e.1.text then (key, node) :: rest
    else e :: put rest key node

/-- Changes the value of a key that is there. -/
def set (es : Entries) (key : String) (node : Node) : Entries :=
  es.map fun e => if e.1.text == key then (e.1, node) else e

/-- Adds an entry for a new key. -/
def add (es : Entries) (key : Key) (node : Node) : Except SyntaxError Entries :=
  match es.get? key.text with
  | some _ => .error .duplicate
  | none => .ok (es.put key node)

/-- Changes the table at the end of a path.  Tables that are missing on the way are made, as
`dotted` ones or implied ones, and a dotted way turns implied tables into dotted ones; in an array
of tables the way goes through the last one. -/
def update (dotted : Bool) (change : TableKind → Entries → Except SyntaxError Entries)
    (kind : TableKind) (es : Entries) : List Key → Except SyntaxError Entries
  | [] => change kind es
  | key :: path =>
    match es.get? key.text with
    | none => do
      let made := if dotted then .dotted else .implied
      let inner ← update dotted change made [] path
      .ok (es.put key (.table key.span made inner))
    | some (.table span inside inner) =>
      if inside = .inline || (dotted && inside = .defined) then .error .duplicate
      else do
        let inside := if dotted then .dotted else inside
        let inner ← update dotted change inside inner path
        .ok (es.set key.text (.table span inside inner))
    | some (.array span true items) =>
      match items.getLast? with
      | some (.table last inside inner) => do
        let inner ← update dotted change inside inner path
        .ok (es.set key.text
          (.array span true (items.dropLast ++ [.table last inside inner])))
      | _ => .error .duplicate
    | some _ => .error .duplicate

/-- Adds the value of a key, which may be dotted: the last part is given apart from the others. -/
def addValue (es : Entries) (path : List Key) (key : Key) (node : Node) :
    Except SyntaxError Entries :=
  match path with
  | [] => es.add key node
  | path =>
    es.update true (fun kind inner =>
      if kind = .dotted then inner.add key node else .error .duplicate) .defined path

/-- Adds the table of a header, whose key is given by its last part and the others. -/
def addTable (es : Entries) (path : List Key) (key : Key) (span : Span) :
    Except SyntaxError Entries :=
  es.update false (fun _ inner =>
    match inner.get? key.text with
    | none => .ok (inner.put key (.table span .defined []))
    | some (.table _ .implied entries) => .ok (inner.put key (.table span .defined entries))
    | some _ => .error .duplicate) .defined path

/-- Adds an item of an array of tables. -/
def addItem (es : Entries) (path : List Key) (key : Key) (span : Span) :
    Except SyntaxError Entries :=
  es.update false (fun _ inner =>
    match inner.get? key.text with
    | none => .ok (inner.put key (.array span true [.table span .defined []]))
    | some (.array first true items) =>
      .ok (inner.set key.text (.array first true (items ++ [.table span .defined []])))
    | some _ => .error .duplicate) .defined path

end Entries

end NetDiagram.Toml
