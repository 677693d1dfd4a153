import NetDiagram.Record.Misfit

/-!
# Reading typed values

A decoder turns a value of a TOML text into a value of a given type or says why it does not fit.
Texts, truth values, numbers, lists and one-word choices have decoders here, and so have the
scalars that may be given in several forms; records are put together from the decoders of their
fields.

A record may be written as a table or as an array of its fields in order.  The fields of a table
are visited in the order of their keys, so the first misfit in that order is the one reported, and
fields that are missing are only looked for when all that are present fit.
-/

namespace NetDiagram.Record

/-- Reads a value of a given type. -/
abbrev Decoder (α : Type) :=
  Toml.Node → Except Misfit α

/-! ## Plain types -/

/-- Reads a text. -/
def text : Decoder String
  | .scalar _ (.text s) => .ok s
  | node => wrongType node "a string"

/-- Reads a truth value. -/
def boolean : Decoder Bool
  | .scalar _ (.boolean b) => .ok b
  | node => wrongType node "a boolean"

/-- Reads a number; an integer of 64 bits is one. -/
def number : Decoder Float
  | node =>
    match found node with
    | .ok (.decimal x) => .ok x
    | .ok (.integer n) => .ok ((Decimal.ofInt n).getD 0)
    | .ok found => .error ⟨some node.span, .wrongType found "f64"⟩
    | .error misfit => .error misfit

/-- Reads a list. -/
def list {α : Type} (item : Decoder α) : Decoder (List α)
  | .array _ _ items => items.mapM item
  | node => wrongType node "a sequence"

/-! ## Choices -/

/-- The name of the type of a value. -/
def typeName : Toml.Node → String
  | .scalar _ (.text _) => "string"
  | .scalar _ (.integer _) => "integer"
  | .scalar _ (.decimal _) => "float"
  | .scalar _ (.boolean _) => "boolean"
  | .scalar _ .dateTime => "datetime"
  | .array _ _ _ => "array"
  | .table _ _ _ => "table"

/-- The value of a word among the given ones. -/
def variant {α : Type} (spellings : List (String × α)) (span : Span) (word : String) :
    Except Misfit α :=
  match spellings.lookup word with
  | some value => .ok value
  | none => .error ⟨some span, .unknownVariant word (spellings.map (·.1))⟩

/-- Reads one of several words: a text, or a table whose only key is the word and whose value
there is empty. -/
def choice {α : Type} (spellings : List (String × α)) : Decoder α
  | .scalar span (.text word) => variant spellings span word
  | .table span _ entries =>
    match entries with
    | [] => .error ⟨some span, .noVariantGiven⟩
    | [(key, inner)] => do
      let value ← variant spellings key.span key.text
      match inner with
      | .table _ _ [] | .array _ _ [] => .ok value
      | .table span _ _ => .error ⟨some span, .tableNotEmpty⟩
      | .array span _ _ => .error ⟨some span, .arrayNotEmpty⟩
      | inner => .error ⟨some inner.span, .notATable (typeName inner)⟩
    | _ => .error ⟨some span, .manyVariantsGiven⟩
  | node => .error ⟨some node.span, .notStringOrTable⟩

/-! ## Scalars of several forms -/

mutual

/-- Checks a value that may have any form: every number in it must be within limits, for integers
64 bits or, if `wide`, 128. -/
def checkAny (wide : Bool) : Toml.Node → Except Misfit Unit
  | .scalar span value =>
    match found (.scalar span value) with
    | .ok (.wide n type) =>
      if wide then .ok () else .error ⟨some span, .wrongType (.wide n type) "any value"⟩
    | .ok _ => .ok ()
    | .error misfit => .error misfit
  | .array _ _ items => checkItems wide items
  | .table _ _ entries => checkEntries wide entries

/-- Checks the items of an array. -/
def checkItems (wide : Bool) : List Toml.Node → Except Misfit Unit
  | [] => .ok ()
  | node :: nodes =>
    match checkAny wide node with
    | .error misfit => .error misfit
    | .ok _ => checkItems wide nodes

/-- Checks the values of a table. -/
def checkEntries (wide : Bool) : List (Toml.Key × Toml.Node) → Except Misfit Unit
  | [] => .ok ()
  | (_, node) :: entries =>
    match checkAny wide node with
    | .error misfit => .error misfit
    | .ok _ => checkEntries wide entries

end

/-- A text, an integer, a decimal or a truth value. -/
inductive Atom where
  | text (s : String)
  | integer (n : Int)
  | decimal (x : Float)
  | boolean (b : Bool)

/-- The text of an atom. -/
def Atom.render : Atom → String
  | text s => s
  | integer n => toString n
  | decimal x => Decimal.Layout.document.write x
  | boolean b => if b then "True" else "False"

/-- The atom that a value is.  An integer that needs the 64th bit for its size counts as a
decimal. -/
def atom? : Toml.Node → Option Atom
  | .scalar _ (.text s) => some (.text s)
  | .scalar _ (.integer (some n)) =>
    if n < Int.pow 2 63 then some (.integer n) else (Decimal.ofInt n).map .decimal
  | .scalar _ (.decimal (some x)) => some (.decimal x)
  | .scalar _ (.boolean b) => some (.boolean b)
  | _ => none

/-- Reads an atom.  A value that is none gets its place from what it is part of. -/
def atom : Decoder Atom
  | node => do
    checkAny false node
    match atom? node with
    | some atom => .ok atom
    | none => .error ⟨none, .noVariant "RawScalar"⟩

/-- The atoms of a value that is one, or an array of them. -/
def atoms? : Toml.Node → Option (List Atom)
  | .array _ _ items => items.mapM atom?
  | node => (atom? node).map ([·])

/-- Reads an atom or an array of atoms, as a text in which semicolons divide them. -/
def idText : Decoder String
  | node => do
    checkAny false node
    match atoms? node with
    | some atoms => .ok (";".intercalate (atoms.map Atom.render))
    | none => .error ⟨some node.span, .noVariant "RawIds"⟩

/-! ## Records -/

/-- A field of a record: its name, whether it must be given, and the check of its value. -/
structure Field where
  name : String
  required : Bool
  check : Decoder Unit

/-- A field that must be given. -/
def required {α : Type} (name : String) (decode : Decoder α) : Field :=
  ⟨name, true, fun node => (decode node).map fun _ => ()⟩

/-- A field that may be left out. -/
def optional {α : Type} (name : String) (decode : Decoder α) : Field :=
  ⟨name, false, fun node => (decode node).map fun _ => ()⟩

/-- A kind of record.  If it is `closed`, a table must not have other keys than its fields. -/
structure Shape where
  name : String
  fields : List Field
  closed : Bool := true

/-- The values of the fields that are given, by name. -/
abbrev Fields :=
  List (String × Toml.Node)

namespace Shape

/-- The field of a given name. -/
def field? (s : Shape) (name : String) : Option Field :=
  s.fields.find? (·.name == name)

/-- Checks the entries of a table in order. -/
def checkEntries (s : Shape) : Toml.Entries → Except Misfit Unit
  | [] => .ok ()
  | (key, node) :: entries => do
    match s.field? key.text with
    | some field => (field.check node).mapError (Misfit.within node.span)
    | none =>
      if s.closed then
        .error ⟨some key.span, .unknownField key.text (s.fields.map (·.name))⟩
      else checkAny true node
    s.checkEntries entries

/-- Reads the fields of a record written as a table. -/
def readTable (s : Shape) (span : Span) (entries : Toml.Entries) : Except Misfit Fields := do
  s.checkEntries entries
  match s.fields.find? fun field => field.required && (entries.get? field.name).isNone with
  | some field => .error ⟨some span, .missingField field.name⟩
  | none => .ok (entries.map fun (key, node) => (key.text, node))

/-- Reads the given fields of a record written as an array, of which `index` came before. -/
def readItems (s : Shape) (span : Span) : Nat → List Field → List Toml.Node → Except Misfit Fields
  | _, [], _ => .ok []
  | index, field :: fields, node :: nodes => do
    field.check node
    let rest ← s.readItems span (index + 1) fields nodes
    .ok ((field.name, node) :: rest)
  | index, field :: fields, [] =>
    if field.required then .error ⟨some span, .tooShort index s.name s.fields.length⟩
    else s.readItems span (index + 1) fields []

/-- The table that stands for a date: its only key is one that no record has. -/
def dateEntries (span : Span) : Toml.Entries :=
  [(⟨"$__toml_private_datetime", span⟩, .scalar span .dateTime)]

/-- Reads the fields of a record. -/
def read (s : Shape) : Decoder Fields
  | .table span _ entries => s.readTable span entries
  | .scalar span .dateTime => s.readTable span (dateEntries span)
  | .array span _ items =>
    (s.readItems span 0 s.fields items).mapError (Misfit.within span)
  | node => wrongType node ("struct " ++ s.name)

end Shape

/-- The value of a field that may have been left out. -/
def Fields.get? {α : Type} (fs : Fields) (name : String) (decode : Decoder α) :
    Except Misfit (Option α) :=
  match fs.lookup name with
  | some node => (decode node).map some
  | none => .ok none

/-- The value of a field, or a default. -/
def Fields.getD {α : Type} (fs : Fields) (name : String) (decode : Decoder α) (default : α) :
    Except Misfit α :=
  (fs.get? name decode).map (·.getD default)

end NetDiagram.Record
