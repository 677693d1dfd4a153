import NetDiagram.Toml.Token

/-!
# Quoted strings of a TOML text

The value of a quoted token, or none if the token is not well formed.  Strings between single
quotes stand for themselves; strings between double quotes have escapes.  Strings between triple
quotes may hold line ends: one directly after the opening quotes does not count, and between
double quotes a backslash at the end of a line takes the line end and all blanks after it away.
-/

namespace NetDiagram.Toml

/-- The characters that may stand in a string as they are: the tabulator and all that is not a
control character. -/
def isPlain (c : Char) : Bool :=
  c == '\t' || (' ' ≤ c && c != '\x7f')

/-- The list without the given start, if it starts so. -/
def dropStart? (start cs : List Char) : Option (List Char) :=
  if start.isPrefixOf cs then some (cs.drop start.length) else none

/-- The list without the given end, if it ends so. -/
def dropEnd? (stop cs : List Char) : Option (List Char) :=
  if stop.isSuffixOf cs then some (cs.take (cs.length - stop.length)) else none

/-- The list without a line end at its start. -/
def dropNewline : List Char → List Char
  | '\n' :: cs => cs
  | '\r' :: '\n' :: cs => cs
  | cs => cs

/-! ## Escapes -/

/-- The value of a hexadecimal digit. -/
def hexDigit? (c : Char) : Option Nat :=
  if '0' ≤ c && c ≤ '9' then some (c.toNat - '0'.toNat)
  else if 'a' ≤ c && c ≤ 'f' then some (c.toNat - 'a'.toNat + 10)
  else if 'A' ≤ c && c ≤ 'F' then some (c.toNat - 'A'.toNat + 10)
  else none

/-- The number that a list of hexadecimal digits stands for. -/
def hexNumber? (cs : List Char) : Option Nat :=
  cs.foldlM (fun n c => (hexDigit? c).map (16 * n + ·)) 0

/-- The character with a given number, unless the number is a surrogate or too large. -/
def charOf? (n : Nat) : Option Char :=
  if h : n.isValidChar then some (Char.ofNatAux n h) else none

/-- The number of hexadecimal digits that the letter of an escape asks for. -/
def escapeDigits : Char → Nat
  | 'x' => 2
  | 'u' => 4
  | 'U' => 8
  | _ => 0

/-- The character of an escape without digits. -/
def shortEscape? : Char → Option Char
  | 'b' => some '\x08'
  | 'e' => some '\x1b'
  | 'f' => some '\x0c'
  | 'n' => some '\n'
  | 'r' => some '\r'
  | 't' => some '\t'
  | '"' => some '"'
  | '\\' => some '\\'
  | _ => none

/-- The character of an escape, given its letter and what follows, with the number of digits that
were used. -/
def escape? (letter : Char) (cs : List Char) : Option (Char × Nat) :=
  match escapeDigits letter with
  | 0 => (shortEscape? letter).map fun c => (c, 0)
  | n =>
    if cs.length < n then none
    else ((hexNumber? (cs.take n)).bind charOf?).map fun c => (c, n)

/-! ## Bodies -/

/-- Whether the list goes on with blanks and then a line end. -/
def endsLine (cs : List Char) : Bool :=
  match cs.dropWhile isWordBlank with
  | '\n' :: _ => true
  | '\r' :: '\n' :: _ => true
  | _ => false

/-- The list without the blanks and line ends at its start. -/
def dropBlankLines (cs : List Char) : List Char :=
  cs.dropWhile fun c => isWordBlank c || c == '\r' || c == '\n'

/-- Whether every carriage return is followed by a line feed. -/
def returnsPaired : List Char → Bool
  | [] => true
  | c :: cs => (c != '\r' || cs.head? == some '\n') && returnsPaired cs

/-- The value of the body of a string with escapes; `multi` says that it may hold line ends. -/
def unescape (multi : Bool) : List Char → Option (List Char)
  | [] => some []
  | c :: cs =>
    if c == '\\' then
      if multi && endsLine cs then unescape multi (dropBlankLines cs)
      else
        match cs with
        | [] => none
        | letter :: rest =>
          match escape? letter rest with
          | none => none
          | some (value, used) => (unescape multi (rest.drop used)).map (value :: ·)
    else if isPlain c || (multi && (c == '\r' || c == '\n')) then
      (unescape multi cs).map (c :: ·)
    else none
termination_by cs => cs.length
decreasing_by
  · have : (dropBlankLines cs).length ≤ cs.length := (List.dropWhile_sublist _).length_le
    simp only [List.length_cons]
    omega
  · simp only [List.length_drop, List.length_cons]
    omega
  · simp

/-! ## Tokens -/

/-- The value of a string between single quotes. -/
def literalValue? (cs : List Char) : Option (List Char) := do
  let body ← dropStart? ['\''] cs
  let body ← dropEnd? ['\''] body
  if body.all fun c => isPlain c && c != '\'' then some body else none

/-- The value of a string between triple single quotes. -/
def multiLiteralValue? (cs : List Char) : Option (List Char) := do
  let body ← dropStart? ['\'', '\'', '\''] cs
  let body ← dropEnd? ['\'', '\'', '\''] (dropNewline body)
  if returnsPaired body && body.all fun c => isPlain c || c == '\r' || c == '\n' then some body
  else none

/-- The value of a string between double quotes. -/
def basicValue? (cs : List Char) : Option (List Char) := do
  let body ← dropStart? ['"'] cs
  let body ← dropEnd? ['"'] body
  unescape false body

/-- The value of a string between triple double quotes. -/
def multiBasicValue? (cs : List Char) : Option (List Char) := do
  let body ← dropStart? ['"', '"', '"'] cs
  let body ← dropEnd? ['"', '"', '"'] (dropNewline body)
  if returnsPaired body then unescape true body else none

/-- The value of a quoted token. -/
def quotedValue? (t : Token) : Option String :=
  match t.kind with
  | .literal => (literalValue? t.lexeme).map String.ofList
  | .multiLiteral => (multiLiteralValue? t.lexeme).map String.ofList
  | .basic => (basicValue? t.lexeme).map String.ofList
  | .multiBasic => (multiBasicValue? t.lexeme).map String.ofList
  | _ => none

end NetDiagram.Toml
