/-!
# Tokens of a TOML text

The first reading of a text cuts it into tokens: punctuation, blanks, line ends, comments, quoted
strings, and atoms, which are the runs of all other characters.  Cutting never fails; whether a
token is well formed is decided where it is used.  The lexemes of the tokens, one after the other,
are the text.
-/

namespace NetDiagram.Toml

/-- The kinds of tokens. -/
inductive TokenKind where
  | dot
  | equals
  | comma
  | openBracket
  | closeBracket
  | openBrace
  | closeBrace
  | blank
  | newline
  | comment
  | atom
  /-- A string between single quotes. -/
  | literal
  /-- A string between triple single quotes. -/
  | multiLiteral
  /-- A string between double quotes. -/
  | basic
  /-- A string between triple double quotes. -/
  | multiBasic
deriving DecidableEq, Repr

/-- A piece of the text with the byte offset at which it starts. -/
structure Token where
  kind : TokenKind
  start : Nat
  lexeme : List Char
deriving DecidableEq, Repr

/-- The number of bytes of a list of characters. -/
def byteLength (cs : List Char) : Nat :=
  cs.foldr (fun c n => c.utf8Size + n) 0

/-- The byte offset at which the token ends. -/
def Token.stop (t : Token) : Nat :=
  t.start + byteLength t.lexeme

/-- The characters that divide words inside a line. -/
def isWordBlank (c : Char) : Bool :=
  c == ' ' || c == '\t'

/-- The characters that end an atom.  Quotes do not. -/
def endsAtom (c : Char) : Bool :=
  c == '.' || c == '=' || c == ',' || c == '[' || c == ']' || c == '\x7b' || c == '\x7d' ||
    isWordBlank c || c == '#' || c == '\r' || c == '\n'

/-! ## Lengths of quoted strings

Each function gives the number of characters after the opening quotes that still belong to the
string, the closing quotes included.  A string that is not closed ends with its line, or with the
text if it may hold line ends. -/

/-- The length of a string between single quotes. -/
def literalLength : List Char → Nat
  | [] => 0
  | c :: cs => if c == '\'' then 1 else if c == '\n' then 0 else literalLength cs + 1

/-- The length of a string between double quotes.  A quote or a backslash that is `escaped`, that
is, comes after a backslash that counts, neither ends the string nor escapes. -/
def basicLength (escaped : Bool) : List Char → Nat
  | [] => 0
  | c :: cs =>
    if escaped && (c == '\\' || c == '"') then basicLength false cs + 1
    else if c == '"' then 1
    else if c == '\n' then 0
    else basicLength (c == '\\') cs + 1

/-- The number of closing quotes of a string between triple quotes: three, and up to two more
that belong to the string. -/
def closingLength (q : Char) (cs : List Char) : Nat :=
  min 5 (cs.takeWhile (· == q)).length

/-- Whether the list starts with three quotes. -/
def startsTriple (q : Char) : List Char → Bool
  | a :: b :: c :: _ => a == q && b == q && c == q
  | _ => false

/-- The length of a string between triple single quotes. -/
def multiLiteralLength : List Char → Nat
  | [] => 0
  | c :: cs =>
    if startsTriple '\'' (c :: cs) then closingLength '\'' (c :: cs)
    else multiLiteralLength cs + 1

/-- The length of a string between triple double quotes, with escapes as in `basicLength`. -/
def multiBasicLength (escaped : Bool) : List Char → Nat
  | [] => 0
  | c :: cs =>
    if escaped && (c == '\\' || c == '"') then multiBasicLength false cs + 1
    else if startsTriple '"' (c :: cs) then closingLength '"' (c :: cs)
    else multiBasicLength (c == '\\') cs + 1

/-! ## Cutting -/

/-- The kind of the token that starts with a character, and the number of characters after it
that belong to the token. -/
def classify (c : Char) (cs : List Char) : TokenKind × Nat :=
  match c with
  | '.' => (.dot, 0)
  | '=' => (.equals, 0)
  | ',' => (.comma, 0)
  | '[' => (.openBracket, 0)
  | ']' => (.closeBracket, 0)
  | '\x7b' => (.openBrace, 0)
  | '\x7d' => (.closeBrace, 0)
  | '\n' => (.newline, 0)
  | '\r' => (.newline, if cs.head? == some '\n' then 1 else 0)
  | '#' => (.comment, (cs.takeWhile fun d => d != '\r' && d != '\n').length)
  | '\'' =>
    if startsTriple '\'' (c :: cs) then (.multiLiteral, multiLiteralLength (cs.drop 2) + 2)
    else (.literal, literalLength cs)
  | '"' =>
    if startsTriple '"' (c :: cs) then (.multiBasic, multiBasicLength false (cs.drop 2) + 2)
    else (.basic, basicLength false cs)
  | c =>
    if isWordBlank c then (.blank, (cs.takeWhile isWordBlank).length)
    else (.atom, (cs.takeWhile fun d => !endsAtom d).length)

/-- Cuts a list of characters that starts at a byte offset. -/
def tokensFrom (start : Nat) : List Char → List Token
  | [] => []
  | c :: cs =>
    let (kind, more) := classify c cs
    let token : Token := ⟨kind, start, c :: cs.take more⟩
    token :: tokensFrom token.stop (cs.drop more)
termination_by cs => cs.length
decreasing_by simp only [List.length_drop, List.length_cons]; omega

/-- The tokens of a text.  A byte order mark at its start is skipped. -/
def tokens (source : String) : List Token :=
  match source.toList with
  | '\ufeff' :: cs => tokensFrom 3 cs
  | cs => tokensFrom 0 cs

end NetDiagram.Toml
