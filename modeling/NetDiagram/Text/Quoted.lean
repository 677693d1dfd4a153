import NetDiagram.Text.Printable

/-!
# Quoted texts

Two ways of writing a text between double quotes.

* `quote` writes a string literal of the generated module: a backslash stands before every
  quote and every backslash, and all else is left alone.
* `display` writes a text inside a message: the usual controls have short escapes, and a
  character that does not show by itself is given by its number.
-/

namespace NetDiagram.Text

/-! ## Literals of the generated module -/

/-- Puts a backslash before every quote and every backslash. -/
def escape : List Char → List Char
  | [] => []
  | c :: cs => if c == '\\' || c == '"' then '\\' :: c :: escape cs else c :: escape cs

/-- The string literal whose value is the text. -/
def quote (s : String) : String :=
  String.ofList ('"' :: (escape s.toList ++ ['"']))

/-! ## Texts inside messages -/

/-- A code point in hexadecimal, without leading zeros. -/
def hex (n : Nat) : String :=
  String.ofList (Nat.toDigits 16 n)

/-- How a character is written inside a displayed text. -/
def displayChar (c : Char) : String :=
  match c with
  | '\x00' => "\\0"
  | '\t' => "\\t"
  | '\r' => "\\r"
  | '\n' => "\\n"
  | '\\' => "\\\\"
  | '"' => "\\\""
  | c => if isPrintable c then c.toString else "\\u\x7b" ++ hex c.toNat ++ "\x7d"

/-- The text between quotes, as a message shows it. -/
def display (s : String) : String :=
  "\"" ++ String.join (s.toList.map displayChar) ++ "\""

end NetDiagram.Text
