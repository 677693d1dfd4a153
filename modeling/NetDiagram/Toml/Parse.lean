import NetDiagram.Toml.Node
import NetDiagram.Toml.Quoted

/-!
# Reading a TOML text

The tokens of a text are read one after the other by a machine with a stack.  Its state says what
is being read: a line, a header, a key, or a value.  While a value is read, the stack holds the
arrays and inline tables that are still open, the innermost first, and below them the line that
the value belongs to.
-/

namespace NetDiagram.Toml

/-! ## Keys -/

/-- The parts of a dotted key read so far; `wanted` if a further part must come, `closed` if none
may come. -/
structure KeyParts where
  parts : List Key := []
  wanted : Bool := true
  closed : Bool := false

/-- The greatest number of arrays and inline tables inside one another, and of parts of a key. -/
def maxDepth : Nat :=
  80

/-- Whether the character may stand in a key without quotes. -/
def isBareKeyChar (c : Char) : Bool :=
  c.isAlphanum || c == '_' || c == '-'

/-- The place of a token. -/
def Token.span (t : Token) : Span :=
  Span.ofRange t.start t.stop

/-- The key that a token stands for. -/
def keyOf (t : Token) : Except SyntaxError Key :=
  match t.kind with
  | .atom =>
    if t.lexeme.all isBareKeyChar then .ok ⟨String.ofList t.lexeme, t.span⟩
    else .error .badScalar
  | .literal | .basic =>
    match quotedValue? t with
    | some s => .ok ⟨s, t.span⟩
    | none => .error .badScalar
  | .multiLiteral | .multiBasic => .error .badScalar
  | _ => .error .unexpected

/-- Reads a token of a key: a part, a dot or a blank. -/
def KeyParts.read (k : KeyParts) (t : Token) : Except SyntaxError KeyParts :=
  match t.kind with
  | .blank => .ok k
  | .dot => if k.wanted || k.closed then .error .unexpected else .ok { k with wanted := true }
  | _ =>
    if k.wanted then do
      let key ← keyOf t
      .ok { k with parts := k.parts ++ [key], wanted := false }
    else .error .unexpected

/-- The parts before the last one, and the last one. -/
def KeyParts.split (k : KeyParts) : Except SyntaxError (List Key × Key) :=
  if k.wanted then .error .unexpected
  else if maxDepth < k.parts.length then .error .tooDeep
  else
    match k.parts.getLast? with
    | some key => .ok (k.parts.dropLast, key)
    | none => .error .unexpected

/-! ## States -/

/-- What comes next in an inline table. -/
inductive InlineState where
  /-- A key or the end. -/
  | start
  /-- The rest of a key and the sign after it. -/
  | key (parts : KeyParts)
  /-- The value of a key. -/
  | value (path : List Key) (key : Key)
  /-- A comma or the end. -/
  | done

/-- A value that is being read. -/
inductive Frame where
  /-- The value of a line. -/
  | line (path : List Key) (key : Key)
  /-- An array with the items read so far, the last one first; `done` if that one is complete. -/
  | array (start : Nat) (items : List Node) (done : Bool)
  /-- An inline table with the entries read so far. -/
  | inline (start : Nat) (entries : Entries) (state : InlineState)

/-- What is being read. -/
inductive State where
  /-- The start of a line. -/
  | lineStart
  /-- The end of a line, after a header or a value. -/
  | lineEnd
  /-- A header, directly after its first bracket. -/
  | headerStart (start : Nat)
  /-- The key of a header; `item` if it has two brackets. -/
  | header (start : Nat) (item : Bool) (parts : KeyParts)
  /-- A header with two brackets, directly after the first closing one. -/
  | headerEnd (start : Nat) (path : List Key) (key : Key)
  /-- The key of a line. -/
  | key (parts : KeyParts)
  /-- A value. -/
  | value (stack : List Frame)
  /-- A scalar without quotes; `gap` if a blank came after what may be a date. -/
  | scalar (stack : List Frame) (start stop : Nat) (read : List Char) (gap : Bool)

/-- The table read so far, the path of the current header, and what is being read. -/
structure Machine where
  root : Entries := []
  current : List Key := []
  state : State := .lineStart

/-! ## Steps -/

/-- Checks a token that does not count: a comment without control characters, or a whole line
end. -/
def checkTrivia (t : Token) : Except SyntaxError Unit :=
  match t.kind with
  | .comment => if t.lexeme.all isPlain then .ok () else .error .badCharacter
  | .newline => if t.lexeme == ['\r'] then .error .badCharacter else .ok ()
  | _ => .ok ()

/-- Puts a complete value where it belongs. -/
def Machine.deliver (m : Machine) (node : Node) : List Frame → Except SyntaxError Machine
  | .line path key :: _ => do
    let root ← m.root.update false (fun _ es => es.addValue path key node) .defined m.current
    .ok { m with root := root, state := .lineEnd }
  | .array start items false :: stack =>
    .ok { m with state := .value (.array start (node :: items) true :: stack) }
  | .inline start es (.value path key) :: stack => do
    let es ← es.addValue path key node
    .ok { m with state := .value (.inline start es .done :: stack) }
  | _ => .error .unexpected

/-- Opens an array or an inline table. -/
def Machine.push (m : Machine) (frame : Frame) (stack : List Frame) :
    Except SyntaxError Machine :=
  if maxDepth < stack.length then .error .tooDeep
  else .ok { m with state := .value (frame :: stack) }

/-- Reads the first token of a value. -/
def Machine.readValue (m : Machine) (t : Token) (stack : List Frame) :
    Except SyntaxError Machine :=
  match t.kind with
  | .openBracket => m.push (.array t.start [] false) stack
  | .openBrace => m.push (.inline t.start [] .start) stack
  | .literal | .multiLiteral | .basic | .multiBasic =>
    match quotedValue? t with
    | some s => m.deliver (.scalar t.span (.text s)) stack
    | none => .error .badScalar
  | .atom | .dot => .ok { m with state := .scalar stack t.start t.stop t.lexeme false }
  | _ => .error .unexpected

/-- Reads a token inside an array. -/
def Machine.readArray (m : Machine) (t : Token) (start : Nat) (items : List Node) (done : Bool)
    (stack : List Frame) : Except SyntaxError Machine :=
  match t.kind with
  | .closeBracket => m.deliver (.array (Span.ofRange start t.stop) false items.reverse) stack
  | .comma =>
    if done then .ok { m with state := .value (.array start items false :: stack) }
    else .error .unexpected
  | _ => if done then .error .unexpected else m.readValue t (.array start items false :: stack)

/-- Reads a token inside an inline table. -/
def Machine.readInline (m : Machine) (t : Token) (start : Nat) (es : Entries)
    (stack : List Frame) : InlineState → Except SyntaxError Machine
  | .start =>
    if t.kind = .closeBrace then
      m.deliver (.table (Span.ofRange start t.stop) .inline es) stack
    else do
      let parts ← KeyParts.read {} t
      .ok { m with state := .value (.inline start es (.key parts) :: stack) }
  | .key parts =>
    if t.kind = .equals then do
      let (path, key) ← parts.split
      .ok { m with state := .value (.inline start es (.value path key) :: stack) }
    else do
      let parts ← parts.read t
      .ok { m with state := .value (.inline start es (.key parts) :: stack) }
  | .value path key => m.readValue t (.inline start es (.value path key) :: stack)
  | .done =>
    match t.kind with
    | .comma => .ok { m with state := .value (.inline start es .start :: stack) }
    | .closeBrace => m.deliver (.table (Span.ofRange start t.stop) .inline es) stack
    | _ => .error .unexpected

/-- Passes over a comment or a line end inside a value.  None may stand in a line or after the dot
of a key, and the part of a key before it is the last one. -/
def passLine : List Frame → Except SyntaxError (List Frame)
  | .inline start es (.key parts) :: stack =>
    if parts.wanted then .error .unexpected
    else .ok (.inline start es (.key { parts with closed := true }) :: stack)
  | .line _ _ :: _ | [] => .error .unexpected
  | stack => .ok stack

/-- Reads a token inside a value. -/
def Machine.readInside (m : Machine) (t : Token) (stack : List Frame) :
    Except SyntaxError Machine :=
  match t.kind with
  | .blank => .ok m
  | .comment | .newline => do
    checkTrivia t
    let stack ← passLine stack
    .ok { m with state := .value stack }
  | _ =>
    match stack with
    | .array start items done :: stack => m.readArray t start items done stack
    | .inline start es state :: stack => m.readInline t start es stack state
    | stack => m.readValue t stack

/-- Opens the table of a header. -/
def Machine.open (m : Machine) (item : Bool) (span : Span) (path : List Key) (key : Key) :
    Except SyntaxError Machine := do
  let root ← if item then m.root.addItem path key span else m.root.addTable path key span
  .ok { root := root, current := path ++ [key], state := .lineEnd }

/-- Reads a token of the key of a header. -/
def Machine.readHeader (m : Machine) (t : Token) (start : Nat) (item : Bool)
    (parts : KeyParts) : Except SyntaxError Machine :=
  if t.kind = .closeBracket then do
    let (path, key) ← parts.split
    if item then .ok { m with state := .headerEnd start path key }
    else m.open false (Span.ofRange start t.stop) path key
  else do
    let parts ← parts.read t
    .ok { m with state := .header start item parts }

/-- Reads a token at any place but inside a scalar without quotes. -/
def Machine.read (m : Machine) (t : Token) : Except SyntaxError Machine :=
  match m.state with
  | .lineStart =>
    match t.kind with
    | .blank => .ok m
    | .comment | .newline => do
      checkTrivia t
      .ok m
    | .openBracket => .ok { m with state := .headerStart t.start }
    | _ => do
      let parts ← KeyParts.read {} t
      .ok { m with state := .key parts }
  | .lineEnd =>
    match t.kind with
    | .blank => .ok m
    | .comment => do
      checkTrivia t
      .ok m
    | .newline => do
      checkTrivia t
      .ok { m with state := .lineStart }
    | _ => .error .unexpected
  | .headerStart start =>
    if t.kind = .openBracket then .ok { m with state := .header start true {} }
    else m.readHeader t start false {}
  | .header start item parts => m.readHeader t start item parts
  | .headerEnd start path key =>
    if t.kind = .closeBracket then m.open true (Span.ofRange start t.stop) path key
    else .error .unexpected
  | .key parts =>
    if t.kind = .equals then do
      let (path, key) ← parts.split
      .ok { m with state := .value [.line path key] }
    else do
      let parts ← parts.read t
      .ok { m with state := .key parts }
  | .value stack => m.readInside t stack
  | .scalar _ _ _ _ _ => .error .unexpected

/-- Completes a scalar without quotes. -/
def Machine.endScalar (m : Machine) (stack : List Frame) (start stop : Nat) (read : List Char) :
    Except SyntaxError Machine :=
  match readScalar? read with
  | some value => m.deliver (.scalar (Span.ofRange start stop) value) stack
  | none => .error .badScalar

/-- Whether a time may follow after a space: the characters have the form of a date. -/
def mayPrecedeTime (read : List Char) : Bool :=
  takeDate? read == some []

/-- Reads a token.  A scalar without quotes goes on over atoms and dots; a date goes on over one
space if a digit follows it. -/
def Machine.step (m : Machine) (t : Token) : Except SyntaxError Machine :=
  match m.state with
  | .scalar stack start stop read false =>
    if t.kind = .atom || t.kind = .dot then
      .ok { m with state := .scalar stack start t.stop (read ++ t.lexeme) false }
    else if t.lexeme == [' '] && mayPrecedeTime read then
      .ok { m with state := .scalar stack start stop read true }
    else do
      let m ← m.endScalar stack start stop read
      m.read t
  | .scalar stack start stop read true =>
    if t.kind = .atom && (t.lexeme.headD ' ').isDigit then
      .ok { m with state := .scalar stack start t.stop (read ++ ' ' :: t.lexeme) false }
    else do
      let m ← m.endScalar stack start stop read
      m.read t
  | _ => m.read t

/-- Ends the text. -/
def Machine.finish (m : Machine) : Except SyntaxError Entries := do
  let m ← match m.state with
    | .scalar stack start stop read _ => m.endScalar stack start stop read
    | _ => pure m
  match m.state with
  | .lineStart | .lineEnd => .ok m.root
  | _ => .error .unfinished

/-- The table that a text stands for. -/
def parse (source : String) : Except SyntaxError Node := do
  let m ← (tokens source).foldlM Machine.step {}
  let entries ← m.finish
  .ok (.table (Span.ofRange 0 source.utf8ByteSize) .defined entries)

end NetDiagram.Toml
