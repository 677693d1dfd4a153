/-!
# Options of the command

The command takes the path of a document and some options.  An option has a long name after two
dashes, and most have a letter after one dash.  The value of an option is the next word, or stands
after an equals sign, or directly after the letter.  After a word of two dashes alone, all words
are paths.
-/

namespace NetDiagram.Command

/-- What the command is asked to do. -/
structure Options where
  /-- The path of the document. -/
  input : String
  /-- The directory for the module. -/
  output : String := "."
  name : Option String := none
  author : Option String := none
  comment : Option String := none
  /-- The path of a settings file. -/
  config : Option String := none
  /-- How much is logged. -/
  logLevel : String := "info"
deriving DecidableEq, Repr

/-- The options that take a value. -/
inductive Flag where
  | output
  | name
  | author
  | comment
  | config
  | logLevel
deriving DecidableEq, Repr

/-- What an option's name asks for. -/
inductive Switch where
  /-- A value. -/
  | value (flag : Flag)
  /-- The help text. -/
  | help
  /-- The version. -/
  | version
deriving DecidableEq, Repr

/-- The long names. -/
def longNames : List (String × Switch) :=
  [("output", .value .output), ("name", .value .name), ("author", .value .author),
    ("comment", .value .comment), ("config", .value .config), ("log-level", .value .logLevel),
    ("help", .help), ("version", .version)]

/-- The letters. -/
def letters : List (Char × Switch) :=
  [('o', .value .output), ('n', .value .name), ('a', .value .author), ('m', .value .comment),
    ('c', .value .config), ('h', .help), ('V', .version)]

/-- Why the words of a command line give no options. -/
inductive Refusal where
  | missingInput
  /-- No option has this name, or there is a path too many. -/
  | unknown (word : String)
  | missingValue (flag : Flag)
  /-- The option was given before. -/
  | repeated (flag : Flag)
  /-- A value is given to an option that takes none. -/
  | needlessValue (word : String)
  /-- The help text is asked for. -/
  | help
  /-- The version is asked for. -/
  | version
deriving DecidableEq, Repr

/-- What the words so far have given. -/
structure Progress where
  /-- The options that are settled. -/
  settled : List (Flag × String) := []
  /-- The last option, whose value may still follow. -/
  pending : Option (Flag × Option String) := none
  input : Option String := none
  /-- Whether all further words are paths. -/
  pathsOnly : Bool := false

namespace Progress

/-- Settles an option, which must not have been given before. -/
def put (p : Progress) (flag : Flag) (value : String) : Except Refusal Progress :=
  if (p.settled.lookup flag).isSome then .error (.repeated flag)
  else .ok { p with settled := p.settled ++ [(flag, value)] }

/-- Settles the last option. -/
def settle (p : Progress) : Except Refusal Progress :=
  match p.pending with
  | none => .ok p
  | some (flag, none) => .error (.missingValue flag)
  | some (flag, some value) => { p with pending := none }.put flag value

/-- Takes a path. -/
def takePath (p : Progress) (word : String) : Except Refusal Progress := do
  match p.input with
  | some _ => .error (.unknown word)
  | none =>
    let p ← p.settle
    return { p with input := some word }

/-- Takes the name of an option, with the value that is attached to it. -/
def takeSwitch (p : Progress) (switch : Switch) (value : Option String) :
    Except Refusal Progress := do
  let p ← p.settle
  match switch, value with
  | .help, _ => .error .help
  | .version, _ => .error .version
  | .value flag, none => return { p with pending := some (flag, none) }
  | .value flag, some value => p.put flag value

/-- Takes a word after two dashes. -/
def takeLong (p : Progress) (word : String) (body : List Char) : Except Refusal Progress :=
  let name := String.ofList (body.takeWhile (· != '='))
  let value := match body.dropWhile (· != '=') with
    | [] => none
    | _ :: value => some (String.ofList value)
  match longNames.lookup name, value with
  | none, _ => .error (.unknown word)
  | some (.value flag), value => p.takeSwitch (.value flag) value
  | some switch, none => p.takeSwitch switch none
  | some _, some _ => .error (.needlessValue word)

/-- Takes a word after one dash: a letter and what follows it. -/
def takeShort (p : Progress) (word : String) (letter : Char) (rest : List Char) :
    Except Refusal Progress :=
  match letters.lookup letter, rest with
  | none, _ => .error (.unknown word)
  | some switch, [] => p.takeSwitch switch none
  | some switch, '=' :: value => p.takeSwitch switch (some (String.ofList value))
  | some switch, value => p.takeSwitch switch (some (String.ofList value))

/-- Takes a word that is no option: the value of the last option, or a path. -/
def takePlain (p : Progress) (word : String) : Except Refusal Progress :=
  match p.pending with
  | some (flag, none) => .ok { p with pending := some (flag, some word) }
  | _ => p.takePath word

/-- Takes a word. -/
def take (p : Progress) (word : String) : Except Refusal Progress :=
  if p.pathsOnly then p.takePath word
  else
    match word.toList with
    | ['-', '-'] => .ok { p with pathsOnly := true }
    | '-' :: '-' :: body => p.takeLong word body
    | '-' :: letter :: rest => p.takeShort word letter rest
    | _ => p.takePlain word

/-- Takes words one after the other. -/
def takeAll (p : Progress) : List String → Except Refusal Progress
  | [] => .ok p
  | word :: words => do
    let p ← p.take word
    p.takeAll words

/-- The options, when there are no more words. -/
def finish (p : Progress) : Except Refusal Options := do
  let p ← p.settle
  match p.input with
  | none => .error .missingInput
  | some input =>
    let get := fun flag => p.settled.lookup flag
    return {
      input := input
      output := (get .output).getD "."
      name := get .name
      author := get .author
      comment := get .comment
      config := get .config
      logLevel := (get .logLevel).getD "info" }

end Progress

/-- The options that the words of a command line give. -/
def Options.parse (words : List String) : Except Refusal Options := do
  let p ← ({} : Progress).takeAll words
  p.finish

end NetDiagram.Command
